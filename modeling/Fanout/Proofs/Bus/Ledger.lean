import Fanout.Proofs.Bus.Dealings

/-!
# An account of subscriptions

A notifier lists a subscription from when it is opened until it is taken off the list, which happens
once: the notifier ends it, its consumer closes or drops the stream while it is listed, or it goes
down with the notifier. So the subscriptions that were opened at a notifier are those that it still
lists and those that were taken off (`opened_eq`).
-/

namespace Fanout

variable {α : Type}

namespace World

variable {forms : Forms α} {world : World α}

/-- How many of its subscriptions a notifier ends by a dealing. -/
def removed (n : Nat) (world : World α) : Dealing α → Nat
  | .step (.unsubscribe m condition) => if m = n then (world.unsubscribe m condition).1 else 0
  | .step (.shutdown m) => if m = n then (world.unsubscribe m fun _ _ => true).1 else 0
  | _ => 0

/-- How many subscriptions that a notifier lists are ended by a dealing of their consumers. -/
def left (n : Nat) (world : World α) : Dealing α → Nat
  | .step (.close id) | .step (.dropStream id) =>
    if world.subscriptions.any fun sub => sub.id == id && (sub.notifier == n && sub.live) then 1
    else 0
  | _ => 0

/-- How many subscriptions go down with a notifier. -/
def lost (n : Nat) (world : World α) : Dealing α → Nat
  | .step (.dropNotifier m) => if m = n then world.subscriptions.count m else 0
  | _ => 0

/-- What a list of dealings comes to, if it is known what each does in the world that it finds. -/
def total (forms : Forms α) (tally : World α → Dealing α → Nat) : World α → List (Dealing α) → Nat
  | _, [] => 0
  | world, dealing :: dealings =>
    tally world dealing + total forms tally (world.deal forms dealing) dealings

theorem total_eq_zero {tally : World α → Dealing α → Nat} {dealings : List (Dealing α)}
    (nothing : ∀ dealing ∈ dealings, ∀ world, tally world dealing = 0) :
    world.total forms tally dealings = 0 := by
  induction dealings generalizing world with
  | nil => rfl
  | cons dealing dealings ih =>
    obtain ⟨first, rest⟩ := List.forall_mem_cons.1 nothing
    rw [total, first world, ih rest]

/-- A step takes subscriptions off a list that it finds there, and puts there what it opens. -/
theorem count_step (h : world.WellFormed) (step : Step α) (n : Nat) :
    (world.step forms step).2.2.subscriptions.count n +
        world.subscriptions.countP (fun sub =>
          (sub.notifier == n && sub.live) && step.ends sub.id sub.notifier sub.key) =
      world.subscriptions.count n + (world.opened step).count n := by
  have kept : Subscriptions.count ((world.subscriptions.map (world.changed forms step)).filter
      fun sub => !step.drops sub.id) n =
        world.subscriptions.countP (fun sub =>
          (sub.notifier == n && sub.live) && !step.ends sub.id sub.notifier sub.key) := by
    rw [Subscriptions.count, List.countP_filter, List.countP_map]
    apply List.countP_congr
    intro sub _
    cases dropped : step.drops sub.id with
    | false => simp [changed, dropped, and_assoc]
    | true => simp [changed, dropped, Step.ends_of_drops dropped]
  have split := List.countP_eq_countP_filter_add world.subscriptions
    (fun sub => sub.notifier == n && sub.live)
    (fun sub => step.ends sub.id sub.notifier sub.key)
  simp only [List.countP_filter] at split
  have after : (world.step forms step).2.2.subscriptions.count n =
      Subscriptions.count ((world.subscriptions.map (world.changed forms step)).filter
        fun sub => !step.drops sub.id) n + (world.opened step).count n := by
    rw [step_subscriptions h, Subscriptions.count, List.countP_append]
    rfl
  have before : world.subscriptions.count n = _ := split
  omega

/-- What a notifier ends by a condition, counted on its own list. -/
theorem countP_own (world : World α) (condition : Key → Nat → Bool) (m n : Nat) :
    world.subscriptions.countP (fun sub =>
        (sub.notifier == n && sub.live) && (m == sub.notifier && condition sub.key sub.id)) =
      if m = n then (world.unsubscribe m condition).1 else 0 := by
  split
  next same =>
    subst same
    apply List.countP_congr
    intro sub _
    simp only [Subscriptions.matched, Bool.and_eq_true, beq_iff_eq]
    tauto
  next other =>
    rw [List.countP_eq_zero]
    intro sub _ both
    simp only [Bool.and_eq_true, beq_iff_eq] at both
    obtain ⟨⟨own, -⟩, again, -⟩ := both
    exact other (again.trans own)

theorem unsubscribe_all (world : World α) (n : Nat) :
    (world.unsubscribe n fun _ _ => true).1 = world.subscriptions.count n :=
  List.countP_congr fun sub _ => by simp [Subscriptions.matched]

/-- A consumer ends one subscription, if it is listed. -/
theorem WellFormed.countP_left (h : world.WellFormed) (id n : Nat) :
    world.subscriptions.countP (fun sub => (sub.notifier == n && sub.live) && id == sub.id) =
      world.left n (.step (.close id)) := by
  have swapped : (fun sub : Subscription α => (sub.notifier == n && sub.live) && id == sub.id) =
      fun sub => sub.id == id && (sub.notifier == n && sub.live) := by
    funext sub
    rw [Bool.and_comm, BEq.comm]
  rw [swapped, countP_number h.distinct id, left]

/-- How many subscriptions a step takes off the list of a notifier. -/
theorem countP_ends (h : world.WellFormed) (step : Step α) (n : Nat) :
    world.subscriptions.countP (fun sub =>
        (sub.notifier == n && sub.live) && step.ends sub.id sub.notifier sub.key) =
      world.removed n (.step step) + world.left n (.step step) + world.lost n (.step step) := by
  cases step with
  | unsubscribe m condition => exact world.countP_own condition m n
  | shutdown m =>
    have own := world.countP_own (fun _ _ => true) m n
    simp only [Bool.and_true] at own
    exact own
  | dropNotifier m =>
    have own := world.countP_own (fun _ _ => true) m n
    simp only [Bool.and_true, unsubscribe_all] at own
    exact own.trans (Nat.zero_add _).symm
  | close id | dropStream id => exact (h.countP_left id n).trans (Nat.zero_add _).symm
  | _ => simp [Step.ends, removed, left, lost]

/-- What a dealing does to the length of a notifier's list. -/
theorem count_deal (h : world.WellFormed) (forms : Forms α) (dealing : Dealing α) (n : Nat) :
    (world.deal forms dealing).subscriptions.count n + (world.removed n dealing +
        world.left n dealing + world.lost n dealing) =
      world.subscriptions.count n + if dealing.asked? = some n then 1 else 0 := by
  cases dealing with
  | notify m batch =>
    have same : (world.subscriptions.deliver m batch).count n = world.subscriptions.count n := by
      rw [Subscriptions.deliver_eq, Subscriptions.count, List.countP_map]
      rfl
    exact same
  | step taken =>
    have opened : (world.opened taken).count n =
        if (Dealing.step taken).asked? = some n then 1 else 0 := by
      cases taken <;> simp [World.opened, Subscriptions.count, Dealing.asked?, List.countP_cons]
    rw [← countP_ends h, ← opened]
    exact count_step h taken n

/-- The subscriptions that were opened at a notifier are those that it lists and those that were
taken off its list. -/
theorem opened_eq (h : world.WellFormed) (forms : Forms α) (dealings : List (Dealing α)) (n : Nat) :
    world.subscriptions.count n + dealings.countP (fun dealing => dealing.asked? = some n) =
      (world.dealAll forms dealings).subscriptions.count n +
        (world.total forms (removed n) dealings + world.total forms (left n) dealings +
          world.total forms (lost n) dealings) := by
  induction dealings generalizing world with
  | nil => simp [dealAll, total]
  | cons dealing dealings ih =>
    have step := count_deal h forms dealing n
    have rest := ih (h.deal forms dealing)
    rw [List.countP_cons]
    simp only [total, decide_eq_true_eq, dealAll, List.foldl_cons] at rest ⊢
    omega

end World

end Fanout
