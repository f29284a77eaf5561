import Fanout.Proofs.Cluster.Offers

/-!
# Batches are understood by those who are called with them

Who listens to a topic reads batches in the form of that topic. Feeds write on each topic in its
form too, so none of those who are called with what feeds hand to their broker has to drop it as
something that cannot be read (`refusals_eq_nil`).
-/

namespace Fanout.World

variable {world : World Update} {feeds : Feeds}

/-- Whether a notifier drops a payload because it cannot read it. -/
def refuses (world : World Update) (n : Nat) (payload : Bytes) : Bool :=
  match world.notifier? n with
  | some notifier => ((Notice.batch (Update.forms notifier.topic)).decode? payload).isNone
  | none => false

/-- The notifiers that are called with an offered payload and drop it because they cannot read
it. -/
def refusing (world : World Update) (offer : Offer) : List Nat :=
  match world.processes[offer.process]? with
  | some process =>
    if process.connected then
      (world.targets process.bus offer.topic).filterMap fun target =>
        match target.2 with
        | .notifier n => if world.refuses n offer.payload then some n else none
        | .recorder _ => none
    else []
  | none => []

/-- The notifiers that drop what effects that are brought about in order hand to the broker. -/
def refusals (world : World Update) (feeds : Feeds) : List Effect → List Nat
  | [] => []
  | effect :: effects =>
    (world.offered feeds effect).flatMap world.refusing ++
      (world.bringAbout feeds effect).2.2.refusals feeds effects

theorem listener?_of_mem_targets {bus : Nat} {topic : Topic} {target : Nat × Listener}
    (member : target ∈ world.targets bus topic) :
    world.listener? target.1 topic = some target.2 := by
  rw [targets_eq] at member
  obtain ⟨p, -, called⟩ := List.mem_filterMap.1 member
  simp only [target?] at called
  split at called
  next process at_ =>
    split at called
    · obtain ⟨listener, listed, rfl⟩ := Option.map_eq_some_iff.1 called
      simp [listener?, at_, listed]
    · cases called
  next => cases called

/-- Whoever is called with what feeds hand to the broker can read it. -/
theorem refusing_eq_nil (home : world.ListensAtHome) (made : world.Made feeds) {effect : Effect}
    (fits : effect.fits = true) {offer : Offer} (offered : offer ∈ world.offered feeds effect) :
    world.refusing offer = [] := by
  cases effect with
  | revoke key => cases offered
  | publish topic update keys =>
    obtain ⟨rfl, read⟩ :=
      decode?_of_offer? made (beq_iff_eq.1 fits) (Option.mem_toList.1 offered)
    unfold refusing
    split
    · split
      · rw [List.filterMap_eq_nil_iff]
        intro target called
        split
        next n listener =>
          have listens := listener?_of_mem_targets called
          rw [listener] at listens
          obtain ⟨notifier, at_, -, own⟩ := home _ _ _ listens
          have reads : world.refuses n offer.payload = false := by
            unfold refuses
            split
            next other found =>
              rw [(notifier?_eq_some.1 found).1, Option.some.injEq] at at_
              rw [at_, own, read]
              rfl
            next => rfl
          rw [reads]
          rfl
        next => rfl
      · rfl
    · rfl

theorem refusals_eq_nil (h : world.WellFormed) (made : world.Made feeds) {effects : List Effect}
    (fits : ∀ effect ∈ effects, effect.fits = true) : world.refusals feeds effects = [] := by
  induction effects generalizing world with
  | nil => rfl
  | cons effect effects ih =>
    obtain ⟨first, rest⟩ := List.forall_mem_cons.1 fits
    have reached := reaches_bringAbout world feeds effect
    rw [refusals, ih (h.reaches reached) (made.of_posts (posts_reaches h reached)) rest,
      List.append_nil, List.flatMap_eq_nil_iff]
    exact fun offer offered => refusing_eq_nil h.home made first offered

end Fanout.World
