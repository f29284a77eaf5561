import Fanout.Proofs.Bus.Delivery
import Fanout.Proofs.Cluster.Contents
import Fanout.Proofs.Cluster.Understanding

/-!
# Following a feed

A client that follows a feed is greeted, and after that its stream gets only what is published on
the feed's topic to the client's key, in the order in which it is published. This holds in every run
in which nodes publish on each topic only updates of its kind, whatever else they do; and in such a
run nobody is called with a batch that they cannot read (`greeted_first`).
-/

namespace Fanout.Cluster

namespace Step

/-- Whether what a step publishes are updates of the kind that their topic carries. A payload that
is handed to a notifier directly may be anything. -/
def typed : Step → Bool
  | publish _ topic update _ => update.kind == topic.kind
  | notifyPayload .. => false
  | _ => true

def source? : Step → Option Nat
  | publish node _ _ _ | announce node _ _ => some node
  | _ => none

def effects : Step → List Effect
  | publish _ topic update keys => [.publish topic update keys]
  | announce _ directory change => change.effects directory
  | _ => []

def takes (id : Nat) : Step → Bool
  | next i => i == id
  | _ => false

theorem fits_of_typed {step : Step} (typed : step.typed = true) :
    ∀ effect ∈ step.effects, effect.fits = true := by
  cases step with
  | publish node topic update keys => exact List.forall_mem_singleton.2 typed
  | announce node directory change => exact change.effects_fit directory
  | _ => exact fun _ none_ => nomatch none_

theorem publishes_first (step : Step) :
    step.effects.Pairwise fun earlier later =>
      later.publishes = true → earlier.publishes = true := by
  cases step with
  | publish => exact List.pairwise_singleton _ _
  | announce node directory change => exact change.publishes_first directory
  | _ => exact List.Pairwise.nil

end Step

variable {cluster : Cluster} {step : Step}

/-- What a step takes from a stream. -/
def items (cluster : Cluster) (id : Nat) (step : Step) : List Update :=
  if step.takes id then (cluster.step step).1.items else []

/-- What a run takes from a stream, in order. -/
def yielded (cluster : Cluster) (id : Nat) : List Step → List Update
  | [] => []
  | step :: steps => cluster.items id step ++ (cluster.step step).2.2.yielded id steps

/-- The feeds that a step publishes with; a node that does not exist has none. -/
def publisher? (cluster : Cluster) (step : Step) : Option Feeds :=
  step.source?.bind fun node => cluster.nodes[node]?

/-- What a step tells a key on a topic. -/
def told (cluster : Cluster) (topic : Topic) (key : Key) (step : Step) : List Update :=
  match cluster.publisher? step with
  | some _ => step.effects.flatMap (Effect.told topic key)
  | none => []

/-- What a run tells a key on a topic, in order. -/
def allTold (cluster : Cluster) (topic : Topic) (key : Key) : List Step → List Update
  | [] => []
  | step :: steps => cluster.told topic key step ++ (cluster.step step).2.2.allTold topic key steps

theorem mem_of_publisher? {feeds : Feeds} (publishes : cluster.publisher? step = some feeds) :
    feeds ∈ cluster.nodes := by
  obtain ⟨node, -, at_⟩ := Option.bind_eq_some_iff.1 publishes
  exact List.mem_of_getElem? at_

theorem world_step_of_source? {node : Nat} (source : step.source? = some node) :
    (cluster.step step).2.2.world =
      match cluster.publisher? step with
      | some feeds => (cluster.world.bringAboutAll feeds step.effects).2.2
      | none => cluster.world := by
  cases step with
  | publish at_ topic update keys =>
    simp only [Cluster.step, atNode, publisher?, Step.source?, Option.bind_some]
    cases cluster.nodes[at_]? <;> rfl
  | announce at_ directory change =>
    simp only [Cluster.step, atNode, publisher?, Step.source?, Option.bind_some]
    cases cluster.nodes[at_]? <;> rfl
  | _ => cases source

/-- What a run tells somebody is told by one of its steps. -/
theorem exists_of_mem_allTold {topic : Topic} {key : Key} {steps : List Step} {update : Update}
    (member : update ∈ cluster.allTold topic key steps) :
    ∃ step ∈ steps, update ∈ step.effects.flatMap (Effect.told topic key) := by
  induction steps generalizing cluster with
  | nil => cases member
  | cons step steps ih =>
    rcases List.mem_append.1 member with now | later
    · unfold told at now
      split at now
      · exact ⟨step, List.mem_cons_self .., now⟩
      · cases now
    · obtain ⟨step, among, told⟩ := ih later
      exact ⟨step, List.mem_cons_of_mem _ among, told⟩

end Fanout.Cluster

namespace Fanout.World

/-- The account of a stream that a client follows a feed with: what was put into it, and what of
that was taken from it. It is about a number that no other stream gets. -/
structure Follows (world : World Update) (id n : Nat) (wish : Follow) (sent taken : List Update) :
    Prop where
  old : id < world.nextId
  post : ∃ p, world.posts[n]? = some (p, wish.topic)
  order : taken <+: sent
  exact : ∀ sub ∈ world.subscriptions, sub.id = id →
    sub.notifier = n ∧ sub.key = wish.key ∧ taken ++ sub.buffer = sent

variable {world later : World Update} {id n : Nat} {wish : Follow} {sent taken : List Update}

theorem Follows.of_contents (follows : world.Follows id n wish sent taken)
    (same : later.contents = world.contents) (more : world.posts <+: later.posts) :
    later.Follows id n wish sent taken := by
  obtain ⟨nextId, streams⟩ := Prod.mk.inj same
  obtain ⟨p, at_⟩ := follows.post
  refine ⟨nextId ▸ follows.old, ⟨p, getElem?_posts at_ more⟩, follows.order, ?_⟩
  intro sub member own
  have listed : sub.content ∈ world.subscriptions.map Subscription.content :=
    streams ▸ List.mem_map_of_mem member
  obtain ⟨before, among, eq⟩ := List.mem_map.1 listed
  simp only [Subscription.content, Prod.mk.injEq] at eq
  obtain ⟨id_, notifier, key, buffer⟩ := eq
  obtain ⟨sameNotifier, sameKey, exact_⟩ := follows.exact before among (id_.trans own)
  exact ⟨notifier ▸ sameNotifier, key ▸ sameKey, buffer ▸ exact_⟩

theorem Follows.of_subset (follows : world.Follows id n wish sent taken)
    (nextId : world.nextId ≤ later.nextId) (more : world.posts <+: later.posts)
    (fewer : ∀ sub ∈ later.subscriptions, sub.id = id → sub ∈ world.subscriptions) :
    later.Follows id n wish sent taken := by
  obtain ⟨p, at_⟩ := follows.post
  exact ⟨Nat.lt_of_lt_of_le follows.old nextId, ⟨p, getElem?_posts at_ more⟩, follows.order,
    fun sub member own => follows.exact sub (fewer sub member own) own⟩

/-- Nothing is added to a stream, whatever its key might be told. -/
theorem Follows.silent (follows : world.Follows id n wish sent taken) (told : List Update) :
    ∃ received : List Update, received.Sublist told ∧
      world.Follows id n wish (sent ++ received) taken :=
  ⟨[], List.nil_sublist told, by rwa [List.append_nil]⟩

/-- Effects add to a stream at most what they tell its key on its topic. -/
theorem Follows.bringAboutAll (follows : world.Follows id n wish sent taken)
    (h : world.WellFormed) {feeds : Feeds} (made : world.Made feeds) {effects : List Effect}
    (fits : ∀ effect ∈ effects, effect.fits = true)
    (ordered : effects.Pairwise fun earlier later =>
      later.publishes = true → earlier.publishes = true) :
    ∃ received : List Update,
      received.Sublist (effects.flatMap (Effect.told wish.topic wish.key)) ∧
        (world.bringAboutAll feeds effects).2.2.Follows id n wish (sent ++ received) taken := by
  obtain ⟨p, at_⟩ := follows.post
  have stays := getElem?_posts at_ (posts_reaches h (reaches_bringAboutAll world feeds effects))
  obtain ⟨buses, eq⟩ := bringAboutAll_snd h feeds ordered
  have told := made.flatMap_brings_sublist h.home fits (fun _ => topic_of_post at_) wish.key
  have older : id < (world.bringAboutAll feeds effects).2.2.nextId := by
    rw [eq]
    exact follows.old
  -- The one subscription with the number tells what is added; after its stream is dropped, nothing.
  by_cases there : ∃ sub ∈ world.subscriptions, sub.id = id
  · obtain ⟨sub, member, own⟩ := there
    obtain ⟨rfl, key, exact_⟩ := follows.exact sub member own
    refine ⟨if sub.live then effects.flatMap (world.brings feeds sub.notifier wish.key) else [],
      ?_, older, ⟨p, stays⟩, follows.order.trans (List.prefix_append ..), ?_⟩
    · split
      · exact told
      · exact List.nil_sublist _
    · intro after later same
      rw [eq] at later
      obtain ⟨before, among, rfl⟩ := List.mem_map.1 later
      obtain rfl := h.eq_of_id among member (same.trans own.symm)
      refine ⟨rfl, key, ?_⟩
      rw [affected, key, ← List.append_assoc, exact_]
  · refine ⟨[], List.nil_sublist _, older, ⟨p, stays⟩, ?_, ?_⟩
    · rw [List.append_nil]
      exact follows.order
    · intro after later same
      rw [eq] at later
      obtain ⟨before, among, rfl⟩ := List.mem_map.1 later
      exact absurd ⟨before, among, same⟩ there

/-- A stream that does not exist has nothing to take. -/
theorem items_of_absent (absent : ∀ sub ∈ world.subscriptions, sub.id ≠ id) :
    (world.step Update.forms (.next id)).1.items = [] := by
  have unknown : world.subscriptions.get? id = none := by
    rw [Subscriptions.get?, List.find?_eq_none]
    exact fun sub member same => absent sub member (beq_iff_eq.1 same)
  simp only [World.step, World.next, unknown]
  rfl

/-- What is taken from a stream is the next of what was put into it. -/
theorem Follows.next (follows : world.Follows id n wish sent taken) (h : world.WellFormed)
    (i : Nat) :
    (world.step Update.forms (.next i)).2.2.Follows id n wish sent
      (taken ++ if i == id then (world.step Update.forms (.next i)).1.items else []) := by
  have moved : ∀ sub ∈ world.subscriptions, sub.id = id →
      taken ++ (if i == id then (world.step Update.forms (.next i)).1.items else []) ++
        (if i == id then sub.buffer.tail else sub.buffer) = sent := by
    intro sub member own
    have split_ := items_append Update.forms h (.next i) member
    simp only [Step.takes, own] at split_
    rw [List.append_assoc, split_]
    exact (follows.exact sub member own).2.2
  obtain ⟨p, at_⟩ := follows.post
  refine ⟨?_, ⟨p, getElem?_posts at_ (posts_step h _)⟩, ?_, ?_⟩
  · rw [step_nextId h]
    exact follows.old
  · by_cases there : ∃ sub ∈ world.subscriptions, sub.id = id
    · obtain ⟨sub, member, own⟩ := there
      exact ⟨_, moved sub member own⟩
    · split
      next same =>
        obtain rfl := beq_iff_eq.1 same
        rw [items_of_absent fun sub member own => there ⟨sub, member, own⟩, List.append_nil]
        exact follows.order
      next =>
        rw [List.append_nil]
        exact follows.order
  · intro after later same
    rcases (mem_step h).1 later with ⟨sub, member, -, rfl⟩ | new
    · obtain ⟨notifier, key, -⟩ := follows.exact sub member same
      refine ⟨notifier, key, ?_⟩
      rw [← moved sub member same]
      simp [changed, addressed, Step.takes, show sub.id = id from same]
    · cases new

/-- A client that starts to follow a feed has been greeted. -/
theorem follows_follow (h : world.WellFormed) {feeds : Feeds} (made : world.Made feeds)
    (wish : Follow) :
    (world.follow feeds wish).2.Follows world.nextId (feeds.notifier wish.topic) wish
      [.greeting wish.topic.kind] [] := by
  have more := posts_reaches h (reaches_follow world feeds wish)
  have stands := getElem?_posts (made wish.topic) more
  rw [follow_eq h] at stands ⊢
  refine ⟨Nat.lt_succ_self _, ⟨_, stands⟩, List.nil_prefix, ?_⟩
  intro sub member own
  rcases List.mem_append.1 member with old | new
  · exact absurd own (Nat.ne_of_lt (h.fresh sub old))
  · obtain rfl := List.mem_singleton.1 new
    exact ⟨rfl, rfl, rfl⟩

end Fanout.World

namespace Fanout.Cluster

variable {cluster : Cluster} {step : Step} {id n : Nat} {wish : Follow} {sent taken : List Update}

/-- A step that publishes adds to a stream at most what it tells its key on its topic. -/
theorem follows_source? (follows : cluster.world.Follows id n wish sent taken)
    (h : cluster.world.WellFormed) (made : cluster.AllMade) (typed : step.typed = true)
    {node : Nat} (source : step.source? = some node) :
    ∃ received : List Update, received.Sublist (cluster.told wish.topic wish.key step) ∧
      (cluster.step step).2.2.world.Follows id n wish (sent ++ received) taken := by
  rw [world_step_of_source? source, told]
  cases publishes : cluster.publisher? step with
  | none => exact follows.silent []
  | some feeds =>
    exact follows.bringAboutAll h (made feeds (mem_of_publisher? publishes))
      (Step.fits_of_typed typed) step.publishes_first

theorem world_step_follow {node : Nat} {feeds : Feeds} (at_ : cluster.nodes[node]? = some feeds)
    (wish : Follow) :
    (cluster.step (.follow node wish)).2.2.world = (cluster.world.follow feeds wish).2 := by
  simp only [Cluster.step, atNode, at_]

/-- A stream stays as it is when another one is opened. -/
theorem follows_other (follows : cluster.world.Follows id n wish sent taken)
    (h : cluster.world.WellFormed) (node : Nat) (other : Follow) :
    (cluster.step (.follow node other)).2.2.world.Follows id n wish sent taken := by
  have more := World.posts_reaches h (cluster.reaches_step (.follow node other))
  cases at_ : cluster.nodes[node]? with
  | none =>
    have same : (cluster.step (.follow node other)).2.2.world = cluster.world := by
      simp only [Cluster.step, atNode, at_]
    rwa [same]
  | some feeds =>
    rw [world_step_follow at_] at more ⊢
    rw [World.follow_eq h] at more ⊢
    refine follows.of_subset (Nat.le_succ _) more fun sub member own => ?_
    rcases List.mem_append.1 member with old | new
    · exact old
    · obtain rfl := List.mem_singleton.1 new
      exact absurd own (Nat.ne_of_gt follows.old)

/-- A step adds to a stream at most what it tells its key on its topic, and takes from it the next
of what was put into it. -/
theorem follows_step (follows : cluster.world.Follows id n wish sent taken)
    (h : cluster.world.WellFormed) (made : cluster.AllMade) (typed : step.typed = true) :
    ∃ received : List Update, received.Sublist (cluster.told wish.topic wish.key step) ∧
      (cluster.step step).2.2.world.Follows id n wish (sent ++ received)
        (taken ++ cluster.items id step) := by
  have more := World.posts_reaches h (cluster.reaches_step step)
  -- All steps but one take nothing from streams.
  have untaken : cluster.items id step = [] →
      (∃ received : List Update, received.Sublist (cluster.told wish.topic wish.key step) ∧
        (cluster.step step).2.2.world.Follows id n wish (sent ++ received) taken) →
      ∃ received : List Update, received.Sublist (cluster.told wish.topic wish.key step) ∧
        (cluster.step step).2.2.world.Follows id n wish (sent ++ received)
          (taken ++ cluster.items id step) := by
    intro nothing added
    rwa [nothing, List.append_nil]
  cases step with
  | notifyPayload => cases typed
  | next i => exact (follows.next h i).silent _
  | publish | announce => exact untaken rfl (follows_source? follows h made typed rfl)
  | follow node other => exact untaken rfl ((follows_other follows h node other).silent _)
  | dropStream i =>
    have dropped : (cluster.world.dropStream i).Follows id n wish sent taken :=
      follows.of_subset (Nat.le_refl _) more fun sub member _ => (List.mem_filter.1 member).1
    exact untaken rfl (dropped.silent _)
  | _ => exact untaken rfl ((follows.of_contents (cluster.contents_step rfl) more).silent _)

theorem follows_run (follows : cluster.world.Follows id n wish sent taken)
    (h : cluster.world.WellFormed) (made : cluster.AllMade) {steps : List Step}
    (typed : ∀ step ∈ steps, step.typed = true) :
    ∃ received : List Update,
      received.Sublist (cluster.allTold wish.topic wish.key steps) ∧
        (cluster.run steps).world.Follows id n wish (sent ++ received)
          (taken ++ cluster.yielded id steps) := by
  induction steps generalizing cluster sent taken with
  | nil => exact ⟨[], List.nil_sublist _, by simpa [yielded] using follows⟩
  | cons step steps ih =>
    obtain ⟨first, rest⟩ := List.forall_mem_cons.1 typed
    obtain ⟨now, among, next⟩ := follows_step follows h made first
    obtain ⟨then_, amongRest, last⟩ :=
      ih next (h.reaches (cluster.reaches_step step)) (made.after h (.step step)) rest
    refine ⟨now ++ then_, among.append amongRest, ?_⟩
    rw [yielded, ← List.append_assoc, ← List.append_assoc]
    exact last

/-- A stream exists until it is dropped. -/
theorem mem_ids_step (h : cluster.world.WellFormed) (typed : step.typed = true)
    (kept : step ≠ .dropStream id) (there : id ∈ cluster.world.ids) :
    id ∈ (cluster.step step).2.2.world.ids := by
  have quiet : step.quiet = true → id ∈ (cluster.step step).2.2.world.ids := by
    intro quiet
    rwa [World.ids_of_contents (cluster.contents_step quiet)]
  have loud : ∀ node, step.source? = some node → id ∈ (cluster.step step).2.2.world.ids := by
    intro node source
    rw [world_step_of_source? source]
    cases cluster.publisher? step with
    | none => exact there
    | some feeds =>
      obtain ⟨buses, eq⟩ := World.bringAboutAll_snd h feeds step.publishes_first
      dsimp only
      rw [eq, World.ids, List.map_map]
      exact there
  cases step with
  | notifyPayload => cases typed
  | publish node | announce node => exact loud node rfl
  | follow node wish =>
    cases at_ : cluster.nodes[node]? with
    | none => simpa only [Cluster.step, atNode, at_] using there
    | some feeds =>
      rw [world_step_follow at_, World.follow_eq h, World.ids, List.map_append]
      exact List.mem_append_left _ there
  | next i =>
    show id ∈ (cluster.world.next i).2.ids
    rw [World.ids, World.next_subscriptions, List.map_map]
    exact there
  | dropStream i =>
    obtain ⟨sub, member, own⟩ := List.mem_map.1 there
    have other : sub.id ≠ i := fun same => kept (by rw [← same, own])
    exact List.mem_map.2 ⟨sub, List.mem_filter.2 ⟨member, decide_eq_true other⟩, own⟩
  | _ => exact quiet rfl

theorem mem_ids_run (h : cluster.world.WellFormed) {steps : List Step}
    (typed : ∀ step ∈ steps, step.typed = true) (kept : .dropStream id ∉ steps)
    (there : id ∈ cluster.world.ids) : id ∈ (cluster.run steps).world.ids := by
  induction steps generalizing cluster with
  | nil => exact there
  | cons step steps ih =>
    obtain ⟨first, rest⟩ := List.forall_mem_cons.1 typed
    obtain ⟨now, later⟩ := not_or.1 (List.mem_cons.not.1 kept)
    exact ih (h.reaches (cluster.reaches_step step)) rest later
      (mem_ids_step h first (Ne.symm now) there)

end Fanout.Cluster

namespace Fanout

/-- What is announced is never a greeting. -/
theorem Change.ne_greeting_of_news {change : Change} {kind : UpdateKind} {update : Update}
    (told : change.news kind = some update) (other : UpdateKind) : update ≠ .greeting other := by
  rintro rfl
  cases change <;> cases kind <;> cases other <;> cases told

namespace Cluster

variable {cluster : Cluster} {step : Step}

/-- The notifiers that drop what a step publishes because they cannot read it. -/
def refusals (cluster : Cluster) (step : Step) : List Nat :=
  match cluster.publisher? step with
  | some feeds => cluster.world.refusals feeds step.effects
  | none => []

/-- The notifiers that drop what a run publishes because they cannot read it. -/
def allRefusals (cluster : Cluster) : List Step → List Nat
  | [] => []
  | step :: steps => cluster.refusals step ++ (cluster.step step).2.2.allRefusals steps

theorem allRefusals_eq_nil (h : cluster.world.WellFormed) (made : cluster.AllMade)
    {steps : List Step} (typed : ∀ step ∈ steps, step.typed = true) :
    cluster.allRefusals steps = [] := by
  induction steps generalizing cluster with
  | nil => rfl
  | cons step steps ih =>
    obtain ⟨first, rest⟩ := List.forall_mem_cons.1 typed
    rw [allRefusals, ih (h.reaches (cluster.reaches_step step)) (made.after h (.step step)) rest,
      List.append_nil, refusals]
    split
    next feeds publishes =>
      exact World.refusals_eq_nil h (made feeds (mem_of_publisher? publishes))
        (Step.fits_of_typed first)
    next => rfl

/-- Who is told a greeting was sent it by somebody. -/
theorem publishes_of_greeting {topic : Topic} {key : Key} {kind : UpdateKind} {steps : List Step}
    (greeted : Update.greeting kind ∈ cluster.allTold topic key steps) :
    ∃ node keys, .publish node topic (.greeting kind) keys ∈ steps ∧ key ∈ keys := by
  obtain ⟨step, member, told⟩ := exists_of_mem_allTold greeted
  cases step with
  | publish node onTopic update keys =>
    simp only [Step.effects, List.flatMap_cons, List.flatMap_nil, List.append_nil,
      Effect.told] at told
    split at told
    next same =>
      obtain ⟨counted, rfl⟩ := List.mem_replicate.1 told
      exact ⟨node, keys, same ▸ member, List.count_pos_iff.1 (Nat.pos_of_ne_zero counted)⟩
    next => cases told
  | announce node directory change =>
    have announced : Update.greeting kind ∈ change.told directory topic key :=
      Change.told_effects directory change topic key ▸ told
    unfold Change.told at announced
    split at announced
    next update news =>
      exact absurd (List.eq_of_mem_replicate announced).symm (Change.ne_greeting_of_news news kind)
    next => cases announced
  | _ => cases told

/-- In every run in which nodes publish on each topic only updates of its kind, nobody drops a batch
because it cannot be read. A client that starts to follow a feed on the way gets a stream, into
which comes the greeting and then only what is published on the feed's topic to the client's key, in
its order; a further greeting is among it only if somebody publishes one to that key. What the
stream yields is the beginning of that, and as long as the stream exists, all but what it still
holds; the first update that it yields is the greeting. -/
theorem greeted_first (steps : List Step) (typed : ∀ step ∈ steps, step.typed = true) :
    allRefusals {} steps = [] ∧
      ∀ before node wish after, steps = before ++ .follow node wish :: after →
        ∀ feeds, (run {} before).nodes[node]? = some feeds →
          let opened := (run {} before).step (.follow node wish)
          let greeting := Update.greeting wish.topic.kind
          ∃ (id : Nat) (later : List Update),
            opened.1 = .number id ∧
              later.Sublist (opened.2.2.allTold wish.topic wish.key after) ∧
              (greeting ∈ later →
                ∃ other keys, .publish other wish.topic greeting keys ∈ after ∧ wish.key ∈ keys) ∧
              opened.2.2.yielded id after <+: greeting :: later ∧
              (.dropStream id ∉ after → ∃ sub ∈ (run {} steps).world.subscriptions, sub.id = id) ∧
              ∀ sub ∈ (run {} steps).world.subscriptions, sub.id = id →
                opened.2.2.yielded id after ++ sub.buffer = greeting :: later ∧
                  (opened.2.2.yielded id after = [] →
                    ((run {} steps).world.next id).1 = .item greeting) := by
  refine ⟨allRefusals_eq_nil World.wellFormed_empty (allMade_run []) typed, ?_⟩
  rintro before node wish after rfl feeds at_ opened greeting
  have h := (reachable_run before).wellFormed
  have made : (run {} before).AllMade := allMade_run before
  have typedAfter : ∀ step ∈ after, step.typed = true :=
    fun step member => typed step (List.mem_append_right _ (List.mem_cons_of_mem _ member))
  have start : opened.2.2.world.Follows (run {} before).world.nextId (feeds.notifier wish.topic)
      wish [greeting] [] := by
    rw [world_step_follow at_]
    exact World.follows_follow h (made feeds (List.mem_of_getElem? at_)) wish
  have afterwards : opened.2.2.world.WellFormed := h.reaches ((run {} before).reaches_step _)
  obtain ⟨later, among, last⟩ :=
    follows_run start afterwards (made.after h (.step _)) typedAfter
  have final : run {} (before ++ .follow node wish :: after) = opened.2.2.run after :=
    run_append {} before _
  have there : (run {} before).world.nextId ∈ opened.2.2.world.ids := by
    rw [world_step_follow at_, World.follow_eq h, World.ids, List.map_append]
    exact List.mem_append_right _ (List.mem_singleton_self _)
  refine ⟨(run {} before).world.nextId, later, ?_, among, ?_, last.order, ?_, ?_⟩
  · simp only [opened, step, atNode, at_, World.follow_eq h]
  · exact fun again => publishes_of_greeting (among.subset again)
  · intro kept
    rw [final]
    exact List.mem_map.1 (mem_ids_run afterwards typedAfter kept there)
  · intro sub member own
    rw [final] at member ⊢
    have exact_ := (last.exact sub member own).2.2
    refine ⟨exact_, fun untouched => ?_⟩
    have buffer : sub.buffer = greeting :: later := by
      simpa [untouched] using exact_
    rw [← own, World.items_next (afterwards.reaches (reaches_run _ after)) member,
      Subscription.poll, buffer]

/-- At one of two nodes, a client follows their chats and takes the greeting; then a private chat of
theirs is deleted at the other. -/
def visit : List Step :=
  [.start, .start, .bootstrap 0, .bootstrap 1, .follow 1 (.chats 7), .next 1,
    .publish 0 .chats (.chat (.deletedPrivateChat 9)) [.user 8, .user 7]]

theorem greeted_first_visit :
    (∀ step ∈ visit, step.typed = true) ∧ allRefusals {} visit = [] ∧
      ∃ sub ∈ (run {} visit).world.subscriptions, ∃ later : List Update,
        sub.id = 1 ∧ later.Sublist [.chat (.deletedPrivateChat 9)] ∧
          .greeting .chat :: sub.buffer = .greeting .chat :: later := by
  have typed : ∀ step ∈ visit, step.typed = true := by decide
  have at_ : (run {} (visit.take 4)).nodes[1]? = some { process := 1, first := 10 } := by
    decide +kernel
  obtain ⟨read, streams⟩ := greeted_first visit typed
  obtain ⟨id, later, number, among, -, -, exists_, each⟩ :=
    streams (visit.take 4) 1 (.chats 7) (visit.drop 5) rfl _ at_
  have first : ((run {} (visit.take 4)).step (.follow 1 (.chats 7))).1 = .number 1 := by
    decide +kernel
  have taken : ((run {} (visit.take 4)).step (.follow 1 (.chats 7))).2.2.yielded 1
      (visit.drop 5) = [.greeting .chat] := by
    decide +kernel
  obtain rfl : 1 = id := Answer.number.inj (first.symm.trans number)
  obtain ⟨sub, member, own⟩ := exists_ (by simp [visit])
  have exact_ := (each sub member own).1
  rw [taken] at exact_
  exact ⟨typed, read, sub, member, later, own, among, exact_⟩

end Cluster

end Fanout
