import Fanout.Proofs.Bus.Publishing
import Fanout.Proofs.Cluster.Announcing
import Fanout.Proofs.Cluster.Events

/-!
# What is handed to the brokers

Publishing to keys hands one batch to the broker of the notifier's process, and publishing to nobody
hands over nothing (`publish_eq_broadcast`). What feeds hand over is read as the batch that they
wrote (`decode?_of_offer?`).
-/

namespace Fanout

def Effect.keys : Effect → List Key
  | publish _ _ keys => keys
  | revoke _ => []

/-- What a process hands to its broker. -/
structure Offer where
  process : Nat
  topic : Topic
  payload : Bytes
  deriving DecidableEq, Repr

namespace World

variable {α : Type} {forms : Forms α}

/-- What a notifier that publishes an update to keys hands to the broker of its process. -/
def offer? (forms : Forms α) (world : World α) (n : Nat) (update : α) (keys : List Key) :
    Option Offer :=
  match world.notifier? n with
  | some sender =>
    if keys.isEmpty then none
    else
      some {
        process := sender.process
        topic := sender.topic
        payload := (Notice.batch (forms sender.topic)).encode (Notice.toEach update keys) }
  | none => none

/-- Publishing is handing over the offer. -/
theorem publish_eq_broadcast (forms : Forms α) (world : World α) (n : Nat) (update : α)
    (keys : List Key) :
    world.publish forms n update keys =
      match world.offer? forms n update keys with
      | some offer => world.broadcast forms offer.process offer.topic offer.payload
      | none => ([], world) := by
  unfold publish offer?
  cases world.notifier? n with
  | none => rfl
  | some sender => cases keys <;> rfl

variable {world : World Update} {feeds : Feeds}

/-- What effects that are brought about in order hand to the broker. -/
def offers (world : World Update) (feeds : Feeds) : List Effect → List Offer
  | [] => []
  | effect :: effects =>
    (match effect with
      | .publish topic update keys =>
        (world.offer? Update.forms (feeds.notifier topic) update keys).toList
      | .revoke _ => []) ++
    (world.bringAbout feeds effect).2.2.offers feeds effects

/-- What an effect that is brought about in this world hands to the broker. -/
def offered (world : World Update) (feeds : Feeds) : Effect → List Offer
  | .publish topic update keys =>
    (world.offer? Update.forms (feeds.notifier topic) update keys).toList
  | .revoke _ => []

/-- What feeds hand to the broker is read as the batch that they wrote. -/
theorem decode?_of_offer? (made : world.Made feeds) {topic : Topic} {update : Update}
    (kind : update.kind = topic.kind) {keys : List Key} {offer : Offer}
    (offered : world.offer? Update.forms (feeds.notifier topic) update keys = some offer) :
    offer.topic = topic ∧
      (Notice.batch (Update.forms topic)).decode? offer.payload =
        some (Notice.toEach update keys) := by
  unfold offer? at offered
  split at offered
  next sender found =>
    have own : sender.topic = topic := made.topic_eq found
    cases nobody : keys.isEmpty with
    | true => simp [nobody] at offered
    | false =>
      simp only [nobody, Bool.false_eq_true, if_false, Option.some.injEq] at offered
      subst offered
      refine ⟨own, ?_⟩
      rw [own]
      apply Notice.decode?_encode_batch
      intro notice member
      obtain ⟨key, -, rfl⟩ := List.mem_map.1 member
      rw [Update.forms, ← kind]
      exact update.faithful
  next => cases offered

/-- What a node offers for an effect in its turn is what it would offer for it at once. -/
theorem offers_eq_flatMap (h : world.WellFormed) (feeds : Feeds) (effects : List Effect) :
    world.offers feeds effects = effects.flatMap (world.offered feeds) := by
  induction effects generalizing world with
  | nil => rfl
  | cons effect effects ih =>
    obtain ⟨buses, eq⟩ := bringAbout_snd h feeds effect
    have same : (world.bringAbout feeds effect).2.2.offered feeds = world.offered feeds := by
      rw [eq]
      rfl
    have rest := ih (h.reaches (reaches_bringAbout world feeds effect))
    rw [same] at rest
    rw [List.flatMap_cons, ← rest]
    cases effect <;> rfl

end World

/-- What an announcement hands to the broker; other events are not looked at. -/
def Cluster.offers (cluster : Cluster) : Event → List Offer
  | .step (.announce node directory change) =>
    match cluster.nodes[node]? with
    | some feeds => cluster.world.offers feeds (change.effects directory)
    | none => []
  | _ => []

end Fanout
