import Fanout.Proofs.Cluster.Announcing
import Fanout.Proofs.Cluster.Events
import Mathlib.Data.List.Flatten

/-!
# Nobody is told more than what is addressed to them

Feeds may be down, cut off or dropped, and others may listen in their place. Whatever their state,
what their effects bring to a stream is among what they tell its key on the topic that its notifier
was made for (`brings_sublist`).
-/

namespace Fanout.World

variable {world : World Update} {feeds : Feeds}

/-- Publishing brings nothing, or tells a subscription of the topic what is addressed to its key. -/
theorem Made.brings_publish (made : world.Made feeds) (home : world.ListensAtHome) {topic : Topic}
    {update : Update} (kind : update.kind = topic.kind) (keys : List Key) (n : Nat) (key : Key) :
    world.brings feeds n key (.publish topic update keys) = [] ∨
      (∃ notifier, world.notifier? n = some notifier ∧ notifier.topic = topic) ∧
        world.brings feeds n key (.publish topic update keys) =
          List.replicate (keys.count key) update := by
  rw [brings]
  cases found : world.notifier? (feeds.notifier topic) with
  | none => simp [announced, found]
  | some sender =>
    have own : sender.topic = topic := made.topic_eq found
    have faithful : (Update.forms sender.topic).Faithful update := by
      rw [Update.forms, own, ← kind]
      exact update.faithful
    rw [announced_of_faithful home found faithful, own]
    cases heard : world.hears sender.process topic n with
    | false => exact .inl (if_neg Bool.false_ne_true)
    | true => exact .inr ⟨notifier?_of_hears home heard, if_pos rfl⟩

/-- An effect brings to the subscriptions of a topic at most what it tells their key there. -/
theorem Made.brings_sublist_told (made : world.Made feeds) (home : world.ListensAtHome)
    {effect : Effect} (fits : effect.fits = true) {n : Nat} {topic : Topic}
    (own : ∀ notifier, world.notifier? n = some notifier → notifier.topic = topic) (key : Key) :
    (world.brings feeds n key effect).Sublist (effect.told topic key) := by
  cases effect with
  | revoke revoked => exact List.nil_sublist _
  | publish onTopic update keys =>
    rcases made.brings_publish home (beq_iff_eq.1 fits) keys n key with none_ | ⟨there, eq⟩
    · rw [none_]
      exact List.nil_sublist _
    · obtain ⟨notifier, found, same⟩ := there
      rw [eq, Effect.told, if_pos (same.symm.trans (own notifier found))]

theorem Made.flatMap_brings_sublist (made : world.Made feeds) (home : world.ListensAtHome)
    {effects : List Effect} (fits : ∀ effect ∈ effects, effect.fits = true) {n : Nat}
    {topic : Topic} (own : ∀ notifier, world.notifier? n = some notifier → notifier.topic = topic)
    (key : Key) :
    (effects.flatMap (world.brings feeds n key)).Sublist
      (effects.flatMap (Effect.told topic key)) :=
  .flatMap_right effects fun _ among => made.brings_sublist_told home (fits _ among) own key

end Fanout.World
