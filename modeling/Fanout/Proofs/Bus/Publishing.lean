import Fanout.Proofs.Bus.Streams
import Fanout.Proofs.Json.Batches

/-!
# Publishing to keys

What a notifier publishes to a list of keys is a batch with one notice for each of them. If the form
of its topic reads back what it writes, the notifiers that hear the batch understand it, and each of
their live subscriptions gets as many copies of the update as its key stands in the list
(`announced_of_faithful`).
-/

namespace Fanout

open Json

variable {α : Type}

theorem Subscription.addressed_toEach (update : α) (keys : List Key) (key : Key) :
    addressed (Notice.toEach update keys) key = List.replicate (keys.count key) update := by
  induction keys with
  | nil => rfl
  | cons first keys ih =>
    simp only [addressed, Notice.toEach, List.map_cons, List.filter_cons] at ih ⊢
    by_cases same : first = key
    · simp [same, ih, List.replicate_succ]
    · simp [same, ih]

namespace World

variable {forms : Forms α} {world : World α}

/-- What a notifier publishes is understood by all that hear it. -/
theorem announced_of_faithful (home : world.ListensAtHome) {m : Nat} {sender : Notifier}
    (found : world.notifier? m = some sender) {update : α}
    (faithful : (forms sender.topic).Faithful update) (keys : List Key) (n : Nat) (key : Key) :
    world.announced forms m update keys n key =
      if world.hears sender.process sender.topic n then
        List.replicate (keys.count key) update
      else [] := by
  simp only [announced, found, brought]
  cases keys with
  | nil => simp
  | cons first rest =>
    rw [if_neg (by simp)]
    cases heard : world.hears sender.process sender.topic n with
    | false => rfl
    | true =>
      obtain ⟨notifier, present, same⟩ := notifier?_of_hears home heard
      have read : (Notice.batch (forms sender.topic)).decode?
          ((Notice.batch (forms sender.topic)).encode (Notice.toEach update (first :: rest))) =
            some (Notice.toEach update (first :: rest)) := by
        apply Notice.decode?_encode_batch
        intro notice member
        obtain ⟨key, -, rfl⟩ := List.mem_map.1 member
        exact faithful
      rw [if_pos rfl, if_pos rfl, understood, present]
      simp only [same, read, Option.getD_some]
      exact Subscription.addressed_toEach update (first :: rest) key

end World

end Fanout
