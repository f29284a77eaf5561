import Fanout.Table
import Fanout.Topic

/-!
# Topic listeners

A process has at most one listener per topic. The first one stays until it is removed.
-/

namespace Fanout

abbrev Listeners (κ : Type) := Table Topic κ

namespace Listeners

variable {κ : Type}

def contains (listeners : Listeners κ) (topic : Topic) : Bool :=
  Table.has listeners topic

/-- Registers a listener unless the topic has one; tells whether it did. -/
def register (listeners : Listeners κ) (topic : Topic) (listener : κ) : Bool × Listeners κ :=
  if listeners.contains topic then (false, listeners)
  else (true, Table.set listeners topic listener)

/-- Removes the listener of a topic; tells whether there was one. -/
def unregister (listeners : Listeners κ) (topic : Topic) : Bool × Listeners κ :=
  (listeners.contains topic, Table.erase listeners topic)

theorem register_of_contains {listeners : Listeners κ} {topic : Topic} (listener : κ)
    (h : listeners.contains topic = true) :
    listeners.register topic listener = (false, listeners) :=
  if_pos h

theorem get?_register {listeners : Listeners κ} {topic : Topic} {listener : κ}
    (h : listeners.contains topic = false) (other : Topic) :
    Table.get? (listeners.register topic listener).2 other =
      if topic = other then some listener else Table.get? listeners other := by
  simp [register, h]

theorem get?_unregister (listeners : Listeners κ) (topic other : Topic) :
    Table.get? (listeners.unregister topic).2 other =
      if topic = other then none else Table.get? listeners other := by
  simp [unregister]

theorem contains_register (listeners : Listeners κ) (topic other : Topic) (listener : κ) :
    (listeners.register topic listener).2.contains other =
      (listeners.contains other || decide (topic = other)) := by
  cases present : listeners.contains topic with
  | true =>
    rw [register_of_contains listener present]
    by_cases same : topic = other
    · simp [← same, present]
    · simp [same]
  | false =>
    unfold contains Table.has
    rw [get?_register present]
    by_cases same : topic = other <;> simp [same]

theorem contains_unregister (listeners : Listeners κ) (topic other : Topic) :
    (listeners.unregister topic).2.contains other =
      (listeners.contains other && !decide (topic = other)) := by
  unfold contains Table.has
  rw [get?_unregister]
  by_cases same : topic = other <;> simp [same]

theorem get?_of_register {listeners : Listeners κ} {topic other : Topic} {listener found : κ}
    (h : Table.get? (listeners.register topic listener).2 other = some found) :
    Table.get? listeners other = some found ∨ found = listener := by
  cases present : listeners.contains topic with
  | true =>
    rw [register_of_contains listener present] at h
    exact .inl h
  | false =>
    rw [get?_register present] at h
    split at h
    · exact .inr (Option.some.inj h).symm
    · exact .inl h

def topics (listeners : Listeners κ) : List Topic :=
  Topic.all.filter listeners.contains

theorem mem_topics {listeners : Listeners κ} {topic : Topic} :
    topic ∈ listeners.topics ↔ listeners.contains topic = true := by
  simp [topics, Topic.mem_all]

end Listeners

end Fanout
