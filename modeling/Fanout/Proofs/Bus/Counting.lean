import Fanout.Proofs.Bus.Attendance
import Fanout.Proofs.Bus.Publishing

/-!
# What reaches a bus

Every process is attached to a bus that is there (`Moored.run`), so a batch that a connected process
publishes is counted there. Publishing an update to keys therefore does one of two things: nothing
at all, or one batch more on the bus and, in the streams of those who listen on it, as many copies
of the update as their keys stand in the list (`publish_exact`).
-/

namespace Fanout.World

variable {α : Type} {forms : Forms α} {world : World α}

/-- Every process is attached to a bus that is there, and the shared bus is there. -/
structure Moored (world : World α) : Prop where
  shared : 0 < world.buses.length
  attached : ∀ bus ∈ world.processes.map Process.bus, bus < world.buses.length

theorem map_bus_modifyProcess (world : World α) (p : Nat) (change : Process → Process)
    (same : ∀ process, (change process).bus = process.bus) :
    (world.modifyProcess p change).processes.map Process.bus = world.processes.map Process.bus :=
  map_modify Process.bus change same world.processes p

theorem map_bus_register (world : World α) (p : Nat) (topic : Topic) (listener : Listener) :
    (world.register p topic listener).2.processes.map Process.bus =
      world.processes.map Process.bus := by
  unfold register
  split
  · exact map_bus_modifyProcess world p _ fun _ => rfl
  · rfl

theorem map_bus_listen (world : World α) (n : Nat) :
    (world.listen n).2.processes.map Process.bus = world.processes.map Process.bus := by
  unfold listen
  split
  · dsimp only
    split <;> exact map_bus_register world _ _ _
  · rfl

theorem map_bus_shutdown (world : World α) (n : Nat) :
    (world.shutdown n).processes.map Process.bus = world.processes.map Process.bus := by
  let ended := (world.unsubscribe n fun _ _ => true).2
  rcases ended.releaseListener_cases n with ⟨same, -⟩ | ⟨notifier, -, -, eq⟩
  · rw [shutdown, same]
    rfl
  · rw [shutdown, eq]
    exact map_bus_modifyProcess ended _ _ fun _ => rfl

/-- Processes stay attached to their buses. -/
theorem map_bus_step (h : world.WellFormed) (step : Step α) :
    (world.step forms step).2.2.processes.map Process.bus =
      match step with
      | .connect => world.processes.map Process.bus ++ [0]
      | .standalone => world.processes.map Process.bus ++ [world.buses.length]
      | _ => world.processes.map Process.bus := by
  have sent := step_of_delivers h forms step
  cases step with
  | connect | standalone => exact List.map_append
  | release p | disconnect p | reconnect p | unrecord p =>
    exact map_bus_modifyProcess world p _ fun _ => rfl
  | broadcast | publish | notifyPayload | notifySubscriber | notifyOrPublish =>
    rw [(sent rfl).choose_spec]
  | record p topic tag => exact map_bus_register world p topic _
  | listen n => exact map_bus_listen world n
  | shutdown n | dropNotifier n => exact map_bus_shutdown world n
  | addNotifier | subscribe | unsubscribe | close | dropStream => rfl
  | next id =>
    simp only [World.step, next]
    split <;> rfl

/-- A batch is counted by the bus that a connected process hands it to. -/
theorem broadcast_buses (forms : Forms α) {p : Nat} {process : Process}
    (at_ : world.processes[p]? = some process) (topic : Topic) (payload : Bytes) :
    (world.broadcast forms p topic payload).2.buses =
      if process.connected then world.buses.modify process.bus (· + 1) else world.buses := by
  simp only [broadcast, at_]
  cases process.connected with
  | false => rfl
  | true => simp only [if_true, callNotifiers_eq]

theorem length_buses_broadcast (world : World α) (p : Nat) (topic : Topic) (payload : Bytes) :
    (world.broadcast forms p topic payload).2.buses.length = world.buses.length := by
  cases at_ : world.processes[p]? with
  | none => simp [broadcast, at_]
  | some process =>
    rw [broadcast_buses forms at_]
    split
    · exact List.length_modify ..
    · rfl

theorem length_buses_publish (world : World α) (n : Nat) (update : α) (keys : List Key) :
    (world.publish forms n update keys).2.buses.length = world.buses.length := by
  unfold publish
  split
  · split
    · rfl
    · exact length_buses_broadcast world _ _ _
  · rfl

theorem notifySubscriber_buses {later : World α} {n id : Nat} {update : α}
    (delivered : world.notifySubscriber n update id = .ok later) : later.buses = world.buses := by
  unfold notifySubscriber at delivered
  split at delivered
  · rw [← Except.ok.inj delivered]
  · cases delivered

/-- A standalone process brings a bus of its own; otherwise there are as many buses as before. -/
theorem length_buses_step (step : Step α) :
    (world.step forms step).2.2.buses.length =
      match step with
      | .standalone => world.buses.length + 1
      | _ => world.buses.length := by
  cases step with
  | standalone => exact List.length_append
  | connect | release | disconnect | reconnect | unrecord | addNotifier | subscribe | unsubscribe
  | close | dropStream => rfl
  | broadcast p topic payload => exact length_buses_broadcast world p topic payload
  | publish n update keys => exact length_buses_publish world n update keys
  | notifyPayload n payload =>
    simp only [World.step, notifyPayload_eq]
  | notifySubscriber n update id =>
    simp only [World.step]
    split
    next later delivered => rw [notifySubscriber_buses delivered]
    next => rfl
  | notifyOrPublish n update id key =>
    simp only [World.step, notifyOrPublish]
    split
    next later delivered => rw [notifySubscriber_buses delivered]
    next => exact length_buses_publish world n update [key]
  | record p topic tag =>
    obtain ⟨processes, eq⟩ := world.register_snd p topic (.recorder tag)
    simp only [World.step, eq]
  | listen n =>
    obtain ⟨processes, notifiers, eq⟩ := world.listen_snd n
    simp only [World.step, eq]
  | shutdown n | dropNotifier n =>
    obtain ⟨processes, notifiers, eq⟩ := world.shutdown_eq n
    simp only [World.step, dropNotifier, modifyNotifier, eq]
    rfl
  | next id =>
    simp only [World.step, next]
    split <;> rfl

theorem Moored.step (h : world.Moored) (wellFormed : world.WellFormed) (step : Step α) :
    (world.step forms step).2.2.Moored where
  shared := by
    rw [length_buses_step]
    cases step with
    | standalone => exact Nat.succ_pos _
    | _ => exact h.shared
  attached := by
    rw [length_buses_step, map_bus_step wellFormed]
    cases step with
    | connect =>
      rw [List.forall_mem_append, List.forall_mem_singleton]
      exact ⟨h.attached, h.shared⟩
    | standalone =>
      rw [List.forall_mem_append, List.forall_mem_singleton]
      exact ⟨fun bus old => Nat.lt_succ_of_lt (h.attached bus old), Nat.lt_succ_self _⟩
    | _ => exact h.attached

theorem Moored.run (h : world.Moored) (wellFormed : world.WellFormed) (forms : Forms α)
    (steps : List (Step α)) : (world.run forms steps).Moored := by
  induction steps generalizing world with
  | nil => exact h
  | cons step steps ih => exact ih (h.step wellFormed step) (wellFormed.step step)

end Fanout.World
