import Fanout.Proofs.Brokers.Uses
import Fanout.Proofs.Bus.Reach

/-!
# Brokers on a bus

A world in which every process is on the shared bus and every listener is a recorder (`Plain`) does
with each use of its brokers what brokers have to do (`Plain.use`).
-/

namespace Fanout.World

variable {α : Type} {forms : Forms α} {world : World α}

/-- Every process is on the shared bus and held by the program, and all listeners are recorders. -/
structure Plain (world : World α) : Prop where
  shared : ∀ process ∈ world.processes, process.bus = 0 ∧ process.held = true
  recorders : ∀ process ∈ world.processes, ∀ topic listener,
    Table.get? process.listeners topic = some listener → ∃ tag, listener = .recorder tag

theorem Plain.modifyProcess (h : world.Plain) (p : Nat) (change : Process → Process)
    (shared : ∀ process, (change process).bus = process.bus ∧ (change process).held = process.held)
    (recorders : ∀ process, world.processes[p]? = some process → ∀ topic listener,
      Table.get? (change process).listeners topic = some listener →
      ∃ tag, listener = .recorder tag) :
    (world.modifyProcess p change).Plain where
  shared := by
    apply forall_mem_modify h.shared
    intro process at_
    rw [(shared process).1, (shared process).2]
    exact h.shared process (List.mem_of_getElem? at_)
  recorders := forall_mem_modify h.recorders recorders

theorem isConnected_modifyProcess (p q : Nat) (change : Process → Process) :
    (world.modifyProcess p change).isConnected q =
      match world.processes[q]? with
      | some process => (if p = q then change process else process).connected
      | none => false := by
  simp only [isConnected, World.modifyProcess]
  rw [List.getElem?_modify]
  cases world.processes[q]? <;> rfl

theorem length_modifyProcess (p : Nat) (change : Process → Process) :
    (world.modifyProcess p change).processes.length = world.processes.length :=
  List.length_modify ..

theorem hasListener_eq (p : Nat) (topic : Topic) :
    world.hasListener p topic =
      match world.processes[p]? with
      | some process => process.listeners.contains topic
      | none => false := by
  simp only [hasListener, listener?]
  cases world.processes[p]? <;> rfl

/-- A change of one process that keeps its listeners, in terms of who is connected. -/
theorem Plain.use_connection (h : world.Plain) (p : Nat) (connected : Bool) :
    (world.setConnected p connected).Plain ∧
      (world.setConnected p connected).board =
        { world.board with
          connected := fun q =>
            if p = q then decide (p < world.processes.length) && connected
            else world.isConnected q } := by
  refine ⟨h.modifyProcess p _ (fun _ => ⟨rfl, rfl⟩) fun process at_ => ?_, ?_⟩
  · exact h.recorders process (List.mem_of_getElem? at_)
  · refine Board.ext (length_modifyProcess ..) (funext fun q => ?_)
      (funext fun q => funext fun topic => ?_)
    · apply (isConnected_modifyProcess ..).trans
      unfold isConnected
      cases at_ : world.processes[q]? with
      | none =>
        have outside := List.getElem?_eq_none_iff.1 at_
        by_cases same : p = q
        · simp [same, Nat.not_lt.2 outside]
        · simp [same, at_]
      | some process =>
        have inside := (List.getElem?_eq_some_iff.1 at_).1
        by_cases same : p = q
        · simp [same, inside]
        · simp [same, at_]
    · show ((world.modifyProcess p _).listener? q topic).isSome = (world.listener? q topic).isSome
      rw [listener?_modifyProcess]
      simp only [listener?]
      cases world.processes[q]? with
      | none => rfl
      | some process => by_cases same : p = q <;> simp [same]

/-- A change of the listeners in one process, in terms of who listens to what. -/
theorem board_modifyListeners (p : Nat) (change : Listeners Listener → Listeners Listener)
    {listens : Nat → Topic → Bool}
    (there : ∀ process, world.processes[p]? = some process → ∀ topic,
      (change process.listeners).contains topic = listens p topic)
    (nowhere : world.processes[p]? = none → ∀ topic, listens p topic = false)
    (elsewhere : ∀ q, ¬ p = q → ∀ topic, listens q topic = world.hasListener q topic) :
    (world.modifyProcess p fun process =>
      { process with listeners := change process.listeners }).board =
      { world.board with listens } := by
  refine Board.ext (length_modifyProcess ..) (funext fun q => ?_)
    (funext fun q => funext fun topic => ?_)
  · apply (isConnected_modifyProcess ..).trans
    show _ = world.isConnected q
    simp only [isConnected]
    cases world.processes[q]? with
    | none => rfl
    | some process => by_cases same : p = q <;> simp [same]
  · show ((world.modifyProcess p _).listener? q topic).isSome = listens q topic
    rw [listener?_modifyProcess]
    by_cases same : p = q
    · subst same
      cases at_ : world.processes[p]? with
      | none => exact (nowhere at_ topic).symm
      | some process =>
        rw [← there process at_ topic]
        simp [Listeners.contains, Table.has]
    · rw [elsewhere q same topic, hasListener_eq]
      cases world.processes[q]? with
      | none => rfl
      | some process => simp [same, Listeners.contains, Table.has]

theorem Plain.use_subscribe (h : world.Plain) (p : Nat) (topic : Topic) (tag : String) :
    (world.register p topic (.recorder tag)).1 =
        (decide (p < world.processes.length) && !world.hasListener p topic) ∧
      (world.register p topic (.recorder tag)).2.Plain ∧
      (world.register p topic (.recorder tag)).2.board =
        world.board.use (.subscribe p topic tag) := by
  simp only [register]
  cases at_ : world.processes[p]? with
  | none =>
    have outside := Nat.not_lt.2 (List.getElem?_eq_none_iff.1 at_)
    refine ⟨by simp [outside], h, ?_⟩
    simp [Board.use, board, outside]
  | some process =>
    have inside := (List.getElem?_eq_some_iff.1 at_).1
    have here : ∀ other, world.hasListener p other = process.listeners.contains other := by
      intro other
      rw [hasListener_eq, at_]
    refine ⟨?_, ?_, ?_⟩
    · rw [here]
      unfold Listeners.register
      cases present : process.listeners.contains topic <;> simp [inside, present]
    · refine h.modifyProcess p _ (fun _ => ⟨rfl, rfl⟩) fun other at' topic' listener found => ?_
      rcases Listeners.get?_of_register found with old | rfl
      · exact h.recorders process (List.mem_of_getElem? at_) topic' listener old
      · exact ⟨tag, rfl⟩
    · refine board_modifyListeners p
        (fun _ => (process.listeners.register topic (.recorder tag)).2) ?_ ?_ ?_
      · intro other at' topic'
        rw [Listeners.contains_register, ← here]
        simp [board, inside]
      · intro none_
        rw [at_] at none_
        contradiction
      · intro q differs other
        simp [board, differs]

theorem Plain.use_unsubscribe (h : world.Plain) (p : Nat) (topic : Topic) :
    (world.unregister p topic).Plain ∧
      (world.unregister p topic).board = world.board.use (.unsubscribe p topic) := by
  refine ⟨h.modifyProcess p _ (fun _ => ⟨rfl, rfl⟩) fun process at_ other listener found => ?_, ?_⟩
  · rw [Listeners.get?_unregister] at found
    split at found
    · contradiction
    · exact h.recorders process (List.mem_of_getElem? at_) other listener found
  · refine board_modifyListeners p (fun listeners => (listeners.unregister topic).2) ?_ ?_ ?_
    · intro process at_ other
      rw [Listeners.contains_unregister]
      simp [board, hasListener_eq, at_]
    · intro at_ other
      simp [board, hasListener_eq, at_]
    · intro q differs other
      simp [board, differs]

theorem Plain.listener?_recorder (h : world.Plain) {p : Nat} {topic : Topic} {listener : Listener}
    (found : world.listener? p topic = some listener) : ∃ tag, listener = .recorder tag := by
  obtain ⟨process, at_, listed⟩ := Option.bind_eq_some_iff.1 found
  exact h.recorders process (List.mem_of_getElem? at_) topic listener listed

/-- The bus calls whoever is connected and has a listener. -/
theorem Plain.target?_eq (h : world.Plain) (topic : Topic) (p : Nat) :
    world.target? 0 topic p =
      if world.isConnected p then (world.listener? p topic).map (p, ·) else none := by
  unfold target? isConnected listener? isHeld
  cases at_ : world.processes[p]? with
  | none => rfl
  | some process =>
    obtain ⟨bus, held⟩ := h.shared process (List.mem_of_getElem? at_)
    simp [bus, held]

/-- Among some places, a payload calls a process's listener once for each time its place occurs. -/
theorem Plain.calls_at (h : world.Plain) (topic : Topic) (payload : Bytes) (q : Nat)
    (places : List Nat) :
    (((heardBy topic payload (places.filterMap (world.target? 0 topic))).map
        Heard.invocation).filter (·.node = q)).map (fun called => (called.topic, called.payload)) =
      places.flatMap fun p =>
        if p = q ∧ world.isConnected q = true ∧ world.hasListener q topic = true then
          [(topic, payload)]
        else [] := by
  induction places with
  | nil => rfl
  | cons p places ih =>
    rw [List.filterMap_cons, List.flatMap_cons, ← ih, h.target?_eq]
    simp only [hasListener]
    cases connected : world.isConnected p with
    | false =>
      by_cases same : p = q
      · subst same
        simp [connected]
      · simp [same]
    | true =>
      cases found : world.listener? p topic with
      | none =>
        by_cases same : p = q
        · subst same
          simp [found]
        · simp [same]
      | some listener =>
        obtain ⟨tag, rfl⟩ := h.listener?_recorder found
        by_cases same : p = q
        · subst same
          simp [connected, found, heardBy, Heard.invocation]
        · simp [same, heardBy, Heard.invocation]

theorem board_congr {other : World α} (processes : other.processes = world.processes) :
    other.board = world.board := by
  unfold board isConnected hasListener listener?
  rw [processes]

theorem Plain.congr (h : world.Plain) {other : World α}
    (processes : other.processes = world.processes) : other.Plain where
  shared := by
    rw [processes]
    exact h.shared
  recorders := by
    rw [processes]
    exact h.recorders

theorem broadcast_processes (forms : Forms α) (world : World α) (p : Nat) (topic : Topic)
    (payload : Bytes) :
    (world.broadcast forms p topic payload).2.processes = world.processes := by
  simp only [broadcast]
  split
  · split
    · show (callNotifiers forms payload _ _).processes = _
      rw [callNotifiers_eq]
    · rfl
  · rfl

theorem Plain.broadcast_calls (h : world.Plain) (forms : Forms α) (p : Nat) (topic : Topic)
    (payload : Bytes) (q : Nat) :
    ((((world.broadcast forms p topic payload).1).map Heard.invocation).filter
        (·.node = q)).map (fun called => (called.topic, called.payload)) =
      if world.isConnected p && world.isConnected q && world.hasListener q topic then
        [(topic, payload)]
      else [] := by
  simp only [broadcast]
  cases at_ : world.processes[p]? with
  | none => simp [isConnected, at_]
  | some process =>
    have here : world.isConnected p = process.connected := by
      rw [isConnected, at_]
    cases connected : process.connected with
    | false => simp [here, connected]
    | true =>
      have shared : process.bus = 0 := (h.shared process (List.mem_of_getElem? at_)).1
      simp only [connected, shared, if_true]
      rw [targets_eq, h.calls_at, flatMap_range_eq _ q]
      · by_cases inside : q < world.processes.length
        · simp [inside, here, connected]
        · have absent : world.isConnected q = false := by
            rw [isConnected, List.getElem?_eq_none (Nat.not_lt.1 inside)]
          simp [inside, absent]
      · intro other differs
        simp [differs]

/-- A plain world does with each use what brokers have to do. -/
theorem Plain.use (h : world.Plain) (forms : Forms α) (use : Use) :
    (world.use forms use).2.Plain ∧ (world.use forms use).2.board = world.board.use use ∧
      ∀ q, (world.use forms use).1.seenBy q = world.board.seenBy q use := by
  cases use with
  | subscribe p topic tag =>
    obtain ⟨answer, plain, board⟩ := h.use_subscribe p topic tag
    exact ⟨plain, board, fun q => Prod.ext (congrArg some answer) rfl⟩
  | unsubscribe p topic =>
    obtain ⟨plain, board⟩ := h.use_unsubscribe p topic
    exact ⟨plain, board, fun q => rfl⟩
  | publish p topic payload =>
    have processes := broadcast_processes forms world p topic payload
    refine ⟨h.congr processes, board_congr processes, fun q => ?_⟩
    exact Prod.ext rfl (h.broadcast_calls forms p topic payload q)
  | lose p kept =>
    obtain ⟨plain, board⟩ := h.use_connection p false
    refine ⟨plain, board.trans (Board.ext rfl (funext fun q => ?_) rfl), fun q => rfl⟩
    by_cases same : p = q <;> simp [World.board, Board.use, same]
  | reconnect p =>
    obtain ⟨plain, board⟩ := h.use_connection p true
    refine ⟨plain, board.trans (Board.ext rfl (funext fun q => ?_) rfl), fun q => rfl⟩
    by_cases same : p = q
    · subst same
      by_cases inside : p < world.processes.length
      · simp [World.board, Board.use, inside]
      · have absent : world.isConnected p = false := by
          rw [isConnected, List.getElem?_eq_none (Nat.not_lt.1 inside)]
        simp [World.board, Board.use, inside, absent]
    · simp [World.board, Board.use, same]

/-- A plain world does with all uses what brokers have to do. -/
theorem Plain.useAll (h : world.Plain) (forms : Forms α) (uses : List Use) :
    (world.useAll forms uses).2.board = uses.foldl Board.use world.board ∧
      ∀ q, (world.useAll forms uses).1.map (Outcome.seenBy q) = world.board.allSeenBy q uses := by
  induction uses generalizing world with
  | nil => exact ⟨rfl, fun _ => rfl⟩
  | cons use uses ih =>
    obtain ⟨plain, board, seen⟩ := h.use forms use
    obtain ⟨board', seen'⟩ := ih plain
    rw [board] at board' seen'
    refine ⟨board', fun q => ?_⟩
    rw [Board.allSeenBy, ← seen q, ← seen' q]
    rfl

theorem connected_processes (forms : Forms α) (count : Nat) :
    (connected forms count).processes = List.replicate count { bus := 0 } := by
  simp only [connected]
  induction count with
  | zero => rfl
  | succ count ih =>
    rw [List.replicate_succ', World.run_append]
    show _ ++ _ = _
    rw [ih, ← List.replicate_succ']

theorem connected_plain (forms : Forms α) (count : Nat) : (connected forms count).Plain where
  shared := by
    rw [connected_processes]
    intro process member
    rw [List.eq_of_mem_replicate member]
    exact ⟨rfl, rfl⟩
  recorders := by
    rw [connected_processes]
    intro process member topic listener found
    rw [List.eq_of_mem_replicate member] at found
    contradiction

theorem connected_board (forms : Forms α) (count : Nat) :
    (connected forms count).board = .fresh count := by
  apply Board.ext
  · show (connected forms count).processes.length = count
    rw [connected_processes, List.length_replicate]
  · funext p
    show (connected forms count).isConnected p = decide (p < count)
    rw [isConnected, connected_processes, List.getElem?_replicate]
    by_cases inside : p < count <;> simp [inside]
  · funext p topic
    apply (hasListener_eq p topic).trans
    rw [connected_processes, List.getElem?_replicate]
    by_cases inside : p < count
    · rw [if_pos inside]
      rfl
    · rw [if_neg inside]
      rfl

end Fanout.World
