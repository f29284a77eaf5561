import Fanout.Proofs.Hub.Listing

/-!
# Fan-out

Whether something that is published on a topic arrives at a connection is told by the steps before
it: the connection was put on the topic, registered, and its sends work (`hears`). Main statement:
in every run, what the hub sends to a connection is one frame for each publish that the connection
hears, in order, with the topic, the payload and the origin that were published and nothing else
(`fan_out_exact`).
-/

namespace Fanout.Hub

/-- What a step says about whether a connection is registered, if it says anything. -/
def Step.registers? (c : ConnectionId) : Step → Option Bool
  | .attach d => if d = c then some true else none
  | .detach d | .disconnect d => if d = c then some false else none
  | _ => none

/-- What a step says about whether sends to a connection fail, if it says anything. -/
def Step.jams? (c : ConnectionId) : Step → Option Bool
  | .jam d => if d = c then some true else none
  | .mend d => if d = c then some false else none
  | _ => none

/-- Whether, after some steps, a connection is on a topic, registered, and can be sent to. -/
def hears (before : List Step) (topic : Bytes) (c : ConnectionId) : Bool :=
  lastTold (Subscribers.Operation.listing? topic c) (operations before) == some true &&
    lastTold (Step.registers? c) before == some true && lastTold (Step.jams? c) before != some true

/-- The topic that a step publishes on and the frame that is forwarded for it. -/
def Step.published? (step : Step) : Option (Bytes × Frame) :=
  step.frame?.bind fun (_, given) => given.forwarded?

/-- The frames that are due to a connection for steps after others: one for each publish that it
hears. -/
def due (c : ConnectionId) : List Step → List Step → List Frame
  | _, [] => []
  | before, step :: steps =>
    let forwarded := match step.published? with
      | some (topic, frame) => if hears before topic c then [frame] else []
      | none => []
    forwarded ++ due c (before ++ [step]) steps

theorem due_append (c : ConnectionId) (before first second : List Step) :
    due c before (first ++ second) = due c before first ++ due c (before ++ first) second := by
  induction first generalizing before with
  | nil => simp [due]
  | cons step first ih => simp [due, ih]

variable {hub : Hub} {c : ConnectionId}

theorem mem_connections_attach (hub : Hub) (d : ConnectionId) :
    c ∈ (hub.attach d).connections ↔ c ∈ hub.connections ∨ c = d := by
  unfold attach
  split
  next present => exact ⟨.inl, fun either => either.elim id fun same => same ▸ present⟩
  next => simp

theorem mem_connections_detach (hub : Hub) (d : ConnectionId) :
    c ∈ (hub.detach d).connections ↔ c ∈ hub.connections ∧ c ≠ d := by
  simp [detach]

theorem registered_step (hub : Hub) (step : Step) :
    c ∈ (hub.step step).2.1.connections ↔
      (step.registers? c).getD (decide (c ∈ hub.connections)) = true := by
  cases step with
  | frame d given => simp [kept_of_frame, Step.registers?]
  | raw d bytes => simp [kept_of_raw, Step.registers?]
  | attach d =>
    apply (mem_connections_attach hub d).trans
    by_cases same : c = d
    · simp [Step.registers?, same]
    · simp [Step.registers?, same, Ne.symm same]
  | detach d =>
    apply (mem_connections_detach hub d).trans
    by_cases same : c = d
    · simp [Step.registers?, same]
    · simp [Step.registers?, same, Ne.symm same]
  | disconnect d =>
    apply (mem_connections_detach _ d).trans
    by_cases same : c = d
    · simp [Step.registers?, same]
    · simp [Step.registers?, same, Ne.symm same]
  | _ => simp [Hub.step, settled, Step.registers?, jam, mend]

theorem jammed_step (hub : Hub) (step : Step) :
    c ∈ (hub.step step).2.1.broken ↔
      (step.jams? c).getD (decide (c ∈ hub.broken)) = true := by
  cases step with
  | frame d given => simp [kept_of_frame, Step.jams?]
  | raw d bytes => simp [kept_of_raw, Step.jams?]
  | attach d =>
    simp only [Hub.step, settled, attach]
    split <;> simp [Step.jams?]
  | jam d =>
    by_cases same : c = d
    · simp [Hub.step, settled, jam, Step.jams?, same]
    · simp [Hub.step, settled, jam, Step.jams?, same, Ne.symm same]
  | mend d =>
    by_cases same : c = d
    · simp [Hub.step, settled, mend, Step.jams?, same]
    · simp [Hub.step, settled, mend, Step.jams?, same, Ne.symm same]
  | _ => simp [Hub.step, settled, Step.jams?, detach, disconnect]

/-- Where each step puts a connection on a list, takes it off or leaves it, a run leaves it as the
last step says that says something. -/
theorem mem_run {list : Hub → List ConnectionId} {tells : Step → Option Bool} (fresh : list {} = [])
    (told : ∀ hub step, c ∈ list (hub.step step).2.1 ↔
      (tells step).getD (decide (c ∈ list hub)) = true) (steps : List Step) :
    c ∈ list (run {} steps).1 ↔ lastTold tells steps = some true := by
  induction steps using List.reverseRecOn with
  | nil => simp [fresh, lastTold]
  | append_singleton steps step ih =>
    rw [run_concat, told, lastTold_concat]
    cases tells step with
    | none => simp [ih]
    | some said => simp

theorem registered_run (steps : List Step) :
    c ∈ (run {} steps).1.connections ↔ lastTold (Step.registers? c) steps = some true :=
  mem_run rfl registered_step steps

theorem jammed_run (steps : List Step) :
    c ∈ (run {} steps).1.broken ↔ lastTold (Step.jams? c) steps = some true :=
  mem_run rfl jammed_step steps

theorem hears_iff (steps : List Step) (topic : Bytes) :
    hears steps topic c = true ↔
      c ∈ (run {} steps).1.subscribers.on topic ∧ (run {} steps).1.reaches c = true := by
  rw [subscribers_run, Subscribers.mem_applyAll]
  simp [hears, reaches, registered_run, jammed_run, and_assoc]

/-- To a connection that is named at most once and can be reached the frame is sent once. -/
theorem framesTo_send (hub : Hub) {targets : List ConnectionId} (once : targets.Nodup)
    (c : ConnectionId) (frame : Frame) :
    framesTo c (hub.send targets frame) =
      if c ∈ targets ∧ hub.reaches c = true then [frame] else [] := by
  have named : framesTo c (hub.send targets frame) =
      ((targets.filter hub.reaches).filter (· = c)).map fun _ => frame := by
    rw [framesTo, send, List.filter_map, List.map_map]
    rfl
  have alone : (targets.filter hub.reaches).filter (· = c) =
      if c ∈ targets ∧ hub.reaches c = true then [c] else [] := by
    rw [List.filter_eq, (once.filter _).count]
    simp only [List.mem_filter]
    split <;> rfl
  rw [named, alone]
  split <;> rfl

/-- What a step sends to a connection is what is due to it. -/
theorem framesTo_step (steps : List Step) (step : Step) (c : ConnectionId) :
    framesTo c ((run {} steps).1.step step).2.2 = due c steps [step] := by
  rw [sent_step]
  cases arrives : step.frame? with
  | none => simp [due, Step.published?, arrives]
  | some arrival =>
    simp only [due, Step.published?, arrives, Option.bind_some, Option.toList_some,
      List.flatMap_singleton, List.append_nil, forwards]
    cases published : arrival.2.forwarded? with
    | none => rfl
    | some found =>
      obtain ⟨topic, forwarded⟩ := found
      dsimp only
      rw [framesTo_send _ ((tidy_run steps).once topic)]
      simp only [← hears_iff]

/-- In every run, the frames that are sent to a connection are, in order, one for each frame with a
topic and a payload that was published while the connection was on exactly that topic, was
registered and could be sent to: a delivery with the topic, the payload and the origin, if any, that
were published, and no other field. Nothing is sent on account of any other frame, and a frame that
publishes changes nothing in the hub. -/
theorem fan_out_exact (steps : List Step) :
    (∀ c, framesTo c (run {} steps).2 = due c [] steps) ∧
      ∀ source frame,
        (frame.event ≠ .publish ∨ frame.topic = none ∨ frame.payload = none →
          ((run {} steps).1.step (.frame source frame)).2.2 = []) ∧
        (frame.event = .publish →
          ((run {} steps).1.step (.frame source frame)).2.1 = (run {} steps).1) := by
  refine ⟨fun c => ?_, fun source frame => ⟨fun other => ?_, fun publishes => ?_⟩⟩
  · induction steps using List.reverseRecOn with
    | nil => rfl
    | append_singleton steps step ih =>
      rw [run_concat, framesTo_append, ih, framesTo_step, due_append, List.nil_append]
  · rw [step_of_frame rfl]
    exact forwards_of_none (Frame.forwarded?_eq_none_iff.2 other)
  · rw [step_of_frame rfl]
    exact heed_of_none (Frame.operation?_of_publish source publishes) _

/-- Three connections, of which the second misses what is published while sends to it fail and while
it is not registered, and the third is on another topic. -/
def gathering : List Step :=
  [.attach 1, .attach 2, .attach 3, .frame 1 (.subscribe [7]), .frame 2 (.subscribe [7]),
    .frame 3 (.subscribe [7, 0]), .frame 1 (.publish [7] [10] [1]), .jam 2,
    .frame 1 (.publish [7] [11] [1]), .mend 2, .detach 2, .frame 1 (.publish [7] [12] [1]),
    .attach 2, .frame 2 { event := .publish, topic := some [7], payload := some [13] }]

theorem fan_out_exact_gathering :
    framesTo 2 (run {} gathering).2 = [.deliver [7] [10] (some [1]), .deliver [7] [13] none] ∧
      framesTo 3 (run {} gathering).2 = [] ∧
      ((run {} gathering).1.step (.frame 3 { event := .publish, topic := some [7] })).2.2 = [] ∧
      ((run {} gathering).1.step (.frame 3 (.publish [7] [14] []))).2.1 = (run {} gathering).1 :=
  ⟨((fan_out_exact gathering).1 2).trans (by decide),
    ((fan_out_exact gathering).1 3).trans (by decide),
    ((fan_out_exact gathering).2 3 _).1 (by decide),
    ((fan_out_exact gathering).2 3 _).2 rfl⟩

end Fanout.Hub
