import Fanout.Proofs.Frame.Sizes
import Fanout.Proofs.Relay.Requests
import Mathlib.Data.List.Induction

/-!
# What a node puts on its connection

However a node uses its link, what was queued in a session is what was taken from the queue and what
waits in it, and of what was taken exactly the frames that fit were written, in order
(`Talk.sound_run`). All of it is requests, of which only publishes can be too large.
-/

namespace Fanout

namespace Link

variable {κ : Type}

theorem encodeEach_fst (frames : List Frame) :
    (encodeEach frames).1 = frames.filterMap fun frame => frame.encode.toOption := by
  induction frames with
  | nil => rfl
  | cons frame frames ih =>
    simp only [encodeEach]
    cases encoded : frame.encode with
    | ok bytes => simp [encoded, ih, Except.toOption]
    | error fault => simp [encoded, ih, Except.toOption]

/-- The frames that fit are written, in order, whatever stands between them. -/
theorem map_encode_fits (frames : List Frame) :
    (frames.filter Frame.fits).map Frame.encode = (encodeEach frames).1.map .ok := by
  induction frames with
  | nil => rfl
  | cons frame frames ih =>
    simp only [encodeEach]
    cases encoded : frame.encode with
    | ok bytes => simp [Frame.fits_of_encode encoded, encoded, ih]
    | error fault =>
      have large : frame.fits = false := by
        apply Bool.eq_false_iff.2
        intro fits
        rw [Frame.encode_of_fits frame (of_decide_eq_true fits)] at encoded
        contradiction
      simp [large, ih]

inductive Call (κ : Type)
  | attach
  | detach
  | subscribe (topic : Topic) (listener : κ)
  | unsubscribe (topic : Topic)
  | publish (topic : Topic) (payload : Bytes)
  | flush
  deriving DecidableEq, Repr

/-- What a use of a link sends, and the link after it. -/
def call (link : Link κ) : Call κ → List Bytes × Link κ
  | .attach => ([], link.attach)
  | .detach => ([], link.detach)
  | .subscribe topic listener => ([], (link.subscribe topic listener).2)
  | .unsubscribe topic => ([], link.unsubscribe topic)
  | .publish topic payload => ([], link.publish topic payload)
  | .flush => (link.flush.1, link.flush.2.2)

theorem queue_subscribe (link : Link κ) (topic : Topic) (listener : κ) :
    ∃ requests : List Request,
      (link.subscribe topic listener).2.queue =
        link.queue.map (· ++ requests.map Request.frame) := by
  simp only [subscribe]
  split
  · exact ⟨[.subscribe topic], rfl⟩
  · exact ⟨[], by simp⟩

theorem queue_unsubscribe (link : Link κ) (topic : Topic) :
    ∃ requests : List Request,
      (link.unsubscribe topic).queue = link.queue.map (· ++ requests.map Request.frame) := by
  simp only [unsubscribe]
  split
  · exact ⟨[.unsubscribe topic], rfl⟩
  · exact ⟨[], by simp⟩

/-- A node's link with what became of it in its last session. -/
structure Talk (κ : Type) where
  link : Link κ
  /-- The frames that were queued, in order. -/
  queued : List Frame := []
  /-- What was sent, in order. -/
  written : List Bytes := []
  deriving DecidableEq, Repr

namespace Talk

/-- Uses the link. What was not in its queue before was queued; a session starts with nothing. -/
def use (talk : Talk κ) (call : Call κ) : Talk κ :=
  let (sent, link) := talk.link.call call
  match call with
  | .attach => { link, queued := link.queue.getD [] }
  | _ =>
    { link
      queued := talk.queued ++ (link.queue.getD []).drop (talk.link.queue.getD []).length
      written := talk.written ++ sent }

/-- Uses the link of a node, which has no listeners and no connection at first. -/
def run (nodeId : String) (calls : List (Call κ)) : Talk κ :=
  calls.foldl use { link := { nodeId } }

/-- What a session keeps to: only requests were queued, and those frames that do not wait any longer
were written if they fit. -/
structure Sound (talk : Talk κ) : Prop where
  asked : ∀ frame ∈ talk.queued, ∃ request : Request, request.frame = frame
  accounted : ∃ taken waiting, talk.queued = taken ++ waiting ∧
    talk.written = (encodeEach taken).1 ∧ ∀ rest ∈ talk.link.queue, rest = waiting

/-- Requests are put at the end of the queue, if there is one. -/
theorem Sound.grow {talk : Talk κ} (h : talk.Sound) {link : Link κ} {requests : List Request}
    (queue : link.queue = talk.link.queue.map (· ++ requests.map Request.frame)) :
    ({ talk with
      link
      queued := talk.queued ++ (link.queue.getD []).drop (talk.link.queue.getD []).length } :
      Talk κ).Sound := by
  obtain ⟨taken, waiting, split, written, now⟩ := h.accounted
  cases queued : talk.link.queue with
  | none =>
    rw [queued] at queue
    have unchanged : link.queue = none := queue
    simp only [unchanged, Option.getD_none, List.drop_nil, List.append_nil]
    exact ⟨h.asked, taken, waiting, split, written, by simp [unchanged]⟩
  | some rest =>
    rw [queued] at queue
    have longer : link.queue = some (rest ++ requests.map Request.frame) := queue
    have same : rest = waiting := now rest queued
    simp only [longer, Option.getD_some, List.drop_left]
    refine ⟨fun frame member => ?_, taken, waiting ++ requests.map Request.frame, ?_, written, ?_⟩
    · rcases List.mem_append.1 member with before | new
      · exact h.asked frame before
      · obtain ⟨request, -, same⟩ := List.mem_map.1 new
        exact ⟨request, same⟩
    · rw [split, List.append_assoc]
    · simp [longer, same]

/-- What waits is taken and sent. -/
theorem Sound.flush {talk : Talk κ} (h : talk.Sound) : (talk.use .flush).Sound := by
  obtain ⟨⟨nodeId, listeners, queue⟩, queued, written⟩ := talk
  cases queue with
  | none => simpa [Talk.use, Link.call, Link.flush, encodeEach] using h
  | some rest =>
    obtain ⟨taken, waiting, split, sent, now⟩ := h.accounted
    obtain rfl : rest = waiting := now rest rfl
    dsimp only at split sent
    simp only [Talk.use, Link.call, Link.flush, Option.map_some, Option.getD_some, List.drop_nil,
      List.append_nil]
    refine ⟨h.asked, taken ++ rest, [], by rw [split, List.append_nil], ?_, by simp⟩
    simp only [sent, encodeEach_fst, List.filterMap_append]

theorem Sound.use {talk : Talk κ} (h : talk.Sound) (call : Call κ) : (talk.use call).Sound := by
  cases call with
  | attach =>
    refine ⟨fun frame member => ?_, [], talk.link.attach.queue.getD [], rfl, rfl, ?_⟩
    · obtain ⟨topic, -, same⟩ := List.mem_map.1 member
      exact ⟨.subscribe topic, same⟩
    · simp [Talk.use, Link.call, attach]
  | detach =>
    obtain ⟨taken, waiting, split, written, -⟩ := h.accounted
    simp only [Talk.use, Link.call, detach, Option.getD_none, List.drop_nil, List.append_nil]
    exact ⟨h.asked, taken, waiting, split, written, by simp⟩
  | subscribe topic listener =>
    obtain ⟨requests, queue⟩ := talk.link.queue_subscribe topic listener
    simp only [Talk.use, Link.call, List.append_nil]
    exact h.grow queue
  | unsubscribe topic =>
    obtain ⟨requests, queue⟩ := talk.link.queue_unsubscribe topic
    simp only [Talk.use, Link.call, List.append_nil]
    exact h.grow queue
  | publish topic payload =>
    have queue : (talk.link.publish topic payload).queue = talk.link.queue.map
        (· ++ [Request.publish topic payload (Bytes.ofText talk.link.nodeId)].map Request.frame) :=
      rfl
    simp only [Talk.use, Link.call, List.append_nil]
    exact h.grow queue
  | flush => exact h.flush

theorem run_concat (nodeId : String) (calls : List (Call κ)) (call : Call κ) :
    run nodeId (calls ++ [call]) = (run nodeId calls).use call := by
  rw [run, List.foldl_append]
  rfl

theorem sound_run (nodeId : String) (calls : List (Call κ)) : (run nodeId calls).Sound := by
  induction calls using List.reverseRecOn with
  | nil => exact ⟨by simp [run], [], [], rfl, rfl, by simp [run]⟩
  | append_singleton calls call ih =>
    rw [run_concat]
    exact ih.use call

theorem nodeId_use (talk : Talk κ) (call : Call κ) :
    (talk.use call).link.nodeId = talk.link.nodeId := by
  cases call with
  | subscribe topic listener =>
    simp only [use, Link.call, Link.subscribe]
    split <;> rfl
  | unsubscribe topic =>
    simp only [use, Link.call, Link.unsubscribe]
    split <;> rfl
  | _ => rfl

theorem nodeId_run (nodeId : String) (calls : List (Call κ)) :
    (run nodeId calls).link.nodeId = nodeId := by
  induction calls using List.reverseRecOn with
  | nil => rfl
  | append_singleton calls call ih => rw [run_concat, nodeId_use, ih]

/-- As long as there is a connection, a publish is queued as it was asked for. -/
theorem queued_publish {nodeId : String} {calls : List (Call κ)}
    (connected : (run nodeId calls).link.isConnected = true) (topic : Topic) (payload : Bytes) :
    (run nodeId (calls ++ [.publish topic payload])).queued =
      (run nodeId calls).queued ++
        [.publish topic.nameBytes payload (Bytes.ofText nodeId)] := by
  obtain ⟨waiting, queue⟩ := Option.isSome_iff_exists.1 connected
  rw [run_concat]
  simp [use, Link.call, Link.publish, enqueue, queue, nodeId_run]

end Talk

end Link

end Fanout
