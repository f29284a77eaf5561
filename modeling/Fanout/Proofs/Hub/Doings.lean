import Fanout.Proofs.Hub.Serving

/-!
# What a server has its hub do

The steps of a server come down to steps of its hub (`trace`): connections are registered, their
frames are handled one at a time, and their ends are handled. The hub of the server is where these
lead, and apart from reports of faults nothing is sent but what the hub sends in them (`hub_run`).
For one connection, which frames are handled and which faults are reported is told by how it stands
(`handled_concat`, `reports_concat`).
-/

namespace Fanout

/-- The frame that is handled if this stands next. -/
def Inbox.Next.handled : Next → List Frame
  | .frame given _ => [given]
  | _ => []

/-- The frame that tells the peer if a fault stands next. -/
def Inbox.Next.reports : Next → List Frame
  | .fault refusal => [.report refusal.code refusal.message]
  | _ => []

@[simp] theorem Inbox.Next.handled_nothing : Next.nothing.handled = [] := rfl

@[simp] theorem Inbox.Next.reports_nothing : Next.nothing.reports = [] := rfl

namespace Server

variable {server : Server} {c : ConnectionId}

/-- The steps of the hub that a step comes down to. -/
def doings (server : Server) : Step → List Hub.Step
  | .connect c => [.attach c]
  | .arrive .. | .cease .. => []
  | .turn c =>
    match Table.get? server.inboxes c with
    | none => []
    | some inbox =>
      match inbox.next with
      | .frame frame _ => [.frame c frame]
      | .fault _ | .closed => [.disconnect c]
      | .nothing => []
  | .stop c => [.disconnect c]
  | .shutdown => server.inboxes.map fun entry => .disconnect entry.1

/-- The steps of the hub that steps come down to. -/
def trace (server : Server) : List Step → List Hub.Step
  | [] => []
  | step :: steps => server.doings step ++ (server.step step).2.trace steps

theorem trace_concat (server : Server) (steps : List Step) (step : Step) :
    server.trace (steps ++ [step]) =
      server.trace steps ++ (server.run steps).2.doings step := by
  induction steps generalizing server with
  | nil => simp [trace, run]
  | cons first steps ih => simp [trace, run, ih]

/-- Deliveries without those that report a fault. -/
def plain (sent : List Delivery) : List Delivery :=
  sent.filter (·.frame.event ≠ .error)

theorem plain_forwards (hub : Hub) (frame : Frame) :
    plain (hub.forwards frame) = hub.forwards frame := by
  apply List.filter_eq_self.2
  intro delivery member
  simp [Hub.event_of_mem_forwards member]

theorem plain_report (hub : Hub) (targets : List ConnectionId) (code : FaultCode) (text : String) :
    plain (hub.send targets (.report code text)) = [] := by
  apply List.filter_eq_nil_iff.2
  intro delivery member
  obtain ⟨c, -, rfl⟩ := List.mem_map.1 member
  simp [Frame.report]

theorem hub_closeAll (server : Server) (entries : List (ConnectionId × Inbox)) :
    server.hub.run (entries.map fun entry => .disconnect entry.1) =
      (((entries.map Prod.fst).foldl close server).hub, []) := by
  induction entries using List.reverseRecOn with
  | nil => rfl
  | append_singleton entries entry ih =>
    rw [List.map_append, List.map_singleton, Hub.run_concat, ih, List.map_append, List.foldl_append]
    rfl

theorem hub_step (server : Server) (step : Step) :
    server.hub.run (server.doings step) =
      ((server.step step).2.hub, plain (server.step step).1) := by
  cases step with
  | connect c => rfl
  | arrive c bytes =>
    simp only [Server.step, arrive, doings]
    split <;> rfl
  | cease c ending =>
    simp only [Server.step, cease, doings]
    split <;> rfl
  | turn c =>
    rw [Server.step]
    cases found : Table.get? server.inboxes c with
    | none =>
      simp only [doings, turn, found]
      rfl
    | some inbox =>
      simp only [doings, turn_eq found, found]
      cases inbox.next with
      | frame frame rest =>
        dsimp only
        rw [← List.nil_append [_], Hub.run_concat, Hub.step_of_frame rfl, plain_forwards]
        rfl
      | fault fault =>
        dsimp only
        rw [refuse, plain_report]
        rfl
      | closed => rfl
      | nothing => rfl
  | stop c => rfl
  | shutdown => exact hub_closeAll server server.inboxes

/-- The hub of a server is where its steps lead, and apart from reports of faults nothing is sent
but what the hub sends in them. -/
theorem hub_run (server : Server) (steps : List Step) :
    server.hub.run (server.trace steps) =
      ((server.run steps).2.hub, plain (server.run steps).1) := by
  induction steps using List.reverseRecOn with
  | nil => rfl
  | append_singleton steps step ih =>
    rw [trace_concat, Hub.run_append, ih, hub_step, run_concat]
    simp [plain]

/-- The frames of a connection that steps of the hub handle. -/
def handledFrom (c : ConnectionId) (doings : List Hub.Step) : List Frame :=
  doings.filterMap fun
    | .frame d frame => if d = c then some frame else none
    | _ => none

/-- The frames of a connection that are handled in the course of a run, in order. -/
def handled (c : ConnectionId) (steps : List Step) : List Frame :=
  handledFrom c (trace {} steps)

/-- The reports of faults that are sent to a connection in the course of a run, in order. -/
def reports (c : ConnectionId) (steps : List Step) : List Frame :=
  (framesTo c (run {} steps).1).filter (·.event = .error)

/-- What stands next for a connection that takes a turn, if it is open. -/
def upNext (c : ConnectionId) (standing : Standing) (step : Step) : Inbox.Next :=
  if step = .turn c then (standing.inbox.map Inbox.next).getD .nothing else .nothing

theorem handledFrom_doings (server : Server) (c : ConnectionId) (step : Step) :
    handledFrom c (server.doings step) = (upNext c (server.standing c) step).handled := by
  cases step with
  | turn d =>
    simp only [doings, upNext, Step.turn.injEq, standing]
    by_cases same : d = c
    · subst same
      cases Table.get? server.inboxes d with
      | none => simp [handledFrom, Inbox.Next.handled]
      | some inbox =>
        simp only [if_true, Option.map_some, Option.getD_some]
        cases inbox.next <;> simp [handledFrom, Inbox.Next.handled]
    · rw [if_neg same]
      cases Table.get? server.inboxes d with
      | none => rfl
      | some inbox =>
        dsimp only
        cases inbox.next <;> simp [handledFrom, Inbox.Next.handled, same]
  | shutdown => simp [doings, handledFrom, upNext, Inbox.Next.handled]
  | _ => rfl

theorem reports_forwards (c : ConnectionId) (hub : Hub) (frame : Frame) :
    (framesTo c (hub.forwards frame)).filter (·.event = .error) = [] := by
  apply List.filter_eq_nil_iff.2
  intro sent member
  obtain ⟨delivery, among, rfl⟩ := List.mem_map.1 member
  simp [Hub.event_of_mem_forwards (List.mem_of_mem_filter among)]

/-- A fault is reported once, to the connection that it ends. -/
theorem reports_refuse (h : server.Sound) {d : ConnectionId}
    (opened : Table.get? server.inboxes d ≠ none) (c : ConnectionId) (fault : Fault) :
    (framesTo c (server.refuse d fault).1).filter (·.event = .error) =
      if d = c then [.report fault.code fault.message] else [] := by
  have reaches : server.hub.reaches d = true := by
    simp [Hub.reaches, h.sendable, (h.registered d).2 opened]
  rw [refuse, Hub.framesTo_send _ (List.nodup_singleton d)]
  by_cases same : d = c
  · subst same
    simp [reaches, Frame.report]
  · simp [same, Ne.symm same]

theorem Sound.reports_step (h : server.Sound) (c : ConnectionId) (step : Step) :
    (framesTo c (server.step step).1).filter (·.event = .error) =
      (upNext c (server.standing c) step).reports := by
  cases step with
  | turn d =>
    simp only [Server.step, upNext, Step.turn.injEq, standing]
    cases found : Table.get? server.inboxes d with
    | none =>
      simp only [turn, found]
      split
      next same => simp [← same, found, Inbox.Next.reports]
      next => rfl
    | some inbox =>
      have opened : Table.get? server.inboxes d ≠ none := by simp [found]
      have nextUp : (if d = c then ((Table.get? server.inboxes c).map Inbox.next).getD .nothing
          else .nothing) = if d = c then inbox.next else .nothing := by
        split
        next same => simp [← same, found]
        next => rfl
      rw [turn_eq found, nextUp]
      cases inbox.next with
      | frame frame rest =>
        dsimp only
        rw [reports_forwards]
        split <;> rfl
      | fault fault =>
        dsimp only
        rw [reports_refuse h opened]
        split <;> rfl
      | closed =>
        dsimp only
        split <;> rfl
      | nothing =>
        dsimp only
        split <;> rfl
  | _ => rfl

theorem handled_concat (c : ConnectionId) (steps : List Step) (step : Step) :
    handled c (steps ++ [step]) =
      handled c steps ++ (upNext c ((run {} steps).2.standing c) step).handled := by
  rw [handled, trace_concat, ← handledFrom_doings, handled, handledFrom, List.filterMap_append]
  rfl

theorem reports_concat (c : ConnectionId) (steps : List Step) (step : Step) :
    reports c (steps ++ [step]) =
      reports c steps ++ (upNext c ((run {} steps).2.standing c) step).reports := by
  rw [reports, run_concat, framesTo_append, List.filter_append, (sound_run steps).reports_step]
  rfl

end Server

end Fanout
