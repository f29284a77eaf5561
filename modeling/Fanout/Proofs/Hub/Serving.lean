import Fanout.Proofs.Hub.FanOut
import Fanout.Proofs.Hub.Inbox
import Fanout.Proofs.Relay.Requests

/-!
# How connections stand with a server

How a connection stands after a step, that is whether it is open, what is in its inbox and which
topics it is listed under, is told by how it stood before (`Standing.after`, `standing_step`). So
the connections of a server go their ways independently. In every reachable state the open
connections are the registered ones, and only those are listed (`Sound`).
-/

namespace Fanout

/-- How a connection stands with a server: what is in its inbox, if it is open, and the topics that
it is listed under. -/
@[ext]
structure Standing where
  inbox : Option Inbox := none
  topics : Set Bytes := ∅

namespace Standing

def turn (standing : Standing) : Standing :=
  match standing.inbox with
  | none => standing
  | some inbox =>
    match inbox.next with
    | .frame frame rest =>
      { inbox := some { inbox with bytes := rest }, topics := frame.applied standing.topics }
    | .fault _ | .closed => {}
    | .nothing => standing

/-- How a connection stands after a step. Steps of other connections leave it as it stands. -/
def after (c : ConnectionId) (standing : Standing) : Server.Step → Standing
  | .connect d => if d = c then { standing with inbox := some {} } else standing
  | .arrive d bytes =>
    if d = c then
      { standing with
        inbox := standing.inbox.map fun inbox => { inbox with bytes := inbox.bytes ++ bytes } }
    else standing
  | .cease d ending =>
    if d = c then
      { standing with
        inbox := standing.inbox.map fun inbox => { inbox with ending := some ending } }
    else standing
  | .turn d => if d = c then standing.turn else standing
  | .stop d => if d = c then {} else standing
  | .shutdown => {}

end Standing

namespace Hub

variable {hub : Hub} {c d : ConnectionId}

theorem topicsOf_attach (hub : Hub) (c d : ConnectionId) :
    (hub.attach d).topicsOf c = hub.topicsOf c := by
  unfold attach
  split <;> rfl

theorem topicsOf_disconnect (hub : Hub) (c d : ConnectionId) :
    (hub.disconnect d).topicsOf c = if d = c then ∅ else hub.topicsOf c := by
  ext topic
  apply Subscribers.mem_removeAll.trans
  by_cases same : d = c
  · simp [same]
  · simp [same, Ne.symm same, topicsOf]

theorem topicsOf_heed (hub : Hub) (source c : ConnectionId) (frame : Frame) :
    (hub.heed source frame).topicsOf c =
      if source = c then frame.applied (hub.topicsOf c) else hub.topicsOf c := by
  obtain ⟨event, named, _, _, _, _⟩ := frame
  ext topic
  cases event with
  | subscribe =>
    cases named with
    | none => simp [heed, Frame.operation?, Frame.applied, topicsOf, Subscribers.applyAll]
    | some named =>
      apply Subscribers.mem_add.trans
      by_cases same : source = c
      · simp [same, Frame.applied, topicsOf, eq_comm, or_comm]
      · simp [same, Ne.symm same, topicsOf]
  | unsubscribe =>
    cases named with
    | none => simp [heed, Frame.operation?, Frame.applied, topicsOf, Subscribers.applyAll]
    | some named =>
      apply Subscribers.mem_remove.trans
      by_cases same : source = c
      · simp [same, Frame.applied, topicsOf, eq_comm]
      · simp [same, Ne.symm same, topicsOf]
  | _ => simp [heed, Frame.operation?, Frame.applied, topicsOf, Subscribers.applyAll]

theorem proper_heed (proper : hub.subscribers.Proper) (source : ConnectionId) (frame : Frame) :
    (hub.heed source frame).subscribers.Proper := by
  simp only [heed]
  cases asked : frame.operation? source with
  | none => exact proper
  | some operation =>
    cases operation with
    | add topic c => exact proper.add topic c
    | remove topic c => exact proper.remove topic c
    | removeAll c => exact proper.removeAll c

end Hub

namespace Server

variable {server : Server} {c : ConnectionId}

def standing (server : Server) (c : ConnectionId) : Standing where
  inbox := Table.get? server.inboxes c
  topics := server.hub.topicsOf c

/-- What a server keeps to: the open connections are the registered ones, only registered
connections are listed, and no sends fail. -/
structure Sound (server : Server) : Prop where
  proper : server.hub.subscribers.Proper
  registered : ∀ c, c ∈ server.hub.connections ↔ Table.get? server.inboxes c ≠ none
  listed : ∀ c topic, topic ∈ server.hub.topicsOf c → c ∈ server.hub.connections
  sendable : server.hub.broken = []

theorem sound_empty : ({} : Server).Sound where
  proper := Subscribers.proper_nil
  registered := by simp
  listed := by simp [Hub.topicsOf, Subscribers.on]
  sendable := rfl

/-- A connection that is not open is listed under nothing. -/
theorem Sound.standing_of_none (h : server.Sound) (closed : Table.get? server.inboxes c = none) :
    server.standing c = {} := by
  have unlisted : server.hub.topicsOf c = ∅ := by
    ext topic
    simp only [Set.mem_empty_iff_false, iff_false]
    intro listed
    exact (h.registered c).1 (h.listed c topic listed) closed
  exact Standing.ext closed unlisted

theorem Sound.connect (h : server.Sound) (c : ConnectionId) : (server.connect c).Sound where
  proper := by
    simp only [Server.connect, Hub.attach]
    split <;> exact h.proper
  registered d := by
    simp only [Server.connect]
    rw [Hub.mem_connections_attach, h.registered, Table.get?_set]
    by_cases same : c = d
    · simp [same]
    · simp [same, Ne.symm same]
  listed d topic listed := by
    simp only [Server.connect, Hub.topicsOf_attach] at listed
    exact (Hub.mem_connections_attach server.hub c).2 (.inl (h.listed d topic listed))
  sendable := by
    simp only [Server.connect, Hub.attach]
    split <;> exact h.sendable

/-- What is put into the inbox of an open connection changes nothing else. -/
theorem Sound.set_inbox (h : server.Sound) (opened : Table.get? server.inboxes c ≠ none)
    (inbox : Inbox) :
    ({ server with inboxes := Table.set server.inboxes c inbox } : Server).Sound where
  proper := h.proper
  registered d := by
    rw [h.registered, Table.get?_set]
    by_cases same : c = d
    · simp [← same, opened]
    · simp [same]
  listed := h.listed
  sendable := h.sendable

theorem Sound.heed (h : server.Sound) (opened : Table.get? server.inboxes c ≠ none)
    (frame : Frame) : ({ server with hub := server.hub.heed c frame } : Server).Sound where
  proper := Hub.proper_heed h.proper c frame
  registered := h.registered
  listed d topic listed := by
    rw [Hub.topicsOf_heed] at listed
    split at listed
    next same => exact (h.registered d).2 (same ▸ opened)
    next => exact h.listed d topic listed
  sendable := h.sendable

theorem Sound.close (h : server.Sound) (c : ConnectionId) : (server.close c).Sound where
  proper := h.proper.removeAll c
  registered d := by
    apply (Hub.mem_connections_detach _ c).trans
    simp only [Server.close, Table.get?_erase]
    by_cases same : c = d
    · simp [same]
    · simp [same, Ne.symm same, ← h.registered]
  listed d topic listed := by
    simp only [Server.close, Hub.topicsOf_disconnect] at listed
    split at listed
    · contradiction
    next other =>
      exact (Hub.mem_connections_detach _ c).2 ⟨h.listed d topic listed, Ne.symm other⟩
  sendable := h.sendable

theorem standing_close (server : Server) (c d : ConnectionId) :
    (server.close d).standing c = if d = c then {} else server.standing c := by
  apply Standing.ext
  · simp only [standing, Server.close, Table.get?_erase]
    split <;> rfl
  · simp only [standing, Server.close, Hub.topicsOf_disconnect]
    split <;> rfl

theorem Sound.closeAll (h : server.Sound) (cs : List ConnectionId) :
    (cs.foldl Server.close server).Sound ∧
      ∀ c, (cs.foldl Server.close server).standing c =
        if c ∈ cs then {} else server.standing c := by
  induction cs generalizing server with
  | nil => exact ⟨h, fun c => rfl⟩
  | cons d cs ih =>
    obtain ⟨sound, standing⟩ := ih (h.close d)
    refine ⟨sound, fun c => ?_⟩
    rw [List.foldl_cons, standing, standing_close]
    by_cases later : c ∈ cs
    · simp [later]
    · by_cases same : d = c
      · simp [same]
      · simp [later, same, Ne.symm same]

theorem Sound.standing_shutdown (h : server.Sound) (c : ConnectionId) :
    server.shutdown.standing c = {} := by
  rw [shutdown, (h.closeAll _).2]
  split
  · rfl
  next absent => exact h.standing_of_none (Table.get?_of_not_mem_keys absent)

/-- A step keeps a server sound. -/
theorem Sound.step (h : server.Sound) (step : Step) : (server.step step).2.Sound := by
  cases step with
  | connect c => exact h.connect c
  | arrive c bytes =>
    simp only [Server.step, arrive]
    split
    next inbox found => exact h.set_inbox (by simp [found]) _
    next => exact h
  | cease c ending =>
    simp only [Server.step, cease]
    split
    next inbox found => exact h.set_inbox (by simp [found]) _
    next => exact h
  | turn c =>
    rw [Server.step]
    cases found : Table.get? server.inboxes c with
    | none =>
      simp only [turn, found]
      exact h
    | some inbox =>
      have opened : Table.get? server.inboxes c ≠ none := by simp [found]
      rw [turn_eq found]
      cases inbox.next with
      | frame frame rest => exact (h.heed opened frame).set_inbox opened _
      | fault fault => exact h.close c
      | closed => exact h.close c
      | nothing => exact h
  | stop c => exact h.close c
  | shutdown => exact (h.closeAll _).1

theorem standing_turn (server : Server) (c d : ConnectionId) :
    (server.turn d).2.standing c =
      if d = c then (server.standing c).turn else server.standing c := by
  cases found : Table.get? server.inboxes d with
  | none =>
    simp only [turn, found]
    split
    next same => simp only [Standing.turn, standing, ← same, found]
    next => rfl
  | some inbox =>
    rw [turn_eq found]
    have turned : (server.standing d).turn =
        match inbox.next with
        | .frame frame rest =>
          { inbox := some { inbox with bytes := rest }
            topics := frame.applied (server.hub.topicsOf d) }
        | .fault _ | .closed => {}
        | .nothing => server.standing d := by
      simp only [Standing.turn, standing, found]
    by_cases same : d = c
    · subst same
      rw [if_pos rfl, turned]
      cases inbox.next with
      | frame frame rest =>
        apply Standing.ext
        · exact (Table.get?_set server.inboxes d d _).trans (if_pos rfl)
        · exact (Hub.topicsOf_heed server.hub d d frame).trans (if_pos rfl)
      | fault fault => exact (server.standing_close d d).trans (if_pos rfl)
      | closed => exact (server.standing_close d d).trans (if_pos rfl)
      | nothing => rfl
    · rw [if_neg same]
      cases inbox.next with
      | frame frame rest =>
        apply Standing.ext
        · exact (Table.get?_set server.inboxes d c _).trans (if_neg same)
        · exact (Hub.topicsOf_heed server.hub d c frame).trans (if_neg same)
      | fault fault => exact (server.standing_close c d).trans (if_neg same)
      | closed => exact (server.standing_close c d).trans (if_neg same)
      | nothing => rfl

/-- How a connection stands after a step is told by how it stood before. -/
theorem Sound.standing_step (h : server.Sound) (c : ConnectionId) (step : Step) :
    (server.step step).2.standing c = (server.standing c).after c step := by
  cases step with
  | connect d =>
    simp only [Server.step, Server.connect, Standing.after, standing, Table.get?_set,
      Hub.topicsOf_attach]
    split <;> rfl
  | arrive d bytes =>
    simp only [Server.step, arrive, Standing.after]
    by_cases same : d = c
    · subst same
      cases found : Table.get? server.inboxes d <;> simp [standing, found]
    · rw [if_neg same]
      cases Table.get? server.inboxes d <;> simp [standing, same]
  | cease d ending =>
    simp only [Server.step, cease, Standing.after]
    by_cases same : d = c
    · subst same
      cases found : Table.get? server.inboxes d <;> simp [standing, found]
    · rw [if_neg same]
      cases Table.get? server.inboxes d <;> simp [standing, same]
  | turn d => exact server.standing_turn c d
  | stop d => exact server.standing_close c d
  | shutdown => exact h.standing_shutdown c

theorem run_concat (server : Server) (steps : List Step) (step : Step) :
    server.run (steps ++ [step]) =
      ((server.run steps).1 ++ ((server.run steps).2.step step).1,
        ((server.run steps).2.step step).2) := by
  rw [run_append]
  simp [run]

theorem sound_run (steps : List Step) : (run {} steps).2.Sound := by
  induction steps using List.reverseRecOn with
  | nil => exact sound_empty
  | append_singleton steps step ih =>
    rw [run_concat]
    exact ih.step step

/-- How a connection stands after a run is told by the steps alone. -/
theorem standing_run (c : ConnectionId) (steps : List Step) :
    (run {} steps).2.standing c = steps.foldl (Standing.after c) {} := by
  induction steps using List.reverseRecOn with
  | nil => exact sound_empty.standing_of_none rfl
  | append_singleton steps step ih =>
    rw [run_concat, (sound_run steps).standing_step, ih, List.foldl_append]
    rfl

end Server

end Fanout
