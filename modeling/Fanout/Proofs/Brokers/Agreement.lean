import Fanout.Proofs.Brokers.OnBus
import Fanout.Proofs.Brokers.OnRelay

/-!
# Brokers agree

Processes cannot tell brokers on a shared bus from brokers around a hub (`brokers_agree`): both do
what brokers have to do.
-/

namespace Fanout

namespace Network

variable {network : Network}

/-- A session that starts without listeners puts nothing on its way. -/
theorem Quiet.connect (h : network.Quiet) (node : Nat)
    (silent : ∀ topic, network.hasListener node topic = false) :
    (network.connect node).Quiet := by
  rcases network.connect_cases node with ⟨same, -⟩ | ⟨link, at_, -, eq⟩
  · rw [same]
    exact h
  · have greeting : link.greeting = [] := by
      rw [Link.greeting, List.map_eq_nil_iff, List.eq_nil_iff_forall_not_mem]
      intro topic member
      have listed := Listeners.mem_topics.1 member
      rw [← hasListener_eq at_, silent] at listed
      contradiction
    rw [eq]
    rw [Network.joined, greeting]
    constructor
    · intro c wire found
      rcases getElem?_concat_eq_some.1 found with before | ⟨-, rfl⟩
      · exact h.1 c wire before
      · exact ⟨rfl, .inl rfl⟩
    · intro wire member
      rcases List.mem_append.1 member with before | new
      · exact h.2 wire before
      · rw [List.mem_singleton.1 new]

theorem settled_ofNodes (ids : List String) : (ofNodes ids).Settled where
  sound := sound_ofNodes ids
  quiet := by
    constructor
    · intro c wire at_
      contradiction
    · intro wire member
      contradiction

theorem ids_ofNodes (ids : List String) : (ofNodes ids).ids = ids := by
  simp [Network.ids, ofNodes, Function.comp_def]

theorem board_ofNodes (ids : List String) :
    (ofNodes ids).board = { Board.fresh ids.length with connected := fun _ => false } := by
  apply Board.ext
  · exact List.length_map ..
  · rfl
  · funext p topic
    show (ofNodes ids).hasListener p topic = false
    simp only [hasListener, ofNodes]
    rw [List.getElem?_map]
    cases ids[p]? <;> rfl

/-- Connecting the first so many nodes, one after the other. -/
theorem connected_range (ids : List String) (n : Nat) :
    ((ofNodes ids).run ((List.range n).map .connect)).2.Settled ∧
      ((ofNodes ids).run ((List.range n).map .connect)).2.ids = ids ∧
      ((ofNodes ids).run ((List.range n).map .connect)).2.board =
        { Board.fresh ids.length with
          connected := fun p => decide (p < ids.length) && decide (p < n) } := by
  induction n with
  | zero =>
    refine ⟨settled_ofNodes ids, ids_ofNodes ids, (board_ofNodes ids).trans ?_⟩
    simp
  | succ n ih =>
    have last : ((ofNodes ids).run ((List.range (n + 1)).map .connect)).2 =
        ((ofNodes ids).run ((List.range n).map .connect)).2.connect n := by
      rw [List.range_succ, List.map_append, run_append]
      rfl
    rw [last]
    generalize ((ofNodes ids).run ((List.range n).map .connect)).2 = network at ih
    obtain ⟨settled, same, board⟩ := ih
    have silent : ∀ topic, network.hasListener n topic = false := by
      intro topic
      exact congrFun (congrFun (congrArg Board.listens board) n) topic
    refine ⟨⟨settled.sound.step (.connect n), settled.quiet.connect n silent⟩, ?_, ?_⟩
    · rw [ids_connect, same]
    · apply (settled.sound.board_step (.reconnect n)).trans
      rw [board]
      refine Board.ext rfl (funext fun p => ?_) rfl
      simp only [Board.use, Board.fresh, Nat.lt_succ_iff_lt_or_eq]
      by_cases same : n = p
      · subst same
        by_cases inside : n < ids.length <;> simp [inside]
      · simp [same, Ne.symm same]

/-- All nodes connected one after the other: nothing is on its way, and everyone is connected. -/
theorem settled_connected (ids : List String) :
    (connected ids).Settled ∧ (connected ids).ids = ids ∧
      (connected ids).board = .fresh ids.length := by
  obtain ⟨settled, same, board⟩ := connected_range ids ids.length
  refine ⟨settled, same, board.trans (Board.ext rfl (funext fun p => ?_) rfl)⟩
  exact Bool.and_self _

end Network

/-- In every run of uses of brokers that are all connected and without listeners at first, brokers
on a shared bus and brokers around a hub give each process the same answers and call its listeners
with the same payloads in the same order, and the same topics have listeners afterwards. Around the
hub this is so in whatever order things that are on their way are handled, and they can be
handled. -/
theorem brokers_agree {α : Type} (forms : Forms α) (ids : List String) (uses : List Use)
    (fits : ∀ use ∈ uses, use.Fits ids) :
    (∃ outcomes after, (Network.connected ids).UsesAll uses outcomes after) ∧
    ∀ outcomes after, (Network.connected ids).UsesAll uses outcomes after →
      (∀ p, ((World.connected forms ids.length).useAll forms uses).1.map (Outcome.seenBy p) =
        outcomes.map (Outcome.seenBy p)) ∧
      ∀ p topic, ((World.connected forms ids.length).useAll forms uses).2.hasListener p topic =
        after.hasListener p topic := by
  have plain := World.connected_plain forms ids.length
  obtain ⟨settled, same, board⟩ := Network.settled_connected ids
  refine ⟨settled.sound.exists_usesAll uses, fun outcomes after run => ?_⟩
  rw [← same] at fits
  obtain ⟨busAfter, busSeen⟩ := plain.useAll forms uses
  obtain ⟨relayAfter, relaySeen⟩ := settled.usesAll fits run
  rw [World.connected_board] at busAfter busSeen
  rw [board] at relayAfter relaySeen
  constructor
  · intro p
    rw [busSeen, relaySeen]
  · intro p topic
    have after := busAfter.trans relayAfter.symm
    exact congrFun (congrFun (congrArg Board.listens after) p) topic

/-- A process that listens misses what is published while it is away, and hears what comes after its
return. -/
def reunion : List Use :=
  [.subscribe 1 .messages "first", .lose 1 0, .publish 0 .messages [1], .reconnect 1,
    .publish 0 .messages [2], .subscribe 1 .messages "second"]

theorem brokers_agree_reunion :
    (∀ use ∈ reunion, use.Fits ["left", "right"]) ∧
      ∃ outcomes after, (Network.connected ["left", "right"]).UsesAll reunion outcomes after ∧
        outcomes.map (Outcome.seenBy 1) =
          [(some true, []), (none, []), (none, []), (none, []), (none, [(.messages, [2])]),
            (some false, [])] := by
  have fits : ∀ use ∈ reunion, use.Fits ["left", "right"] := by decide +kernel
  have both := brokers_agree (fun _ => .text) ["left", "right"] reunion fits
  obtain ⟨⟨outcomes, after, run⟩, agree⟩ := both
  refine ⟨fits, outcomes, after, run, ((agree outcomes after run).1 1).symm.trans ?_⟩
  decide +kernel

end Fanout
