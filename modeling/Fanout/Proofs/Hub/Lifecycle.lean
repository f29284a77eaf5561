import Fanout.Proofs.Hub.Sessions

/-!
# The life of a connection

A connection that is given enough turns comes to its end (`idle_of_turns`), and one that is left out
of a run is missed by no other (`standing_without`). Main statement: what a connection sends and how
it ends tell which of its frames are handled and which fault it is told of, its end leaves nothing
behind, and the other connections stand as if it had never been there (`lifecycle_exact`).
-/

namespace Fanout

namespace Standing

variable {standing : Standing} {c d : ConnectionId} {step : Server.Step} {more : List Server.Step}

/-- The connection is not open, or nothing stands next in its inbox. -/
def Idle (standing : Standing) : Prop :=
  ∀ inbox ∈ standing.inbox, inbox.next = .nothing

theorem idle_empty : ({} : Standing).Idle := by
  rintro inbox ⟨⟩

/-- A turn leaves nothing to do, or fewer bytes. -/
theorem idle_or_shorter (standing : Standing) :
    standing.turn.Idle ∨
      ∀ left ∈ standing.turn.inbox, ∃ inbox ∈ standing.inbox,
        left.bytes.length < inbox.bytes.length := by
  obtain ⟨opened, topics⟩ := standing
  cases opened with
  | none => exact .inl idle_empty
  | some inbox =>
    simp only [turn]
    cases next : inbox.next with
    | frame frame rest =>
      refine .inr fun left member => ⟨inbox, rfl, ?_⟩
      obtain rfl := Option.mem_some_iff.1 member
      exact Inbox.length_rest_lt next
    | fault | closed => exact .inl idle_empty
    | nothing =>
      refine .inl fun left member => ?_
      obtain rfl := Option.mem_some_iff.1 member
      exact next

theorem Idle.turn_eq (h : standing.Idle) : standing.turn = standing := by
  obtain ⟨opened, topics⟩ := standing
  cases opened with
  | none => rfl
  | some inbox => simp only [turn, h inbox rfl]

theorem Idle.after (h : standing.Idle) (apart : step.isPeer c = false) :
    (standing.after c step).Idle := by
  obtain rfl | ⟨-, ⟨-, after⟩ | ⟨-, after⟩⟩ := step.cases_of_not_peer apart standing
  · simpa [Standing.after, h.turn_eq] using h
  · rw [after]
    exact idle_empty
  · rwa [after]

theorem Idle.foldl (h : standing.Idle) (apart : ∀ step ∈ more, step.isPeer c = false) :
    (more.foldl (Standing.after c) standing).Idle := by
  induction more generalizing standing with
  | nil => exact h
  | cons step more ih =>
    exact ih (h.after (apart step List.mem_cons_self)) fun other member =>
      apart other (List.mem_cons_of_mem step member)

/-- After more turns than there are bytes in its inbox a connection has nothing left to do, whatever
else happens. -/
theorem idle_of_turns (apart : ∀ step ∈ more, step.isPeer c = false)
    (enough : ∀ inbox ∈ standing.inbox, inbox.bytes.length < more.count (.turn c)) :
    (more.foldl (Standing.after c) standing).Idle := by
  induction more generalizing standing with
  | nil =>
    intro inbox member
    exact absurd (enough inbox member) (Nat.not_lt_zero _)
  | cons step more ih =>
    have apart' : ∀ other ∈ more, other.isPeer c = false := fun other member =>
      apart other (List.mem_cons_of_mem step member)
    rw [List.foldl_cons]
    by_cases turns : step = .turn c
    · subst turns
      simp only [List.count_cons_self] at enough
      have after : standing.after c (.turn c) = standing.turn := if_pos rfl
      rw [after]
      obtain idle | shorter := standing.idle_or_shorter
      · exact idle.foldl apart'
      · refine ih apart' fun left member => ?_
        obtain ⟨inbox, found, less⟩ := shorter left member
        have := enough inbox found
        omega
    · rw [List.count_cons_of_ne turns] at enough
      obtain rfl | ⟨-, ⟨-, after⟩ | ⟨-, after⟩⟩ :=
        step.cases_of_not_peer (apart step List.mem_cons_self) standing
      · contradiction
      · rw [after]
        exact idle_empty.foldl apart'
      · rw [after]
        exact ih apart' enough

end Standing

namespace Server

variable {c d : ConnectionId} {chunks : List Bytes} {ending : Option Ending} {steps : List Step}
  {step : Step}

/-- Whether a step is one of a connection. -/
def Step.concerns (c : ConnectionId) : Step → Bool
  | .connect d | .arrive d _ | .cease d _ | .turn d | .stop d => decide (d = c)
  | .shutdown => false

/-- A run without the steps of a connection. -/
def without (c : ConnectionId) (steps : List Step) : List Step :=
  steps.filter fun step => !step.concerns c

theorem after_of_concerns (others : step.concerns c = true) (other : d ≠ c) (standing : Standing) :
    standing.after d step = standing ∧ upNext d standing step = .nothing := by
  cases step with
  | shutdown => contradiction
  | _ e =>
    obtain rfl : e = c := by simpa [Step.concerns] using others
    simp [Standing.after, upNext, Ne.symm other]

theorem without_concat (c : ConnectionId) (steps : List Step) (step : Step) :
    without c (steps ++ [step]) =
      without c steps ++ if step.concerns c then [] else [step] := by
  cases concerned : step.concerns c <;> simp [without, List.filter_append, concerned]

/-- Without the steps of a connection any other stands as it does, the same of its frames are
handled, and the same faults are reported to it. -/
theorem standing_without (other : d ≠ c) (steps : List Step) :
    (run {} (without c steps)).2.standing d = (run {} steps).2.standing d ∧
      handled d (without c steps) = handled d steps ∧
      reports d (without c steps) = reports d steps := by
  induction steps using List.reverseRecOn with
  | nil => exact ⟨rfl, rfl, rfl⟩
  | append_singleton steps step ih =>
    obtain ⟨standing, sameFrames, sameReports⟩ := ih
    rw [without_concat, handled_concat, reports_concat, run_concat,
      (sound_run steps).standing_step]
    cases concerned : step.concerns c with
    | true =>
      obtain ⟨after, idle⟩ := after_of_concerns concerned other ((run {} steps).2.standing d)
      simpa [after, idle] using ⟨standing, sameFrames, sameReports⟩
    | false =>
      simp only [Bool.false_eq_true, if_false]
      rw [handled_concat, reports_concat, run_concat, (sound_run _).standing_step, standing,
        sameFrames, sameReports]
      exact ⟨rfl, rfl, rfl⟩

/-- The connection is open: what arrives on it is read. -/
def Serves (server : Server) (c : ConnectionId) : Prop :=
  Table.get? server.inboxes c ≠ none

instance (server : Server) (c : ConnectionId) : Decidable (server.Serves c) :=
  inferInstanceAs (Decidable (_ ≠ _))

/-- What the life of a connection is in a run of a server if its peer sends some chunks of bytes and
then ends them. -/
structure Lifecycle (c : ConnectionId) (chunks : List Bytes) (ending : Option Ending)
    (steps : List Step) : Prop where
  /-- The hub handles connections that come, the frames that count as handled, and connections that
  end, each in one step, and what is sent is what it sends then, apart from reports of faults. -/
  hub : Hub.run {} (trace {} steps) = ((run {} steps).2.hub, plain (run {} steps).1)
  /-- A connection that is open has had some of its frames handled and no fault reported. -/
  running : (run {} steps).2.Serves c →
    handled c steps <+: (Course.ofStream { chunks, ending := ending.getD .closed }).handled ∧
      reports c steps = []
  /-- A connection that has ended has had all frames before its first fault handled, and that fault
  reported if there is one, unless it was stopped before that. -/
  ended : ¬ (run {} steps).2.Serves c →
    let course := Course.ofStream { chunks, ending := ending.getD .closed }
    handled c steps = course.handled ∧ reports c steps = course.reports ∨
      Stopped c steps ∧ handled c steps <+: course.handled ∧ reports c steps = []
  /-- A connection of which the input ends does not stay open, however its turns come. -/
  terminates : ending ≠ none → ∀ more, (∀ step ∈ more, Step.isPeer c step = false) →
    chunks.flatten.length < more.count (.turn c) → ¬ (run {} (steps ++ more)).2.Serves c
  /-- A connection is registered as long as it is open. -/
  registered : (run {} steps).2.Serves c ↔ c ∈ (run {} steps).2.hub.connections
  /-- A connection that is listed is registered. -/
  listed : ∀ d topic, d ∈ (run {} steps).2.hub.subscribers.on topic →
    d ∈ (run {} steps).2.hub.connections
  /-- A connection that has ended is neither registered nor listed. -/
  gone : ¬ (run {} steps).2.Serves c → c ∉ (run {} steps).2.hub.connections ∧
    ∀ topic, c ∉ (run {} steps).2.hub.subscribers.on topic
  /-- Every other connection is registered and listed as if there had been no such connection, and
  goes its way. -/
  undisturbed : ∀ d ≠ c,
    (d ∈ (run {} steps).2.hub.connections ↔
      d ∈ (run {} (without c steps)).2.hub.connections) ∧
    (∀ topic, d ∈ (run {} steps).2.hub.subscribers.on topic ↔
      d ∈ (run {} (without c steps)).2.hub.subscribers.on topic) ∧
    handled d steps = handled d (without c steps) ∧ reports d steps = reports d (without c steps)

/-- A connection of which the input has ended is closed after enough turns. -/
theorem closes (session : Session c chunks ending steps) (ended : ending ≠ none)
    {more : List Step} (apart : ∀ step ∈ more, Step.isPeer c step = false)
    (enough : chunks.flatten.length < more.count (.turn c)) :
    ((run {} (steps ++ more)).2.standing c).inbox = none := by
  have idle : ((run {} (steps ++ more)).2.standing c).Idle := by
    rw [standing_run, List.foldl_append, ← standing_run]
    refine Standing.idle_of_turns apart fun inbox found => ?_
    exact Nat.lt_of_le_of_lt (found ▸ life_run session).opened.2 enough
  have session' : Session c chunks ending (steps ++ more) := by
    have none_ : more.filter (Step.isPeer c) = [] :=
      List.filter_eq_nil_iff.2 fun step member => by simp [apart step member]
    rw [Session, List.filter_append, none_, List.append_nil]
    exact session
  cases still : ((run {} (steps ++ more)).2.standing c).inbox with
  | none => rfl
  | some inbox =>
    have sameEnding := (still ▸ life_run session').opened.1
    exact absurd (sameEnding.symm.trans (Inbox.of_next_nothing (idle inbox still)).1) ended

/-- What a connection sends and how it ends tell which of its frames are handled and which fault it
is told of; its end leaves nothing behind, and the other connections stand as if it had never been
there. -/
theorem lifecycle_exact (session : Session c chunks ending steps) :
    Lifecycle c chunks ending steps := by
  have sound := sound_run steps
  have whole : Course.ofStream { chunks, ending := ending.getD .closed } =
      Course.of (chunks.flatten ++ []) (ending.getD .closed) := by
    rw [List.append_nil]
    exact Course.ofStream_eq _
  obtain ⟨running, ended⟩ := (life_run session).course (Frame.Continues.nothing ending)
  have gone : ¬ (run {} steps).2.Serves c → c ∉ (run {} steps).2.hub.connections :=
    fun closed member => closed ((sound.registered c).1 member)
  exact {
    hub := hub_run {} steps
    running := fun serves => by
      rw [whole]
      exact running serves
    ended := fun closed => by
      rw [whole]
      exact ended (not_not.1 closed)
    terminates := fun ended more apart enough serves => serves (closes session ended apart enough)
    registered := (sound.registered c).symm
    listed := sound.listed
    gone := fun closed =>
      ⟨gone closed, fun topic listed => gone closed (sound.listed c topic listed)⟩
    undisturbed := fun d other => by
      obtain ⟨standing, sameFrames, sameReports⟩ := standing_without other steps
      have sameTopics := congrArg Standing.topics standing
      have sameInbox : Table.get? (run {} (without c steps)).2.inboxes d =
          Table.get? (run {} steps).2.inboxes d := congrArg Standing.inbox standing
      refine ⟨?_, fun topic => ?_, sameFrames.symm, sameReports.symm⟩
      · rw [sound.registered, (sound_run _).registered, sameInbox]
      · exact (Set.ext_iff.1 sameTopics topic).symm }

/-- Two connections that go on one topic. Then the first sends, in two chunks, a length that no
frame has. -/
def malformed : List Step :=
  [.connect 0, .connect 1, .arrive 0 [0, 0, 0, 11, 0x11, 1, 0, 0, 0, 1, 7], .turn 0,
    .arrive 0 [0, 0], .arrive 1 [0, 0, 0, 11, 0x11, 1, 0, 0, 0, 1, 7], .turn 0, .turn 1,
    .arrive 0 [0, 4], .turn 0]

theorem lifecycle_exact_malformed :
    Session 0 [[0, 0, 0, 11, 0x11, 1, 0, 0, 0, 1, 7], [0, 0], [0, 4]] none malformed ∧
      handled 0 malformed = [.subscribe [7]] ∧
      reports 0 malformed = [.report .malformedTlv (Fault.lengthBelowHeader 4).message] ∧
      0 ∉ (run {} malformed).2.hub.subscribers.on [7] := by
  have session :
      Session 0 [[0, 0, 0, 11, 0x11, 1, 0, 0, 0, 1, 7], [0, 0], [0, 4]] none malformed := by
    decide
  have life := lifecycle_exact session
  have closed : ¬ (run {} malformed).2.Serves 0 := by decide +kernel
  have course : Course.ofStream
      { chunks := [[0, 0, 0, 11, 0x11, 1, 0, 0, 0, 1, 7], [0, 0], [0, 4]] } =
        { handled := [.subscribe [7]], fault := some (.lengthBelowHeader 4) } := by
    decide +kernel
  obtain ⟨frames, told⟩ | ⟨stopped, -⟩ := life.ended closed
  · exact ⟨session, frames.trans (congrArg Course.handled course),
      told.trans (congrArg Course.reports course), (life.gone closed).2 [7]⟩
  · exact absurd stopped (by decide)

end Server

end Fanout
