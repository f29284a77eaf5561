import Fanout.Proofs.Hub.Doings

/-!
# Sessions

The peer of a connection connects, sends chunks of bytes and then ends (`Session`), while anything
else may happen at the server. What comes of the connection is the course that its input takes: as
long as it is open, the frames that were handled and the bytes in its inbox are together the course
of its input, and afterwards the frames that were handled and the fault that was reported are all
that comes of it, unless the server was shut down (`Life`, `life_run`).
-/

namespace Fanout

/-- The report that a course ends with, if it ends with a fault. -/
def Course.reports (course : Course) : List Frame :=
  course.fault.toList.map fun fault => .report fault.code fault.message

/-- What has come of a connection with some input and, if it is known, an end: what is in its inbox
if it is open, the frames that were handled, and the faults that were reported. -/
inductive Life (input : Bytes) (known : Option Ending) (stopped : Prop) :
    Option Inbox → List Frame → List Frame → Prop
  /-- It is open, and what is in its inbox goes on from the frames that were handled. -/
  | running (inbox : Inbox) (frames : List Frame) (sameEnding : inbox.ending = known)
    (bounded : inbox.bytes.length ≤ input.length)
    (follows : ∀ more ending, Frame.Continues known more ending →
      Course.of (input ++ more) ending = (Course.of (inbox.bytes ++ more) ending).behind frames) :
      Life input known stopped (some inbox) frames []
  /-- It has ended, and that was all that comes of its input. -/
  | ended (course : Course)
    (settled : ∀ more ending, Frame.Continues known more ending →
      Course.of (input ++ more) ending = course) :
      Life input known stopped none course.handled course.reports
  /-- It was stopped before that. -/
  | cut (frames : List Frame) (shutdown : stopped)
    (follows : ∀ more ending, Frame.Continues known more ending →
      frames <+: (Course.of (input ++ more) ending).handled) :
      Life input known stopped none frames []

namespace Life

variable {input : Bytes} {known : Option Ending} {stopped after : Prop} {inbox : Option Inbox}
  {frames reports : List Frame}

theorem fresh (stopped : Prop) : Life [] none stopped (some {}) [] [] :=
  .running {} [] rfl (Nat.le_refl _) fun _ _ _ => rfl

theorem mono (h : Life input known stopped inbox frames reports) (later : stopped → after) :
    Life input known after inbox frames reports := by
  cases h with
  | running inbox _ sameEnding bounded follows =>
    exact .running inbox frames sameEnding bounded follows
  | ended course settled => exact .ended course settled
  | cut _ shutdown follows => exact .cut frames (later shutdown) follows

/-- More input arrives. -/
theorem arrive (h : Life input none stopped inbox frames reports) (bytes : Bytes) :
    Life (input ++ bytes) none stopped
      (inbox.map fun inbox => { inbox with bytes := inbox.bytes ++ bytes }) frames reports := by
  cases h with
  | running inbox _ sameEnding bounded follows =>
    refine .running _ frames sameEnding (by simpa using bounded) fun more ending _ => ?_
    have further := follows (bytes ++ more) ending (Frame.continues_none _ ending)
    simpa using further
  | ended course settled =>
    refine .ended course fun more ending _ => ?_
    rw [List.append_assoc]
    exact settled (bytes ++ more) ending (Frame.continues_none _ ending)
  | cut _ shutdown follows =>
    refine .cut frames shutdown fun more ending _ => ?_
    rw [List.append_assoc]
    exact follows (bytes ++ more) ending (Frame.continues_none _ ending)

/-- The end of the input becomes known. -/
theorem cease (h : Life input none stopped inbox frames reports) (last : Ending) :
    Life input (some last) stopped (inbox.map fun inbox => { inbox with ending := some last })
      frames reports := by
  cases h with
  | running inbox _ sameEnding bounded follows =>
    exact .running _ frames rfl bounded fun more ending _ =>
      follows more ending (Frame.continues_none more ending)
  | ended course settled =>
    exact .ended course fun more ending _ => settled more ending (Frame.continues_none more ending)
  | cut _ shutdown follows =>
    exact .cut frames shutdown fun more ending _ =>
      follows more ending (Frame.continues_none more ending)

theorem opened {inbox : Inbox} (h : Life input known stopped (some inbox) frames reports) :
    inbox.ending = known ∧ inbox.bytes.length ≤ input.length := by
  cases h with
  | running _ _ sameEnding bounded => exact ⟨sameEnding, bounded⟩

/-- What has come of a connection is part of what comes of its input, however that continues. -/
theorem course (h : Life input known stopped inbox frames reports) {more : Bytes} {ending : Ending}
    (continues : Frame.Continues known more ending) :
    let course := Course.of (input ++ more) ending
    (inbox ≠ none → frames <+: course.handled ∧ reports = []) ∧
      (inbox = none → frames = course.handled ∧ reports = course.reports ∨
        stopped ∧ frames <+: course.handled ∧ reports = []) := by
  cases h with
  | running inbox _ _ _ follows =>
    refine ⟨fun _ => ⟨?_, rfl⟩, fun closed => by contradiction⟩
    rw [follows more ending continues]
    exact List.prefix_append frames _
  | ended course settled =>
    have whole := settled more ending continues
    exact ⟨fun opened => by contradiction, fun _ => .inl (whole ▸ ⟨rfl, rfl⟩)⟩
  | cut _ shutdown follows =>
    exact ⟨fun opened => by contradiction,
      fun _ => .inr ⟨shutdown, follows more ending continues, rfl⟩⟩

/-- The connection is stopped. -/
theorem stop (h : Life input known stopped inbox frames reports) (now : stopped) :
    Life input known stopped none frames reports := by
  cases h with
  | running inbox _ _ _ follows =>
    refine .cut frames now fun more ending continues => ?_
    rw [follows more ending continues]
    exact List.prefix_append frames _
  | ended course settled => exact .ended course settled
  | cut _ shutdown follows => exact .cut frames shutdown follows

/-- The connection takes a turn. -/
theorem turn {standing : Standing}
    (h : Life input known stopped standing.inbox frames reports) :
    Life input known stopped standing.turn.inbox
      (frames ++ ((standing.inbox.map Inbox.next).getD .nothing).handled)
      (reports ++ ((standing.inbox.map Inbox.next).getD .nothing).reports) := by
  obtain ⟨opened, topics⟩ := standing
  cases opened with
  | none => simpa [Standing.turn] using h
  | some inbox =>
    cases h with
    | running _ _ sameEnding bounded follows =>
      -- what stands next is the next part of the course that is still to come
      have goesOn : ∀ more ending, Frame.Continues known more ending →
          Course.of (input ++ more) ending = Course.behind frames
            (inbox.next.course (Course.of (inbox.bytes ++ more) ending) more ending) := by
        intro more ending continues
        rw [follows more ending continues]
        exact congrArg _ (inbox.course_next (sameEnding ▸ continues))
      simp only [Standing.turn, Option.map_some, Option.getD_some, List.nil_append]
      cases next : inbox.next with
      | frame frame rest =>
        rw [next] at goesOn
        refine .running _ _ sameEnding ?_ fun more ending continues => ?_
        · exact Nat.le_trans (Nat.le_of_lt (Inbox.length_rest_lt next)) bounded
        · rw [goesOn more ending continues]
          exact Course.behind_behind frames [frame] _
      | fault fault =>
        rw [next] at goesOn
        exact .ended (Course.behind frames { handled := [], fault := some fault }) goesOn
      | closed =>
        rw [next] at goesOn
        exact .ended (Course.behind frames { handled := [], fault := none }) goesOn
      | nothing =>
        rw [Inbox.Next.handled_nothing, List.append_nil]
        exact .running inbox frames sameEnding bounded follows

end Life

namespace Server

/-- Whether a step is what the peer of a connection does. -/
def Step.isPeer (c : ConnectionId) : Step → Bool
  | .connect d | .arrive d _ | .cease d _ => decide (d = c)
  | .turn _ | .stop _ | .shutdown => false

/-- Whether a step ends a connection because the hub is shut down. -/
def Step.stops (c : ConnectionId) : Step → Bool
  | .stop d => decide (d = c)
  | .shutdown => true
  | _ => false

/-- The peer of a connection connects once, then sends chunks, and then ends if an end is told.
Anything else may happen before, between and after. -/
def Session (c : ConnectionId) (chunks : List Bytes) (ending : Option Ending)
    (steps : List Step) : Prop :=
  steps.filter (Step.isPeer c) =
    .connect c :: (chunks.map (.arrive c) ++ ending.toList.map (.cease c))

instance (c : ConnectionId) (chunks : List Bytes) (ending : Option Ending) (steps : List Step) :
    Decidable (Session c chunks ending steps) :=
  inferInstanceAs (Decidable (_ = _))

variable {c : ConnectionId} {chunks : List Bytes} {ending : Option Ending} {steps : List Step}
  {step : Step}

/-- Apart from what its peer does, a connection takes a turn, or is stopped, or is not touched. -/
theorem Step.cases_of_not_peer (apart : step.isPeer c = false) (standing : Standing) :
    step = .turn c ∨
      upNext c standing step = .nothing ∧
        (step.stops c = true ∧ standing.after c step = {} ∨
          step.stops c = false ∧ standing.after c step = standing) := by
  cases step with
  | turn d =>
    by_cases same : d = c
    · exact .inl (congrArg _ same)
    · exact .inr (by simp [upNext, Step.stops, Standing.after, same])
  | stop d => by_cases same : d = c <;> simp [upNext, Step.stops, Standing.after, same]
  | shutdown => simp [upNext, Step.stops, Standing.after]
  | connect d | arrive d | cease d =>
    have other : d ≠ c := by simpa [Step.isPeer] using apart
    simp [upNext, Step.stops, Standing.after, other]

end Server

/-- A step that is not its peer's. -/
theorem Life.step {c : ConnectionId} {input : Bytes} {known : Option Ending} {stopped : Prop}
    {frames reports : List Frame} {standing : Standing} {step : Server.Step}
    (h : Life input known stopped standing.inbox frames reports)
    (apart : step.isPeer c = false) (told : step.stops c = true → stopped) :
    Life input known stopped (standing.after c step).inbox
      (frames ++ (Server.upNext c standing step).handled)
      (reports ++ (Server.upNext c standing step).reports) := by
  obtain rfl | ⟨idle, ⟨stops, after⟩ | ⟨-, after⟩⟩ := step.cases_of_not_peer apart standing
  · simpa [Server.upNext, Standing.after] using h.turn
  · simpa [idle, after] using h.stop (told stops)
  · simpa [idle, after] using h

namespace Server

variable {c : ConnectionId} {chunks : List Bytes} {ending : Option Ending} {steps : List Step}
  {step : Step}

/-- The ways in which a session can have come to its last step. -/
theorem Session.cases_concat (session : Session c chunks ending (steps ++ [step])) :
    (step.isPeer c = false ∧ Session c chunks ending steps) ∨
      (step = .connect c ∧ chunks = [] ∧ ending = none ∧ steps.filter (Step.isPeer c) = []) ∨
      (∃ before bytes, step = .arrive c bytes ∧ chunks = before ++ [bytes] ∧ ending = none ∧
        Session c before none steps) ∨
      ∃ last, step = .cease c last ∧ ending = some last ∧ Session c chunks none steps := by
  cases peer : step.isPeer c with
  | false =>
    refine .inl ⟨rfl, ?_⟩
    simpa [Session, List.filter_append, peer] using session
  | true =>
    refine .inr ?_
    simp only [Session, List.filter_append, List.filter_singleton, peer] at session
    cases ending with
    | some last =>
      have same : steps.filter (Step.isPeer c) ++ [step] =
          (.connect c :: chunks.map (.arrive c)) ++ [.cease c last] := session
      obtain ⟨before, now⟩ := List.append_inj' same rfl
      refine .inr (.inr ⟨last, List.singleton_inj.1 now, rfl, ?_⟩)
      simpa [Session] using before
    | none =>
      obtain rfl | ⟨before, bytes, rfl⟩ := List.eq_nil_or_concat chunks
      · have same : steps.filter (Step.isPeer c) ++ [step] = [] ++ [.connect c] := session
        obtain ⟨before, now⟩ := List.append_inj' same rfl
        exact .inl ⟨List.singleton_inj.1 now, rfl, rfl, before⟩
      · have same : steps.filter (Step.isPeer c) ++ [step] =
            (.connect c :: before.map (.arrive c)) ++ [.arrive c bytes] := by
          simpa using session
        obtain ⟨prior, now⟩ := List.append_inj' same rfl
        refine .inr (.inl ⟨before, bytes, List.singleton_inj.1 now, List.concat_eq_append, rfl, ?_⟩)
        simpa [Session] using prior

/-- Nothing has come of a connection whose peer has done nothing. -/
theorem idle_run (idle : steps.filter (Step.isPeer c) = []) :
    ((run {} steps).2.standing c).inbox = none ∧ handled c steps = [] ∧ reports c steps = [] := by
  induction steps using List.reverseRecOn with
  | nil => exact ⟨rfl, rfl, rfl⟩
  | append_singleton steps step ih =>
    obtain ⟨before, now⟩ := List.append_eq_nil_iff.1 (List.filter_append .. ▸ idle)
    obtain ⟨closed, none_, unreported⟩ := ih before
    have apart : step.isPeer c = false := by simpa using now
    rw [handled_concat, reports_concat, run_concat, (sound_run steps).standing_step, none_,
      unreported]
    obtain rfl | ⟨still, ⟨-, after⟩ | ⟨-, after⟩⟩ :=
      step.cases_of_not_peer apart ((run {} steps).2.standing c)
    · simp [upNext, Standing.after, Standing.turn, closed]
    · simp [still, after]
    · simp [still, after, closed]

/-- Whether a connection was stopped in the course of a run. -/
def Stopped (c : ConnectionId) (steps : List Step) : Prop :=
  ∃ step ∈ steps, Step.stops c step = true

instance (c : ConnectionId) (steps : List Step) : Decidable (Stopped c steps) :=
  inferInstanceAs (Decidable (∃ step ∈ steps, Step.stops c step = true))

/-- What has come of a connection in the course of a run is told by what its peer has done. -/
theorem life_run (session : Session c chunks ending steps) :
    Life chunks.flatten ending (Stopped c steps) ((run {} steps).2.standing c).inbox
      (handled c steps) (reports c steps) := by
  induction steps using List.reverseRecOn generalizing chunks ending with
  | nil => simp [Session] at session
  | append_singleton steps step ih =>
    have later : Stopped c steps → Stopped c (steps ++ [step]) := by
      rintro ⟨earlier, member, stops⟩
      exact ⟨earlier, List.mem_append_left _ member, stops⟩
    rw [run_concat, (sound_run steps).standing_step, handled_concat, reports_concat]
    obtain ⟨apart, before⟩ | ⟨rfl, rfl, rfl, idle⟩ | ⟨before, bytes, rfl, rfl, rfl, sent⟩ |
      ⟨last, rfl, rfl, sent⟩ := session.cases_concat
    · exact ((ih before).mono later).step apart fun stops => ⟨step, by simp, stops⟩
    · obtain ⟨closed, none_, unreported⟩ := idle_run idle
      simpa [Standing.after, upNext, none_, unreported] using Life.fresh _
    · simpa [Standing.after, upNext] using ((ih sent).mono later).arrive bytes
    · simpa [Standing.after, upNext] using ((ih sent).mono later).cease last

end Server

end Fanout
