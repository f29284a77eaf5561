import Fanout.Proofs.Relay.Flow
import Mathlib.Data.List.Induction

/-!
# Where invocations come from

Every listener invocation in a node goes back to a publish of the same payload on the same topic
that was made before, no two invocations in a node go back to the same publish, and those that go
back to publishes of one session come in the order in which these were made
(`at_most_once_in_order`). To show this, every payload on its way is marked with the publish it
comes from; marks move along with the payloads (`Flow.Moves.lift`).
-/

namespace Fanout

namespace Flow

variable {β γ : Type}

/-- The flow with something made of every item. -/
def map (f : β → γ) (flow : Flow β) : Flow γ where
  waiting c := (flow.waiting c).map f
  arriving node := (flow.arriving node).map f

/-- Items that are marked move along with the items without their marks. -/
theorem Moves.lift {f : β → γ} {flow : Flow β} {issued : Option (ConnectionId × γ)}
    {taken : List (Nat × γ)} {after : Flow γ} (moves : (flow.map f).Moves issued taken after)
    {issued' : Option (ConnectionId × β)}
    (marked : issued'.map (fun (c, item) => (c, f item)) = issued) :
    ∃ (taken' : List (Nat × β)) (after' : Flow β), flow.Moves issued' taken' after' ∧
      taken'.map (fun (node, item) => (node, f item)) = taken ∧ after'.map f = after := by
  cases moves with
  | @loses waiting arriving fewer cut =>
    obtain rfl := Option.map_eq_none_iff.1 marked
    have kept : ∀ c, ∃ few, few <+: flow.waiting c ∧ few.map f = waiting c := by
      intro c
      obtain ⟨few, isPrefix, eq⟩ := List.prefix_map_iff.1 (fewer c)
      exact ⟨few, isPrefix, eq.symm⟩
    have kept' : ∀ node, ∃ few, (few = flow.arriving node ∨ few = []) ∧
        few.map f = arriving node := by
      intro node
      rcases cut node with same | none_
      · exact ⟨flow.arriving node, .inl rfl, same.symm⟩
      · exact ⟨[], .inr rfl, none_.symm⟩
    choose waiting' fewer' eq using kept
    choose arriving' cut' eq' using kept'
    exact ⟨[], _, .loses fewer' cut', rfl, Flow.ext (funext eq) (funext eq')⟩
  | issues c item =>
    obtain ⟨⟨d, item'⟩, rfl, same⟩ := Option.map_eq_some_iff.1 marked
    obtain ⟨rfl, rfl⟩ := Prod.mk.inj same
    refine ⟨[], _, .issues d item', rfl, Flow.ext (funext fun e => ?_) rfl⟩
    by_cases here : e = d
    · simp [map, here]
    · simp [map, here]
  | @forwards c item rest arriving first goes =>
    obtain rfl := Option.map_eq_none_iff.1 marked
    obtain ⟨item', rest', first', rfl, rfl⟩ := List.map_eq_cons_iff.1 first
    have went : ∀ node, ∃ more, (more = flow.arriving node ∨
        more = flow.arriving node ++ [item']) ∧ more.map f = arriving node := by
      intro node
      rcases goes node with same | longer
      · exact ⟨flow.arriving node, .inl rfl, same.symm⟩
      · refine ⟨flow.arriving node ++ [item'], .inr rfl, ?_⟩
        rw [longer, List.map_append]
        rfl
    choose arriving' goes' eq using went
    refine ⟨[], _, .forwards first' goes', rfl, Flow.ext (funext fun d => ?_) (funext eq)⟩
    by_cases here : d = c
    · simp [map, here]
    · simp [map, here]
  | @takes node item rest called first calls =>
    obtain rfl := Option.map_eq_none_iff.1 marked
    obtain ⟨item', rest', first', rfl, rfl⟩ := List.map_eq_cons_iff.1 first
    have after' : ∀ other, (if other = node then rest' else flow.arriving other).map f =
        if other = node then rest'.map f else (flow.map f).arriving other := by
      intro other
      split <;> rfl
    rcases calls with rfl | rfl
    · exact ⟨[], _, .takes first' (.inl rfl), rfl, Flow.ext rfl (funext after')⟩
    · exact ⟨[(node, item')], _, .takes first' (.inr rfl), rfl, Flow.ext rfl (funext after')⟩

end Flow

/-- A payload marked with the publish that it comes from: the place of the step and the connection
that it was made on. -/
structure Mark where
  place : Nat
  session : ConnectionId
  item : Item

/-- Of two marks from one session the first was made before the second. -/
def Mark.Before (first second : Mark) : Prop :=
  first.session = second.session → first.place < second.place

/-- What a node takes among all that is taken. -/
def takenBy {β : Type} (node : Nat) (taken : List (Nat × β)) : List β :=
  (taken.filter (·.1 = node)).map Prod.snd

/-- Marks are forwarded in the order of each session, and each node hears them in the order in which
they were forwarded, without any of them twice. -/
structure Orderly (flow : Flow Mark) (forwarded : List Mark) (heard : Nat → List Mark) : Prop where
  session : ∀ c, ∀ mark ∈ flow.waiting c, mark.session = c
  ordered : ∀ c, (forwarded ++ flow.waiting c).Pairwise Mark.Before
  heard : ∀ node, (heard node ++ flow.arriving node).Sublist forwarded

/-- The marks that were made so far and may still be heard. -/
def Known (flow : Flow Mark) (forwarded : List Mark) (mark : Mark) : Prop :=
  mark ∈ forwarded ∨ ∃ c, mark ∈ flow.waiting c

section Orderly

variable {flow after : Flow Mark} {forwarded : List Mark} {heard : Nat → List Mark}
  {c : ConnectionId} {node : Nat} {mark : Mark} {rest : List Mark}

theorem Orderly.loses (h : Orderly flow forwarded heard) {waiting : ConnectionId → List Mark}
    {arriving : Nat → List Mark} (fewer : ∀ c, waiting c <+: flow.waiting c)
    (cut : ∀ node, arriving node = flow.arriving node ∨ arriving node = []) :
    Orderly { waiting, arriving } forwarded heard where
  session c mark member := h.session c mark ((fewer c).subset member)
  ordered c := (h.ordered c).sublist ((List.Sublist.refl forwarded).append (fewer c).sublist)
  heard node := by
    apply List.Sublist.trans _ (h.heard node)
    rcases cut node with same | none_
    · simp [same]
    · simp [none_]

theorem Orderly.issues (h : Orderly flow forwarded heard) (session : mark.session = c)
    (newest : ∀ old, Known flow forwarded old → old.place < mark.place) :
    Orderly { flow with
      waiting := fun d => if d = c then flow.waiting c ++ [mark] else flow.waiting d }
      forwarded heard where
  session d other member := by
    dsimp only at member
    split at member
    next same =>
      rcases List.mem_append.1 member with old | added
      · rw [same]
        exact h.session c other old
      · rw [List.mem_singleton.1 added, same]
        exact session
    next => exact h.session d other member
  ordered d := by
    dsimp only
    split
    next same =>
      rw [← List.append_assoc]
      apply List.pairwise_append.2 ⟨h.ordered c, List.pairwise_singleton _ _, _⟩
      intro old member other added _
      rw [List.mem_singleton.1 added]
      apply newest old
      rcases List.mem_append.1 member with earlier | later
      · exact .inl earlier
      · exact .inr ⟨c, later⟩
    next => exact h.ordered d
  heard := h.heard

theorem Orderly.forwards (h : Orderly flow forwarded heard) (first : flow.waiting c = mark :: rest)
    {arriving : Nat → List Mark} (goes : ∀ node, arriving node = flow.arriving node ∨
      arriving node = flow.arriving node ++ [mark]) :
    Orderly { waiting := fun d => if d = c then rest else flow.waiting d, arriving }
      (forwarded ++ [mark]) heard := by
  have session : mark.session = c := h.session c mark (by rw [first]; exact List.mem_cons_self)
  have before : (forwarded ++ mark :: rest).Pairwise Mark.Before := first ▸ h.ordered c
  constructor
  · intro d other member
    dsimp only at member
    split at member
    next same =>
      rw [same]
      exact h.session c other (by rw [first]; exact List.mem_cons_of_mem mark member)
    next => exact h.session d other member
  · intro d
    rw [List.append_assoc]
    dsimp only
    split
    · exact before
    -- What waits on another connection comes from another session.
    next differs =>
      obtain ⟨old, waiting, across⟩ := List.pairwise_append.1 (h.ordered d)
      apply List.pairwise_append.2 ⟨old, List.pairwise_cons.2 ⟨_, waiting⟩, _⟩
      · intro other member same
        rw [h.session d other member, session] at same
        exact absurd same.symm differs
      · intro other member next later
        rcases List.mem_cons.1 later with rfl | waits
        · exact (List.pairwise_append.1 before).2.2 other member next List.mem_cons_self
        · exact across other member next waits
  · intro node
    have more : (heard node ++ flow.arriving node).Sublist (forwarded ++ [mark]) :=
      (h.heard node).trans (List.sublist_append_left forwarded [mark])
    rcases goes node with same | longer
    · simpa [same] using more
    · have all := (h.heard node).append (List.Sublist.refl [mark])
      simpa [longer] using all

theorem Orderly.takes (h : Orderly flow forwarded heard) (first : flow.arriving node = mark :: rest)
    {called : List (Nat × Mark)} (calls : called = [] ∨ called = [(node, mark)]) :
    Orderly { flow with
      arriving := fun other => if other = node then rest else flow.arriving other }
      forwarded (fun other => heard other ++ takenBy other called) where
  session := h.session
  ordered := h.ordered
  heard other := by
    dsimp only
    have before := h.heard other
    by_cases same : other = node
    · subst same
      rw [if_pos rfl]
      rw [first] at before
      rcases calls with rfl | rfl
      · apply List.Sublist.trans _ before
        simp [takenBy]
      · simpa [takenBy] using before
    · rw [if_neg same]
      rcases calls with rfl | rfl
      · simpa [takenBy] using before
      · simpa [takenBy, Ne.symm same] using before

/-- However a flow moves, its marks stay in order, and only a mark that is issued becomes known. -/
theorem Orderly.step (h : Orderly flow forwarded heard) {issued : Option (ConnectionId × Mark)}
    {taken : List (Nat × Mark)} (moves : flow.Moves issued taken after)
    (new : ∀ c mark, issued = some (c, mark) →
      mark.session = c ∧ ∀ old, Known flow forwarded old → old.place < mark.place) :
    ∃ forwarded', Orderly after forwarded' (fun node => heard node ++ takenBy node taken) ∧
      ∀ mark, Known after forwarded' mark →
        Known flow forwarded mark ∨ ∃ c, issued = some (c, mark) := by
  have unheard : (fun node => heard node ++ takenBy node ([] : List (Nat × Mark))) = heard := by
    funext node
    exact List.append_nil _
  cases moves with
  | loses fewer cut =>
    refine ⟨forwarded, unheard.symm ▸ h.loses fewer cut, ?_⟩
    rintro mark (old | ⟨c, member⟩)
    · exact .inl (.inl old)
    · exact .inl (.inr ⟨c, (fewer c).subset member⟩)
  | issues c mark =>
    obtain ⟨session, newest⟩ := new c mark rfl
    refine ⟨forwarded, unheard.symm ▸ h.issues session newest, ?_⟩
    rintro other (old | ⟨d, member⟩)
    · exact .inl (.inl old)
    · dsimp only at member
      split at member
      · rcases List.mem_append.1 member with old | added
        · exact .inl (.inr ⟨c, old⟩)
        · rw [List.mem_singleton.1 added]
          exact .inr ⟨c, rfl⟩
      · exact .inl (.inr ⟨d, member⟩)
  | @forwards c mark rest arriving first goes =>
    refine ⟨forwarded ++ [mark], unheard.symm ▸ h.forwards first goes, ?_⟩
    rintro other (old | ⟨d, member⟩)
    · rcases List.mem_append.1 old with earlier | last
      · exact .inl (.inl earlier)
      · rw [List.mem_singleton.1 last]
        exact .inl (.inr ⟨c, by rw [first]; exact List.mem_cons_self⟩)
    · dsimp only at member
      split at member
      · exact .inl (.inr ⟨c, by rw [first]; exact List.mem_cons_of_mem mark member⟩)
      · exact .inl (.inr ⟨d, member⟩)
  | takes first calls => exact ⟨forwarded, h.takes first calls, fun other known => .inl known⟩

theorem Orderly.known_of_heard (h : Orderly flow forwarded heard) (member : mark ∈ heard node) :
    Known flow forwarded mark :=
  .inl ((h.heard node).subset (List.mem_append_left _ member))

end Orderly

namespace Network

/-- The listener invocations in a node during a list of steps, in order. -/
def callsAt (network : Network) (steps : List Step) (node : Nat) : List Invocation :=
  (network.run steps).1.filter (·.node = node)

/-- The connection on which the step at a place publishes, if it publishes and its node has one. -/
def issuedOn (network : Network) (steps : List Step) (place : Nat) : Option ConnectionId :=
  match steps[place]? with
  | some (.publish node _ _) => (network.run (steps.take place)).2.wireOf? node
  | _ => none

end Network

open Network

/-- What an invocation was made with. -/
def Invocation.item (called : Invocation) : Item :=
  (called.topic, called.payload)

/-- Whether a mark stands for a publish among the steps. -/
def Mark.Issued (start : Network) (steps : List Step) (mark : Mark) : Prop :=
  (∃ node, steps[mark.place]? = some (.publish node mark.item.1 mark.item.2)) ∧
    start.issuedOn steps mark.place = some mark.session

theorem Mark.Issued.place_lt {start : Network} {steps : List Step} {mark : Mark}
    (h : mark.Issued start steps) : mark.place < steps.length := by
  obtain ⟨⟨node, at_⟩, -⟩ := h
  exact (List.getElem?_eq_some_iff.1 at_).1

theorem Mark.Issued.append {start : Network} {past : List Step} {mark : Mark}
    (h : mark.Issued start past) (more : List Step) : mark.Issued start (past ++ more) := by
  have inside := h.place_lt
  obtain ⟨⟨node, at_⟩, session⟩ := h
  refine ⟨⟨node, by rw [List.getElem?_append_left inside, at_]⟩, ?_⟩
  simp only [issuedOn] at session ⊢
  rw [List.getElem?_append_left inside, List.take_append_of_le_length (Nat.le_of_lt inside)]
  exact session

/-- A step that publishes does so in one session. -/
theorem Mark.Issued.session_eq_iff {start : Network} {steps : List Step} {first second : Mark}
    (h : first.Issued start steps) (h' : second.Issued start steps) :
    first.session = second.session ↔
      start.issuedOn steps first.place = start.issuedOn steps second.place := by
  rw [h.2, h'.2, Option.some.injEq]

/-- An account of a run: marks for all that is on its way and for all that was heard. -/
structure Explained (start : Network) (past : List Step) (flow : Flow Mark)
    (forwarded : List Mark) (heard : Nat → List Mark) : Prop where
  orderly : Orderly flow forwarded heard
  payloads : flow.map Mark.item = (start.run past).2.flow
  calls : ∀ node, (heard node).map Mark.item = (start.callsAt past node).map Invocation.item
  issued : ∀ mark, Known flow forwarded mark → mark.Issued start past
  timely : ∀ node (i : Nat) mark, (heard node)[i]? = some mark →
    (start.callsAt (past.take (mark.place + 1)) node).length ≤ i

variable {start : Network} {past : List Step}

theorem callsAt_append (more : List Step) (node : Nat) :
    start.callsAt (past ++ more) node =
      start.callsAt past node ++ (start.run past).2.callsAt more node := by
  simp only [callsAt]
  rw [run_append, List.filter_append]

theorem length_callsAt_take_le (k : Nat) (node : Nat) :
    (start.callsAt (past.take k) node).length ≤ (start.callsAt past node).length := by
  have whole : start.callsAt (past.take k ++ past.drop k) node = _ :=
    callsAt_append (past.drop k) node
  rw [List.take_append_drop] at whole
  rw [whole, List.length_append]
  exact Nat.le_add_right _ _

theorem takenBy_item (node : Nat) (taken : List (Nat × Mark)) :
    (((taken.map fun (node, mark) => (node, mark.item)).map fun (node, item) =>
        ({ node, topic := item.1, payload := item.2 } : Invocation)).filter
          (·.node = node)).map Invocation.item =
      (takenBy node taken).map Mark.item := by
  induction taken with
  | nil => rfl
  | cons first taken ih =>
    obtain ⟨other, mark⟩ := first
    by_cases same : other = node
    · simpa [takenBy, same, Invocation.item] using ih
    · simpa [takenBy, same, Invocation.item] using ih

theorem Flow.Moves.taken_of_issued {β : Type} {flow after : Flow β} {c : ConnectionId} {item : β}
    {taken : List (Nat × β)} (moves : flow.Moves (some (c, item)) taken after) : taken = [] := by
  cases moves
  rfl

/-- What a step issues, marked with the place of the step. -/
def Mark.atPlace (place : Nat) (issued : Option (ConnectionId × Item)) :
    Option (ConnectionId × Mark) :=
  issued.map fun (c, item) => (c, { place, session := c, item })

theorem Mark.atPlace_item (place : Nat) (issued : Option (ConnectionId × Item)) :
    (Mark.atPlace place issued).map (fun (c, mark) => (c, mark.item)) = issued := by
  cases issued <;> rfl

theorem Mark.of_atPlace_eq_some {place : Nat} {issued : Option (ConnectionId × Item)}
    {c : ConnectionId} {mark : Mark} (h : Mark.atPlace place issued = some (c, mark)) :
    mark.place = place ∧ mark.session = c ∧ issued = some (c, mark.item) := by
  obtain ⟨⟨d, item⟩, rfl, same⟩ := Option.map_eq_some_iff.1 h
  obtain ⟨rfl, rfl⟩ := Prod.mk.inj same
  exact ⟨rfl, rfl, rfl⟩

/-- The step after a run, if it publishes on a connection, issues the mark of its place. -/
theorem Mark.issued_last {step : Step} {issued : Option (ConnectionId × Item)} {c : ConnectionId}
    {mark : Mark} (published : ∀ c item, issued = some (c, item) →
      ∃ node, step = .publish node item.1 item.2 ∧ (start.run past).2.wireOf? node = some c)
    (h : Mark.atPlace past.length issued = some (c, mark)) :
    mark.Issued start (past ++ [step]) := by
  obtain ⟨place, rfl, issued'⟩ := Mark.of_atPlace_eq_some h
  obtain ⟨node, rfl, used⟩ := published mark.session mark.item issued'
  have here : (past ++ [.publish node mark.item.1 mark.item.2])[past.length]? =
      some (.publish node mark.item.1 mark.item.2) := by simp
  refine ⟨⟨node, by rw [place, here]⟩, ?_⟩
  rw [issuedOn, place, here, List.take_append_of_le_length (Nat.le_refl _), List.take_length]
  exact used

/-- What a run called at a node does not change by its going on. -/
theorem callsAt_take_append {place : Nat} (inside : place < past.length) (more : List Step)
    (node : Nat) : start.callsAt ((past ++ more).take (place + 1)) node =
      start.callsAt (past.take (place + 1)) node := by
  rw [List.take_append_of_le_length inside]

/-- An account of a run can be continued over one more step. -/
theorem Explained.step (sound : start.Sound) {flow : Flow Mark} {forwarded : List Mark}
    {heard : Nat → List Mark} (h : Explained start past flow forwarded heard) (step : Step) :
    ∃ flow' forwarded' heard', Explained start (past ++ [step]) flow' forwarded' heard' := by
  obtain ⟨issued, taken, moves, called, published⟩ := (sound.run past).flows step
  rw [← h.payloads] at moves
  obtain ⟨taken', flow', moves', rfl, payloads⟩ :=
    moves.lift (Mark.atPlace_item past.length issued)
  obtain ⟨forwarded', orderly, known⟩ := h.orderly.step moves' fun c mark eq => by
    obtain ⟨place, session, -⟩ := Mark.of_atPlace_eq_some eq
    exact ⟨session, fun old known => place ▸ (h.issued old known).place_lt⟩
  have after : ((start.run past).2.run [step]).1 = ((start.run past).2.step step).1 :=
    List.append_nil _
  refine ⟨flow', forwarded', _, orderly, ?_, ?_, ?_, ?_⟩
  · rw [payloads, run_append]
    rfl
  · intro node
    rw [callsAt_append, List.map_append, List.map_append, h.calls, ← takenBy_item, ← called,
      ← after]
    rfl
  · intro mark member
    rcases known mark member with old | ⟨c, eq⟩
    · exact (h.issued mark old).append [step]
    · exact Mark.issued_last published eq
  · intro node i mark at_
    rcases Nat.lt_or_ge i (heard node).length with inside | beyond
    · rw [List.getElem?_append_left inside] at at_
      have old := h.orderly.known_of_heard (List.mem_of_getElem? at_)
      rw [callsAt_take_append (h.issued mark old).place_lt]
      exact h.timely node i mark at_
    -- What is heard in this step was not issued in it.
    · have place : mark.place < past.length := by
        have new := orderly.known_of_heard (List.mem_of_getElem? at_)
        rcases known mark new with old | ⟨c, eq⟩
        · exact (h.issued mark old).place_lt
        · rw [eq] at moves'
          rw [List.getElem?_append_right beyond, moves'.taken_of_issued] at at_
          contradiction
      rw [callsAt_take_append place]
      have length := congrArg List.length (h.calls node)
      rw [List.length_map, List.length_map] at length
      calc (start.callsAt (past.take (mark.place + 1)) node).length
        _ ≤ (start.callsAt past node).length := length_callsAt_take_le _ node
        _ = (heard node).length := length.symm
        _ ≤ i := beyond

theorem explained_nil (ids : List String) :
    Explained (ofNodes ids) [] { waiting := fun _ => [], arriving := fun _ => [] } []
      fun _ => [] where
  orderly := ⟨by simp, by simp, by simp⟩
  payloads := by
    refine Flow.ext (funext fun c => ?_) (funext fun node => ?_)
    · simp [Flow.map, run, flow, outbox, ofNodes]
    · simp [Flow.map, run, flow, inbox, wireOf?, ofNodes]
  calls _ := rfl
  issued := by
    rintro mark (old | ⟨c, member⟩)
    · contradiction
    · contradiction
  timely := by simp

/-- Every run can be accounted for. -/
theorem exists_explained (ids : List String) (steps : List Step) :
    ∃ flow forwarded heard, Explained (ofNodes ids) steps flow forwarded heard := by
  induction steps using List.reverseRecOn with
  | nil => exact ⟨_, _, _, explained_nil ids⟩
  | append_singleton past step ih =>
    obtain ⟨flow, forwarded, heard, h⟩ := ih
    exact h.step (sound_ofNodes ids) step

/-- The marks of what a node heard, one for each invocation in it. -/
theorem Explained.exists_marks {flow : Flow Mark} {forwarded : List Mark} {heard : Nat → List Mark}
    (h : Explained start past flow forwarded heard) (node : Nat) :
    ∃ mark : Fin (start.callsAt past node).length → Mark,
      (∀ i, (mark i).Issued start past ∧ (mark i).item = (start.callsAt past node)[i].item ∧
        (start.callsAt (past.take ((mark i).place + 1)) node).length ≤ i) ∧
      ∀ i j, i < j → (mark i).Before (mark j) := by
  have length : (heard node).length = (start.callsAt past node).length := by
    simpa using congrArg List.length (h.calls node)
  have ordered : (heard node).Pairwise Mark.Before :=
    (List.pairwise_append.1 (h.orderly.ordered 0)).1.sublist
      ((List.sublist_append_left _ _).trans (h.orderly.heard node))
  refine ⟨fun i => (heard node).get (i.cast length.symm), fun i => ⟨?_, ?_, ?_⟩, ?_⟩
  · exact h.issued _ (h.orderly.known_of_heard (List.get_mem _ _))
  · have both := congrArg (fun items => items[i.1]?) (h.calls node)
    have inside : i.1 < (heard node).length := Nat.lt_of_lt_of_eq i.2 length.symm
    simp only [List.getElem?_map, List.getElem?_eq_getElem inside, List.getElem?_eq_getElem i.2,
      Option.map_some, Option.some.injEq] at both
    exact both
  · exact h.timely node i _ (List.getElem?_eq_getElem _)
  · intro i j less
    exact List.pairwise_iff_getElem.1 ordered i j _ _ less

/-- In every run from nodes without connections there is for each node a choice of one publish for
each listener invocation in it, no publish for two of them. It is a publish of the same payload on
the same topic, made in a session of its node, and comes before the invocation: when it has been
made, fewer invocations have. Of two invocations that go back to publishes of one session, the
earlier one goes back to the earlier publish. -/
theorem at_most_once_in_order (ids : List String) (steps : List Step) (node : Nat) :
    ∃ source : Fin ((ofNodes ids).callsAt steps node).length → Fin steps.length,
      Function.Injective source ∧
      (∀ i, ∃ publisher c,
        steps[source i] = .publish publisher ((ofNodes ids).callsAt steps node)[i].topic
          ((ofNodes ids).callsAt steps node)[i].payload ∧
        (ofNodes ids).issuedOn steps (source i) = some c ∧
        ((ofNodes ids).callsAt (steps.take (source i + 1)) node).length ≤ i) ∧
      ∀ i j, i < j →
        (ofNodes ids).issuedOn steps (source i) = (ofNodes ids).issuedOn steps (source j) →
        source i < source j := by
  obtain ⟨flow, forwarded, heard, h⟩ := exists_explained ids steps
  obtain ⟨mark, explains, before⟩ := h.exists_marks node
  have issued : ∀ i, (mark i).Issued (ofNodes ids) steps := fun i => (explains i).1
  have later : ∀ i j, i < j →
      (ofNodes ids).issuedOn steps (mark i).place = (ofNodes ids).issuedOn steps (mark j).place →
      (mark i).place < (mark j).place := by
    intro i j less same
    exact before i j less (((issued i).session_eq_iff (issued j)).2 same)
  refine ⟨fun i => ⟨(mark i).place, (issued i).place_lt⟩, ?_, ?_, later⟩
  · intro i j same
    have place : (mark i).place = (mark j).place := congrArg Fin.val same
    rcases Nat.lt_trichotomy i j with less | same' | more
    · exact absurd (later i j less (by rw [place])) (by omega)
    · exact Fin.ext same'
    · exact absurd (later j i more (by rw [place])) (by omega)
  · intro i
    obtain ⟨⟨⟨publisher, at_⟩, session⟩, item, timely⟩ := explains i
    rw [item] at at_
    exact ⟨publisher, (mark i).session, (List.getElem?_eq_some_iff.1 at_).2, session, timely⟩

/-- Of two publishes of the same payload the second gets lost with its session, so the listener is
called once. -/
example :
    (ofNodes ["left", "right"]).callsAt
      [.connect 0, .connect 1, .subscribe 1 .messages, .hubReads 1, .publish 0 .messages [1],
        .publish 0 .messages [1], .lose 0 1, .hubReads 0, .hubReads 0, .nodeReads 1, .nodeReads 1]
      1 = [{ node := 1, topic := .messages, payload := [1] }] := by
  decide +kernel

end Fanout
