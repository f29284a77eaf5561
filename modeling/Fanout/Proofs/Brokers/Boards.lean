import Fanout.Proofs.Brokers.Uses

/-!
# What uses do to nodes

A use of a broker changes at most the link and the connection of one node. Who is connected and who
listens to what changes at once, as it has to (`Sound.board_step`), and handling what is then on its
way changes nothing of it (`Sound.board_of_turns`).
-/

namespace Fanout

namespace Link

variable (link : Link Topic) (topic other : Topic)

theorem subscribe_answer : (link.subscribe topic topic).1 = !link.listeners.contains topic := by
  simp only [subscribe, Listeners.register]
  cases link.listeners.contains topic <;> rfl

theorem contains_subscribe :
    (link.subscribe topic topic).2.listeners.contains other =
      (link.listeners.contains other || decide (topic = other)) := by
  rw [← Listeners.contains_register link.listeners topic other topic]
  simp only [subscribe, Listeners.register]
  cases link.listeners.contains topic <;> rfl

theorem contains_unsubscribe :
    (link.unsubscribe topic).listeners.contains other =
      (link.listeners.contains other && !decide (topic = other)) := by
  simp only [unsubscribe, Listeners.unregister]
  cases present : link.listeners.contains topic with
  | true => exact Listeners.contains_unregister link.listeners topic other
  | false =>
    by_cases same : topic = other
    · simp [← same, present]
    · simp [same]

theorem nodeId_subscribe : (link.subscribe topic topic).2.nodeId = link.nodeId := by
  simp only [subscribe]
  split <;> rfl

theorem nodeId_unsubscribe : (link.unsubscribe topic).nodeId = link.nodeId := by
  simp only [unsubscribe]
  split <;> rfl

end Link

namespace Network

variable {network after : Network} {node : Nat} {link next : Link Topic}

theorem links_withLink (network : Network) (node : Nat) (link : Link Topic) :
    (network.withLink node link).links =
      network.links.set node { link with queue := link.queue.map fun _ => [] } := by
  rw [withLink_eq]

def ids (network : Network) : List String :=
  network.links.map Link.nodeId

theorem ids_set (at_ : network.links[node]? = some link)
    (links : after.links = network.links.set node next) (same : next.nodeId = link.nodeId) :
    after.ids = network.ids := by
  rw [ids, links, List.map_set, same]
  apply set_eq_self
  rw [List.getElem?_map, at_]
  rfl

theorem ids_atNode {change : Link Topic → Link Topic}
    (same : ∀ link, (change link).nodeId = link.nodeId) :
    (network.atNode node change).ids = network.ids := by
  simp only [atNode]
  cases at_ : network.links[node]? with
  | none => rfl
  | some link =>
    exact ids_set at_ (links_withLink network node (change link)) (same link)

theorem ids_connect (network : Network) (node : Nat) :
    (network.connect node).ids = network.ids := by
  rcases network.connect_cases node with ⟨same, -⟩ | ⟨link, at_, -, eq⟩
  · rw [same]
  · rw [eq]
    exact ids_set at_ rfl rfl

theorem ids_lose (network : Network) (node kept : Nat) :
    (network.lose node kept).ids = network.ids := by
  rcases network.lose_cases node kept with ⟨same, -⟩ | ⟨link, c, at_, -, eq⟩
  · rw [same]
  · rw [eq]
    exact ids_set at_ rfl rfl

/-- Nodes keep their ids. -/
theorem ids_step (network : Network) (use : Use) :
    (network.step (stepOf use)).2.ids = network.ids := by
  cases use with
  | subscribe p topic tag => exact ids_atNode fun link => link.nodeId_subscribe topic
  | unsubscribe p topic => exact ids_atNode fun link => link.nodeId_unsubscribe topic
  | publish p topic payload => exact ids_atNode fun _ => rfl
  | lose p kept => exact ids_lose network p kept
  | reconnect p => exact ids_connect network p

theorem ids_congr (links : after.links = network.links) : after.ids = network.ids :=
  congrArg (List.map Link.nodeId) links

theorem hasListener_eq (at_ : network.links[node]? = some link) (topic : Topic) :
    network.hasListener node topic = link.listeners.contains topic := by
  rw [hasListener, at_]

theorem hasListener_set (at_ : network.links[node]? = some link)
    (links : after.links = network.links.set node next) (p : Nat) (topic : Topic) :
    after.hasListener p topic =
      if node = p then next.listeners.contains topic else network.hasListener p topic := by
  by_cases same : node = p
  · subst same
    rw [if_pos rfl]
    refine hasListener_eq ?_ topic
    rw [links, List.getElem?_set_self (List.getElem?_eq_some_iff.1 at_).1]
  · rw [if_neg same]
    simp only [hasListener]
    rw [links, List.getElem?_set_ne same]

theorem users_withLink (network : Network) (node : Nat) (link : Link Topic) :
    (network.withLink node link).users = network.users := by
  rw [withLink_eq]
  cases network.wireOf? node with
  | none => rfl
  | some c => exact users_modify c fun _ => rfl

/-- A node that uses its link stays connected or not as it was. -/
theorem board_withLink (at_ : network.links[node]? = some link) :
    (network.withLink node next).board =
      { network.board with
        listens := fun p topic =>
          if node = p then next.listeners.contains topic else network.hasListener p topic } := by
  have links := links_withLink network node next
  apply Board.ext
  · show (network.withLink node next).links.length = network.links.length
    rw [links, List.length_set]
  · funext p
    exact congrArg Option.isSome (wireOf?_congr (users_withLink network node next) p)
  · funext p topic
    exact hasListener_set at_ links p topic

theorem count_set (links : after.links = network.links.set node next) :
    after.board.count = network.board.count := by
  show after.links.length = network.links.length
  rw [links, List.length_set]

theorem listens_set (at_ : network.links[node]? = some link)
    (links : after.links = network.links.set node next)
    (same : next.listeners = link.listeners) : after.board.listens = network.board.listens := by
  funext p topic
  apply (hasListener_set at_ links p topic).trans
  by_cases here : node = p
  · subst here
    rw [if_pos rfl, same]
    exact (hasListener_eq at_ topic).symm
  · rw [if_neg here]
    rfl

theorem Sound.board_joined (h : network.Sound) (at_ : network.links[node]? = some link)
    (used : network.wireOf? node = none) :
    (network.joined node link).board = network.board.use (.reconnect node) := by
  have inside : node < network.board.count := (List.getElem?_eq_some_iff.1 at_).1
  apply Board.ext
  · exact count_set rfl
  · funext p
    show ((network.joined node link).wireOf? p).isSome = (network.board.connected p || _)
    by_cases same : node = p
    · subst same
      rw [h.wireOf?_joined_self link used]
      simp [inside]
    · rw [h.wireOf?_joined_other link used same]
      simp [same, board]
  · exact listens_set at_ rfl rfl

theorem Sound.board_left (h : network.Sound) (at_ : network.links[node]? = some link)
    {c : ConnectionId} (used : network.wireOf? node = some c) (kept : Nat) :
    (network.left node link c kept).board = network.board.use (.lose node kept) := by
  apply Board.ext
  · exact count_set rfl
  · funext p
    show ((network.left node link c kept).wireOf? p).isSome = (network.board.connected p && _)
    by_cases same : node = p
    · subst same
      rw [h.wireOf?_left_self link kept used]
      simp
    · rw [h.wireOf?_left_other link kept used same]
      simp [same, board]
  · exact listens_set at_ rfl rfl

theorem board_subscribe (network : Network) (p : Nat) (topic : Topic) (tag : String) :
    (network.atNode p fun link => (link.subscribe topic topic).2).board =
      network.board.use (.subscribe p topic tag) := by
  simp only [atNode]
  cases at_ : network.links[p]? with
  | none =>
    have outside : ¬ p < network.links.length := Nat.not_lt.2 (List.getElem?_eq_none_iff.1 at_)
    simp [Board.use, board, outside]
  | some link =>
    have inside : p < network.links.length := (List.getElem?_eq_some_iff.1 at_).1
    refine (board_withLink at_).trans (Board.ext rfl rfl ?_)
    funext q other
    simp only [Board.use, board, Link.contains_subscribe]
    by_cases same : p = q
    · subst same
      simp [hasListener_eq at_, inside]
    · simp [same]

theorem board_unsubscribe (network : Network) (p : Nat) (topic : Topic) :
    (network.atNode p fun link => link.unsubscribe topic).board =
      network.board.use (.unsubscribe p topic) := by
  simp only [atNode]
  cases at_ : network.links[p]? with
  | none =>
    refine Board.ext rfl rfl ?_
    funext q other
    by_cases same : p = q
    · subst same
      simp [Board.use, board, hasListener, at_]
    · simp [Board.use, same]
  | some link =>
    refine (board_withLink at_).trans (Board.ext rfl rfl ?_)
    funext q other
    simp only [Board.use, board, Link.contains_unsubscribe]
    by_cases same : p = q
    · subst same
      simp [hasListener_eq at_]
    · simp [same]

theorem board_publish (network : Network) (p : Nat) (topic : Topic) (payload : Bytes) :
    (network.atNode p fun link => link.publish topic payload).board = network.board := by
  simp only [atNode]
  cases at_ : network.links[p]? with
  | none => rfl
  | some link =>
    have links := links_withLink network p (link.publish topic payload)
    have listens := listens_set at_ links rfl
    apply Board.ext
    · exact count_set links
    · funext q
      exact congrArg Option.isSome (wireOf?_congr (users_withLink network p _) q)
    · exact listens

theorem Sound.board_connect (h : network.Sound) (p : Nat) :
    (network.connect p).board = network.board.use (.reconnect p) := by
  rcases network.connect_cases p with ⟨same, guard⟩ | ⟨link, at_, used, eq⟩
  · rw [same]
    refine Board.ext rfl ?_ rfl
    funext q
    by_cases here : p = q
    · subst here
      rcases guard with none_ | used
      · have outside : ¬ p < network.board.count :=
          Nat.not_lt.2 (List.getElem?_eq_none_iff.1 none_)
        simp [Board.use, outside]
      · have already : network.board.connected p = true := Option.isSome_iff_ne_none.2 used
        simp [Board.use, already]
    · simp [Board.use, here]
  · rw [eq]
    exact h.board_joined at_ used

theorem Sound.board_lose (h : network.Sound) (p kept : Nat) :
    (network.lose p kept).board = network.board.use (.lose p kept) := by
  rcases network.lose_cases p kept with ⟨same, guard⟩ | ⟨link, c, at_, used, eq⟩
  · have unused : network.wireOf? p = none := by
      rcases guard with none_ | unused
      · exact h.wireOf?_of_none none_
      · exact unused
    rw [same]
    refine Board.ext rfl ?_ rfl
    funext q
    by_cases here : p = q
    · subst here
      simp [Board.use, board, unused]
    · simp [Board.use, here]
  · rw [eq]
    exact h.board_left at_ used kept

/-- A use does to who is connected and who listens to what brokers have to do, before anything that
it puts on its way is handled. -/
theorem Sound.board_step (h : network.Sound) (use : Use) :
    (network.step (stepOf use)).2.board = network.board.use use := by
  cases use with
  | subscribe p topic tag => exact network.board_subscribe p topic tag
  | unsubscribe p topic => exact network.board_unsubscribe p topic
  | publish p topic payload => exact network.board_publish p topic payload
  | lose p kept => exact h.board_lose p kept
  | reconnect p => exact h.board_connect p

theorem board_congr (links : after.links = network.links) (users : after.users = network.users) :
    after.board = network.board := by
  unfold board hasListener
  rw [links]
  congr 1
  funext node
  rw [wireOf?_congr users]

/-- Handling what is on its way does not change who is connected and who listens to what. -/
theorem Sound.board_of_turns (h : network.Sound) {turns : List Step}
    (only : ∀ turn ∈ turns, turn.isTurn = true) : (network.run turns).2.board = network.board :=
  board_congr (h.links_of_turns only) (h.users_of_turns only)

theorem answer_eq (network : Network) (use : Use) (q : Nat) :
    network.answer use = (network.board.seenBy q use).1 := by
  cases use with
  | subscribe p topic tag =>
    cases at_ : network.links[p]? with
    | none =>
      have outside : ¬ p < network.board.count :=
        Nat.not_lt.2 (List.getElem?_eq_none_iff.1 at_)
      simp [answer, at_, Board.seenBy, outside]
    | some link =>
      have inside : p < network.board.count := (List.getElem?_eq_some_iff.1 at_).1
      have listens : network.board.listens p topic = link.listeners.contains topic :=
        hasListener_eq at_ topic
      simp [answer, at_, Board.seenBy, inside, listens, link.subscribe_answer]
  | _ => rfl

end Network

end Fanout
