import Fanout.Proofs.Cluster.Offers
import Fanout.Proofs.Cluster.Told

/-!
# Private chats are not followed by chat

An announcement addresses a chat's own key only if the chat is public. So whatever changes are
announced at whichever nodes, the brokers get no batch that names the key of a private chat, and the
streams of those who follow it by that key stay as they are (`private_chat_unpublished`).
-/

namespace Fanout

/-- An announcement publishes nothing to the key of a private chat. -/
theorem Change.chat_notMem_keys {directory : Directory} {chat : ChatId}
    (isPrivate : directory.isPublic chat = false) (change : Change) :
    ∀ effect ∈ change.effects directory, Key.chat chat ∉ effect.keys := by
  have ungated : ∀ other, Key.chat chat ∉ directory.chatKey other := by
    intro other member
    obtain ⟨isPublic, same⟩ := directory.mem_chatKey.1 member
    rw [← Key.chat.inj same, isPrivate] at isPublic
    cases isPublic
  have everywhere : ∀ user, Key.chat chat ∉ directory.publicChatKeys user := by
    intro user member
    obtain ⟨other, -, among⟩ := List.mem_flatMap.1 member
    exact ungated other among
  cases change <;>
    simp [effects, Directory.announceMessages, Directory.announceMetadata, announceContact,
      Effect.keys, Directory.memberKeys, ungated, everywhere]

/-- Whether an offered payload is read as a batch in which nothing is addressed to a key. -/
def Offer.Spares (key : Key) (offer : Offer) : Prop :=
  ∃ batch, (Notice.batch (Update.forms offer.topic)).decode? offer.payload = some batch ∧
    ∀ notice ∈ batch, notice.key ≠ key

namespace World

variable {world : World Update} {feeds : Feeds}

/-- The subscriptions with a key whose streams do not hold what they held before. -/
def changedStreams (before after : World Update) (key : Key) : Subscriptions Update :=
  after.subscriptions.filter fun sub =>
    decide (sub.key = key ∧
      (before.subscriptions.get? sub.id).map Subscription.buffer ≠ some sub.buffer)

theorem spares_of_mem_offers (h : world.WellFormed) (made : world.Made feeds) {key : Key}
    {effects : List Effect} (fits : ∀ effect ∈ effects, effect.fits = true)
    (absent : ∀ effect ∈ effects, key ∉ effect.keys) :
    ∀ offer ∈ world.offers feeds effects, offer.Spares key := by
  intro offer member
  rw [offers_eq_flatMap h] at member
  obtain ⟨effect, among, offered⟩ := List.mem_flatMap.1 member
  cases effect with
  | revoke revoked => cases offered
  | publish topic update keys =>
    obtain ⟨rfl, read⟩ :=
      decode?_of_offer? made (beq_iff_eq.1 (fits _ among)) (Option.mem_toList.1 offered)
    refine ⟨Notice.toEach update keys, read, ?_⟩
    intro notice member
    obtain ⟨told, named, rfl⟩ := List.mem_map.1 member
    exact fun same => absent _ among (same ▸ named)

/-- An effect brings nothing to those whose key it does not name. -/
theorem brings_eq_nil (home : world.ListensAtHome) (made : world.Made feeds) {effect : Effect}
    (fits : effect.fits = true) {key : Key} (absent : key ∉ effect.keys) (n : Nat) :
    world.brings feeds n key effect = [] := by
  cases effect with
  | revoke revoked => rfl
  | publish topic update keys =>
    rcases made.brings_publish home (beq_iff_eq.1 fits) keys n key with none_ | ⟨-, eq⟩
    · exact none_
    · have uncounted : keys.count key = 0 := List.count_eq_zero.2 absent
      rw [eq, uncounted, List.replicate_zero]

/-- Effects that do not name a key change no stream with that key. -/
theorem changedStreams_bringAboutAll (h : world.WellFormed) (made : world.Made feeds) {key : Key}
    {effects : List Effect} (fits : ∀ effect ∈ effects, effect.fits = true)
    (absent : ∀ effect ∈ effects, key ∉ effect.keys)
    (ordered : effects.Pairwise fun earlier later =>
      later.publishes = true → earlier.publishes = true) :
    world.changedStreams (world.bringAboutAll feeds effects).2.2 key = [] := by
  obtain ⟨buses, eq⟩ := bringAboutAll_snd h feeds ordered
  rw [changedStreams, List.filter_eq_nil_iff, eq]
  intro after member
  obtain ⟨sub, before, rfl⟩ := List.mem_map.1 member
  have found : world.subscriptions.get? sub.id = some sub := h.get?_of_mem before
  have silent : effects.flatMap (world.brings feeds sub.notifier key) = [] := by
    rw [List.flatMap_eq_nil_iff]
    exact fun effect among => brings_eq_nil h.home made (fits effect among) (absent effect among) _
  have same : sub.key = key → (world.affected feeds effects sub).buffer = sub.buffer := by
    rintro rfl
    simp [affected, silent]
  simp only [decide_eq_true_eq, not_and_not_right]
  intro own
  rw [same own, affected, found]
  rfl

end World

namespace Cluster

/-- The streams with a key that an announcement changes; other events are not looked at. -/
def changedStreams (cluster : Cluster) (key : Key) : Event → Subscriptions Update
  | .step (.announce node directory change) =>
    cluster.world.changedStreams (cluster.step (.announce node directory change)).2.2.world key
  | _ => []

/-- What the announcements among some events hand to the broker. -/
def allOffers (cluster : Cluster) : List Event → List Offer
  | [] => []
  | event :: events => cluster.offers event ++ (cluster.after event).allOffers events

/-- The streams with a key that the announcements among some events change. -/
def allChangedStreams (cluster : Cluster) (key : Key) : List Event → Subscriptions Update
  | [] => []
  | event :: events =>
    cluster.changedStreams key event ++ (cluster.after event).allChangedStreams key events

/-- One announcement leaves those alone who follow a private chat by its key. -/
theorem announcement_spares {cluster : Cluster} (h : cluster.world.WellFormed)
    (made : cluster.AllMade) {event : Event} {chat : ChatId}
    (isPrivate : ∀ node directory change, event = .step (.announce node directory change) →
      directory.isPublic chat = false) :
    (∀ offer ∈ cluster.offers event, offer.Spares (.chat chat)) ∧
      cluster.changedStreams (.chat chat) event = [] := by
  unfold offers changedStreams
  split
  next node directory change =>
    have absent := Change.chat_notMem_keys (isPrivate node directory change rfl) change
    have fits := change.effects_fit directory
    simp only [step, atNode]
    cases at_ : cluster.nodes[node]? with
    | none =>
      have unchanged : cluster.world.changedStreams cluster.world (.chat chat) = [] := by
        rw [World.changedStreams, List.filter_eq_nil_iff]
        intro sub member
        simp [h.get?_of_mem member]
      exact ⟨by simp, unchanged⟩
    | some feeds =>
      have stands := made feeds (List.mem_of_getElem? at_)
      exact ⟨World.spares_of_mem_offers h stands fits absent,
        World.changedStreams_bringAboutAll h stands fits absent (change.publishes_first directory)⟩
  next => simp

/-- Whatever happens to a cluster, announcements that see a chat as private hand no batch to a
broker that names the chat's key, and change no stream of those who follow it by that key. -/
theorem private_chat_unpublished (past events : List Event) (chat : ChatId)
    (isPrivate : ∀ node directory change,
      .step (.announce node directory change) ∈ events → directory.isPublic chat = false) :
    (∀ offer ∈ (watch {} past).allOffers events, offer.Spares (.chat chat)) ∧
      (watch {} past).allChangedStreams (.chat chat) events = [] := by
  have h := wellFormed_watch past
  have made := allMade_watch past
  generalize watch {} past = cluster at h made ⊢
  induction events generalizing cluster with
  | nil => simp [allOffers, allChangedStreams]
  | cons event events ih =>
    have hidden : ∀ node directory change, event = .step (.announce node directory change) →
        directory.isPublic chat = false := by
      rintro node directory change rfl
      exact isPrivate node directory change (List.mem_cons_self ..)
    obtain ⟨offers, streams⟩ := announcement_spares h made hidden
    obtain ⟨laterOffers, laterStreams⟩ := ih
      (fun node directory change later =>
        isPrivate node directory change (List.mem_cons_of_mem _ later))
      (cluster.after event) (h.reaches (cluster.reaches_after event)) (made.after h event)
    constructor
    · intro offer member
      rcases List.mem_append.1 member with now | later
      · exact offers offer now
      · exact laterOffers offer later
    · rw [allChangedStreams, streams, laterStreams]
      rfl

/-- A chat that only two users know of, and an open one that one of them is in too. -/
def confidants : Directory :=
  .ofTables [(9, [7, 8]), (5, [7])] [] [(7, [9, 5]), (8, [9])] [5]

/-- Two nodes; at one of them an outsider follows the private chat. -/
def eavesdropped : List Event :=
  [.step .start, .step .start, .step (.bootstrap 0), .step (.bootstrap 1),
    .step (.follow 0 (.chatMessages 9))]

/-- While the participants are told what happens, another outsider follows the private chat. -/
def whispers : List Event :=
  [.step (.announce 1 confidants (.messageCreated
      { id := 1, chatId := 9, senderId := 7, text := "psst", sentAtMs := 0 })),
    .step (.follow 0 (.chatOnlineStatuses 9)),
    .step (.announce 0 confidants (.onlineStatusChanged 7 true none))]

/-- Three batches are handed over: two to participants, and one to those who follow the open
chat. -/
theorem private_chat_unpublished_whispers :
    (∀ node directory change, .step (.announce node directory change) ∈ whispers →
        directory.isPublic 9 = false) ∧
      ((watch {} eavesdropped).allOffers whispers).map (fun offer => (offer.process, offer.topic)) =
        [(1, .messages), (0, .onlineStatuses), (0, .chatOnlineStatuses)] ∧
      (∀ offer ∈ (watch {} eavesdropped).allOffers whispers, offer.Spares (.chat 9)) ∧
      (watch {} eavesdropped).allChangedStreams (.chat 9) whispers = [] := by
  have isPrivate : ∀ node directory change, .step (.announce node directory change) ∈ whispers →
      directory.isPublic 9 = false := by
    intro node directory change member
    have same : directory = confidants := by
      simp only [whispers, List.mem_cons, Event.step.injEq, Step.announce.injEq, reduceCtorEq,
        List.not_mem_nil, or_false, false_or] at member
      rcases member with ⟨-, same, -⟩ | ⟨-, same, -⟩ <;> exact same
    rw [same]
    decide
  exact ⟨isPrivate, by decide +kernel, private_chat_unpublished eavesdropped whispers 9 isPrivate⟩

end Cluster

end Fanout
