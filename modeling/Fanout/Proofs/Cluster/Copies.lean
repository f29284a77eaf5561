import Fanout.Proofs.Cluster.Bootstrap
import Fanout.Proofs.Cluster.Offers
import Fanout.Proofs.Cluster.Told
import Mathlib.Data.List.Nodup

/-!
# How many copies of an announcement reach a stream

An announcement hands on the lists that it gets from its caller and from the directory; only
audiences are made into sets. So a stream gets one copy of the news if these lists are free of
repetitions, and otherwise somebody is named twice in a batch (`copies_exact`) and may get it twice
(`copies_repeated`).
-/

namespace Fanout

/-- Whether the lists that are handed on to announce a change are free of repetitions. -/
def Change.Distinct (directory : Directory) : Change → Prop
  | messageCreated message | messageUpdated message => (directory.members message.chatId).Nodup
  | messageDeleted chat _ | userMessagesRemoved chat _ | chatMessagesCleared chat
  | exitedGroupChat chat _ | groupChatUpdated chat _ _ _ => (directory.members chat).Nodup
  | addedToGroupChat chat newUsers => newUsers.Nodup ∧ (directory.members chat).Nodup
  | typingStatusChanged chat user _ => ((directory.members chat).filter (· ≠ user)).Nodup
  | accountUpdated account => ((directory.chatsOf account.id).filter directory.isPublic).Nodup
  | onlineStatusChanged user _ _ => ((directory.chatsOf user).filter directory.isPublic).Nodup
  | accountDeleted _ users | privateChatDeleted _ users => users.Nodup
  | contactAdded .. | contactRemoved .. | userBlocked .. | userUnblocked .. | chatMadePrivate _ =>
    True

/-- Whether an offered payload is read as a batch that names every key once. -/
def Offer.NamesOnce (offer : Offer) : Prop :=
  ∃ batch, (Notice.batch (Update.forms offer.topic)).decode? offer.payload = some batch ∧
    (batch.map Notice.key).Nodup

namespace Directory

variable (directory : Directory)

theorem nodup_users {users : List UserId} : (users.map Key.user).Nodup ↔ users.Nodup :=
  List.nodup_map_iff fun _ _ => Key.user.inj

theorem nodup_chats {chats : List ChatId} : (chats.map Key.chat).Nodup ↔ chats.Nodup :=
  List.nodup_map_iff fun _ _ => Key.chat.inj

theorem nodup_audience (user : UserId) : (directory.audience user).Nodup :=
  (directory.audience_sorted user).imp Int64.ne_of_lt

theorem nodup_chatKey (chat : ChatId) : (directory.chatKey chat).Nodup := by
  rw [chatKey]
  split <;> simp

/-- Users and a chat have different keys. -/
theorem nodup_users_append_chatKey {users : List UserId} {chat : ChatId} :
    (users.map Key.user ++ directory.chatKey chat).Nodup ↔ users.Nodup := by
  have apart : (users.map Key.user).Disjoint (directory.chatKey chat) := by
    intro key ofUser ofChat
    obtain ⟨user, -, rfl⟩ := List.mem_map.1 ofUser
    cases (directory.mem_chatKey.1 ofChat).2
  rw [List.nodup_append', nodup_users]
  exact ⟨And.left, fun h => ⟨h, directory.nodup_chatKey chat, apart⟩⟩

end Directory

/-- An announcement publishes to keys without repetitions just if its lists are free of them. -/
theorem Change.nodup_keys_iff (directory : Directory) (change : Change) :
    (∀ effect ∈ change.effects directory, effect.keys.Nodup) ↔ change.Distinct directory := by
  cases change <;>
    simp [effects, Directory.announceMessages, Directory.announceMetadata, announceContact,
      Effect.keys, Distinct, Directory.nodup_users_append_chatKey, Directory.nodup_chatKey,
      Directory.memberKeys, Directory.publicChatKeys_eq, Directory.nodup_users,
      Directory.nodup_chats, Directory.nodup_audience, (Directory.nodup_audience _ _).filter]

namespace Effect

def topic? : Effect → Option Topic
  | publish topic _ _ => some topic
  | revoke _ => none

theorem told_eq_nil {topic : Topic} {effect : Effect} (other : effect.topic? ≠ some topic)
    (key : Key) : effect.told topic key = [] := by
  cases effect with
  | publish onTopic update keys => exact if_neg fun same => other (congrArg some same)
  | revoke revoked => rfl

theorem length_told_le_one {effect : Effect} (distinct : effect.keys.Nodup) (topic : Topic)
    (key : Key) : (effect.told topic key).length ≤ 1 := by
  cases effect with
  | revoke revoked => exact Nat.zero_le 1
  | publish onTopic update keys =>
    have once : keys.count key ≤ 1 := List.nodup_iff_count_le_one.1 distinct key
    rw [told]
    split
    · rwa [List.length_replicate]
    · exact Nat.zero_le 1

/-- Effects on different topics, each to different keys, tell a key one thing on a topic. -/
theorem length_flatMap_told_le_one {effects : List Effect}
    (apart : (effects.filterMap topic?).Nodup) (distinct : ∀ effect ∈ effects, effect.keys.Nodup)
    (topic : Topic) (key : Key) : (effects.flatMap (told topic key)).length ≤ 1 := by
  induction effects with
  | nil => exact Nat.zero_le 1
  | cons effect effects ih =>
    obtain ⟨first, rest⟩ := List.forall_mem_cons.1 distinct
    rw [List.flatMap_cons, List.length_append]
    by_cases here : effect.topic? = some topic
    · -- The effects that follow are on other topics.
      rw [List.filterMap_cons_some here, List.nodup_cons] at apart
      have silent : effects.flatMap (told topic key) = [] := by
        rw [List.flatMap_eq_nil_iff]
        intro later member
        exact told_eq_nil (fun same => apart.1 (List.mem_filterMap.2 ⟨later, member, same⟩)) key
      rw [silent]
      exact length_told_le_one first topic key
    · have apartRest := apart.sublist ((List.sublist_cons_self effect effects).filterMap topic?)
      rw [told_eq_nil here, List.length_nil, Nat.zero_add]
      exact ih apartRest rest

end Effect

/-- An announcement publishes at most once on a topic. -/
theorem Change.nodup_topics (directory : Directory) (change : Change) :
    ((change.effects directory).filterMap Effect.topic?).Nodup := by
  cases change <;>
    simp [effects, Directory.announceMessages, Directory.announceMetadata, announceContact,
      List.filterMap_cons, Effect.topic?]

namespace World

variable {world : World Update} {feeds : Feeds}

theorem namesOnce_of_offer?_iff (made : world.Made feeds) {topic : Topic} {update : Update}
    (kind : update.kind = topic.kind) {keys : List Key} {offer : Offer}
    (offered : world.offer? Update.forms (feeds.notifier topic) update keys = some offer) :
    offer.NamesOnce ↔ keys.Nodup := by
  obtain ⟨rfl, read⟩ := decode?_of_offer? made kind offered
  have keys_eq : (Notice.toEach update keys).map Notice.key = keys := by
    simp [Notice.toEach, Function.comp_def]
  simp only [Offer.NamesOnce, read, Option.some.injEq, exists_eq_left', keys_eq]

/-- Feeds that are held offer a batch for each effect that publishes to somebody. -/
theorem Holds.forall_offered_iff (held : world.Holds feeds) (made : world.Made feeds)
    {effect : Effect} (fits : effect.fits = true) :
    (∀ offer ∈ world.offered feeds effect, offer.NamesOnce) ↔ effect.keys.Nodup := by
  cases effect with
  | revoke revoked => simp [offered, Effect.keys]
  | publish topic update keys =>
    obtain ⟨sender, found, -, -⟩ := held.notifiers topic
    simp only [offered, Option.mem_toList]
    cases keys with
    | nil => simp [offer?, found, Effect.keys]
    | cons first rest =>
      -- Without an offer the left side would hold whatever the keys are.
      have offered : ∃ offer, world.offer? Update.forms (feeds.notifier topic) update
          (first :: rest) = some offer := by
        simp [offer?, found]
      obtain ⟨offer, eq⟩ := offered
      rw [eq]
      simp only [Option.some.injEq, forall_eq']
      exact namesOnce_of_offer?_iff made (beq_iff_eq.1 fits) eq

theorem Holds.forall_offers_iff (held : world.Holds feeds) (h : world.WellFormed)
    (made : world.Made feeds) {effects : List Effect}
    (fits : ∀ effect ∈ effects, effect.fits = true) :
    (∀ offer ∈ world.offers feeds effects, offer.NamesOnce) ↔
      ∀ effect ∈ effects, effect.keys.Nodup := by
  rw [offers_eq_flatMap h, List.forall_mem_flatMap]
  exact forall₂_congr fun effect among => held.forall_offered_iff made (fits effect among)

/-- What an announcement without repetitions brings to a stream is one update at most. -/
theorem Made.length_brings_le_one (made : world.Made feeds) (home : world.ListensAtHome)
    {directory : Directory} {change : Change} (distinct : change.Distinct directory) (n : Nat)
    (key : Key) : ((change.effects directory).flatMap (world.brings feeds n key)).length ≤ 1 := by
  obtain ⟨topic, own⟩ :
      ∃ topic, ∀ notifier, world.notifier? n = some notifier → notifier.topic = topic := by
    cases world.notifier? n with
    | none => exact ⟨.messages, fun _ absent => nomatch absent⟩
    | some notifier => exact ⟨notifier.topic, fun _ same => Option.some.inj same ▸ rfl⟩
  have fewer := made.flatMap_brings_sublist home (change.effects_fit directory) own key
  have single := Effect.length_flatMap_told_le_one (change.nodup_topics directory)
    ((change.nodup_keys_iff directory).2 distinct) topic key
  exact Nat.le_trans fewer.length_le single

end World

namespace Cluster

theorem world_step_announce {cluster : Cluster} {node : Nat} {feeds : Feeds}
    (at_ : cluster.nodes[node]? = some feeds) (directory : Directory) (change : Change) :
    (cluster.step (.announce node directory change)).2.2.world =
      (cluster.world.announce feeds directory change).2.2 := by
  simp only [step, atNode, at_]

/-- Whatever happened to a cluster, what an announcement at a node adds to a stream is the news on
its topic, at most as often as its key is among the recipients there. The batches that the node
hands to its broker name every key once just if the lists that they are made of are free of
repetitions, and then no stream gets more than one update. -/
theorem copies_exact (past : List Event) {node : Nat} {feeds : Feeds}
    (at_ : (watch {} past).nodes[node]? = some feeds) (held : (watch {} past).world.Holds feeds)
    (directory : Directory) (change : Change) :
    let before := watch {} past
    let after := (before.step (.announce node directory change)).2.2
    ((∀ offer ∈ before.offers (.step (.announce node directory change)), offer.NamesOnce) ↔
        change.Distinct directory) ∧
      ∃ received : Subscription Update → List Update,
        (after.world.subscriptions.map fun sub => (sub.id, sub.buffer)) =
            before.world.subscriptions.map (fun sub => (sub.id, sub.buffer ++ received sub)) ∧
          (∀ sub notifier, before.world.notifier? sub.notifier = some notifier →
            (received sub).Sublist (change.told directory notifier.topic sub.key)) ∧
          (change.Distinct directory → ∀ sub, (received sub).length ≤ 1) := by
  intro before after
  have h : before.world.WellFormed := wellFormed_watch past
  have made : before.world.Made feeds := allMade_watch past feeds (List.mem_of_getElem? at_)
  have fits := change.effects_fit directory
  refine ⟨?_, before.world.arrivals feeds (change.effects directory), ?_, ?_, ?_⟩
  · have offers : before.offers (.step (.announce node directory change)) =
        before.world.offers feeds (change.effects directory) := by
      simp only [Cluster.offers, before, at_]
    rw [offers, held.forall_offers_iff h made fits, change.nodup_keys_iff]
  · obtain ⟨buses, eq⟩ :=
      World.bringAboutAll_snd h feeds (change.publishes_first directory)
    rw [world_step_announce at_, World.announce, eq, List.map_map]
    rfl
  · intro sub notifier found
    have own : ∀ other, before.world.notifier? sub.notifier = some other →
        other.topic = notifier.topic := by
      intro other same
      rw [found, Option.some.injEq] at same
      rw [same]
    have fewer := made.flatMap_brings_sublist h.home fits own sub.key
    rw [Change.told_effects] at fewer
    rw [World.arrivals]
    split
    · exact fewer
    · exact List.nil_sublist _
  · intro distinct sub
    rw [World.arrivals]
    split
    · exact made.length_brings_le_one h.home distinct _ _
    · exact Nat.zero_le 1

/-- How the pair of nodes came about. -/
def assembled : List Event :=
  [Step.start, .start, .bootstrap 0, .bootstrap 1, .follow 1 (.chats 7),
    .follow 0 (.chatMessages 9)].map .step

theorem watch_assembled : watch {} assembled = World.pair :=
  watch_map_step {} _

theorem wellFormed_pair : World.pair.world.WellFormed :=
  watch_assembled ▸ wellFormed_watch assembled

theorem holds_assembled : (watch {} assembled).world.Holds { process := 0, first := 0 } where
  process := by
    rw [watch_assembled]
    decide +kernel
  notifiers topic := by
    have every : ∀ topic ∈ Topic.all,
        ∃ notifier ∈ World.pair.world.notifier? (Feeds.notifier { process := 0, first := 0 } topic),
          notifier.process = 0 ∧ notifier.topic = topic := by
      decide +kernel
    rw [watch_assembled]
    exact every topic topic.mem_all

theorem first_assembled : (watch {} assembled).nodes[0]? = some { process := 0, first := 0 } := by
  rw [watch_assembled]
  decide +kernel

/-- The members of a chat are told that somebody left it; each of them is listed once. -/
theorem copies_exact_assembled :
    let directory := Directory.ofTables [(9, [7, 8])] [] [] []
    let left := Change.exitedGroupChat 9 [5]
    (watch {} assembled).nodes[0]? = some { process := 0, first := 0 } ∧
      (watch {} assembled).world.Holds { process := 0, first := 0 } ∧ left.Distinct directory ∧
      (∀ offer ∈ (watch {} assembled).offers (.step (.announce 0 directory left)),
        offer.NamesOnce) ∧
      ∃ received : Subscription Update → List Update,
        (((watch {} assembled).step (.announce 0 directory left)).2.2.world.subscriptions.map
            fun sub => (sub.id, sub.buffer)) =
          [(1, .greeting .chat :: received World.reader),
            (2, .greeting .message :: received World.viewer)] ∧
        ∀ sub, (received sub).length ≤ 1 := by
  intro directory left
  have distinct : left.Distinct directory := by
    show ([7, 8] : List UserId).Nodup
    decide
  obtain ⟨once, received, eq, -, single⟩ :=
    copies_exact assembled first_assembled holds_assembled directory left
  have streams : World.pair.world.subscriptions = [World.reader, World.viewer] := by
    decide +kernel
  rw [watch_assembled, streams] at eq
  refine ⟨first_assembled, holds_assembled, distinct, once.2 distinct, received, ?_,
    single distinct⟩
  rw [watch_assembled]
  exact eq

/-- A member whom the directory lists twice is told twice that somebody left. -/
theorem copies_repeated :
    ¬∀ (past : List Event) (node : Nat) (feeds : Feeds) (directory : Directory) (change : Change),
      (watch {} past).nodes[node]? = some feeds → (watch {} past).world.Holds feeds →
      let before := watch {} past
      let after := (before.step (.announce node directory change)).2.2
      (∀ offer ∈ before.offers (.step (.announce node directory change)), offer.NamesOnce) ∧
        ∀ sub ∈ before.world.subscriptions, ∀ later ∈ after.world.subscriptions,
          later.id = sub.id → later.buffer.length ≤ sub.buffer.length + 1 := by
  intro everywhere
  let directory := Directory.ofTables [(9, [7, 8, 7])] [] [] []
  let left := Change.exitedGroupChat 9 [5]
  have single := (everywhere assembled 0 _ directory left first_assembled holds_assembled).2
  have first := first_assembled
  rw [watch_assembled] at first
  simp only [watch_assembled, world_step_announce first] at single
  have h := wellFormed_pair
  have member : { process := 0, first := 0 } ∈ World.pair.nodes := by decide +kernel
  have other : { process := 1, first := 10 } ∈ World.pair.nodes := by decide +kernel
  have connected : World.pair.world.isConnected 0 = true := by decide +kernel
  have remote : World.pair.world.isConnected 1 = true := by decide +kernel
  have followed : World.reader ∈ World.pair.world.subscriptions := by decide +kernel
  have brought := World.isCluster_pair.flatMap_brings_node h.home member connected other .chats
    (.user 7) (left.effects_fit directory)
  rw [remote, if_pos rfl, Change.told_effects] at brought
  obtain ⟨buses, eq⟩ := World.bringAboutAll_snd h { process := 0, first := 0 }
    (left.publishes_first directory)
  have later : World.pair.world.affected { process := 0, first := 0 } (left.effects directory)
      World.reader ∈ (World.pair.world.announce { process := 0, first := 0 } directory
        left).2.2.subscriptions := by
    rw [World.announce, eq]
    exact List.mem_map_of_mem followed
  have buffer : (World.pair.world.affected { process := 0, first := 0 } (left.effects directory)
      World.reader).buffer = World.reader.buffer ++ left.told directory .chats (.user 7) :=
    congrArg (World.reader.buffer ++ ·) brought
  have twice : (left.told directory .chats (.user 7)).length = 2 := rfl
  have bound := single World.reader followed _ later rfl
  rw [buffer, List.length_append, twice] at bound
  omega

end Cluster

end Fanout
