import Fanout.Proofs.Cluster.Copies
import Mathlib.Data.List.Count

/-!
# Who hears of a user's account and presence

A new state of an account and a change of presence are announced alike: on one topic to the user's
audience, on another one in the user's public chats. The directory's lists may overlap and repeat
themselves. The audience is a set all the same, so that each of its live subscriptions gets one copy
of the news; of their own presence, users get none (`audience_exact`).
-/

namespace Fanout

/-- An effect tells a key something only if it publishes on that topic to that key. -/
theorem Effect.topic_and_key_of_told {effect : Effect} {topic : Topic} {key : Key}
    (told : effect.told topic key ≠ []) : effect.topic? = some topic ∧ key ∈ effect.keys := by
  cases effect with
  | revoke revoked => exact absurd rfl told
  | publish onTopic update keys =>
    simp only [Effect.told] at told
    split at told
    next same =>
      rw [ne_eq, List.replicate_eq_nil_iff, List.count_eq_zero, not_not] at told
      exact ⟨congrArg some same, told⟩
    next => exact absurd rfl told

/-- Whom news about a user concern. -/
def Directory.Concerns (directory : Directory) (user other : UserId) : Prop :=
  other = user ∨ other ∈ directory.contactOwners user ∨
    ∃ chat ∈ directory.chatsOf user, other ∈ directory.members chat

instance (directory : Directory) (user other : UserId) :
    Decidable (directory.Concerns user other) :=
  inferInstanceAs (Decidable (_ ∨ _ ∨ ∃ chat ∈ directory.chatsOf user, _))

/-- News about a user, with the topics on which users and chats are told. -/
structure Bulletin where
  about : UserId
  update : Update
  onUsers : Topic
  onChats : Topic
  /-- Whether the user that it is about is told, too. -/
  toSelf : Bool

namespace Bulletin

variable (bulletin : Bulletin) (directory : Directory)

/-- The news that an account is in a new state. -/
def ofAccount (account : Account) : Bulletin where
  about := account.id
  update := .account (.updatedAccount account)
  onUsers := .accounts
  onChats := .chatAccounts
  toSelf := true

/-- The news that a user came or went. -/
def ofPresence (user : UserId) (isOnline : Bool) (lastOnlineMs : Option UInt64) : Bulletin where
  about := user
  update := .online (.onlineStatus user isOnline lastOnlineMs)
  onUsers := .onlineStatuses
  onChats := .chatOnlineStatuses
  toSelf := false

/-- Whether a user is to be told. -/
def ForUser (user : UserId) : Prop :=
  directory.Concerns bulletin.about user ∧ (user = bulletin.about → bulletin.toSelf = true)

/-- Whether those who follow a chat are to be told. -/
def ForChat (chat : ChatId) : Prop :=
  chat ∈ directory.chatsOf bulletin.about ∧ directory.isPublic chat = true

instance (user : UserId) : Decidable (bulletin.ForUser directory user) :=
  inferInstanceAs (Decidable (_ ∧ (_ → _)))

instance (chat : ChatId) : Decidable (bulletin.ForChat directory chat) :=
  inferInstanceAs (Decidable (_ ∧ _))

def readers : List UserId :=
  (directory.audience bulletin.about).filter fun user =>
    bulletin.toSelf || user ≠ bulletin.about

/-- What is done to spread the news. -/
def effects : List Effect :=
  [.publish bulletin.onUsers bulletin.update ((bulletin.readers directory).map .user),
    .publish bulletin.onChats bulletin.update (directory.publicChatKeys bulletin.about)]

theorem effects_ofAccount (account : Account) :
    (Change.accountUpdated account).effects directory = (ofAccount account).effects directory := by
  have everybody : (ofAccount account).readers directory = directory.audience account.id :=
    List.filter_eq_self.2 fun _ _ => rfl
  rw [Change.effects, effects, everybody]
  rfl

theorem effects_ofPresence (user : UserId) (isOnline : Bool) (lastOnlineMs : Option UInt64) :
    (Change.onlineStatusChanged user isOnline lastOnlineMs).effects directory =
      (ofPresence user isOnline lastOnlineMs).effects directory :=
  rfl

variable {bulletin directory}

theorem mem_readers {user : UserId} :
    user ∈ bulletin.readers directory ↔ bulletin.ForUser directory user := by
  simp only [readers, List.mem_filter, Directory.mem_audience, ForUser, Directory.Concerns,
    Bool.or_eq_true, decide_eq_true_eq]
  tauto

theorem nodup_readers : (bulletin.readers directory).Nodup :=
  (directory.nodup_audience bulletin.about).filter _

theorem mem_publicChatKeys {chat : ChatId} :
    .chat chat ∈ directory.publicChatKeys bulletin.about ↔ bulletin.ForChat directory chat := by
  rw [Directory.publicChatKeys_eq, List.mem_map_of_injective fun _ _ => Key.chat.inj,
    List.mem_filter, ForChat]

/-- A user is told once. -/
theorem told_user (apart : bulletin.onUsers ≠ bulletin.onChats) {user : UserId}
    (listed : bulletin.ForUser directory user) :
    (bulletin.effects directory).flatMap (Effect.told bulletin.onUsers (.user user)) =
      [bulletin.update] := by
  have once : ((bulletin.readers directory).map Key.user).count (.user user) = 1 := by
    apply List.count_eq_one_of_mem
    · exact Directory.nodup_users.2 nodup_readers
    · exact List.mem_map_of_mem (mem_readers.2 listed)
  simp only [effects, List.flatMap_cons, List.flatMap_nil, Effect.told, if_pos, once,
    if_neg apart.symm, List.replicate_one, List.append_nil]

/-- Those who follow a public chat are told as often as the directory says that the user is in
it. -/
theorem told_chat (apart : bulletin.onUsers ≠ bulletin.onChats) {chat : ChatId}
    (isPublic : directory.isPublic chat = true) :
    (bulletin.effects directory).flatMap (Effect.told bulletin.onChats (.chat chat)) =
      List.replicate ((directory.chatsOf bulletin.about).count chat) bulletin.update := by
  have copies : (directory.publicChatKeys bulletin.about).count (.chat chat) =
      (directory.chatsOf bulletin.about).count chat := by
    rw [Directory.publicChatKeys_eq, List.count_map_of_injective _ _ fun _ _ => Key.chat.inj,
      List.count_filter isPublic]
  simp only [effects, List.flatMap_cons, List.flatMap_nil, Effect.told, if_pos, copies,
    if_neg apart, List.nil_append, List.append_nil]

/-- Whoever is told anything is meant. -/
theorem meant_of_told {topic : Topic} {key : Key}
    (told : (bulletin.effects directory).flatMap (Effect.told topic key) ≠ []) :
    (topic = bulletin.onUsers ∧ ∃ user, key = .user user ∧ bulletin.ForUser directory user) ∨
      (topic = bulletin.onChats ∧ ∃ chat, key = .chat chat ∧ bulletin.ForChat directory chat) := by
  obtain ⟨effect, among, some_⟩ : ∃ effect ∈ bulletin.effects directory,
      effect.told topic key ≠ [] := by
    simpa only [ne_eq, List.flatMap_eq_nil_iff, not_forall, exists_prop] using told
  obtain ⟨onTopic, toKey⟩ := Effect.topic_and_key_of_told some_
  simp only [effects, List.mem_cons, List.not_mem_nil, or_false] at among
  rcases among with rfl | rfl
  · obtain ⟨user, listed, rfl⟩ := List.mem_map.1 toKey
    exact .inl ⟨(Option.some.inj onTopic).symm, user, rfl, mem_readers.1 listed⟩
  · obtain ⟨chat, -, -, rfl⟩ := directory.mem_publicChatKeys.1 toKey
    exact .inr ⟨(Option.some.inj onTopic).symm, chat, rfl, mem_publicChatKeys.1 toKey⟩

end Bulletin

namespace World

variable {world : World Update} {bus : Nat} {nodes : List Feeds} {feeds : Feeds}
  {directory : Directory} {bulletin : Bulletin}

/-- A live subscription to a topic at a connected node. -/
structure Attends (world : World Update) (nodes : List Feeds) (topic : Topic)
    (sub : Subscription Update) : Prop where
  live : sub.live = true
  connected : ∃ node ∈ nodes, world.isConnected node.process = true ∧
    sub.notifier = node.notifier topic

instance (world : World Update) (nodes : List Feeds) (topic : Topic) (sub : Subscription Update) :
    Decidable (world.Attends nodes topic sub) :=
  decidable_of_iff (sub.live = true ∧ ∃ node ∈ nodes, world.isConnected node.process = true ∧
      sub.notifier = node.notifier topic)
    ⟨fun ⟨live, connected⟩ => ⟨live, connected⟩, fun ⟨live, connected⟩ => ⟨live, connected⟩⟩

/-- That streams receive a bulletin if they are meant, and nothing otherwise. -/
structure Tells (world : World Update) (nodes : List Feeds) (directory : Directory)
    (bulletin : Bulletin) (received : Subscription Update → List Update) : Prop where
  /-- A user that is meant gets one copy. -/
  users : ∀ sub user, world.Attends nodes bulletin.onUsers sub → sub.key = .user user →
    bulletin.ForUser directory user → received sub = [bulletin.update]
  chats : ∀ sub chat, world.Attends nodes bulletin.onChats sub → sub.key = .chat chat →
    (bulletin.update ∈ received sub ↔ bulletin.ForChat directory chat)
  /-- A public chat gets as many copies as the directory lists it for the user. -/
  copies : ∀ sub chat, world.Attends nodes bulletin.onChats sub → sub.key = .chat chat →
    directory.isPublic chat = true →
    received sub = List.replicate ((directory.chatsOf bulletin.about).count chat) bulletin.update
  others : ∀ sub, received sub ≠ [] →
    (world.Attends nodes bulletin.onUsers sub ∧
        ∃ user, sub.key = .user user ∧ bulletin.ForUser directory user) ∨
      (world.Attends nodes bulletin.onChats sub ∧
        ∃ chat, sub.key = .chat chat ∧ bulletin.ForChat directory chat)

theorem Tells.silent {received : Subscription Update → List Update}
    (tells : world.Tells nodes directory bulletin received) {sub : Subscription Update}
    (users : ∀ user, world.Attends nodes bulletin.onUsers sub → sub.key = .user user →
      ¬bulletin.ForUser directory user)
    (chats : ¬world.Attends nodes bulletin.onChats sub) : received sub = [] := by
  by_contra some_
  rcases tells.others sub some_ with ⟨attends, user, keyed, meant⟩ | ⟨attends, -⟩
  · exact users user attends keyed meant
  · exact chats attends

/-- That announcing a change adds a bulletin to the streams that it is meant for, does nothing else
to subscriptions, and hands the broker nothing on other topics. -/
def Spreads (world : World Update) (nodes : List Feeds) (feeds : Feeds) (directory : Directory)
    (change : Change) (bulletin : Bulletin) : Prop :=
  ∃ (buses : List Nat) (received : Subscription Update → List Update),
    (world.announce feeds directory change).2.2 =
        { world with
          buses
          subscriptions :=
            world.subscriptions.map fun sub => { sub with buffer := sub.buffer ++ received sub } } ∧
      world.Tells nodes directory bulletin received ∧
      ∀ offer ∈ world.offers feeds (change.effects directory),
        offer.topic = bulletin.onUsers ∨ offer.topic = bulletin.onChats

/-- Feeds offer an effect on the topic that it is for. -/
theorem Bootstrapped.topic_of_offered (h : world.Bootstrapped feeds) (home : world.ListensAtHome)
    {effect : Effect} {offer : Offer} (among : offer ∈ world.offered feeds effect) :
    effect.topic? = some offer.topic := by
  cases effect with
  | revoke revoked => cases among
  | publish topic update keys =>
    obtain ⟨sender, found, -, own⟩ := h.exists_notifier home topic
    simp only [offered, offer?, found, Option.mem_toList] at among
    split at among
    next => cases among
    next =>
      rw [Option.some.injEq] at among
      rw [← among, own, Effect.topic?]

/-- What attends a topic gets what its key is told there. -/
theorem IsCluster.arrivals_of_attends (cluster : world.IsCluster bus nodes)
    (home : world.ListensAtHome) (member : feeds ∈ nodes)
    (connected : world.isConnected feeds.process = true) {effects : List Effect}
    (fits : ∀ effect ∈ effects, effect.fits = true) {topic : Topic} {sub : Subscription Update}
    (attends : world.Attends nodes topic sub) :
    world.arrivals feeds effects sub = effects.flatMap (Effect.told topic sub.key) := by
  obtain ⟨live, node, receiving, open_, at_⟩ := attends
  rw [arrivals, if_pos live, at_,
    cluster.flatMap_brings_node home member connected receiving topic sub.key fits, if_pos open_]

/-- Whoever gets anything attends a topic. -/
theorem IsCluster.attends_of_arrivals (cluster : world.IsCluster bus nodes)
    (home : world.ListensAtHome) (member : feeds ∈ nodes)
    (connected : world.isConnected feeds.process = true) {effects : List Effect}
    (fits : ∀ effect ∈ effects, effect.fits = true) {sub : Subscription Update}
    (some_ : world.arrivals feeds effects sub ≠ []) : ∃ topic, world.Attends nodes topic sub := by
  rw [arrivals] at some_
  split at some_
  next live =>
    by_cases inside : ∃ node ∈ nodes, ∃ topic, sub.notifier = node.notifier topic
    · obtain ⟨node, receiving, topic, at_⟩ := inside
      rw [at_, cluster.flatMap_brings_node home member connected receiving topic sub.key fits]
        at some_
      split at some_
      next open_ => exact ⟨topic, live, node, receiving, open_, at_⟩
      next => exact absurd rfl some_
    · have outside : ∀ node ∈ nodes, ∀ topic, sub.notifier ≠ node.notifier topic :=
        fun node among topic at_ => inside ⟨node, among, topic, at_⟩
      exact absurd (cluster.flatMap_brings_outside home member outside sub.key fits) some_
  next => exact absurd rfl some_

theorem IsCluster.tells (cluster : world.IsCluster bus nodes) (home : world.ListensAtHome)
    (member : feeds ∈ nodes) (connected : world.isConnected feeds.process = true)
    (fits : ∀ effect ∈ bulletin.effects directory, effect.fits = true)
    (apart : bulletin.onUsers ≠ bulletin.onChats) :
    world.Tells nodes directory bulletin
      (world.arrivals feeds (bulletin.effects directory)) where
  users sub user attends keyed listed := by
    rw [cluster.arrivals_of_attends home member connected fits attends, keyed,
      Bulletin.told_user apart listed]
  chats sub chat attends keyed := by
    rw [cluster.arrivals_of_attends home member connected fits attends, keyed]
    constructor
    · intro told
      rcases Bulletin.meant_of_told (List.ne_nil_of_mem told) with ⟨onUsers, -⟩ | ⟨-, meant⟩
      · exact absurd onUsers.symm apart
      · obtain ⟨other, same, forOther⟩ := meant
        cases same
        exact forOther
    · rintro ⟨listed, isPublic⟩
      rw [Bulletin.told_chat apart isPublic, List.mem_replicate]
      exact ⟨Nat.ne_of_gt (List.count_pos_iff.2 listed), rfl⟩
  copies sub chat attends keyed isPublic := by
    rw [cluster.arrivals_of_attends home member connected fits attends, keyed,
      Bulletin.told_chat apart isPublic]
  others sub some_ := by
    obtain ⟨topic, attends⟩ := cluster.attends_of_arrivals home member connected fits some_
    rw [cluster.arrivals_of_attends home member connected fits attends] at some_
    rcases Bulletin.meant_of_told some_ with ⟨rfl, meant⟩ | ⟨rfl, meant⟩
    · exact .inl ⟨attends, meant⟩
    · exact .inr ⟨attends, meant⟩

/-- A change that is announced as a bulletin is spread as one. -/
theorem IsCluster.spreads (cluster : world.IsCluster bus nodes) (h : world.WellFormed)
    (member : feeds ∈ nodes) (connected : world.isConnected feeds.process = true)
    {change : Change} (same : change.effects directory = bulletin.effects directory)
    (apart : bulletin.onUsers ≠ bulletin.onChats) :
    world.Spreads nodes feeds directory change bulletin := by
  have fits := change.effects_fit directory
  obtain ⟨buses, eq⟩ := bringAboutAll_snd h feeds (change.publishes_first directory)
  rw [same] at fits eq
  refine ⟨buses, world.arrivals feeds (bulletin.effects directory), ?_,
    cluster.tells h.home member connected fits apart, ?_⟩
  · rw [announce, same, eq]
    congr 1
    apply List.map_congr_left
    intro sub _
    simp [affected, arrivals, Bulletin.effects, Effect.revokes]
  · intro offer among
    rw [offers_eq_flatMap h, same, List.mem_flatMap] at among
    obtain ⟨effect, listed, offered⟩ := among
    have onTopic := (cluster.bootstrapped feeds member).topic_of_offered h.home offered
    simp only [Bulletin.effects, List.mem_cons, List.not_mem_nil, or_false] at listed
    rcases listed with rfl | rfl
    · exact .inl (Option.some.inj onTopic).symm
    · exact .inr (Option.some.inj onTopic).symm

/-- In a reachable world with a cluster on a bus, whatever the directory's lists are, a connected
node spreads the new state of an account, and that a user came or went. -/
theorem audience_exact (reachable : world.Reachable Update.forms)
    (cluster : world.IsCluster bus nodes) (member : feeds ∈ nodes)
    (connected : world.isConnected feeds.process = true) (directory : Directory) :
    (∀ account, world.Spreads nodes feeds directory (.accountUpdated account)
        (.ofAccount account)) ∧
      ∀ user isOnline lastOnlineMs,
        world.Spreads nodes feeds directory (.onlineStatusChanged user isOnline lastOnlineMs)
          (.ofPresence user isOnline lastOnlineMs) := by
  have h := reachable.wellFormed
  constructor
  · intro account
    exact cluster.spreads h member connected (Bulletin.effects_ofAccount directory account)
      (fun same => nomatch same)
  · intro user isOnline lastOnlineMs
    exact cluster.spreads h member connected
      (Bulletin.effects_ofPresence directory user isOnline lastOnlineMs) (fun same => nomatch same)

/-- Two nodes; clients of the second follow the accounts around one user and the presence around
two, and one of the first follows the accounts of a chat. -/
def household : Cluster :=
  Cluster.run {}
    [.start, .start, .bootstrap 0, .bootstrap 1, .follow 1 (.accounts 2),
      .follow 0 (.chatAccounts 10), .follow 1 (.onlineStatuses 1), .follow 1 (.onlineStatuses 2)]

def housemate : Subscription Update :=
  { id := 1, notifier := 12, key := .user 2, buffer := [.greeting .account] }

def neighbour : Subscription Update :=
  { id := 2, notifier := 3, key := .chat 10, buffer := [.greeting .account] }

def resident : Subscription Update :=
  { id := 3, notifier := 18, key := .user 1, buffer := [.greeting .online] }

def observer : Subscription Update :=
  { id := 4, notifier := 18, key := .user 2, buffer := [.greeting .online] }

/-- The housemate shares two chats with the resident, one of them listed twice, is twice among the
members of one, and saved the resident twice. -/
theorem audience_exact_household :
    let directory := Directory.ofTables [(10, [1, 2, 2]), (20, [2, 1])] [(1, [2, 5, 2])]
      [(1, [10, 20, 10])] [10]
    let account : Account :=
      { id := 1, username := "ann", firstName := "Ann", lastName := "", bio := "" }
    let updated := Update.account (.updatedAccount account)
    let online := Update.online (.onlineStatus 1 true none)
    household.world.Reachable Update.forms ∧ household.world.IsCluster 0 household.nodes ∧
      { process := 0, first := 0 } ∈ household.nodes ∧ household.world.isConnected 0 = true ∧
      (household.world.announce { process := 0, first := 0 } directory
          (.accountUpdated account)).2.2.subscriptions =
        [housemate.push [updated], neighbour.push [updated, updated], resident, observer] ∧
      (household.world.announce { process := 0, first := 0 } directory
          (.onlineStatusChanged 1 true none)).2.2.subscriptions =
        [housemate, neighbour, resident, observer.push [online]] := by
  intro directory account updated online
  have reachable : household.world.Reachable Update.forms := Cluster.reachable_run _
  have cluster : household.world.IsCluster 0 household.nodes :=
    .of_listeners (by decide +kernel) (by decide +kernel) (by decide +kernel)
  have member : { process := 0, first := 0 } ∈ household.nodes := by decide +kernel
  have connected : household.world.isConnected 0 = true := by decide +kernel
  have streams : household.world.subscriptions = [housemate, neighbour, resident, observer] := by
    decide +kernel
  have onAccounts : household.world.Attends household.nodes .accounts housemate := by
    decide +kernel
  have onChatAccounts : household.world.Attends household.nodes .chatAccounts neighbour := by
    decide +kernel
  have onPresence : household.world.Attends household.nodes .onlineStatuses observer := by
    decide +kernel
  obtain ⟨ofAccount, ofPresence⟩ := audience_exact reachable cluster member connected directory
  refine ⟨reachable, cluster, member, connected, ?_, ?_⟩
  · obtain ⟨buses, received, eq, tells, -⟩ := ofAccount account
    have mate := tells.users housemate 2 onAccounts rfl (by decide)
    have near := tells.copies neighbour 10 onChatAccounts rfl rfl
    have elsewhere : ∀ sub ∈ [resident, observer],
        ¬household.world.Attends household.nodes .accounts sub ∧
          ¬household.world.Attends household.nodes .chatAccounts sub := by
      decide +kernel
    have silent : ∀ sub ∈ [resident, observer], received sub = [] := by
      intro sub among
      obtain ⟨notUsers, notChats⟩ := elsewhere sub among
      exact tells.silent (fun _ attends => absurd attends notUsers) notChats
    rw [eq]
    simp only [streams, List.map_cons, List.map_nil, mate, near, silent resident (by simp),
      silent observer (by simp)]
    rfl
  · obtain ⟨buses, received, eq, tells, -⟩ := ofPresence 1 true none
    have seen := tells.users observer 2 onPresence rfl (by decide)
    have elsewhere : ∀ sub ∈ [housemate, neighbour, resident],
        (household.world.Attends household.nodes .onlineStatuses sub → sub.key = .user 1) ∧
          ¬household.world.Attends household.nodes .chatOnlineStatuses sub := by
      decide +kernel
    have silent : ∀ sub ∈ [housemate, neighbour, resident], received sub = [] := by
      intro sub among
      obtain ⟨ofResident, notChats⟩ := elsewhere sub among
      refine tells.silent (fun user attends keyed meant => ?_) notChats
      -- Nobody but the resident attends here, who is not told of their own presence.
      have own : user = 1 := by
        rw [ofResident attends, Key.user.injEq] at keyed
        exact keyed.symm
      exact absurd (meant.2 own) Bool.false_ne_true
    rw [eq]
    simp only [streams, List.map_cons, List.map_nil, seen, silent housemate (by simp),
      silent neighbour (by simp), silent resident (by simp)]
    rfl

end World

end Fanout
