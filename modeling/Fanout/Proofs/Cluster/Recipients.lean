import Fanout.Change

/-!
# Who is told of a change

What a change is told as depends on the kind of update, and whom it is told to on the topic: certain
users, and those of certain chats that are public. An announcement tells each key on each topic what
these tables say (`told_effects`), and only after that ends subscriptions (`publishes_first`).
-/

namespace Fanout

namespace Change

/-- What a change is told as, in the kind of update that a topic carries. -/
def news : Change → UpdateKind → Option Update
  | messageCreated message, .message => some (.message (.newMessage message))
  | messageUpdated message, .message => some (.message (.updatedMessage message))
  | messageDeleted chat message, .message => some (.message (.deletedMessage chat message))
  | userMessagesRemoved chat user, .message =>
    some (.message (.userChatMessagesRemoval chat user))
  | chatMessagesCleared chat, .message => some (.message (.deletionOfEveryMessage chat))
  | contactAdded _ contact, .account => some (.account (.newContact contact))
  | contactRemoved _ contact, .account => some (.account (.deletedContact contact))
  | userBlocked _ blocked, .account => some (.account (.blockedAccount blocked))
  | userUnblocked _ unblocked, .account => some (.account (.unblockedAccount unblocked))
  | accountUpdated account, .account => some (.account (.updatedAccount account))
  | accountDeleted user _, .account => some (.account (.deletedContact user))
  | addedToGroupChat chat _, .chat => some (.chat (.groupChatId chat))
  | addedToGroupChat chat newUsers, .metadata =>
    some (.metadata (.updatedGroupChat { chatId := chat, newUsers }))
  | exitedGroupChat chat users, .chat => some (.chat (.exitedUsers chat users))
  | exitedGroupChat chat users, .metadata =>
    some (.metadata (.updatedGroupChat { chatId := chat, removedUsers := users }))
  | groupChatUpdated chat title description admins, .metadata =>
    some (.metadata (.updatedGroupChat { chatId := chat, title, description, adminIds := admins }))
  | privateChatDeleted chat _, .chat => some (.chat (.deletedPrivateChat chat))
  | typingStatusChanged chat user isTyping, .typing =>
    some (.typing (.typingStatus chat user isTyping))
  | onlineStatusChanged user isOnline lastOnlineMs, .online =>
    some (.online (.onlineStatus user isOnline lastOnlineMs))
  | _, _ => none

/-- The users that are told of a change on a topic. -/
def users (directory : Directory) : Change → Topic → List UserId
  | messageCreated message, .messages | messageUpdated message, .messages =>
    directory.members message.chatId
  | messageDeleted chat _, .messages | userMessagesRemoved chat _, .messages
  | chatMessagesCleared chat, .messages | exitedGroupChat chat _, .chats
  | addedToGroupChat chat _, .groupChatMetadata | exitedGroupChat chat _, .groupChatMetadata
  | groupChatUpdated chat _ _ _, .groupChatMetadata => directory.members chat
  | contactAdded owner _, .accounts | contactRemoved owner _, .accounts
  | userBlocked owner _, .accounts | userUnblocked owner _, .accounts => [owner]
  | accountUpdated account, .accounts => directory.audience account.id
  | accountDeleted _ formerContactOwners, .accounts => formerContactOwners
  | addedToGroupChat _ newUsers, .chats => newUsers
  | privateChatDeleted _ participants, .chats => participants
  | typingStatusChanged chat user _, .typingStatuses =>
    (directory.members chat).filter (· ≠ user)
  | onlineStatusChanged user _ _, .onlineStatuses => (directory.audience user).filter (· ≠ user)
  | _, _ => []

/-- The chats that are told of a change on a topic if they are public. -/
def chats (directory : Directory) : Change → Topic → List ChatId
  | messageCreated message, .chatMessages | messageUpdated message, .chatMessages =>
    [message.chatId]
  | messageDeleted chat _, .chatMessages | userMessagesRemoved chat _, .chatMessages
  | chatMessagesCleared chat, .chatMessages | addedToGroupChat chat _, .groupChatMetadata
  | exitedGroupChat chat _, .groupChatMetadata | groupChatUpdated chat _ _ _, .groupChatMetadata
  | typingStatusChanged chat _ _, .chatTypingStatuses => [chat]
  | accountUpdated account, .chatAccounts => directory.chatsOf account.id
  | onlineStatusChanged user _ _, .chatOnlineStatuses => directory.chatsOf user
  | _, _ => []

/-- The keys that are told of a change on a topic. -/
def recipients (directory : Directory) (change : Change) (topic : Topic) : List Key :=
  (change.users directory topic).map .user ++
    ((change.chats directory topic).filter directory.isPublic).map .chat

/-- What a key is told of a change on a topic. -/
def told (directory : Directory) (topic : Topic) (key : Key) (change : Change) : List Update :=
  match change.news topic.kind with
  | some update => List.replicate ((change.recipients directory topic).count key) update
  | none => []

/-- The key whose subscriptions in the announcing process a change ends. -/
def revoked? : Change → Option Key
  | accountDeleted user _ => some (.user user)
  | chatMadePrivate chat | privateChatDeleted chat _ => some (.chat chat)
  | _ => none

end Change

namespace Effect

def publishes : Effect → Bool
  | publish .. => true
  | revoke _ => false

/-- What an effect tells a key on a topic. -/
def told (topic : Topic) (key : Key) : Effect → List Update
  | publish onTopic update keys =>
    if onTopic = topic then List.replicate (keys.count key) update else []
  | revoke _ => []

def revokes (key : Key) : Effect → Bool
  | publish .. => false
  | revoke revoked => revoked = key

end Effect

theorem Directory.chatKey_eq (directory : Directory) (chat : ChatId) :
    directory.chatKey chat = ([chat].filter directory.isPublic).map .chat := by
  cases isPublic : directory.isPublic chat <;> simp [chatKey, isPublic]

theorem Directory.publicChatKeys_eq (directory : Directory) (user : UserId) :
    directory.publicChatKeys user =
      ((directory.chatsOf user).filter directory.isPublic).map .chat := by
  simp only [publicChatKeys]
  induction directory.chatsOf user with
  | nil => rfl
  | cons chat chats ih =>
    rw [List.flatMap_cons, ih, chatKey_eq, ← List.map_append, ← List.filter_append,
      List.singleton_append]

/-- An announcement tells each topic what the tables say. -/
theorem Change.told_effects (directory : Directory) (change : Change) (topic : Topic) (key : Key) :
    (change.effects directory).flatMap (Effect.told topic key) =
      change.told directory topic key := by
  cases change <;> cases topic <;>
    simp [effects, Directory.announceMessages, Directory.announceMetadata, announceContact,
      Effect.told, told, news, recipients, users, chats, Topic.kind, Directory.memberKeys,
      Directory.chatKey_eq, Directory.publicChatKeys_eq]

/-- An announcement ends subscriptions only after everything has been published. -/
theorem Change.publishes_first (directory : Directory) (change : Change) :
    (change.effects directory).Pairwise fun earlier later =>
      later.publishes = true → earlier.publishes = true := by
  cases change <;>
    simp [effects, Directory.announceMessages, Directory.announceMetadata, announceContact,
      Effect.publishes]

theorem Change.any_revokes (directory : Directory) (change : Change) (key : Key) :
    (change.effects directory).any (Effect.revokes key) = decide (change.revoked? = some key) := by
  cases change <;>
    simp [effects, Directory.announceMessages, Directory.announceMetadata, announceContact,
      Effect.revokes, revoked?]

end Fanout
