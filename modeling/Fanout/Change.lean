import Fanout.Directory
import Fanout.Notice

/-!
# Changes and who hears of them

After a change to chats, messages or accounts has been made, it is announced. An announcement is a
list of effects: an update published on a topic to some keys, or a key whose subscriptions in the
announcing process end. Whom a change concerns is taken from the directory as it stands after the
change. A chat's own key is addressed only if the chat is public (`chatKey`).
-/

namespace Fanout

inductive Change
  | messageCreated (message : Message)
  | messageUpdated (message : Message)
  | messageDeleted (chat : ChatId) (message : MessageId)
  | userMessagesRemoved (chat : ChatId) (user : UserId)
  | chatMessagesCleared (chat : ChatId)
  | contactAdded (owner contact : UserId)
  | contactRemoved (owner contact : UserId)
  | userBlocked (blocker blocked : UserId)
  | userUnblocked (blocker unblocked : UserId)
  | accountUpdated (account : Account)
  /-- The account is gone; these users had saved it as a contact. -/
  | accountDeleted (user : UserId) (formerContactOwners : List UserId)
  | addedToGroupChat (chat : ChatId) (newUsers : List UserId)
  | exitedGroupChat (chat : ChatId) (users : List UserId)
  | groupChatUpdated (chat : ChatId) (title description : Option String)
      (admins : Option (List UserId))
  | chatMadePrivate (chat : ChatId)
  | privateChatDeleted (chat : ChatId) (participants : List UserId)
  | typingStatusChanged (chat : ChatId) (user : UserId) (isTyping : Bool)
  | onlineStatusChanged (user : UserId) (isOnline : Bool) (lastOnlineMs : Option UInt64)
  deriving DecidableEq, Repr

/-- One part of an announcement. -/
inductive Effect
  | publish (topic : Topic) (update : Update) (keys : List Key)
  /-- End the process's own subscriptions with this key. -/
  | revoke (key : Key)
  deriving DecidableEq, Repr

namespace Directory

variable (directory : Directory)

/-- The key of a chat, if it can be followed without being in it. -/
def chatKey (chat : ChatId) : List Key :=
  if directory.isPublic chat then [.chat chat] else []

def memberKeys (chat : ChatId) : List Key :=
  (directory.members chat).map .user

def publicChatKeys (user : UserId) : List Key :=
  (directory.chatsOf user).flatMap directory.chatKey

theorem mem_chatKey {chat : ChatId} {key : Key} :
    key ∈ directory.chatKey chat ↔ directory.isPublic chat = true ∧ key = .chat chat := by
  unfold chatKey
  split <;> simp_all

theorem mem_publicChatKeys {user : UserId} {key : Key} :
    key ∈ directory.publicChatKeys user ↔
      ∃ chat ∈ directory.chatsOf user, directory.isPublic chat = true ∧ key = .chat chat := by
  simp [publicChatKeys, mem_chatKey]

/-- Tells the members of a chat, and whoever follows it, what happened to messages. -/
def announceMessages (chat : ChatId) (update : MessageUpdate) : List Effect :=
  [.publish .messages (.message update) (directory.memberKeys chat),
    .publish .chatMessages (.message update) (directory.chatKey chat)]

def announceMetadata (change : GroupChatChange) : List Effect :=
  [.publish .groupChatMetadata (.metadata (.updatedGroupChat change))
    (directory.memberKeys change.chatId ++ directory.chatKey change.chatId)]

end Directory

namespace Change

def announceContact (owner : UserId) (update : AccountUpdate) : List Effect :=
  [.publish .accounts (.account update) [.user owner]]

def effects (directory : Directory) : Change → List Effect
  | messageCreated message => directory.announceMessages message.chatId (.newMessage message)
  | messageUpdated message => directory.announceMessages message.chatId (.updatedMessage message)
  | messageDeleted chat message => directory.announceMessages chat (.deletedMessage chat message)
  | userMessagesRemoved chat user =>
    directory.announceMessages chat (.userChatMessagesRemoval chat user)
  | chatMessagesCleared chat => directory.announceMessages chat (.deletionOfEveryMessage chat)
  | contactAdded owner contact => announceContact owner (.newContact contact)
  | contactRemoved owner contact => announceContact owner (.deletedContact contact)
  | userBlocked blocker blocked => announceContact blocker (.blockedAccount blocked)
  | userUnblocked blocker unblocked => announceContact blocker (.unblockedAccount unblocked)
  | accountUpdated account =>
    let update := .account (.updatedAccount account)
    [.publish .accounts update ((directory.audience account.id).map .user),
      .publish .chatAccounts update (directory.publicChatKeys account.id)]
  | accountDeleted user formerContactOwners =>
    [.publish .accounts (.account (.deletedContact user)) (formerContactOwners.map .user),
      .revoke (.user user)]
  | addedToGroupChat chat newUsers =>
    .publish .chats (.chat (.groupChatId chat)) (newUsers.map .user) ::
      directory.announceMetadata { chatId := chat, newUsers }
  | exitedGroupChat chat users =>
    .publish .chats (.chat (.exitedUsers chat users)) (directory.memberKeys chat) ::
      directory.announceMetadata { chatId := chat, removedUsers := users }
  | groupChatUpdated chat title description admins =>
    directory.announceMetadata { chatId := chat, title, description, adminIds := admins }
  | chatMadePrivate chat => [.revoke (.chat chat)]
  | privateChatDeleted chat participants =>
    [.publish .chats (.chat (.deletedPrivateChat chat)) (participants.map .user),
      .revoke (.chat chat)]
  | typingStatusChanged chat user isTyping =>
    let update := .typing (.typingStatus chat user isTyping)
    [.publish .typingStatuses update
        (((directory.members chat).filter (· ≠ user)).map .user),
      .publish .chatTypingStatuses update (directory.chatKey chat)]
  | onlineStatusChanged user isOnline lastOnlineMs =>
    let update := .online (.onlineStatus user isOnline lastOnlineMs)
    [.publish .onlineStatuses update
        (((directory.audience user).filter (· ≠ user)).map .user),
      .publish .chatOnlineStatuses update (directory.publicChatKeys user)]

end Change

namespace Effect

/-- Whether the update is of the kind that its topic carries. -/
def fits : Effect → Bool
  | publish topic update _ => update.kind == topic.kind
  | revoke _ => true

end Effect

/-- An announcement publishes on each topic only updates of the topic's kind. -/
theorem Change.effects_fit (directory : Directory) (change : Change) :
    ∀ effect ∈ change.effects directory, effect.fits = true := by
  cases change <;>
    simp [Change.effects, Directory.announceMessages, Change.announceContact,
      Directory.announceMetadata, Effect.fits, Update.kind, Topic.kind]

end Fanout
