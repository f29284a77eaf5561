import Fanout.Topic

/-!
# Updates

What clients are told. There are six kinds of update, and each topic carries one of them. Every kind
has a greeting, which a fresh subscription gets first.
-/

namespace Fanout

abbrev UserId := Int64

abbrev ChatId := Int64

abbrev MessageId := Int64

/-- A message in a chat; the time it was sent is in milliseconds. -/
structure Message where
  id : MessageId
  chatId : ChatId
  senderId : UserId
  text : String
  sentAtMs : UInt64
  deriving DecidableEq, Repr

/-- What a user shows of themselves. -/
structure Account where
  id : UserId
  username : String
  firstName : String
  lastName : String
  bio : String
  deriving DecidableEq, Repr

inductive MessageUpdate
  | createdSubscription
  | newMessage (message : Message)
  | updatedMessage (message : Message)
  | deletedMessage (chatId : ChatId) (messageId : MessageId)
  | userChatMessagesRemoval (chatId : ChatId) (userId : UserId)
  | deletionOfEveryMessage (chatId : ChatId)
  deriving DecidableEq, Repr

inductive AccountUpdate
  | createdSubscription
  | newContact (userId : UserId)
  | updatedAccount (account : Account)
  | deletedContact (userId : UserId)
  | blockedAccount (userId : UserId)
  | unblockedAccount (userId : UserId)
  deriving DecidableEq, Repr

inductive ChatUpdate
  | createdSubscription
  /-- The recipient was added to this group chat. -/
  | groupChatId (chatId : ChatId)
  | deletedPrivateChat (chatId : ChatId)
  | exitedUsers (chatId : ChatId) (userIds : List UserId)
  deriving DecidableEq, Repr

/-- What changed about a group chat; parts that did not change are missing. -/
structure GroupChatChange where
  chatId : ChatId
  title : Option String := none
  description : Option String := none
  newUsers : List UserId := []
  removedUsers : List UserId := []
  adminIds : Option (List UserId) := none
  deriving DecidableEq, Repr

inductive MetadataUpdate
  | createdSubscription
  | updatedGroupChat (change : GroupChatChange)
  deriving DecidableEq, Repr

inductive TypingUpdate
  | createdSubscription
  | typingStatus (chatId : ChatId) (userId : UserId) (isTyping : Bool)
  deriving DecidableEq, Repr

/-- Who came or went, and when they were last seen, in milliseconds. -/
inductive OnlineUpdate
  | createdSubscription
  | onlineStatus (userId : UserId) (isOnline : Bool) (lastOnlineMs : Option UInt64)
  deriving DecidableEq, Repr

inductive UpdateKind
  | message
  | account
  | chat
  | metadata
  | typing
  | online
  deriving DecidableEq, Repr

def Topic.kind : Topic → UpdateKind
  | messages | chatMessages => .message
  | accounts | chatAccounts => .account
  | chats => .chat
  | groupChatMetadata => .metadata
  | typingStatuses | chatTypingStatuses => .typing
  | onlineStatuses | chatOnlineStatuses => .online

inductive Update
  | message (update : MessageUpdate)
  | account (update : AccountUpdate)
  | chat (update : ChatUpdate)
  | metadata (update : MetadataUpdate)
  | typing (update : TypingUpdate)
  | online (update : OnlineUpdate)
  deriving DecidableEq, Repr

namespace Update

def kind : Update → UpdateKind
  | message _ => .message
  | account _ => .account
  | chat _ => .chat
  | metadata _ => .metadata
  | typing _ => .typing
  | online _ => .online

/-- The update that greets a fresh subscription. -/
def greeting : UpdateKind → Update
  | .message => message .createdSubscription
  | .account => account .createdSubscription
  | .chat => chat .createdSubscription
  | .metadata => metadata .createdSubscription
  | .typing => typing .createdSubscription
  | .online => online .createdSubscription

@[simp] theorem kind_greeting (kind : UpdateKind) : (greeting kind).kind = kind := by
  cases kind <;> rfl

end Update

end Fanout
