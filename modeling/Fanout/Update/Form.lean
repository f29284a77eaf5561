import Fanout.Json.Record
import Fanout.Update

/-!
# Updates as JSON

Each alternative of an update is written as its tag and, the greeting apart, its data: a record of
the alternative's fields. Messages and accounts are records of their own, so they are also read from
a list of their fields; the other data is read from objects only.
-/

namespace Fanout

open Json Json.Value

namespace Message

def names : List String :=
  ["id", "chat_id", "sender_id", "text", "sent_at_ms"]

def toValue (message : Message) : Value :=
  ofRecord
    [("id", ofInt64 message.id), ("chat_id", ofInt64 message.chatId),
      ("sender_id", ofInt64 message.senderId), ("text", ofText message.text),
      ("sent_at_ms", ofUInt64 message.sentAtMs)]

/-- The message that a record in either form spells. -/
def ofValue? (value : Value) : Option Message := do
  let fields ← value.record? names
  return {
    id := ← (← fields.lookup "id").int64?
    chatId := ← (← fields.lookup "chat_id").int64?
    senderId := ← (← fields.lookup "sender_id").int64?
    text := ← (← fields.lookup "text").text?
    sentAtMs := ← (← fields.lookup "sent_at_ms").uint64? }

end Message

namespace Account

def names : List String :=
  ["id", "username", "first_name", "last_name", "bio"]

def toValue (account : Account) : Value :=
  ofRecord
    [("id", ofInt64 account.id), ("username", ofText account.username),
      ("first_name", ofText account.firstName), ("last_name", ofText account.lastName),
      ("bio", ofText account.bio)]

def ofValue? (value : Value) : Option Account := do
  let fields ← value.record? names
  return {
    id := ← (← fields.lookup "id").int64?
    username := ← (← fields.lookup "username").text?
    firstName := ← (← fields.lookup "first_name").text?
    lastName := ← (← fields.lookup "last_name").text?
    bio := ← (← fields.lookup "bio").text? }

end Account

def greetingTag : String :=
  "CreatedSubscription"

namespace MessageUpdate

def toValue : MessageUpdate → Value
  | createdSubscription => ofTagged greetingTag none
  | newMessage message => ofTagged "NewMessage" message.toValue
  | updatedMessage message => ofTagged "UpdatedMessage" message.toValue
  | deletedMessage chatId messageId =>
    ofTagged "DeletedMessage"
      (ofRecord [("chat_id", ofInt64 chatId), ("message_id", ofInt64 messageId)])
  | userChatMessagesRemoval chatId userId =>
    ofTagged "UserChatMessagesRemoval"
      (ofRecord [("chat_id", ofInt64 chatId), ("user_id", ofInt64 userId)])
  | deletionOfEveryMessage chatId =>
    ofTagged "DeletionOfEveryMessage" (ofRecord [("chat_id", ofInt64 chatId)])

def ofValue? (levels : Nat) (value : Value) : Option MessageUpdate := do
  let (tag, data) ← value.tagged? (levels - 1)
  if tag = greetingTag then
    unit? data
    return createdSubscription
  else if tag = "NewMessage" then
    return newMessage (← Message.ofValue? (← data))
  else if tag = "UpdatedMessage" then
    return updatedMessage (← Message.ofValue? (← data))
  else if tag = "DeletedMessage" then
    let fields ← (← data).fields? ["chat_id", "message_id"]
    return deletedMessage (← (← fields.lookup "chat_id").int64?)
      (← (← fields.lookup "message_id").int64?)
  else if tag = "UserChatMessagesRemoval" then
    let fields ← (← data).fields? ["chat_id", "user_id"]
    return userChatMessagesRemoval (← (← fields.lookup "chat_id").int64?)
      (← (← fields.lookup "user_id").int64?)
  else if tag = "DeletionOfEveryMessage" then
    let fields ← (← data).fields? ["chat_id"]
    return deletionOfEveryMessage (← (← fields.lookup "chat_id").int64?)
  else
    none

end MessageUpdate

namespace AccountUpdate

/-- The data of an alternative that names one user. -/
def userRecord (userId : UserId) : Value :=
  ofRecord [("user_id", ofInt64 userId)]

def user? (data : Option Value) : Option UserId := do
  let fields ← (← data).fields? ["user_id"]
  (← fields.lookup "user_id").int64?

def toValue : AccountUpdate → Value
  | createdSubscription => ofTagged greetingTag none
  | newContact userId => ofTagged "NewContact" (userRecord userId)
  | updatedAccount account => ofTagged "UpdatedAccount" account.toValue
  | deletedContact userId => ofTagged "DeletedContact" (userRecord userId)
  | blockedAccount userId => ofTagged "BlockedAccount" (userRecord userId)
  | unblockedAccount userId => ofTagged "UnblockedAccount" (userRecord userId)

def ofValue? (levels : Nat) (value : Value) : Option AccountUpdate := do
  let (tag, data) ← value.tagged? (levels - 1)
  if tag = greetingTag then
    unit? data
    return createdSubscription
  else if tag = "NewContact" then
    return newContact (← user? data)
  else if tag = "UpdatedAccount" then
    return updatedAccount (← Account.ofValue? (← data))
  else if tag = "DeletedContact" then
    return deletedContact (← user? data)
  else if tag = "BlockedAccount" then
    return blockedAccount (← user? data)
  else if tag = "UnblockedAccount" then
    return unblockedAccount (← user? data)
  else
    none

end AccountUpdate

namespace ChatUpdate

def toValue : ChatUpdate → Value
  | createdSubscription => ofTagged greetingTag none
  | groupChatId chatId => ofTagged "GroupChatId" (ofRecord [("chat_id", ofInt64 chatId)])
  | deletedPrivateChat chatId =>
    ofTagged "DeletedPrivateChat" (ofRecord [("chat_id", ofInt64 chatId)])
  | exitedUsers chatId userIds =>
    ofTagged "ExitedUsers"
      (ofRecord [("chat_id", ofInt64 chatId), ("user_ids", ofList ofInt64 userIds)])

def ofValue? (levels : Nat) (value : Value) : Option ChatUpdate := do
  let (tag, data) ← value.tagged? (levels - 1)
  if tag = greetingTag then
    unit? data
    return createdSubscription
  else if tag = "GroupChatId" then
    let fields ← (← data).fields? ["chat_id"]
    return groupChatId (← (← fields.lookup "chat_id").int64?)
  else if tag = "DeletedPrivateChat" then
    let fields ← (← data).fields? ["chat_id"]
    return deletedPrivateChat (← (← fields.lookup "chat_id").int64?)
  else if tag = "ExitedUsers" then
    let fields ← (← data).fields? ["chat_id", "user_ids"]
    return exitedUsers (← (← fields.lookup "chat_id").int64?)
      (← (← fields.lookup "user_ids").list? int64?)
  else
    none

end ChatUpdate

namespace GroupChatChange

def names : List String :=
  ["chat_id", "title", "description", "new_users", "removed_users", "admin_ids"]

/-- A change as a record; parts that did not change are null. -/
def toValue (change : GroupChatChange) : Value :=
  ofRecord
    [("chat_id", ofInt64 change.chatId), ("title", ofOption ofText change.title),
      ("description", ofOption ofText change.description),
      ("new_users", ofList ofInt64 change.newUsers),
      ("removed_users", ofList ofInt64 change.removedUsers),
      ("admin_ids", ofOption (ofList ofInt64) change.adminIds)]

/-- The change that an object spells; parts that did not change may be left out. -/
def ofValue? (value : Value) : Option GroupChatChange := do
  let fields ← value.fields? names
  return {
    chatId := ← (← fields.lookup "chat_id").int64?
    title := ← ((fields.lookup "title").getD null).option? text?
    description := ← ((fields.lookup "description").getD null).option? text?
    newUsers := ← (← fields.lookup "new_users").list? int64?
    removedUsers := ← (← fields.lookup "removed_users").list? int64?
    adminIds := ← ((fields.lookup "admin_ids").getD null).option? (list? int64?) }

end GroupChatChange

namespace MetadataUpdate

def toValue : MetadataUpdate → Value
  | createdSubscription => ofTagged greetingTag none
  | updatedGroupChat change => ofTagged "UpdatedGroupChat" change.toValue

def ofValue? (levels : Nat) (value : Value) : Option MetadataUpdate := do
  let (tag, data) ← value.tagged? (levels - 1)
  if tag = greetingTag then
    unit? data
    return createdSubscription
  else if tag = "UpdatedGroupChat" then
    return updatedGroupChat (← GroupChatChange.ofValue? (← data))
  else
    none

end MetadataUpdate

namespace TypingUpdate

def toValue : TypingUpdate → Value
  | createdSubscription => ofTagged greetingTag none
  | typingStatus chatId userId isTyping =>
    ofTagged "TypingStatus"
      (ofRecord [("chat_id", ofInt64 chatId), ("user_id", ofInt64 userId),
        ("is_typing", bool isTyping)])

def ofValue? (levels : Nat) (value : Value) : Option TypingUpdate := do
  let (tag, data) ← value.tagged? (levels - 1)
  if tag = greetingTag then
    unit? data
    return createdSubscription
  else if tag = "TypingStatus" then
    let fields ← (← data).fields? ["chat_id", "user_id", "is_typing"]
    return typingStatus (← (← fields.lookup "chat_id").int64?)
      (← (← fields.lookup "user_id").int64?) (← (← fields.lookup "is_typing").bool?)
  else
    none

end TypingUpdate

namespace OnlineUpdate

def toValue : OnlineUpdate → Value
  | createdSubscription => ofTagged greetingTag none
  | onlineStatus userId isOnline lastOnlineMs =>
    ofTagged "OnlineStatus"
      (ofRecord [("user_id", ofInt64 userId), ("is_online", bool isOnline),
        ("last_online_ms", ofOption ofUInt64 lastOnlineMs)])

def ofValue? (levels : Nat) (value : Value) : Option OnlineUpdate := do
  let (tag, data) ← value.tagged? (levels - 1)
  if tag = greetingTag then
    unit? data
    return createdSubscription
  else if tag = "OnlineStatus" then
    let fields ← (← data).fields? ["user_id", "is_online", "last_online_ms"]
    return onlineStatus (← (← fields.lookup "user_id").int64?)
      (← (← fields.lookup "is_online").bool?)
      (← ((fields.lookup "last_online_ms").getD null).option? uint64?)
  else
    none

end OnlineUpdate

namespace Update

/-- An update as JSON; its kind is not written, since the topic tells it. -/
def toValue : Update → Value
  | message update => update.toValue
  | account update => update.toValue
  | chat update => update.toValue
  | metadata update => update.toValue
  | typing update => update.toValue
  | online update => update.toValue

def ofValue? (kind : UpdateKind) (levels : Nat) (value : Value) : Option Update :=
  match kind with
  | .message => (MessageUpdate.ofValue? levels value).map message
  | .account => (AccountUpdate.ofValue? levels value).map account
  | .chat => (ChatUpdate.ofValue? levels value).map chat
  | .metadata => (MetadataUpdate.ofValue? levels value).map metadata
  | .typing => (TypingUpdate.ofValue? levels value).map typing
  | .online => (OnlineUpdate.ofValue? levels value).map online

def form (kind : UpdateKind) : Form Update where
  toValue := toValue
  ofValue? := ofValue? kind

end Update

end Fanout
