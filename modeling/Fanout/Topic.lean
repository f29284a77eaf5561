import Fanout.Bytes

/-!
# Topics

The ten channels on which updates travel between processes, and their names on the wire. Names tell
topics apart, so a name is read back as the topic it was written for (`ofName?_name`).
-/

namespace Fanout

/-- A broker channel. -/
inductive Topic
  | messages
  | chatMessages
  | accounts
  | chatAccounts
  | chats
  | groupChatMetadata
  | typingStatuses
  | chatTypingStatuses
  | onlineStatuses
  | chatOnlineStatuses
  deriving DecidableEq, Repr

namespace Topic

def all : List Topic :=
  [messages, chatMessages, accounts, chatAccounts, chats, groupChatMetadata, typingStatuses,
    chatTypingStatuses, onlineStatuses, chatOnlineStatuses]

theorem mem_all (topic : Topic) : topic ∈ all := by
  cases topic <;> decide

/-- The name of a topic on the wire. -/
def name : Topic → String
  | messages => "messages"
  | chatMessages => "chat_messages"
  | accounts => "accounts"
  | chatAccounts => "chat_accounts"
  | chats => "chats"
  | groupChatMetadata => "group_chat_metadata"
  | typingStatuses => "typing_statuses"
  | chatTypingStatuses => "chat_typing_statuses"
  | onlineStatuses => "online_statuses"
  | chatOnlineStatuses => "chat_online_statuses"

/-- The name of a topic in programs and logs. -/
def label : Topic → String
  | messages => "Messages"
  | chatMessages => "ChatMessages"
  | accounts => "Accounts"
  | chatAccounts => "ChatAccounts"
  | chats => "Chats"
  | groupChatMetadata => "GroupChatMetadata"
  | typingStatuses => "TypingStatuses"
  | chatTypingStatuses => "ChatTypingStatuses"
  | onlineStatuses => "OnlineStatuses"
  | chatOnlineStatuses => "ChatOnlineStatuses"

def nameBytes (topic : Topic) : Bytes :=
  Bytes.ofText topic.name

def ofName? (name : String) : Option Topic :=
  all.find? (·.name == name)

def ofNameBytes? (bytes : Bytes) : Option Topic :=
  all.find? (·.nameBytes == bytes)

@[simp] theorem ofName?_name (topic : Topic) : ofName? topic.name = some topic := by
  cases topic <;> decide

theorem name_injective {a b : Topic} (h : a.name = b.name) : a = b := by
  have both := congrArg ofName? h
  simpa using both

theorem nameBytes_injective {a b : Topic} (h : a.nameBytes = b.nameBytes) : a = b := by
  have both := congrArg Bytes.toText? h
  simp only [nameBytes, Bytes.toText?_ofText, Option.some.injEq] at both
  exact name_injective both

theorem ofNameBytes?_eq_some_iff {bytes : Bytes} {topic : Topic} :
    ofNameBytes? bytes = some topic ↔ bytes = topic.nameBytes := by
  constructor
  · intro h
    have found := List.find?_some h
    simpa using (beq_iff_eq.1 found).symm
  · rintro rfl
    unfold ofNameBytes?
    cases found : all.find? (·.nameBytes == topic.nameBytes) with
    | none =>
      have absent := List.find?_eq_none.1 found topic (mem_all topic)
      simp at absent
    | some other =>
      have same := List.find?_some found
      rw [nameBytes_injective (beq_iff_eq.1 same)]

end Topic

end Fanout
