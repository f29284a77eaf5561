import Fanout.Change
import Fanout.Update.Form
import Fanout.World

/-!
# The feeds of a process

A process that serves clients has one notifier for each topic. They are made together, registered
and shut down together, and a key can be revoked on all of them. A client follows one of ten live
feeds; its stream is greeted before anything else can reach it.
-/

namespace Fanout

def Update.forms : Forms Update := fun topic => Update.form topic.kind

inductive Follow
  | messages (user : UserId)
  | chatMessages (chat : ChatId)
  | accounts (user : UserId)
  | chatAccounts (chat : ChatId)
  | chats (user : UserId)
  /-- Members follow by user, viewers of a public chat by chat. -/
  | groupChatMetadata (key : Key)
  | typingStatuses (user : UserId)
  | chatTypingStatuses (chat : ChatId)
  | onlineStatuses (user : UserId)
  | chatOnlineStatuses (chat : ChatId)
  deriving DecidableEq, Repr

namespace Follow

def topic : Follow → Topic
  | messages _ => .messages
  | chatMessages _ => .chatMessages
  | accounts _ => .accounts
  | chatAccounts _ => .chatAccounts
  | chats _ => .chats
  | groupChatMetadata _ => .groupChatMetadata
  | typingStatuses _ => .typingStatuses
  | chatTypingStatuses _ => .chatTypingStatuses
  | onlineStatuses _ => .onlineStatuses
  | chatOnlineStatuses _ => .chatOnlineStatuses

def key : Follow → Key
  | messages user | accounts user | chats user | typingStatuses user | onlineStatuses user =>
    .user user
  | chatMessages chat | chatAccounts chat | chatTypingStatuses chat | chatOnlineStatuses chat =>
    .chat chat
  | groupChatMetadata key => key

/-- The wish to follow a topic by a key, if that topic can be followed by such a key. -/
def of? : Topic → Key → Option Follow
  | .messages, .user user => some (messages user)
  | .chatMessages, .chat chat => some (chatMessages chat)
  | .accounts, .user user => some (accounts user)
  | .chatAccounts, .chat chat => some (chatAccounts chat)
  | .chats, .user user => some (chats user)
  | .groupChatMetadata, key => some (groupChatMetadata key)
  | .typingStatuses, .user user => some (typingStatuses user)
  | .chatTypingStatuses, .chat chat => some (chatTypingStatuses chat)
  | .onlineStatuses, .user user => some (onlineStatuses user)
  | .chatOnlineStatuses, .chat chat => some (chatOnlineStatuses chat)
  | _, _ => none

theorem of?_topic_key (wish : Follow) : of? wish.topic wish.key = some wish := by
  cases wish <;> rfl

end Follow

/-- The ten notifiers of a process; they stand side by side, in the order of topics. -/
structure Feeds where
  process : Nat
  first : Nat
  deriving DecidableEq, Repr

namespace Feeds

def notifier (feeds : Feeds) (topic : Topic) : Nat :=
  feeds.first + Topic.all.idxOf topic

def notifiers (feeds : Feeds) : List Nat :=
  Topic.all.map feeds.notifier

end Feeds

namespace World

variable {α : Type}

def addNotifiers (world : World α) (p : Nat) : List Topic → World α
  | [] => world
  | topic :: topics => (world.addNotifier p topic).addNotifiers p topics

def listenEach (world : World α) : List Nat → Nat × World α
  | [] => (0, world)
  | n :: rest =>
    let (added, world) := world.listen n
    let (count, world) := world.listenEach rest
    (if added then count + 1 else count, world)

def unsubscribeEach (world : World α) (condition : Key → Nat → Bool) : List Nat → Nat × World α
  | [] => (0, world)
  | n :: rest =>
    let (ended, world) := world.unsubscribe n condition
    let (count, world) := world.unsubscribeEach condition rest
    (ended + count, world)

/-- Attaches a new process to the shared bus and makes its feeds. -/
def addFeeds (world : World α) : Feeds × World α :=
  let p := world.processes.length
  ({ process := p, first := world.notifiers.length }, world.connect.addNotifiers p Topic.all)

/-- Registers the feeds as listeners of their topics; tells how many of the topics had none. -/
def bootstrap (world : World α) (feeds : Feeds) : Nat × World α :=
  world.listenEach feeds.notifiers

def shutdownFeeds (world : World α) (feeds : Feeds) : World α :=
  feeds.notifiers.foldl shutdown world

/-- Drops the feeds and lets go of their process. -/
def dropFeeds (world : World α) (feeds : Feeds) : World α :=
  (feeds.notifiers.foldl dropNotifier world).release feeds.process

/-- Ends the subscriptions of the feeds that have this key; tells how many. -/
def revoke (world : World α) (feeds : Feeds) (key : Key) : Nat × World α :=
  world.unsubscribeEach (fun k _ => k = key) feeds.notifiers

/-- Opens a stream of the feeds and greets it; tells its number. -/
def follow (world : World Update) (feeds : Feeds) (wish : Follow) : Nat × World Update :=
  let n := feeds.notifier wish.topic
  let (id, world) := world.subscribe n wish.key
  match world.notifySubscriber n (.greeting wish.topic.kind) id with
  | .ok greeted => (id, greeted)
  | .error _ => (id, world)

def bringAbout (world : World Update) (feeds : Feeds) : Effect → Nat × List Heard × World Update
  | .publish topic update keys =>
    (0, world.publish Update.forms (feeds.notifier topic) update keys)
  | .revoke key =>
    let (count, world) := world.revoke feeds key
    (count, [], world)

def bringAboutAll (world : World Update) (feeds : Feeds) :
    List Effect → Nat × List Heard × World Update
  | [] => (0, [], world)
  | effect :: effects =>
    let (ended, heard, world) := world.bringAbout feeds effect
    let (count, more, world) := world.bringAboutAll feeds effects
    (ended + count, heard ++ more, world)

/-- Announces a change; tells how many subscriptions that ended. -/
def announce (world : World Update) (feeds : Feeds) (directory : Directory) (change : Change) :
    Nat × List Heard × World Update :=
  world.bringAboutAll feeds (change.effects directory)

end World

end Fanout
