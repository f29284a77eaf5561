import Fanout.Table
import Fanout.Update

/-!
# Who knows whom

The directory tells who is in a chat, who saved a user as a contact, which chats a user is in, and
which chats are open to everybody. Its lists are taken as they are. A user's audience is a set: it
lists everybody once, by increasing number (`mem_audience`, `audience_sorted`).
-/

namespace Fanout

/-- A set of users, by increasing number. -/
abbrev UserSet := List UserId

namespace UserSet

def insert (user : UserId) : UserSet → UserSet
  | [] => [user]
  | first :: rest =>
    if user < first then user :: first :: rest
    else if user = first then first :: rest
    else first :: insert user rest

def ofList : List UserId → UserSet
  | [] => []
  | user :: rest => insert user (ofList rest)

@[simp] theorem mem_insert {user other : UserId} {set : UserSet} :
    other ∈ insert user set ↔ other = user ∨ other ∈ set := by
  induction set with
  | nil => simp [insert]
  | cons first rest ih =>
    unfold insert
    split
    · simp
    · split
      · next same => subst same; simp
      · simp only [List.mem_cons, ih]
        exact or_left_comm

@[simp] theorem mem_ofList {user : UserId} {users : List UserId} :
    user ∈ ofList users ↔ user ∈ users := by
  induction users with
  | nil => simp [ofList]
  | cons first rest ih => simp [ofList, ih]

theorem insert_sorted {user : UserId} {set : UserSet} (h : set.Pairwise (· < ·)) :
    (insert user set).Pairwise (· < ·) := by
  induction set with
  | nil => simp [insert]
  | cons first rest ih =>
    have ⟨least, sorted⟩ := List.pairwise_cons.1 h
    unfold insert
    split
    · next below =>
      refine List.pairwise_cons.2 ⟨fun other member => ?_, h⟩
      rcases List.mem_cons.1 member with rfl | member
      · exact below
      · exact Int64.lt_trans below (least other member)
    · next notBelow =>
      split
      · exact h
      · next differs =>
        refine List.pairwise_cons.2 ⟨fun other member => ?_, ih sorted⟩
        rcases mem_insert.1 member with rfl | member
        · exact Int64.lt_of_le_of_ne (Int64.not_lt.1 notBelow) (Ne.symm differs)
        · exact least other member

theorem ofList_sorted (users : List UserId) : (ofList users).Pairwise (· < ·) := by
  induction users with
  | nil => simp [ofList]
  | cons first rest ih => exact insert_sorted ih

end UserSet

structure Directory where
  members : ChatId → List UserId
  /-- Who saved a user as a contact. -/
  contactOwners : UserId → List UserId
  chatsOf : UserId → List ChatId
  /-- Whether a chat can be followed without being in it. -/
  isPublic : ChatId → Bool

namespace Directory

/-- The directory that tables spell; a number without a row has an empty list. -/
def ofTables (members contactOwners chatsOf : Table Int64 (List Int64)) (openChats : List ChatId) :
    Directory where
  members chat := (Table.get? members chat).getD []
  contactOwners user := (Table.get? contactOwners user).getD []
  chatsOf user := (Table.get? chatsOf user).getD []
  isPublic chat := openChats.contains chat

/-- The user, everybody who saved them as a contact, and everybody in a chat with them. -/
def audience (directory : Directory) (user : UserId) : UserSet :=
  .ofList (user :: directory.contactOwners user ++
    (directory.chatsOf user).flatMap directory.members)

theorem mem_audience {directory : Directory} {user other : UserId} :
    other ∈ directory.audience user ↔
      other = user ∨ other ∈ directory.contactOwners user ∨
        ∃ chat ∈ directory.chatsOf user, other ∈ directory.members chat := by
  simp [audience]

theorem audience_sorted (directory : Directory) (user : UserId) :
    (directory.audience user).Pairwise (· < ·) :=
  UserSet.ofList_sorted _

end Directory

end Fanout
