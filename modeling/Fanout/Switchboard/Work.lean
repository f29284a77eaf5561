import Fanout.Switchboard

/-!
# A switchboard at work

How a delivery comes to what it puts into streams: entry after entry and update after update, each
down the channel of its entry, and with a count of what was sent. A channel that is found to be
closed ends the round of its own entry and no other. The whole switchboard is at hand all the time,
so a delivery could change what is listed.
-/

namespace Fanout.Switchboard

abbrev Work (α : Type) := StateM (Switchboard α)

namespace Work

variable {α : Type}

/-- Sends an update down a channel; tells whether that was open. -/
def send (id : Nat) (update : α) : Work α Bool := do
  let board ← get
  match board.streams.send? id update with
  | some streams =>
    set { board with streams }
    return true
  | none => return false

/-- Sends what a batch has for the key of an entry, until the channel is found to be closed; counts
what was sent. -/
def serve (entry : Entry) : List (Notice α) → Work α Nat
  | [] => return 0
  | notice :: batch =>
    if notice.key = entry.key then do
      let sent ← send entry.id notice.update
      if sent then
        let more ← serve entry batch
        return more + 1
      else
        return 0
    else
      serve entry batch

def serveEach (batch : List (Notice α)) : List Entry → Work α Nat
  | [] => return 0
  | entry :: entries => do
    let first ← serve entry batch
    let others ← serveEach batch entries
    return first + others

def deliver (n : Nat) (batch : List (Notice α)) : Work α Nat := do
  let board ← get
  match board.registryAt? n with
  | some registry => serveEach batch registry
  | none => return 0

end Work

end Fanout.Switchboard
