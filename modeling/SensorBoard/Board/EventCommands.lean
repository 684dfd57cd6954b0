import SensorBoard.Board.Outbound

namespace SensorBoard.Board

def setLedger (b : Board L κ) (event : Header) (l : Ledger) : Board L κ :=
  { b with ledgers := b.ledgers.insert event l }

def dropLedger (b : Board L κ) (event : Header) : Board L κ :=
  { b with ledgers := b.ledgers.erase event }

-- Notes that the command `id` was programmed against the event. Tells whether it is new.
def recordEventCommand (b : Board L κ) (event : Header) (id : UInt8) : Bool × Board L κ :=
  let (isNew, ledger) := (b.ledger? event).getD .empty |>.record id
  (isNew, b.setLedger event ledger)

theorem ledger?_setLedger {b : Board L κ} :
    (b.setLedger event l).ledger? event' = if event = event' then some l else b.ledger? event' := by
  simp [setLedger, ledger?, Std.ExtTreeMap.getElem?_insert]

theorem ledger?_dropLedger {b : Board L κ} :
    (b.dropLedger event).ledger? event' = if event = event' then none else b.ledger? event' := by
  simp [dropLedger, ledger?, Std.ExtTreeMap.getElem?_erase]

variable [Link L ε]

-- Removes event commands one by one. A failure comes with the ids that are still to be removed.
def removeEventCommands (b : Board L κ) :
    List UInt8 → Outcome L ε κ (Except (BoardError ε × List UInt8) Unit)
  | [] => ⟨.ok (), [], b⟩
  | id :: ids =>
    let o₁ := b.send (.removeEventCommand id)
    match o₁.result with
    | .error e => ⟨.error (e, id :: ids), o₁.events, o₁.board⟩
    | .ok ()   =>
      let o₂ := o₁.board.removeEventCommands ids
      { o₂ with events := o₁.events ++ o₂.events }

-- Erases all commands of the event and tells how many they were. If the link fails part way, those
-- that were not removed stay on record.
def eraseEventCommands (b : Board L κ) (event : Header) :
    Outcome L ε κ (Except (BoardError ε) Nat) :=
  match b.ledger? event with
  | none => ⟨.ok 0, [], b⟩
  | some ledger =>
    let o := b.removeEventCommands ledger.ids
    match o.result with
    | .error (e, unsent) => ⟨.error e, o.events, o.board.setLedger event (.ofList unsent)⟩
    | .ok () =>
      let count := ledger.ids.length
      ⟨.ok count, o.events ++ [.notice (.erased count event)], o.board.dropLedger event⟩

end SensorBoard.Board
