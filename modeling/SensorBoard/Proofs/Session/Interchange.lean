import SensorBoard.Proofs.Session.History
import SensorBoard.Proofs.Session.Sequences
import SensorBoard.Link.Metered

namespace SensorBoard

-- Operations that concern the link, the filters and the ledgers, and nothing else.
def Operation.isOutward : Operation κ → Bool
  | send _ | read _ | stopAdvertising | recordEventCommand .. | eraseEventCommands _ | bind ..
  | unbind _ | allocate _ => true
  | _                     => false

namespace Action

def isOutward : Action L κ → Bool
  | perform op               => op.isOutward
  | setLink _ | setFilters _ => true

-- The board gets a packet.
def isInward : Action L κ → Bool
  | perform (.receive _) => true
  | _                    => false

theorem exists_of_isInward {a : Action L κ} (h : a.isInward) :
    ∃ packet, a = .perform (.receive packet) := by
  unfold isInward at h
  split at h
  case h_1 packet => exact ⟨packet, rfl⟩
  case h_2        => contradiction

theorem not_isOutward_of_isInward {a : Action L κ} (h : a.isInward) : a.isOutward = false := by
  obtain ⟨_, rfl⟩ := exists_of_isInward h
  rfl

theorem not_isInward_of_isOutward {a : Action L κ} (h : a.isOutward) : a.isInward = false :=
  Bool.eq_false_iff.mpr fun hi => by simp [not_isOutward_of_isInward hi] at h

end Action

-- The same outcome for a board that has the tables of `b` except for those of its outward side.
def Outcome.within (o : Outcome L ε κ α) (b : Board L κ) : Outcome L ε κ α where
  result := o.result
  events := o.events
  board := b.withOutward o.board

namespace Board

variable [Link L ε] {b c : Board L κ}

section Sides

theorem send_within (command : Command) :
    (b.withOutward c).send command = (c.send command).within b := by
  rw [send_eq, send_eq]
  rfl

theorem removeEventCommands_within (ids : List UInt8) :
    (b.withOutward c).removeEventCommands ids = (c.removeEventCommands ids).within b := by
  induction ids generalizing c
  case nil => rfl
  case cons id ids hi =>
    rw [removeEventCommands_cons, removeEventCommands_cons, send_within]
    rcases c.send (.removeEventCommand id) with ⟨e | _, es, c'⟩
    case error => rfl
    case ok    => simp only [Outcome.andThen, Outcome.within, hi]

theorem eraseEventCommands_within (event : Header) :
    (b.withOutward c).eraseEventCommands event = (c.eraseEventCommands event).within b := by
  cases hl : c.ledger? event
  case none =>
    have hl' : (b.withOutward c).ledger? event = none := hl
    rw [eraseEventCommands, eraseEventCommands, hl, hl']
    rfl
  case some ledger =>
    have hl' : (b.withOutward c).ledger? event = some ledger := hl
    rw [eraseEventCommands_of_some hl, eraseEventCommands_of_some hl', removeEventCommands_within]
    rcases c.removeEventCommands ledger.ids with ⟨⟨e, unsent⟩ | _, es, c'⟩ <;> rfl

-- The outward side of a board is all that an outward action sees and all that it changes.
theorem act_of_isOutward {a : Action L κ} (h : a.isOutward) :
    (b.withOutward c).act a = (c.act a).within b := by
  cases a
  case setLink    => rfl
  case setFilters => rfl
  case perform op =>
    cases op with
    | send | read | stopAdvertising =>
      dsimp only [act, perform, Board.read, Board.stopAdvertising]
      rw [send_within]
      rfl
    | eraseEventCommands =>
      dsimp only [act, perform]
      rw [eraseEventCommands_within]
      rfl
    | recordEventCommand | bind | unbind | allocate => rfl
    | _ => cases h

theorem act_of_isInward {a : Action L κ} (h : a.isInward) :
    (b.withOutward c).act a = (b.act a).withOutward c := by
  obtain ⟨packet, rfl⟩ := Action.exists_of_isInward h
  dsimp only [act, perform]
  rw [receive_withOutward]
  rfl

theorem act_of_isInward_of_isOutward {p a : Action L κ} (hp : p.isInward) (ha : a.isOutward)
    (b : Board L κ) :
    (b.act p).board.act a = (b.act a).within (b.act p).board ∧
    (b.act a).board.act p = (b.act p).withOutward (b.act a).board := by
  have hb₁ : (b.act p).board = (b.act p).board.withOutward b :=
    congrArg (·.board) (act_of_isInward hp (b := b) (c := b))
  have hb₂ : (b.act a).board = b.withOutward (b.act a).board :=
    congrArg (·.board) (act_of_isOutward ha (b := b) (c := b))
  constructor
  case left  => exact (congrArg (·.act a) hb₁).trans (act_of_isOutward ha)
  case right => exact (congrArg (·.act p) hb₂).trans (act_of_isInward hp)

end Sides

-- A session made up of packets and outward actions is two sessions side by side.
theorem play_withOutward (ha : ∀ a ∈ as, a.isInward ∨ a.isOutward) (b c : Board L κ) :
    ((b.withOutward c).play as).board =
      (b.play (as.filter Action.isInward)).board.withOutward
        (c.play (as.filter Action.isOutward)).board ∧
    ((b.withOutward c).history as).filter (·.action.isInward) =
      b.history (as.filter Action.isInward) ∧
    ((b.withOutward c).history as).filter (·.action.isOutward) =
      c.history (as.filter Action.isOutward) := by
  induction as generalizing b c
  case nil => exact ⟨rfl, rfl, rfl⟩
  case cons a as hi =>
    obtain ⟨ha, has⟩ := List.forall_mem_cons.mp ha
    cases ha
    case inl ha =>
      have hn := Action.not_isOutward_of_isInward ha
      obtain ⟨hb, hp, hc⟩ := hi has (b.act a).board c
      simp only [play_cons, history, entry, act_of_isInward ha, List.filter_cons, ha, hn]
      exact ⟨hb, congrArg (_ :: ·) hp, hc⟩
    case inr ha =>
      have hn := Action.not_isInward_of_isOutward ha
      obtain ⟨hb, hp, hc⟩ := hi has b (c.act a).board
      simp only [play_cons, history, entry, act_of_isOutward ha, List.filter_cons, ha, hn]
      exact ⟨hb, hp, congrArg (_ :: ·) hc⟩

-- A packet and an outward action can change places. Whichever comes first, the board ends up the
-- same, the packet reaches the same people with the same things, and the action has the same answer
-- and the same commands are attempted, also if it fails part way. So in a session of packets and
-- outward actions, either kind fares as if the other were not there.
theorem packets_commute_with_commands (b : Board L κ) :
    (∀ packet (a : Action L κ), a.isOutward →
      let p : Action L κ := .perform (.receive packet)
      let packetFirst := b.act p
      let actionLast := packetFirst.board.act a
      let actionFirst := b.act a
      let packetLast := actionFirst.board.act p
      packetLast.board = actionLast.board ∧
      actionFirst.result = actionLast.result ∧ actionFirst.events = actionLast.events ∧
      packetFirst.result = packetLast.result ∧ packetFirst.events = packetLast.events) ∧
    ∀ as : List (Action L κ), (∀ a ∈ as, a.isInward ∨ a.isOutward) →
      let packets := as.filter Action.isInward
      let commands := as.filter Action.isOutward
      (b.play as).board = (b.play packets).board.withOutward (b.play commands).board ∧
      (b.history as).filter (·.action.isInward) = b.history packets ∧
      (b.history as).filter (·.action.isOutward) = b.history commands := by
  refine ⟨?single, fun as ha => play_withOutward ha b b⟩
  case single =>
    intro packet a ha p packetFirst actionLast actionFirst packetLast
    have ⟨ha', hp'⟩ := act_of_isInward_of_isOutward (p := p) rfl ha b
    have ha' : actionLast = actionFirst.within packetFirst.board := ha'
    have hp' : packetLast = packetFirst.withOutward actionFirst.board := hp'
    rw [ha', hp']
    exact ⟨rfl, rfl, rfl, rfl, rfl⟩

-- A request that waits for its confirmation, and an event with two commands. The link accepts one
-- command more.
def armedButton : List (Action MeteredLink String) :=
  let event := BuiltIn.switchState.header
  let source := .device ⟨.caller, 0⟩ event .statusByte
  [
    .perform <| .createProcessor source ⟨⟨9⟩, .empty, .statusByte, some 1⟩ "callback",
    .perform <| .recordEventCommand event 1,
    .perform <| .recordEventCommand event 2,
    .setLink { quota := some 1 }
  ]

theorem packets_commute_with_commands_of_armedButton :
    let b := ((withFilters {} 0 .stock : Board MeteredLink String).play armedButton).board
    let event := BuiltIn.switchState.header
    let confirm : Action MeteredLink String :=
      .perform (.receive [Module.processor, Register.addProcessor, 4])
    let erase : Action MeteredLink String := .perform (.eraseEventCommands event)
    erase.isOutward ∧ (∀ a ∈ [erase, confirm], a.isInward ∨ a.isOutward) ∧
    completions (b.act confirm).events = ["callback"] ∧
    accepted (b.act erase).events = Command.removals [1] ∧
    (b.act erase).board.eventCommandIds event = [2] ∧
    ((b.act erase).board.act confirm).board = ((b.act confirm).board.act erase).board ∧
    (b.history [erase, confirm]).filter (·.action.isInward) = b.history [confirm] := by
  intro b event confirm erase
  have he : erase.isOutward := rfl
  have ha : ∀ a ∈ [erase, confirm], a.isInward ∨ a.isOutward := by decide
  have ⟨hs, hp⟩ := packets_commute_with_commands b
  refine ⟨he, ha, by decide +kernel, by decide +kernel, by decide +kernel, ?_, ?_⟩
  · exact (hs _ erase he).left
  · exact (hp _ ha).right.left

end Board

end SensorBoard
