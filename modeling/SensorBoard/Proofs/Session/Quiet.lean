import SensorBoard.Proofs.Session.Views

namespace SensorBoard

-- Operations that give no commands to the link.
def Operation.isQuiet : Operation κ → Bool
  | send _ | read _ | stopAdvertising | createProcessor .. | averageQuaternions ..
  | removeProcessor _ | eraseEventCommands _ | tearDown => false
  | _                                                   => true

-- The same outcome behind another link.
def Outcome.withLink (o : Outcome L₁ ε κ α) (link : L₂) : Outcome L₂ ε κ α where
  result := o.result
  events := o.events
  board := o.board.withLink link

-- The side of a board that gives commands, as the board `c` has it: link, filters and ledgers.
def Board.withOutward (b : Board L₁ κ) (c : Board L₂ κ) : Board L₂ κ :=
  { b with link := c.link, filters := c.filters, ledgers := c.ledgers }

def Outcome.withOutward (o : Outcome L₁ ε κ α) (c : Board L₂ κ) : Outcome L₂ ε κ α where
  result := o.result
  events := o.events
  board := o.board.withOutward c

namespace Board

section Tables

variable {b : Board L₁ κ} {c : Board L₂ κ} {link : L₂}

theorem ensureSignal_withLink :
    (b.withLink link).ensureSignal h format =
      let (s, isNew, b') := b.ensureSignal h format
      (s, isNew, b'.withLink link) :=
  rfl

theorem singletonSignal_withLink :
    ((b.withLink link).singletonSignal h format : Outcome L₂ ε κ Signal) =
      (b.singletonSignal h format).withLink link := by
  rw [singletonSignal, ensureSignal_withLink, singletonSignal]
  rcases b.ensureSignal h format with ⟨s, _ | _, b'⟩ <;> rfl

theorem idSignal_withLink :
    ((b.withLink link).idSignal s i : Outcome L₂ ε κ Signal) = (b.idSignal s i).withLink link := by
  rw [idSignal, ensureSignal_withLink, idSignal]
  rcases b.ensureSignal (s.header.subChannel i) .unsized with ⟨s, _ | _, b'⟩ <;> rfl

theorem confirm_withOutward :
    ((b.withOutward c).confirm payload : Outcome L₂ ε κ Unit) =
      (b.confirm payload).withOutward c := by
  cases hp : (b.withOutward c).pending
  case nil =>
    rw [confirm_of_nil hp, confirm_of_nil (b := b) hp]
    rfl
  case cons p ps =>
    cases payload
    case nil =>
      rw [confirm_of_cons_nil hp, confirm_of_cons_nil (b := b) hp]
      rfl
    case cons =>
      rw [confirm_of_cons_cons hp, confirm_of_cons_cons (b := b) hp]
      rfl

theorem dispatch_withOutward :
    ((b.withOutward c).dispatch h payload : Outcome L₂ ε κ Unit) =
      (b.dispatch h payload).withOutward c := by
  have hr : (b.withOutward c).route? h = b.route? h := rfl
  rw [dispatch, dispatch, hr]
  split
  case h_1 => rfl
  case h_2 => exact confirm_withOutward
  case h_3 => rfl

-- What becomes of a packet has nothing to do with the link, the filters and the ledgers.
theorem receive_withOutward :
    ((b.withOutward c).receive packet : Outcome L₂ ε κ Unit) =
      (b.receive packet).withOutward c := by
  cases hr : (b.withOutward c).routes.match? packet
  case none =>
    rw [receive_of_no_match? hr, receive_of_no_match? (b := b) hr]
    rfl
  case some route =>
    rw [receive_of_match? hr, receive_of_match? (b := b) hr]
    dsimp only
    rw [dispatch_withOutward]
    rfl

theorem receive_withLink :
    ((b.withLink link).receive packet : Outcome L₂ ε κ Unit) =
      (b.receive packet).withLink link := by
  have h : (b.receive packet : Outcome L₁ ε κ Unit) = (b.receive packet).withOutward b :=
    receive_withOutward (c := b)
  rw [h]
  exact receive_withOutward (c := b.withLink link)

theorem foldl_detach_withLink (ss : List Signal) (b : Board L₁ κ) (link : L₂) :
    ss.foldl (·.detach ·.header) (b.withLink link) =
      (ss.foldl (·.detach ·.header) b).withLink link := by
  induction ss generalizing b
  case nil          => rfl
  case cons s _ hi  => exact hi (b.detach s.header)

theorem cleared_withLink (b : Board L₁ κ) (link : L₂) :
    (b.withLink link).cleared = b.cleared.withLink link :=
  foldl_detach_withLink b.processors
    { b with signals := (b.signals.drainWhere (·.isProcessor)).2, pending := [], ledgers := ∅ } link

theorem link_cleared : b.cleared.link = b.link :=
  congrArg (·.link) (b.cleared_withLink b.link)

end Tables

section Writes

variable {b : Board L κ}

theorem writes_singletonSignal :
    writes (b.singletonSignal h format : Outcome L ε κ Signal).events = [] := by
  unfold singletonSignal
  split <;> rfl

theorem writes_idSignal : writes (b.idSignal s i : Outcome L ε κ Signal).events = [] := by
  unfold idSignal
  dsimp only
  split <;> rfl

theorem writes_dispatch : writes (b.dispatch h payload : Outcome L ε κ Unit).events = [] := by
  unfold dispatch
  split
  case h_1 => rfl
  case h_2 =>
    unfold confirm
    split <;> rfl
  case h_3 =>
    obtain he | ⟨_, _, he⟩ | ⟨_, he, _⟩ := b.deliver_cases (ε := ε) h payload
    all_goals exact he ▸ rfl

theorem writes_receive : writes (b.receive packet : Outcome L ε κ Unit).events = [] := by
  unfold receive
  split
  case h_1 => rfl
  case h_2 => exact writes_dispatch

end Writes

section Operations

theorem perform_withLink [Link L₁ ε] [Link L₂ ε] (b : Board L₁ κ) (link : L₂) (h : op.isQuiet) :
    (b.withLink link).perform op = (b.perform op).withLink link := by
  cases op with
  | send | read | stopAdvertising | createProcessor | averageQuaternions | removeProcessor
  | eraseEventCommands | tearDown => cases h
  | builtIn | singletonSignal =>
    dsimp only [perform, builtIn]
    rw [singletonSignal_withLink]
    rfl
  | idSignal =>
    dsimp only [perform]
    rw [idSignal_withLink]
    rfl
  | receive =>
    dsimp only [perform]
    rw [receive_withLink]
    rfl
  | subscribe | unsubscribe | onResponse | abortPending | recordEventCommand | bind | unbind
  | allocate => rfl

variable [Link L ε] {b : Board L κ}

theorem perform_preserves_link (h : op.isQuiet) : (b.perform op).board.link = b.link :=
  congrArg (·.board.link) (b.perform_withLink b.link h)

theorem writes_perform_of_isQuiet (h : op.isQuiet) : writes (b.perform op).events = [] := by
  cases op with
  | send | read | stopAdvertising | createProcessor | averageQuaternions | removeProcessor
  | eraseEventCommands | tearDown => cases h
  | builtIn | singletonSignal => exact writes_singletonSignal
  | idSignal                  => exact writes_idSignal
  | receive                   => exact writes_receive
  | abortPending              => exact writes_aborted b.pending
  | onResponse =>
    dsimp only [perform, Outcome.mapResult, onResponse]
    split <;> rfl
  | subscribe | unsubscribe | recordEventCommand | bind | unbind | allocate => rfl

end Operations

end Board

end SensorBoard
