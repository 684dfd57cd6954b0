import SensorBoard.Board.Outbound
import SensorBoard.Board.Signals

namespace SensorBoard.Board

section Queue

-- A request lines up before its command goes out.
def enqueue (b : Board L κ) (p : PendingCreation κ) : Board L κ :=
  { b with pending := b.pending ++ [p] }

-- Takes back the request that was the last to line up. Its callback is told that the link failed.
def withdraw (b : Board L κ) : Outcome L ε κ Unit :=
  match b.pending.getLast? with
  | none   => ⟨(), [], b⟩
  | some p => ⟨(), [.failed p.callback .linkFailed], { b with pending := b.pending.dropLast }⟩

variable {b : Board L κ}

theorem enqueue_withLink (p : PendingCreation κ) (link : L') :
    (b.enqueue p).withLink link = (b.withLink link).enqueue p :=
  rfl

-- Whatever else is in the queue, the request that is taken back is the one that has just lined up.
theorem withdraw_enqueue (p : PendingCreation κ) :
    ((b.enqueue p).withdraw : Outcome L ε κ Unit) =
      ⟨(), [.failed p.callback .linkFailed], b⟩ := by
  simp [withdraw, enqueue]

end Queue

section Request

variable [Link L ε]

-- A filter that comes with the request is bound even if the request fails.
def createProcessor (b : Board L κ) (source : Signal) (r : Processor.Request) (callback : κ) :
    Outcome L ε κ (Except (BoardError ε) Unit) :=
  let b := { b with filters := r.filter?.elim b.filters (b.filters.bind r.kind · |>.2) }
  match b.filters.filter? r.kind with
  | none =>
    let e := .unboundKind r.kind
    ⟨.error (.creation e), [.failed callback e], b⟩
  | some filter =>
    let p := ⟨r.kind, r.config, r.format, source, callback⟩
    let o := (b.enqueue p).send (.createProcessor source.header filter r.config)
    match o.result with
    | .error e =>
      let o' : Outcome L ε κ Unit := o.board.withdraw
      ⟨.error e, o.events ++ o'.events, o'.board⟩
    | .ok () =>
      { o with events := o.events ++ [.notice (.requested r.kind source.header filter)] }

-- Averages the last `depth` quaternions of a source.
def averageQuaternions (b : Board L κ) (source : Signal) (depth filter : UInt8) (callback : κ) :
    Outcome L ε κ (Except (BoardError ε) Unit) :=
  match b.filters.allocate Processor.QuaternionAverage.name with
  | (none, filters) =>
    let e := .kindsExhausted
    ⟨.error (.creation e), [.failed callback e], { b with filters }⟩
  | (some kind, filters) =>
    let r := Processor.QuaternionAverage.request kind depth filter
    { b with filters }.createProcessor source r callback

variable {b : Board L κ} {r : Processor.Request}

theorem createProcessor_of_unbound (h₁ : r.filter? = none) (h₂ : b.filters.filter? r.kind = none) :
    b.createProcessor source r callback =
      ⟨.error (.creation (.unboundKind r.kind)), [.failed callback (.unboundKind r.kind)], b⟩ := by
  simp [createProcessor, h₁, h₂]

end Request

section Confirmation

-- The signal of a pending creation that the board confirmed under `id`.
def confirmed (b : Board L κ) (p : PendingCreation κ) (id : UInt8) : Signal :=
  .processor ⟨.board b.name, b.issued⟩ (Processor.output id) p.format p.kind p.config p.source

-- Files and routes a new processor. If the board has used its id before and the former signal is
-- still on file, then that signal's subscriber goes with it.
def install (b : Board L κ) (s : Signal) : Board L κ :=
  let (displaced, signals) := b.signals.insert s
  { b with
    signals
    issued := b.issued + 1
    routes := (b.routes.register s.header .sampleWithId).2
    subscribers := if displaced.isSome then b.subscribers.erase s.header else b.subscribers }

-- A confirmation belongs to the oldest pending creation. Its first byte is the processor's id.
def confirm (b : Board L κ) (payload : List UInt8) : Outcome L ε κ Unit :=
  match b.pending, payload with
  | [], _ => ⟨(), [.notice .unexpectedConfirmation], b⟩
  | p :: pending, [] =>
    let events := [.notice .emptyConfirmation, .failed p.callback .malformedConfirmation]
    ⟨(), events, { b with pending }⟩
  | p :: pending, id :: _ =>
    let s := b.confirmed p id
    let events := [.notice (.processorCreated p.kind s.header), .created p.callback s]
    ⟨(), events, { b.install s with pending }⟩

variable {b : Board L κ} {id : UInt8}

theorem confirmed_header (p : PendingCreation κ) :
    (b.confirmed p id).header = Processor.output id :=
  rfl

theorem lookup?_install :
    (b.install s).lookup? h = if s.header = h then some s else b.lookup? h :=
  Registry.get?_insert

theorem route?_install :
    (b.install s).route? h = if s.header = h then some .sampleWithId else b.route? h :=
  RouteTable.get?_register

-- Only a displaced signal takes its subscriber along.
theorem subscriber?_install :
    (b.install s).subscriber? h =
      if s.header = h ∧ (b.lookup? h).isSome then none else b.subscriber? h := by
  by_cases hs : (b.lookup? s.header).isSome
  case pos =>
    have : (b.install s).subscribers = b.subscribers.erase s.header := if_pos hs
    by_cases h' : s.header = h <;> simp_all [subscriber?, Std.ExtTreeMap.getElem?_erase]
  case neg =>
    have : (b.install s).subscribers = b.subscribers := if_neg hs
    by_cases h' : s.header = h <;> simp_all [subscriber?]

theorem confirm_of_nil (h : b.pending = []) :
    (b.confirm payload : Outcome L ε κ Unit) = ⟨(), [.notice .unexpectedConfirmation], b⟩ := by
  simp [confirm, h]

theorem confirm_of_cons_nil (h : b.pending = p :: ps) :
    (b.confirm [] : Outcome L ε κ Unit) = ⟨
      (),
      [.notice .emptyConfirmation, .failed p.callback .malformedConfirmation],
      { b with pending := ps }
    ⟩ := by
  simp [confirm, h]

theorem confirm_of_cons_cons (h : b.pending = p :: ps) :
    (b.confirm (id :: payload) : Outcome L ε κ Unit) = ⟨
      (),
      [
        .notice (.processorCreated p.kind (Processor.output id)),
        .created p.callback (b.confirmed p id)
      ],
      { b.install (b.confirmed p id) with pending := ps }
    ⟩ := by
  simp [confirm, h, confirmed_header]

end Confirmation

section Abort

-- Gives up on all pending creations and tells how many they were.
def abortPending (b : Board L κ) : Outcome L ε κ Nat where
  result := b.pending.length
  events := b.pending.map (.failed ·.callback .aborted)
  board := { b with pending := [] }

-- The end of a board.
def close (b : Board L κ) : List (Event ε κ) :=
  b.abortPending.events

end Abort

end SensorBoard.Board
