import SensorBoard.Signal.Registry
import SensorBoard.Routing
import SensorBoard.Ledger
import SensorBoard.Link.Basic
import SensorBoard.Board.Error
import SensorBoard.Board.Notice

namespace SensorBoard

-- A creation whose command went out and which the board has not confirmed yet.
@[ext]
structure PendingCreation (κ : Type) where
  kind : Processor.Kind
  config : Processor.Config
  format : Sample.Format
  source : Signal
  callback : κ
deriving DecidableEq

-- Everything here belongs to one board. Subscribers, handlers and callbacks are the caller's, and
-- go by names from `κ`.
@[ext]
structure Board (L κ : Type) where
  link : L
  -- The board and the number of signals it has made identify the next one.
  name : Nat
  issued : Nat := 0
  signals : Registry := {}
  routes : RouteTable κ := {}
  filters : Processor.FilterTable := {}
  -- Oldest first.
  pending : List (PendingCreation κ) := []
  ledgers : Std.ExtTreeMap Header Ledger := ∅
  subscribers : Std.ExtTreeMap Header κ := ∅
deriving DecidableEq

-- What happens in the course of an operation.
inductive Event (ε κ : Type) where
  -- The link was given the bytes and answered.
  | write (bytes : List UInt8) (answer : Attempt ε)
  -- A subscriber is due to be given a value.
  | sample (subscriber : κ) (header : Header) (value : Sample.Value)
  -- A custom handler is due to be given a payload.
  | custom (handler : κ) (header : Header) (payload : List UInt8)
  -- The callback of a creation is due to be given the new processor.
  | created (callback : κ) (processor : Signal)
  -- The callback of a creation is due to be told that there will be no processor.
  | failed (callback : κ) (e : Processor.CreationError)
  | notice (n : Notice)
deriving DecidableEq

-- The result of an operation, what happened, in order, and the board as the operation leaves it.
@[ext]
structure Outcome (L ε κ α : Type) where
  result : α
  events : List (Event ε κ)
  board : Board L κ

namespace Board

-- A board knows from the start what a confirmation is.
def withFilters (link : L) (name : Nat) (filters : Processor.FilterTable) : Board L κ where
  link := link
  name := name
  routes := (RouteTable.empty.register Processor.confirmation .processorCreated).2
  filters := filters

-- A board with stock firmware.
def new (link : L) (name : Nat) : Board L κ :=
  withFilters link name .stock

-- The same tables behind another link.
def withLink (b : Board L κ) (link : L') : Board L' κ :=
  { b with link }

def lookup? (b : Board L κ) (h : Header) : Option Signal :=
  b.signals.get? h

-- The processor that the board calls `id`, if it is one of the host's making.
def lookupProcessor? (b : Board L κ) (id : UInt8) : Option Signal :=
  b.signals.get? (Processor.output id) |>.filter (·.isProcessor)

def route? (b : Board L κ) (h : Header) : Option (Handler κ) :=
  b.routes.get? h

def subscriber? (b : Board L κ) (h : Header) : Option κ :=
  b.subscribers[h]?

def ledger? (b : Board L κ) (event : Header) : Option Ledger :=
  b.ledgers[event]?

def eventCommandIds (b : Board L κ) (event : Header) : List UInt8 :=
  (b.ledger? event).elim [] Ledger.ids

end Board

end SensorBoard
