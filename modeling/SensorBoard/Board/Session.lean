import SensorBoard.Board.Inbound
import SensorBoard.Board.Removal
import SensorBoard.Board.EventCommands

namespace SensorBoard

inductive Operation (κ : Type) where
  | builtIn (s : BuiltIn)
  | singletonSignal (h : Header) (format : Sample.Format)
  | idSignal (s : Signal) (index : UInt8)
  | send (c : Command)
  | read (s : Signal)
  | stopAdvertising
  | subscribe (s : Signal) (subscriber : κ)
  | unsubscribe (s : Signal)
  | onResponse (h : Header) (handler : κ)
  | receive (packet : List UInt8)
  | createProcessor (source : Signal) (r : Processor.Request) (callback : κ)
  | averageQuaternions (source : Signal) (depth filter : UInt8) (callback : κ)
  | removeProcessor (s : Signal)
  | abortPending
  | recordEventCommand (event : Header) (id : UInt8)
  | eraseEventCommands (event : Header)
  | tearDown
  | bind (kind : Processor.Kind) (filter : UInt8)
  | unbind (kind : Processor.Kind)
  | allocate (name : String)

-- What an operation returns.
inductive Answer (ε κ : Type) where
  | nothing
  | signal (s : Signal)
  | listener (k : Option κ)
  | verdict (r : Except (BoardError ε) Unit)
  | count (n : Nat)
  | erased (r : Except (BoardError ε) Nat)
  | isNew (b : Bool)
  | filter (f : Option UInt8)
  | kind (k : Option Processor.Kind)

namespace Outcome

def mapResult (f : α → β) (o : Outcome L ε κ α) : Outcome L ε κ β :=
  { o with result := f o.result }

-- An operation that only touches tables gives rise to no events.
def quiet (f : α → β) (r : α × Board L κ) : Outcome L ε κ β :=
  ⟨f r.1, [], r.2⟩

end Outcome

namespace Board

-- Performs an operation of filter tables on the board's own.
def onFilters (b : Board L κ) (f : Processor.FilterTable → α × Processor.FilterTable) :
    α × Board L κ :=
  let (result, filters) := f b.filters
  (result, { b with filters })

variable [Link L ε]

def perform (b : Board L κ) : Operation κ → Outcome L ε κ (Answer ε κ)
  | .builtIn s                     => (b.builtIn s).mapResult .signal
  | .singletonSignal h format      => (b.singletonSignal h format).mapResult .signal
  | .idSignal s index              => (b.idSignal s index).mapResult .signal
  | .send c                        => (b.send c).mapResult .verdict
  | .read s                        => (b.read s).mapResult .verdict
  | .stopAdvertising               => b.stopAdvertising.mapResult .verdict
  | .subscribe s subscriber        => .quiet .listener (b.subscribe s subscriber)
  | .unsubscribe s                 => .quiet .listener (b.unsubscribe s)
  | .onResponse h handler          => (b.onResponse h handler).mapResult fun _ => .nothing
  | .receive packet                => (b.receive packet).mapResult fun _ => .nothing
  | .createProcessor s r callback  => (b.createProcessor s r callback).mapResult .verdict
  | .averageQuaternions s depth filter callback =>
    (b.averageQuaternions s depth filter callback).mapResult .verdict
  | .removeProcessor s             => (b.removeProcessor s).mapResult .verdict
  | .abortPending                  => b.abortPending.mapResult .count
  | .recordEventCommand event id   => .quiet .isNew (b.recordEventCommand event id)
  | .eraseEventCommands event      => (b.eraseEventCommands event).mapResult .erased
  | .tearDown                      => b.tearDown.mapResult .verdict
  | .bind kind filter              => .quiet .filter (b.onFilters (·.bind kind filter))
  | .unbind kind                   => .quiet .filter (b.onFilters (·.unbind kind))
  | .allocate name                 => .quiet .kind (b.onFilters (·.allocate name))

end Board

-- What the owner of a board can do with it. Besides the operations, the owner has a free hand with
-- the link and with the filter table.
inductive Action (L κ : Type) where
  | perform (op : Operation κ)
  | setLink (link : L)
  | setFilters (filters : Processor.FilterTable)

namespace Board

variable [Link L ε]

def act (b : Board L κ) : Action L κ → Outcome L ε κ (Answer ε κ)
  | .perform op         => b.perform op
  | .setLink link       => ⟨.nothing, [], b.withLink link⟩
  | .setFilters filters => ⟨.nothing, [], { b with filters }⟩

-- Takes actions one after the other.
def play (b : Board L κ) : List (Action L κ) → Outcome L ε κ (List (Answer ε κ))
  | [] => ⟨[], [], b⟩
  | a :: as =>
    let o₁ := b.act a
    let o₂ := o₁.board.play as
    ⟨o₁.result :: o₂.result, o₁.events ++ o₂.events, o₂.board⟩

-- Performs operations one after the other.
def run (b : Board L κ) (ops : List (Operation κ)) : Outcome L ε κ (List (Answer ε κ)) :=
  b.play (ops.map .perform)

theorem play_nil (b : Board L κ) : b.play [] = ⟨[], [], b⟩ :=
  rfl

theorem play_cons (b : Board L κ) :
    b.play (a :: as) =
      let o₁ := b.act a
      let o₂ := o₁.board.play as
      ⟨o₁.result :: o₂.result, o₁.events ++ o₂.events, o₂.board⟩ :=
  rfl

theorem play_append (b : Board L κ) :
    b.play (as₁ ++ as₂) =
      let o₁ := b.play as₁
      let o₂ := o₁.board.play as₂
      ⟨o₁.result ++ o₂.result, o₁.events ++ o₂.events, o₂.board⟩ := by
  induction as₁ generalizing b
  case nil          => simp [play_nil]
  case cons _ _ hi  => simp [play_cons, hi]

end Board

end SensorBoard
