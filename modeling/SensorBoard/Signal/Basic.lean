import SensorBoard.Processor.Request

namespace SensorBoard

-- Signals are told apart by who made them, and by a number that each maker uses once.
inductive Maker where
  | caller
  | board (name : Nat)
deriving DecidableEq

@[ext]
structure SignalId where
  maker : Maker
  serial : Nat
deriving DecidableEq

-- Two signals are the same object exactly if they are equal. A copy of a signal has another id.
inductive Signal where
  -- A register of the board.
  | device (id : SignalId) (header : Header) (format : Sample.Format)
  -- A stage that the board computes from a source.
  | processor (id : SignalId) (header : Header) (format : Sample.Format)
    (kind : Processor.Kind) (config : Processor.Config) (source : Signal)
deriving DecidableEq

namespace Signal

def id : Signal → SignalId
  | device id .. | processor id .. => id

def header : Signal → Header
  | device _ header _ | processor _ header .. => header

def format : Signal → Sample.Format
  | device _ _ format | processor _ _ format .. => format

def isProcessor : Signal → Bool
  | device ..    => false
  | processor .. => true

-- The number by which the board knows the processor.
def processorId? (s : Signal) : Option UInt8 :=
  if s.isProcessor ∧ s.header.module = Module.processor then s.header.channel else none

def copy (id : SignalId) : Signal → Signal
  | device _ header format                       => device id header format
  | processor _ header format kind config source => processor id header format kind config source

-- Equality of everything but identity, where sources count by value, too, and numbers are compared
-- as such. A signal with a NaN factor somewhere differs from itself.
def numEq : Signal → Signal → Bool
  | device _ h₁ f₁,               device _ h₂ f₂               => h₁ == h₂ && f₁.numEq f₂
  | processor _ h₁ f₁ k₁ c₁ src₁, processor _ h₂ f₂ k₂ c₂ src₂ =>
    h₁ == h₂ && f₁.numEq f₂ && k₁ == k₂ && c₁ == c₂ && src₁.numEq src₂
  | _,                            _                            => false

theorem copy_header (s : Signal) (id : SignalId) : (s.copy id).header = s.header := by
  cases s <;> rfl

theorem copy_id (s : Signal) (id : SignalId) : (s.copy id).id = id := by
  cases s <;> rfl

theorem isProcessor_of_processorId? {s : Signal} (h : s.processorId? = some i) : s.isProcessor := by
  simp [processorId?] at h
  exact h.1.1

theorem channel_of_processorId? {s : Signal} (h : s.processorId? = some i) :
    s.header.channel = some i := by
  simp [processorId?] at h
  exact h.2

end Signal

end SensorBoard
