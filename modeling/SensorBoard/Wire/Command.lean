import SensorBoard.Wire.Header
import SensorBoard.Processor.Config

namespace SensorBoard

inductive Command where
  | stopAdvertising
  | read (header : Header)
  | createProcessor (source : Header) (filter : UInt8) (config : Processor.Config)
  | removeProcessor (id : UInt8)
  | removeAllProcessors
  | removeEventCommand (id : UInt8)
  | removeAllEventCommands
deriving DecidableEq

namespace Command

-- The command does not fit into one write.
structure TooLong where
  needed : Nat
  limit : Nat
deriving DecidableEq

def TooLong.text (e : TooLong) : String :=
  "Command needs " ++ toString e.needed ++ " bytes, limit is " ++ toString e.limit

-- The module to which the command is addressed.
def module : Command → UInt8
  | stopAdvertising => Module.settings
  | read header => header.module
  | createProcessor .. | removeProcessor _ | removeAllProcessors => Module.processor
  | removeEventCommand _ | removeAllEventCommands => Module.event

-- Whether the board answers with a packet of its own.
def expectsResponse : Command → Bool
  | read _ | createProcessor .. => true
  | _ => false

-- A read names a channel only if there is one, whereas a creation always has a byte for the channel
-- of its source.
def bytes : Command → List UInt8
  | stopAdvertising => [Module.settings, Register.stopAdvertising]
  | read header => [header.module, header.register] ++ header.channel.toList
  | createProcessor source filter config =>
    [Module.processor, Register.addProcessor] ++ source.wire ++ [filter] ++ config.bytes
  | removeProcessor id => [Module.processor, Register.removeProcessor, id]
  | removeAllProcessors => [Module.processor, Register.removeAllProcessors]
  | removeEventCommand id => [Module.event, Register.removeEventCommand, id]
  | removeAllEventCommands => [Module.event, Register.removeAllEventCommands]

def encode (c : Command) : Except TooLong (List UInt8) :=
  if c.bytes.length ≤ Wire.maxCommandLength then
    .ok c.bytes
  else
    .error ⟨c.bytes.length, Wire.maxCommandLength⟩

theorem bytes_length_le (c : Command) : c.bytes.length ≤ Wire.maxCommandLength := by
  cases c
  case read header =>
    cases h : header.channel <;> simp [bytes, h, Wire.maxCommandLength]
  case createProcessor source filter config =>
    have := config.length_le
    simp only [Processor.Config.maxLength, Wire.maxCommandLength, Wire.createOverhead] at this
    simp [bytes, Header.wire, Wire.maxCommandLength]
    omega
  all_goals simp [bytes, Wire.maxCommandLength]

-- Configurations are bounded so that this holds.
@[simp]
theorem encode_eq (c : Command) : c.encode = .ok c.bytes :=
  if_pos c.bytes_length_le

theorem head?_bytes (c : Command) : c.bytes.head? = some c.module := by
  cases c <;> rfl

end Command

end SensorBoard
