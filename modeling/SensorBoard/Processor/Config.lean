import SensorBoard.Wire.Register

namespace SensorBoard.Processor

namespace Config

abbrev maxLength : Nat :=
  Wire.maxCommandLength - Wire.createOverhead

-- The bytes do not fit into one creation command.
structure TooLong where
  length : Nat
  limit : Nat
deriving DecidableEq

def TooLong.text (e : TooLong) : String :=
  "Processor config is " ++ toString e.length ++ " bytes, limit is " ++ toString e.limit

end Config

@[ext]
structure Config where
  bytes : List UInt8 := []
  length_le : bytes.length ≤ Config.maxLength := by decide
deriving DecidableEq

namespace Config

def ofBytes (bytes : List UInt8) : Except TooLong Config :=
  if h : bytes.length ≤ maxLength then
    .ok ⟨bytes, h⟩
  else
    .error ⟨bytes.length, maxLength⟩

-- Legal for every kind of processor.
def empty : Config :=
  {}

def ofByte (b : UInt8) : Config where
  bytes := [b]
  length_le := show 1 ≤ maxLength by decide

def length (c : Config) : Nat :=
  c.bytes.length

def isEmpty (c : Config) : Bool :=
  c.bytes.isEmpty

theorem ofBytes_of_le {bytes : List UInt8} (h : bytes.length ≤ maxLength) :
    ofBytes bytes = .ok ⟨bytes, h⟩ := by
  simp [ofBytes, h]

theorem ofBytes_of_lt {bytes : List UInt8} (h : maxLength < bytes.length) :
    ofBytes bytes = .error ⟨bytes.length, maxLength⟩ := by
  simp [ofBytes, Nat.not_le.mpr h]

end Config

end SensorBoard.Processor
