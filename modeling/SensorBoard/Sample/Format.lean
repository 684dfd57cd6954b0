import SensorBoard.Sample.Binary32

namespace SensorBoard.Sample

inductive Interpreter where
  -- Little-endian integers of up to four bytes. For both, `Format.signed` alone decides the sign.
  | uint32
  | int32
  -- Four little-endian numbers of four bytes each.
  | quaternion
  -- The bytes as they are.
  | bytes
deriving DecidableEq

inductive Converter where
  | asRead
  -- Integers are divided by the factor. Other values are delivered as read.
  | scaled (factor : Binary32)
deriving DecidableEq

@[ext]
structure Format where
  interpreter : Interpreter
  channels : UInt8
  -- Bytes per channel.
  channelSize : UInt8
  signed : Bool := false
  -- Bytes to skip at the start of the payload.
  offset : UInt8 := 0
  converter : Converter := .asRead
deriving DecidableEq

namespace Format

-- The bytes of one sample, where `0` leaves the length to the payload.
def length (f : Format) : Nat :=
  f.channels.toNat * f.channelSize.toNat

-- An unsigned integer of whatever length the payload has.
def unsized : Format where
  interpreter := .uint32
  channels := 0
  channelSize := 0

def statusByte : Format where
  interpreter := .uint32
  channels := 1
  channelSize := 1

def quaternion : Format where
  interpreter := .quaternion
  channels := 4
  channelSize := 4
  signed := true

def withChannels (f : Format) (channels channelSize : UInt8) : Format :=
  { f with channels, channelSize }

def withConverter (f : Format) (converter : Converter) : Format :=
  { f with converter }

end Format

section NumEq

def Converter.numEq : Converter → Converter → Bool
  | asRead,    asRead    => true
  | scaled f₁, scaled f₂ => f₁.numEq f₂
  | _,         _         => false

-- Equality up to the comparison of numbers: a format with a NaN factor differs from itself.
def Format.numEq (f₁ f₂ : Format) : Bool :=
  { f₁ with converter := .asRead } == { f₂ with converter := .asRead } &&
    f₁.converter.numEq f₂.converter

end NumEq

end SensorBoard.Sample
