import SensorBoard.Sample.Format

namespace SensorBoard.Sample

@[ext]
structure Quaternion where
  w : Binary32
  x : Binary32
  y : Binary32
  z : Binary32
deriving DecidableEq

inductive Value where
  | uint32 (n : UInt32)
  | int32 (n : Int32)
  | float (x : Binary32)
  | quaternion (q : Quaternion)
  | bytes (bs : List UInt8)
deriving DecidableEq

-- The payload does not hold enough bytes for a sample.
@[ext]
structure TooShort where
  needed : Nat
  got : Nat
deriving DecidableEq

def TooShort.text (e : TooShort) : String :=
  "Payload too short: needed " ++ toString e.needed ++ " bytes, got " ++ toString e.got

def Quaternion.numEq (q₁ q₂ : Quaternion) : Bool :=
  q₁.w.numEq q₂.w && q₁.x.numEq q₂.x && q₁.y.numEq q₂.y && q₁.z.numEq q₂.z

namespace Value

def numEq : Value → Value → Bool
  | float x₁,      float x₂      => x₁.numEq x₂
  | quaternion q₁, quaternion q₂ => q₁.numEq q₂
  | v₁,            v₂            => v₁ == v₂

-- The same comparison for two attempts to read a value.
def resultNumEq : Except TooShort Value → Except TooShort Value → Bool
  | .ok v₁,    .ok v₂    => v₁.numEq v₂
  | .error e₁, .error e₂ => e₁ == e₂
  | _,         _         => false

def convert (c : Converter) (v : Value) : Value :=
  match c, v with
  | .scaled factor, uint32 n => float <| (Binary32.ofInt n.toNat).div factor
  | .scaled factor, int32 n  => float <| (Binary32.ofInt n.toInt).div factor
  | _,              v        => v

theorem convert_asRead (v : Value) : v.convert .asRead = v :=
  rfl

end Value

end SensorBoard.Sample
