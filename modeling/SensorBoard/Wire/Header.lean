import Std.Data.ExtTreeMap
import Std.Data.TreeSet
import SensorBoard.Text.Hex
import SensorBoard.Wire.Register

namespace SensorBoard

@[ext]
structure Header where
  module : UInt8
  register : UInt8
  -- An absent channel means that the register is not sub-addressed, which is not the same as being
  -- on channel `0`.
  channel : Option UInt8 := none
deriving DecidableEq

namespace Header

-- The same register, on one of its channels.
def subChannel (h : Header) (channel : UInt8) : Header :=
  { h with channel := some channel }

-- The same register, not sub-addressed.
def plain (h : Header) : Header :=
  { h with channel := none }

-- Channel `0xFF` and an absent channel share a wire form. Firmware never assigns channel `0xFF`.
def wire (h : Header) : List UInt8 :=
  [h.module, h.register, h.channel.getD Wire.noChannel]

def text (h : Header) : String :=
  Text.hex h.module ++ ":" ++ Text.hex h.register ++ ":" ++ (h.channel.elim "--" Text.hex)

theorem wire_length (h : Header) : h.wire.length = 3 :=
  rfl

theorem wire_eq_iff {h₁ h₂ : Header} :
    h₁.wire = h₂.wire ↔ h₁.plain = h₂.plain ∧
      h₁.channel.getD Wire.noChannel = h₂.channel.getD Wire.noChannel := by
  simp [wire, plain, and_assoc]

section Order

-- Lexicographic, where an absent channel comes before every channel.
instance : Ord Header where
  compare := compareLex (compareOn module) (compareLex (compareOn register) (compareOn channel))

instance : Std.TransOrd Header :=
  inferInstanceAs <| Std.TransCmp <|
    compareLex (compareOn module) (compareLex (compareOn register) (compareOn channel))

theorem compare_eq_iff {h₁ h₂ : Header} :
    compare h₁ h₂ = .eq ↔ h₁.module = h₂.module ∧ h₁.register = h₂.register ∧
      h₁.channel = h₂.channel := by
  change compareLex _ _ h₁ h₂ = .eq ↔ _
  simp [compareLex_eq_eq, compareOn]

instance : Std.LawfulEqOrd Header where
  eq_of_compare h := Header.ext_iff.mpr (compare_eq_iff.mp h)

-- Ascending, each header once.
def sortDistinct (hs : List Header) : List Header :=
  (Std.TreeSet.ofList hs).toList

end Order

end Header

end SensorBoard
