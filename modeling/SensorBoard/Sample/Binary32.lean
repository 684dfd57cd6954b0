namespace SensorBoard

-- Equality is that of the bits. The comparison of IEEE 754 is `numEq`.
@[ext]
structure Binary32 where
  bits : UInt32
deriving DecidableEq

namespace Binary32

-- The topmost bit is the sign.
def signUnit : Nat := 0x80000000

-- The eight bits of the exponent stand above the 23 bits of the fraction.
def exponentUnit : Nat := 0x800000

-- The bits without the sign. They order the magnitudes of all numbers that are not NaN.
def magnitude (x : Binary32) : Nat :=
  x.bits.toNat % signUnit

def negative (x : Binary32) : Bool :=
  signUnit ≤ x.bits.toNat

-- The magnitude of the infinities. Every larger magnitude is a NaN.
def infinity : Nat :=
  0xFF * exponentUnit

def isNaN (x : Binary32) : Bool :=
  infinity < x.magnitude

def isInfinite (x : Binary32) : Bool :=
  x.magnitude = infinity

def isZero (x : Binary32) : Bool :=
  x.magnitude = 0

-- NaN differs from every number and from itself, and the two zeros are equal.
def numEq (x y : Binary32) : Bool :=
  !x.isNaN && !y.isNaN && (x.bits == y.bits || x.isZero && y.isZero)

def nan : Binary32 where
  bits := 0x7FC00000

def ofMagnitude (negative : Bool) (magnitude : Nat) : Binary32 where
  bits := .ofNat <| magnitude + if negative then signUnit else 0

-- A finite number is `significand * 2 ^ exponent` up to its sign.
def significand (x : Binary32) : Nat :=
  let fraction := x.magnitude % exponentUnit
  if x.magnitude < exponentUnit then fraction else exponentUnit + fraction

def exponent (x : Binary32) : Int :=
  (max 1 (x.magnitude / exponentUnit) : Nat) - 150

section Rounding

-- The integer nearest to `num / den`. A tie goes to the even one.
def roundHalfEven (num den : Nat) : Nat :=
  let q := num / den
  let r := num % den
  if 2 * r < den ∨ (2 * r = den ∧ q % 2 = 0) then q else q + 1

-- Numerator and denominator of `num / den * 2 ^ k`.
def scale (num den : Nat) (k : Int) : Nat × Nat :=
  (num <<< k.toNat, den <<< (-k).toNat)

-- The largest `k` with `2 ^ k ≤ num / den`, for positive `num` and `den`.
def floorLog2 (num den : Nat) : Int :=
  let k : Int := num.log2 - den.log2
  let (n, d) := scale num den (-k)
  if d ≤ n then k else k - 1

-- The magnitude nearest to `num / den`. The significand has 24 bits, fewer only where the exponent
-- has reached its minimum. A significand that is rounded up to 25 bits carries into the exponent.
def roundedMagnitude (num den : Nat) : Nat :=
  if num = 0 then 0 else
    let e := max (floorLog2 num den - 23) (-149)
    let (n, d) := scale num den (-e)
    min ((e + 149).toNat * exponentUnit + roundHalfEven n d) infinity

def ofInt (n : Int) : Binary32 :=
  ofMagnitude (n < 0) (roundedMagnitude n.natAbs 1)

def div (x y : Binary32) : Binary32 :=
  let negative := x.negative != y.negative
  if x.isNaN || y.isNaN then nan
  else if x.isInfinite then if y.isInfinite then nan else ofMagnitude negative infinity
  else if y.isInfinite then ofMagnitude negative 0
  else if y.isZero then if x.isZero then nan else ofMagnitude negative infinity
  else
    let (n, d) := scale x.significand y.significand (x.exponent - y.exponent)
    ofMagnitude negative (roundedMagnitude n d)

end Rounding

theorem numEq_self_iff {x : Binary32} : x.numEq x ↔ x.isNaN = false := by
  simp [numEq]

theorem numEq_comm (x y : Binary32) : x.numEq y = y.numEq x := by
  simp only [numEq, Bool.and_comm, Bool.beq_comm (a := x.bits)]

end Binary32

end SensorBoard
