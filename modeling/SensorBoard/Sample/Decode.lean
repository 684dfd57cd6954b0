import SensorBoard.Sample.Value

namespace SensorBoard.Sample

def littleEndian : List UInt8 → Nat
  | [] => 0
  | b :: bs => b.toNat + 256 * littleEndian bs

theorem littleEndian_lt (bs : List UInt8) : littleEndian bs < 1 <<< (8 * bs.length) := by
  induction bs
  case nil => simp [littleEndian]
  case cons b bs hi =>
    have := b.toNat_lt
    rw [List.length_cons, Nat.mul_succ, Nat.shiftLeft_add, Nat.shiftLeft_eq _ 8]
    simp only [littleEndian]
    omega

-- An integer has one to four bytes. An unspecified length takes as many as there are.
def takeInteger (length : Nat) (body : List UInt8) : Except TooShort (List UInt8) :=
  let n := if length = 0 then min body.length 4 else min length 4
  if n = 0 ∨ body.length < n then
    .error ⟨max n 1, body.length⟩
  else
    .ok (body.take n)

-- The bytes side by side in a word, the first one lowest.
def word (raw : List UInt8) : UInt32 :=
  raw.foldr (fun b w => w <<< 8 ||| b.toUInt32) 0

-- Pushes the top bit of a number of `n` bytes up to the sign bit, and lets that bit fill in from
-- the left on the way back.
def signExtend (w : UInt32) (n : Nat) : Int32 :=
  let shift := 32 - 8 * n.toUInt32
  (w <<< shift).toInt32 >>> shift.toInt32

-- Signed integers are in two's complement of the width that they were sent in.
def integer (signed : Bool) (raw : List UInt8) : Value :=
  if signed then
    .int32 <| signExtend (word raw) raw.length
  else
    .uint32 <| word raw

-- The number in the `i`-th group of four bytes.
def number (body : List UInt8) (i : Nat) : Binary32 where
  bits := .ofNat <| littleEndian <| (body.drop (4 * i)).take 4

def takeQuaternion (length : Nat) (body : List UInt8) : Except TooShort Quaternion :=
  let n := if length = 0 then 16 else length
  if n < 16 ∨ body.length < n then
    .error ⟨max n 16, body.length⟩
  else
    .ok ⟨number body 0, number body 1, number body 2, number body 3⟩

-- An unspecified length takes the whole body.
def takeBytes (length : Nat) (body : List UInt8) : Except TooShort (List UInt8) :=
  let n := if length = 0 then body.length else length
  if body.length < n then
    .error ⟨n, body.length⟩
  else
    .ok (body.take n)

namespace Format

def decodeBody (f : Format) (body : List UInt8) : Except TooShort Value :=
  match f.interpreter with
  | .uint32 | .int32 =>
    (takeInteger f.length body).map fun raw => (integer f.signed raw).convert f.converter
  | .quaternion      => (takeQuaternion f.length body).map .quaternion
  | .bytes           => (takeBytes f.length body).map .bytes

def decode (f : Format) (payload : List UInt8) : Except TooShort Value :=
  if payload.length < f.offset.toNat then
    .error ⟨f.offset.toNat, payload.length⟩
  else
    f.decodeBody (payload.drop f.offset.toNat)

theorem decode_of_lt {f : Format} (h : payload.length < f.offset.toNat) :
    f.decode payload = .error ⟨f.offset.toNat, payload.length⟩ :=
  if_pos h

theorem decode_of_le {f : Format} (h : f.offset.toNat ≤ payload.length) :
    f.decode payload = f.decodeBody (payload.drop f.offset.toNat) :=
  if_neg (Nat.not_lt.mpr h)

end Format

end SensorBoard.Sample
