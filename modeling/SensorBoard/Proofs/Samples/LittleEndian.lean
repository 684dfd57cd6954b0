import SensorBoard.Proofs.Samples.Acceptance
import Mathlib.Data.Int.ModEq
import Mathlib.Algebra.BigOperators.Group.Finset.Basic
import Mathlib.Algebra.BigOperators.Ring.Finset

namespace SensorBoard.Sample

section Bytes

-- The lowest `k` bytes of a number, the first one lowest.
def toBytes : Nat → Nat → List UInt8
  | 0,     _ => []
  | k + 1, n => .ofNat n :: toBytes k (n / 256)

@[simp]
theorem length_toBytes (k n : Nat) : (toBytes k n).length = k := by
  induction k generalizing n
  case zero      => rfl
  case succ k hi => rw [toBytes, List.length_cons, hi]

theorem littleEndian_toBytes (k n : Nat) : littleEndian (toBytes k n) = n % 256 ^ k := by
  induction k generalizing n
  case zero      => rw [pow_zero, Nat.mod_one, toBytes, littleEndian]
  case succ k hi => rw [pow_succ', Nat.mod_mul, toBytes, littleEndian, hi, UInt8.toNat_ofNat']

theorem littleEndian_take (k : Nat) (bs : List UInt8) :
    littleEndian (bs.take k) = ∑ i ∈ Finset.range k, (bs.getD i 0).toNat * 256 ^ i := by
  induction k generalizing bs
  case zero => rfl
  case succ k hi =>
    rw [Finset.sum_range_succ']
    cases bs
    case nil => simp [littleEndian]
    case cons b bs =>
      rw [List.take_succ_cons, littleEndian, hi, Finset.mul_sum, Nat.add_comm]
      simp only [List.getD_cons_succ, List.getD_cons_zero, pow_succ', pow_zero, Nat.mul_one,
        Nat.mul_left_comm]

end Bytes

section Word

-- Each further byte goes below what there is, which loses nothing but the topmost byte.
theorem toNat_shiftLeft_or (w : UInt32) (b : UInt8) :
    (w <<< 8 ||| b.toUInt32).toNat = (b.toNat + 256 * w.toNat) % 2 ^ 32 := by
  have hb := b.toNat_lt
  have hs : (w <<< 8).toNat = (w.toNat % 2 ^ 24) <<< 8 := by
    rw [UInt32.toNat_shiftLeft, Nat.shiftLeft_eq, Nat.shiftLeft_eq]
    change w.toNat * 2 ^ 8 % 2 ^ 32 = _
    omega
  rw [UInt32.toNat_or, hs, UInt8.toNat_toUInt32, ← Nat.shiftLeft_add_eq_or_of_lt hb,
    Nat.shiftLeft_eq]
  omega

theorem toNat_word (bs : List UInt8) : (word bs).toNat = littleEndian bs % 2 ^ 32 := by
  induction bs
  case nil => rfl
  case cons b bs hi =>
    have hw : word (b :: bs) = word bs <<< 8 ||| b.toUInt32 := rfl
    rw [hw, toNat_shiftLeft_or, hi, littleEndian]
    omega

theorem toNat_word_of_length_le {bs : List UInt8} (h : bs.length ≤ 4) :
    (word bs).toNat = littleEndian bs := by
  have hl := littleEndian_lt bs
  have hp : 2 ^ (8 * bs.length) ≤ 2 ^ 32 := Nat.pow_le_pow_right (by decide) (by omega)
  rw [Nat.shiftLeft_eq, Nat.one_mul] at hl
  rw [toNat_word, Nat.mod_eq_of_lt (hl.trans_le hp)]

end Word

section SignExtension

-- Numbers that have been pushed up by some bits wrap around as they would have done before.
theorem bmod_mul_right {m c : Nat} (n : Int) (hm : 0 < m) (hc : 0 < c) (h₂ : 2 ∣ m) :
    Int.bmod (n * c) (m * c) = Int.bmod n m * c := by
  obtain ⟨half, rfl⟩ := h₂
  obtain ⟨hl, hu, hd⟩ := (Int.bmod_eq_iff (a := n) hm).mp rfl
  have hl : -(half : Int) * c ≤ Int.bmod n (2 * half) * c :=
    Int.mul_le_mul_of_nonneg_right (by omega) (by omega)
  have hu : Int.bmod n (2 * half) * c < (half : Int) * c :=
    Int.mul_lt_mul_of_pos_right (by omega) (by omega)
  rw [Int.neg_mul] at hl
  refine (Int.bmod_eq_iff (Nat.mul_pos hm hc)).mpr ⟨?lower, ?upper, ?congruent⟩
  case congruent =>
    rw [← Int.sub_mul, Int.natCast_mul]
    exact Int.mul_dvd_mul hd (Int.dvd_refl _)
  all_goals
    push_cast
    rw [Int.mul_assoc 2]
    omega

theorem toBitVec_signExtend {w : UInt32} {n : Nat} (h₁ : 1 ≤ n) (h₄ : n ≤ 4) :
    (signExtend w n).toBitVec = (w.toBitVec <<< (32 - 8 * n)).sshiftRight (32 - 8 * n) := by
  obtain rfl | rfl | rfl | rfl : n = 1 ∨ n = 2 ∨ n = 3 ∨ n = 4 := by omega
  all_goals rfl

theorem toInt_signExtend {w : UInt32} {n : Nat} (h₁ : 1 ≤ n) (h₄ : n ≤ 4) :
    (signExtend w n).toInt = Int.bmod w.toNat (2 ^ (8 * n)) := by
  have hp : 2 ^ 32 = 2 ^ (8 * n) * 2 ^ (32 - 8 * n) := by
    rw [← pow_add, show 8 * n + (32 - 8 * n) = 32 by omega]
  have hc : 0 < 2 ^ (32 - 8 * n) := Nat.two_pow_pos _
  calc (signExtend w n).toInt
    _ = Int.bmod (w.toNat * 2 ^ (32 - 8 * n) : Nat) (2 ^ 32) >>> (32 - 8 * n) := by
      rw [← Int32.toInt_toBitVec, toBitVec_signExtend h₁ h₄, BitVec.toInt_sshiftRight,
        BitVec.toInt_shiftLeft, Nat.shiftLeft_eq, UInt32.toNat_toBitVec]
    _ = Int.bmod w.toNat (2 ^ (8 * n)) * (2 ^ (32 - 8 * n) : Nat) / (2 ^ (32 - 8 * n) : Nat) := by
      rw [hp, Int.natCast_mul, bmod_mul_right _ (Nat.two_pow_pos _) hc <| dvd_pow_self 2 (by omega),
        Int.shiftRight_eq_div_pow]
    _ = Int.bmod w.toNat (2 ^ (8 * n)) := Int.mul_ediv_cancel _ (by omega)

-- Two's complement: of all numbers that a sample can stand for, the one in the middle range.
theorem eq_bmod_two_pow_iff {m : Nat} (h : 1 ≤ m) (n v : Int) :
    (-2 ^ (m - 1) ≤ v ∧ v < 2 ^ (m - 1) ∧ v ≡ n [ZMOD 2 ^ m]) ↔ v = Int.bmod n (2 ^ m) := by
  have hp : ((2 ^ m : Nat) : Int) = 2 * 2 ^ (m - 1) := by
    push_cast
    rw [← pow_succ', Nat.sub_add_cancel h]
  rw [eq_comm (a := v), Int.bmod_eq_iff (Nat.two_pow_pos m), Int.modEq_comm, Int.modEq_iff_dvd]
  push_cast at hp ⊢
  rw [hp]
  omega

end SignExtension

section Integer

-- A number that fits into `k` bytes is the one that they are read as.
theorem integer_toBytes_unsigned {w : UInt32} (h₄ : k ≤ 4) (hw : w.toNat < 2 ^ (8 * k)) :
    integer false (toBytes k w.toNat) = .uint32 w := by
  have hp : 256 ^ k = 2 ^ (8 * k) := (pow_mul 2 8 k).symm
  have ht : (word (toBytes k w.toNat)).toNat = w.toNat := by
    rw [toNat_word_of_length_le (by simpa), littleEndian_toBytes, hp, Nat.mod_eq_of_lt hw]
  exact congrArg Value.uint32 <| UInt32.toNat_inj.mp ht

theorem integer_toBytes_signed {w : Int32} (h₁ : 1 ≤ k) (h₄ : k ≤ 4)
    (hl : -2 ^ (8 * k - 1) ≤ w.toInt) (hu : w.toInt < 2 ^ (8 * k - 1)) :
    integer true (toBytes k w.toUInt32.toNat) = .int32 w := by
  have hp : 256 ^ k = 2 ^ (8 * k) := (pow_mul 2 8 k).symm
  have hd : (2 ^ (8 * k) : Int) ∣ 2 ^ 32 := pow_dvd_pow 2 (by omega)
  have hm : w.toInt ≡ (w.toUInt32.toNat % 2 ^ (8 * k) : Nat) [ZMOD 2 ^ (8 * k)] := by
    calc w.toInt
      _ = Int.bmod w.toUInt32.toNat (2 ^ 32) := BitVec.toInt_eq_toNat_bmod w.toBitVec
      _ ≡ w.toUInt32.toNat [ZMOD 2 ^ (8 * k)] := Int.ModEq.of_dvd hd Int.bmod_emod
      _ ≡ (w.toUInt32.toNat % 2 ^ (8 * k) : Nat) [ZMOD 2 ^ (8 * k)] := by
        push_cast
        exact (Int.mod_modEq ..).symm
  have ht : (signExtend (word (toBytes k w.toUInt32.toNat)) k).toInt = w.toInt := by
    rw [toInt_signExtend h₁ h₄, toNat_word_of_length_le (by simpa), littleEndian_toBytes, hp]
    exact ((eq_bmod_two_pow_iff (by omega) _ _).mp ⟨hl, hu, hm⟩).symm
  rw [integer, if_pos rfl, length_toBytes, Int32.toInt_inj.mp ht]

end Integer

section Quaternion

theorem number_append (before rest : List UInt8) (w : UInt32) (h : before.length = 4 * i) :
    number (before ++ (toBytes 4 w.toNat ++ rest)) i = ⟨w⟩ := by
  have hw : w.toNat % 256 ^ 4 = w.toNat := Nat.mod_eq_of_lt w.toNat_lt
  rw [number, List.drop_left' h, List.take_left' (length_toBytes 4 _), littleEndian_toBytes, hw,
    UInt32.ofNat_toNat]

theorem takeQuaternion_toBytes (w x y z : UInt32) (rest : List UInt8) (h : n = 0 ∨ n = 16) :
    takeQuaternion n (toBytes 4 w.toNat ++ (toBytes 4 x.toNat ++ (toBytes 4 y.toNat ++
      (toBytes 4 z.toNat ++ rest)))) = .ok ⟨⟨w⟩, ⟨x⟩, ⟨y⟩, ⟨z⟩⟩ := by
  have hn : (if n = 0 then 16 else n) = 16 := by
    obtain rfl | rfl := h <;> rfl
  rw [takeQuaternion, hn]
  refine (if_neg ?_).trans ?_
  · simp only [List.length_append, length_toBytes]
    omega
  congr
  · exact number_append [] _ w rfl
  · exact number_append _ _ x (length_toBytes 4 _)
  · rw [← List.append_assoc]
    exact number_append _ _ y (by simp)
  · rw [← List.append_assoc, ← List.append_assoc]
    exact number_append _ _ z (by simp)

end Quaternion

namespace Format

variable {f : Format} {skipped : List UInt8}

theorem decode_append (hs : skipped.length = f.offset.toNat) (body : List UInt8) :
    f.decode (skipped ++ body) = f.decodeBody body := by
  rw [decode_of_le (by simp [hs]), List.drop_left' hs]

theorem decode_integer (hi : f.interpreter = .uint32 ∨ f.interpreter = .int32)
    (hc : f.converter = .asRead) (hs : skipped.length = f.offset.toNat)
    (hr : takeInteger f.length body = .ok raw) :
    f.decode (skipped ++ body) = .ok (integer f.signed raw) := by
  rw [decode_append hs, decodeBody]
  obtain hi | hi := hi <;> simp [hi, hr, hc, Except.map, Value.convert_asRead]

-- With integers, an unspecified length takes what the payload has, but never more than four bytes.
-- Unsigned ones are the sum of their bytes, each weighted by its place. Signed ones are congruent to
-- this sum, and the width that they were sent in decides their sign. Which interpreter there is does
-- not matter. So whatever fits into the bytes of a sample comes back as it was, and the bytes beyond
-- a specified length do not matter. Nor do they with quaternions, which come back bit by bit.
theorem decode_undoes_toBytes (f : Format) (skipped : List UInt8)
    (hs : skipped.length = f.offset.toNat) :
    (f.interpreter = .uint32 ∨ f.interpreter = .int32 → f.converter = .asRead →
      (∀ body : List UInt8,
        let k := if f.length = 0 then min 4 body.length else min 4 f.length
        let sum := ∑ i ∈ Finset.range k, (body.getD i 0).toNat * 256 ^ i
        1 ≤ k → k ≤ body.length →
          (f.signed = false → ∃ w, f.decode (skipped ++ body) = .ok (.uint32 w) ∧ w.toNat = sum) ∧
          (f.signed → ∃ w, f.decode (skipped ++ body) = .ok (.int32 w) ∧ ∀ v,
            (-2 ^ (8 * k - 1) ≤ v ∧ v < 2 ^ (8 * k - 1) ∧ v ≡ sum [ZMOD 2 ^ (8 * k)]) ↔
              v = w.toInt)) ∧
      (∀ k rest, 1 ≤ k → k ≤ 4 → f.length = k ∨ f.length = 0 ∧ rest = [] →
        (f.signed = false → ∀ w : UInt32, w.toNat < 2 ^ (8 * k) →
          f.decode (skipped ++ (toBytes k w.toNat ++ rest)) = .ok (.uint32 w)) ∧
        (f.signed → ∀ w : Int32, -2 ^ (8 * k - 1) ≤ w.toInt → w.toInt < 2 ^ (8 * k - 1) →
          f.decode (skipped ++ (toBytes k w.toUInt32.toNat ++ rest)) = .ok (.int32 w))) ∧
      ∀ body rest, f.length ≠ 0 → min 4 f.length ≤ body.length →
        f.decode (skipped ++ (body ++ rest)) = f.decode (skipped ++ body)) ∧
    (f.interpreter = .quaternion → f.length = 0 ∨ f.length = 16 → ∀ w x y z rest,
      f.decode (skipped ++ (toBytes 4 w.toNat ++ (toBytes 4 x.toNat ++ (toBytes 4 y.toNat ++
        (toBytes 4 z.toNat ++ rest))))) = .ok (.quaternion ⟨⟨w⟩, ⟨x⟩, ⟨y⟩, ⟨z⟩⟩)) := by
  refine ⟨fun hi hc => ⟨fun body => ?sum, fun k rest h₁ h₄ hk => ?fits,
    fun body rest hn hl => ?tail⟩, fun hi hn w x y z rest => ?quaternion⟩
  case sum =>
    intro k sum h₁ hl
    have hr : f.decode (skipped ++ body) = .ok (integer f.signed (body.take k)) :=
      decode_integer hi hc hs <| takeInteger_of_le rfl h₁ hl
    have hk : (body.take k).length = k := List.length_take_of_le hl
    have h₄ : k ≤ 4 := by grind
    have hw : (word (body.take k)).toNat = sum := by
      rw [toNat_word_of_length_le (by rwa [hk]), littleEndian_take]
    rw [hr]
    refine ⟨fun hf => ?unsigned, fun hf => ?signed⟩
    case unsigned => exact ⟨_, by rw [hf]; rfl, hw⟩
    case signed =>
      refine ⟨signExtend (word (body.take k)) k, by rw [hf, integer, if_pos rfl, hk], fun v => ?_⟩
      rw [toInt_signExtend h₁ h₄, hw]
      exact eq_bmod_two_pow_iff (by omega) sum v
  case fits =>
    have hr (n : Nat) : f.decode (skipped ++ (toBytes k n ++ rest)) =
        .ok (integer f.signed (toBytes k n)) := by
      have ht : takeInteger f.length (toBytes k n ++ rest) = .ok ((toBytes k n ++ rest).take k) :=
        takeInteger_of_le (by grind [length_toBytes]) h₁ (by simp)
      rw [List.take_left' (length_toBytes k n)] at ht
      exact decode_integer hi hc hs ht
    constructor
    case left =>
      intro hf w hw
      rw [hr, hf, integer_toBytes_unsigned h₄ hw]
    case right =>
      intro hf w hl hu
      rw [hr, hf, integer_toBytes_signed h₁ h₄ hl hu]
  case tail =>
    have hr := takeInteger_of_le (if_neg hn).symm (by omega) hl
    have hv := decode_integer hi hc hs hr
    rw [hv, ← List.append_assoc]
    exact decode_append_right hv (fun ho => hn ho.left) rest
  case quaternion =>
    rw [decode_append hs, decodeBody, hi]
    simp only [takeQuaternion_toBytes w x y z rest hn]
    rfl

-- A signed integer of three bytes, one byte into the payload. It has the sign bit of its width.
theorem decode_undoes_toBytes_of_threeBytes :
    let f : Format := ⟨.uint32, 3, 1, true, 1, .asRead⟩
    [9].length = f.offset.toNat ∧
    f.decode ([9] ++ ([0, 128, 255] ++ [7])) = .ok (.int32 (-32768)) := by
  intro f
  have hb : toBytes 3 (Int32.toUInt32 (-32768)).toNat = [0, 128, 255] := by decide +kernel
  have ⟨hi, _⟩ := decode_undoes_toBytes f [9] rfl
  have ⟨_, hf, _⟩ := hi (.inl rfl) rfl
  have ⟨_, hv⟩ := hf 3 [7] (by decide) (by decide) (.inl rfl)
  have hv := hv rfl (-32768) (by decide +kernel) (by decide +kernel)
  exact ⟨rfl, hb ▸ hv⟩

end Format

end SensorBoard.Sample
