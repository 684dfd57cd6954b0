import SensorBoard.Sample.Decode

namespace SensorBoard.Sample

section Take

variable {body : List UInt8}

theorem ite_ok_iff {c : Prop} [Decidable c] :
    (∃ y, (if c then .error e else .ok x : Except ε α) = .ok y) ↔ ¬c := by
  split <;> simp_all

theorem takeInteger_ok_iff :
    (∃ raw, takeInteger n body = .ok raw) ↔ (if n = 0 then 1 else min 4 n) ≤ body.length := by
  refine ite_ok_iff.trans ?_
  split <;> omega

theorem takeQuaternion_ok_iff :
    (∃ q, takeQuaternion n body = .ok q) ↔
      (n = 0 ∨ 16 ≤ n) ∧ (if n = 0 then 16 else n) ≤ body.length := by
  refine ite_ok_iff.trans ?_
  split <;> omega

theorem takeBytes_ok_iff : (∃ bs, takeBytes n body = .ok bs) ↔ n ≤ body.length := by
  refine ite_ok_iff.trans ?_
  split <;> omega

theorem takeInteger_of_le
    (hk : k = if length = 0 then min 4 body.length else min 4 length) (h₁ : 1 ≤ k)
    (hl : k ≤ body.length) : takeInteger length body = .ok (body.take k) := by
  simp only [takeInteger, Nat.min_comm _ 4, ← hk]
  exact if_neg <| by omega

theorem takeInteger_append (ht : takeInteger n body = .ok raw) (hn : n ≠ 0 ∨ 4 ≤ body.length)
    (rest : List UInt8) : takeInteger n (body ++ rest) = .ok raw := by
  have hl := takeInteger_ok_iff.mp ⟨raw, ht⟩
  have hk : (if n = 0 then 4 else min 4 n) ≤ body.length := by grind
  have hb (rest : List UInt8) : takeInteger n (body ++ rest) =
      .ok ((body ++ rest).take (if n = 0 then 4 else min 4 n)) :=
    takeInteger_of_le (by grind) (by grind) (by grind)
  rw [hb, List.take_append_of_le_length hk, ← ht]
  simpa using (hb []).symm

theorem number_append_right (h : 4 * (i + 1) ≤ body.length) (rest : List UInt8) :
    number (body ++ rest) i = number body i := by
  rw [number, List.drop_append_of_le_length (by omega), List.take_append_of_le_length, number]
  rw [List.length_drop]
  omega

theorem takeQuaternion_append (ht : takeQuaternion n body = .ok q) (rest : List UInt8) :
    takeQuaternion n (body ++ rest) = .ok q := by
  have ⟨hn, hl⟩ := takeQuaternion_ok_iff.mp ⟨q, ht⟩
  unfold takeQuaternion at *
  grind [number_append_right]

theorem takeBytes_append (ht : takeBytes n body = .ok bs) (hn : n ≠ 0) (rest : List UInt8) :
    takeBytes n (body ++ rest) = .ok bs := by
  have hl := takeBytes_ok_iff.mp ⟨bs, ht⟩
  simp only [takeBytes, if_neg hn] at *
  grind

end Take

theorem map_eq_ok_iff {r : Except ε α} {g : α → β} :
    r.map g = .ok y ↔ ∃ x, r = .ok x ∧ g x = y := by
  cases r <;> simp [Except.map]

namespace Format

-- The bytes that a sample needs. There are lengths that a quaternion never has.
def required? (f : Format) : Option Nat :=
  match f.interpreter with
  | .uint32 | .int32 => if f.length = 0 then some 1 else some (min 4 f.length)
  | .quaternion      =>
    if f.length = 0 then some 16 else if 16 ≤ f.length then some f.length else none
  | .bytes           => some f.length

-- The value depends on all bytes that there are, instead of those that the format specifies.
def IsOpen (f : Format) (body : List UInt8) : Prop :=
  f.length = 0 ∧
    (f.interpreter = .bytes ∨
      (f.interpreter = .uint32 ∨ f.interpreter = .int32) ∧ body.length < 4)

section Body

variable {f : Format} {body : List UInt8}

theorem decodeBody_ok_iff :
    (∃ v, f.decodeBody body = .ok v) ↔ ∃ r, f.required? = some r ∧ r ≤ body.length := by
  unfold decodeBody required?
  cases f.interpreter <;> simp only [map_eq_ok_iff, exists_comm (α := Value), exists_and_left,
    exists_eq', and_true]
  case uint32 | int32 =>
    rw [takeInteger_ok_iff]
    split <;> simp
  case quaternion =>
    rw [takeQuaternion_ok_iff]
    by_cases h₀ : f.length = 0 <;> by_cases h₁₆ : 16 ≤ f.length <;> simp [h₀, h₁₆]
  case bytes =>
    rw [takeBytes_ok_iff]
    simp

theorem decodeBody_append (hv : f.decodeBody body = .ok v) (ho : ¬f.IsOpen body)
    (rest : List UInt8) : f.decodeBody (body ++ rest) = .ok v := by
  unfold decodeBody at *
  cases hi : f.interpreter <;> simp only [hi] at hv ⊢
  all_goals
    obtain ⟨x, hx, rfl⟩ := map_eq_ok_iff.mp hv
    refine map_eq_ok_iff.mpr ⟨x, ?_, rfl⟩
  case uint32 | int32 => exact takeInteger_append hx (by grind [IsOpen]) rest
  case quaternion     => exact takeQuaternion_append hx rest
  case bytes          => exact takeBytes_append hx (by grind [IsOpen]) rest

theorem length_withConverter : (f.withConverter c).length = f.length :=
  rfl

-- The converter comes last.
theorem decodeBody_withConverter (f : Format) (c : Converter) (body : List UInt8) :
    (f.withConverter c).decodeBody body =
      ((f.withConverter .asRead).decodeBody body).map (·.convert c) := by
  simp only [decodeBody, length_withConverter]
  cases hi : f.interpreter <;> simp only [withConverter, hi]
  case uint32 | int32 => cases takeInteger _ body <;> rfl
  case quaternion     => cases takeQuaternion _ body <;> cases c <;> rfl
  case bytes          => cases takeBytes _ body <;> cases c <;> rfl

theorem decodeBody_ne_float (hc : f.converter = .asRead) (x : Binary32) :
    f.decodeBody body ≠ .ok (.float x) := by
  intro hv
  unfold decodeBody at hv
  cases hi : f.interpreter <;> simp only [hi, hc] at hv
  all_goals obtain ⟨raw, _, hv⟩ := map_eq_ok_iff.mp hv
  case uint32 | int32 =>
    rw [Value.convert_asRead, integer] at hv
    split at hv <;> cases hv
  case quaternion | bytes => cases hv

end Body

variable {f : Format} {payload : List UInt8}

theorem decode_drop (h : f.offset.toNat ≤ payload.length) :
    f.decode payload = { f with offset := 0 }.decode (payload.drop f.offset.toNat) := by
  rw [decode_of_le h, decode_of_le (Nat.zero_le _)]
  rfl

theorem offset_le_of_decode (hv : f.decode payload = .ok v) : f.offset.toNat ≤ payload.length := by
  refine Nat.not_lt.mp fun h => ?_
  cases (decode_of_lt h).symm.trans hv

theorem decode_ok_iff :
    (∃ v, f.decode payload = .ok v) ↔
      ∃ r, f.required? = some r ∧ f.offset.toNat + r ≤ payload.length := by
  by_cases h : f.offset.toNat ≤ payload.length
  case pos =>
    have hr (r : Nat) : r ≤ payload.length - f.offset.toNat ↔ f.offset.toNat + r ≤ payload.length := by
      omega
    simp only [decode_of_le h, decodeBody_ok_iff, List.length_drop, hr]
  case neg =>
    have hn (r : Nat) : ¬f.offset.toNat + r ≤ payload.length := by omega
    simp [decode_of_lt (Nat.not_le.mp h), hn]

theorem decode_append_right (hv : f.decode payload = .ok v)
    (ho : ¬f.IsOpen (payload.drop f.offset.toNat)) (rest : List UInt8) :
    f.decode (payload ++ rest) = .ok v := by
  have h := offset_le_of_decode hv
  rw [decode_of_le h] at hv
  rw [decode_of_le (by simp; omega), List.drop_append_of_le_length h]
  exact decodeBody_append hv ho rest

theorem decode_withConverter (f : Format) (c : Converter) (payload : List UInt8) :
    (f.withConverter c).decode payload =
      ((f.withConverter .asRead).decode payload).map (·.convert c) := by
  by_cases h : payload.length < f.offset.toNat
  case pos =>
    rw [decode_of_lt (f := f.withConverter c) h, decode_of_lt (f := f.withConverter .asRead) h]
    rfl
  case neg =>
    have h := Nat.not_lt.mp h
    rw [decode_of_le (f := f.withConverter c) h, decode_of_le (f := f.withConverter .asRead) h]
    exact f.decodeBody_withConverter c _

-- A sample takes the bytes up to its offset and as many as its length says, where integers make do
-- with four, and with a single one if the length is unspecified. Quaternions never make do with less
-- than sixteen. The bytes up to the offset do not matter, and those after the sample only do if the
-- length is unspecified and they still count as part of it. A factor turns integers into fractions,
-- and leaves everything else as it is.
theorem decode_accepts_required_bytes (f : Format) :
    (∀ payload, (∃ v, f.decode payload = .ok v) ↔
      ∃ r, f.required? = some r ∧ f.offset.toNat + r ≤ payload.length) ∧
    (∀ payload, f.offset.toNat ≤ payload.length →
      f.decode payload = { f with offset := 0 }.decode (payload.drop f.offset.toNat)) ∧
    (∀ payload v rest, f.decode payload = .ok v →
      (∃ v', f.decode (payload ++ rest) = .ok v') ∧
      (¬f.IsOpen (payload.drop f.offset.toNat) → f.decode (payload ++ rest) = .ok v)) ∧
    (∀ factor payload,
      let scaled := (f.withConverter (.scaled factor)).decode payload
      match f.decode payload with
      | .error e            => scaled = .error e
      | .ok (.uint32 n)     => scaled = .ok (.float <| (Binary32.ofInt n.toNat).div factor)
      | .ok (.int32 n)      => scaled = .ok (.float <| (Binary32.ofInt n.toInt).div factor)
      | .ok (.float _)      => ∃ x, scaled = .ok (.float x)
      | .ok (.quaternion q) => scaled = .ok (.quaternion q)
      | .ok (.bytes bs)     => scaled = .ok (.bytes bs)) ∧
    (f.converter = .asRead → ∀ payload x, f.decode payload ≠ .ok (.float x)) := by
  refine ⟨fun _ => decode_ok_iff, fun _ => decode_drop, fun payload v rest hv => ?extended,
    fun factor payload => ?scaled, fun hc payload x hv => ?unscaled⟩
  case extended =>
    refine ⟨decode_ok_iff.mpr ?_, fun ho => decode_append_right hv ho rest⟩
    have ⟨r, hr, hl⟩ := decode_ok_iff.mp ⟨v, hv⟩
    exact ⟨r, hr, by rw [List.length_append]; omega⟩
  case scaled =>
    have h : f.decode payload = _ := f.decode_withConverter f.converter payload
    rw [f.decode_withConverter (.scaled factor), h]
    cases (f.withConverter .asRead).decode payload
    case error => rfl
    case ok v  => cases v <;> cases f.converter <;> first | rfl | exact ⟨_, rfl⟩
  case unscaled =>
    rw [decode_of_le (offset_le_of_decode hv)] at hv
    exact decodeBody_ne_float hc x hv

-- Without a length, one more byte makes for another number.
example : unsized.decode [5] = .ok (.uint32 5) ∧ unsized.decode [5, 1] = .ok (.uint32 261) :=
  ⟨rfl, rfl⟩

end Format

end SensorBoard.Sample
