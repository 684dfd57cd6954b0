import SensorBoard.Proofs.Samples.Acceptance

namespace SensorBoard.Sample

section Steps

-- Samples are read once more, in steps that fail where they would leave their bounds. Here, the bytes
-- from `start` on and up to `stop` have to be there.
def slice? (bs : List UInt8) (start stop : Nat) : Option (List UInt8) :=
  if start ≤ stop ∧ stop ≤ bs.length then some ((bs.drop start).take (stop - start)) else none

-- The product has to fit into a word.
def mul? (a b : UInt32) : Option UInt32 :=
  if a.toNat * b.toNat < UInt32.size then some (a * b) else none

-- The difference must not be negative.
def sub? (a b : UInt32) : Option UInt32 :=
  if b ≤ a then some (a - b) else none

-- A word can be shifted by fewer bits than it has.
def shiftLeft? (w n : UInt32) : Option UInt32 :=
  if n < 32 then some (w <<< n) else none

def shiftRight? (w : Int32) (n : UInt32) : Option Int32 :=
  if n < 32 then some (w >>> n.toInt32) else none

theorem slice?_of_le {bs : List UInt8} (h₁ : start ≤ stop) (h₂ : stop ≤ bs.length) :
    slice? bs start stop = some ((bs.drop start).take (stop - start)) :=
  if_pos ⟨h₁, h₂⟩

theorem slice?_of_lt {bs : List UInt8} (h : stop < start) : slice? bs start stop = none :=
  if_neg fun ⟨h', _⟩ => Nat.not_le.mpr h h'

theorem slice?_zero {bs : List UInt8} (h : stop ≤ bs.length) :
    slice? bs 0 stop = some (bs.take stop) :=
  slice?_of_le (Nat.zero_le _) h

-- Readers check first that there is enough, and then take it.
theorem ite_eq_some_ite {c : Prop} [Decidable c] {e : ε} {x? : Option (Except ε α)}
    (h : ¬c → x? = some (.ok x)) :
    (if c then some (.error e) else x?) = some (if c then .error e else .ok x) := by
  split
  case isTrue     => rfl
  case isFalse hc => exact h hc

end Steps

section Integer

def signExtend? (w : UInt32) (n : Nat) : Option Int32 := do
  let shift ← sub? 32 (← mul? 8 n.toUInt32)
  shiftRight? (← shiftLeft? w shift).toInt32 shift

-- To put bytes side by side, a word is never shifted by more than eight bits.
def integer? (signed : Bool) (raw : List UInt8) : Option Value :=
  if signed then
    (signExtend? (word raw) raw.length).map .int32
  else
    some <| .uint32 (word raw)

def takeInteger? (length : Nat) (body : List UInt8) : Option (Except TooShort (List UInt8)) :=
  let n := if length = 0 then min body.length 4 else min length 4
  if n = 0 ∨ body.length < n then
    some <| .error ⟨max n 1, body.length⟩
  else
    (slice? body 0 n).map .ok

variable {body raw : List UInt8}

theorem signExtend?_eq {w : UInt32} (h₁ : 1 ≤ n) (h₄ : n ≤ 4) :
    signExtend? w n = some (signExtend w n) := by
  obtain rfl | rfl | rfl | rfl : n = 1 ∨ n = 2 ∨ n = 3 ∨ n = 4 := by omega
  all_goals rfl

-- No bytes would be pushed up by all bits of a word, and five by less than none.
example : signExtend? 0 0 = none ∧ signExtend? 0 5 = none :=
  ⟨rfl, rfl⟩

theorem integer?_eq (h₁ : 1 ≤ raw.length) (h₄ : raw.length ≤ 4) :
    integer? signed raw = some (integer signed raw) := by
  rw [integer?, integer, signExtend?_eq h₁ h₄]
  split <;> rfl

theorem takeInteger?_eq : takeInteger? n body = some (takeInteger n body) := by
  refine ite_eq_some_ite fun h => ?_
  rw [slice?_zero (Nat.not_lt.mp <| not_or.mp h |>.right), Option.map_some]

theorem of_takeInteger (h : takeInteger n body = .ok raw) :
    raw <+: body ∧ 1 ≤ raw.length ∧ raw.length ≤ 4 := by
  have hl := takeInteger_ok_iff.mp ⟨raw, h⟩
  have ⟨k, hk⟩ : ∃ k, k = if n = 0 then min 4 body.length else min 4 n := ⟨_, rfl⟩
  have h₁ : 1 ≤ k := by grind
  have h₄ : k ≤ 4 := by grind
  have hb : k ≤ body.length := by grind
  obtain rfl := Except.ok.inj <| (takeInteger_of_le hk h₁ hb).symm.trans h
  rw [List.length_take_of_le hb]
  exact ⟨List.take_prefix k body, h₁, h₄⟩

-- One to four bytes leave room for less than a word.
theorem shift_bounds {shift : UInt32} (hs : shift = 32 - 8 * n.toUInt32) (h₁ : 1 ≤ n)
    (h₄ : n ≤ 4) : shift.toNat + 8 * n = 32 ∧ shift < 32 := by
  obtain rfl | rfl | rfl | rfl : n = 1 ∨ n = 2 ∨ n = 3 ∨ n = 4 := by omega
  all_goals
    subst hs
    decide

end Integer

section Quaternion

-- The group has to fill a number.
def number? (body : List UInt8) (i : Nat) : Option Binary32 := do
  let group ← slice? body (4 * i) (4 * i + 4)
  if group.length = 4 then
    some { bits := .ofNat <| littleEndian group }
  else
    none

def takeQuaternion? (length : Nat) (body : List UInt8) : Option (Except TooShort Quaternion) :=
  let n := if length = 0 then 16 else length
  if n < 16 ∨ body.length < n then
    some <| .error ⟨max n 16, body.length⟩
  else do
    return .ok ⟨← number? body 0, ← number? body 1, ← number? body 2, ← number? body 3⟩

variable {body : List UInt8}

theorem number?_eq (h : 4 * i + 4 ≤ body.length) : number? body i = some (number body i) := by
  have hs := slice?_of_le (Nat.le_add_right (4 * i) 4) h
  rw [Nat.add_sub_cancel_left] at hs
  have hl : ((body.drop (4 * i)).take 4).length = 4 := by
    rw [List.length_take, List.length_drop]
    omega
  simp [number?, hs, hl, number]

theorem takeQuaternion?_eq : takeQuaternion? n body = some (takeQuaternion n body) := by
  refine ite_eq_some_ite fun h => ?_
  have hn (i : Nat) (hi : i < 4) : number? body i = some (number body i) :=
    number?_eq <| by split at h <;> omega
  rw [hn 0 (by decide), hn 1 (by decide), hn 2 (by decide), hn 3 (by decide)]
  rfl

theorem of_takeQuaternion (h : takeQuaternion n body = .ok q) (hi : i < 4) :
    4 * i + 4 ≤ body.length := by
  have ⟨hn, hl⟩ := takeQuaternion_ok_iff.mp ⟨q, h⟩
  split at hl <;> omega

end Quaternion

section Bytes

def takeBytes? (length : Nat) (body : List UInt8) : Option (Except TooShort (List UInt8)) :=
  let n := if length = 0 then body.length else length
  if body.length < n then
    some <| .error ⟨n, body.length⟩
  else
    (slice? body 0 n).map .ok

variable {body : List UInt8}

theorem takeBytes?_eq : takeBytes? n body = some (takeBytes n body) := by
  refine ite_eq_some_ite fun h => ?_
  rw [slice?_zero (Nat.not_lt.mp h), Option.map_some]

theorem of_takeBytes (h : takeBytes n body = .ok bs) :
    (if n = 0 then body.length else n) ≤ body.length ∧
      bs = body.take (if n = 0 then body.length else n) := by
  have hl : (if n = 0 then body.length else n) ≤ body.length := by
    have hn := takeBytes_ok_iff.mp ⟨bs, h⟩
    split <;> omega
  have ht : takeBytes n body = .ok (body.take (if n = 0 then body.length else n)) :=
    if_neg <| Nat.not_lt.mpr hl
  exact ⟨hl, Except.ok.inj <| h.symm.trans ht⟩

end Bytes

namespace Format

def decodeBody? (f : Format) (body : List UInt8) : Option (Except TooShort Value) :=
  match f.interpreter with
  | .uint32 | .int32 => do
    match ← takeInteger? f.length body with
    | .error e => return .error e
    | .ok raw  => return .ok <| (← integer? f.signed raw).convert f.converter
  | .quaternion      => return (← takeQuaternion? f.length body).map .quaternion
  | .bytes           => return (← takeBytes? f.length body).map .bytes

-- A payload that does not reach up to the offset is too short, and no reason to fail.
def decode? (f : Format) (payload : List UInt8) : Option (Except TooShort Value) :=
  match slice? payload f.offset.toNat payload.length with
  | none      => some <| .error ⟨f.offset.toNat, payload.length⟩
  | some body => f.decodeBody? body

variable {f : Format} {body payload : List UInt8}

theorem decodeBody?_eq : f.decodeBody? body = some (f.decodeBody body) := by
  unfold decodeBody? decodeBody
  cases f.interpreter <;> dsimp only
  case uint32 | int32 =>
    rw [takeInteger?_eq]
    cases hr : takeInteger f.length body
    case error e => rfl
    case ok raw  =>
      have ⟨_, h₁, h₄⟩ := of_takeInteger hr
      simp [integer?_eq h₁ h₄, Except.map]
  case quaternion => rw [takeQuaternion?_eq]; rfl
  case bytes      => rw [takeBytes?_eq]; rfl

theorem decode?_eq : f.decode? payload = some (f.decode payload) := by
  unfold decode?
  by_cases h : payload.length < f.offset.toNat
  case pos =>
    rw [decode_of_lt h, slice?_of_lt h]
  case neg =>
    have h := Nat.not_lt.mp h
    rw [decode_of_le h, slice?_of_le h (Nat.le_refl _), List.take_of_length_le (by simp)]
    exact decodeBody?_eq

theorem length_le (f : Format) : f.length ≤ 255 * 255 :=
  Nat.mul_le_mul (Nat.le_of_lt_succ f.channels.toNat_lt) (Nat.le_of_lt_succ f.channelSize.toNat_lt)

-- Whatever the format and the payload are like: to read the sample in steps that check their bounds
-- comes to the same as to read it right away, so no step leaves them. This is because of the checks
-- that go before. Where an integer is read, it is from the first bytes of the body, at least one and
-- at most four, so that the word is shifted by fewer bits than it has when the sign is filled in.
-- Where a quaternion is read, the body holds all four groups of bytes, and where bytes are read, it
-- holds as many as are taken.
theorem decode_stays_in_bounds (f : Format) :
    f.length ≤ 255 * 255 ∧
    (∀ payload, f.decode? payload = some (f.decode payload)) ∧
    (∀ body raw, takeInteger f.length body = .ok raw →
      raw <+: body ∧ 1 ≤ raw.length ∧ raw.length ≤ 4 ∧
      let shift : UInt32 := 32 - 8 * raw.length.toUInt32
      shift.toNat + 8 * raw.length = 32 ∧ shift < 32) ∧
    (∀ body q, takeQuaternion f.length body = .ok q → ∀ i < 4, 4 * i + 4 ≤ body.length) ∧
    (∀ body bs, takeBytes f.length body = .ok bs →
      let n := if f.length = 0 then body.length else f.length
      n ≤ body.length ∧ bs = body.take n) := by
  refine ⟨f.length_le, fun _ => decode?_eq, fun body raw h => ?integer,
    fun _ _ h _ hi => of_takeQuaternion h hi, fun _ _ h => of_takeBytes h⟩
  case integer =>
    have ⟨hp, h₁, h₄⟩ := of_takeInteger h
    exact ⟨hp, h₁, h₄, shift_bounds rfl h₁ h₄⟩

-- One byte to skip and one byte more than a quaternion takes, which would do for integers and bytes,
-- too. Read as an integer, it is the lowest one that there is.
theorem decode_stays_in_bounds_of_lowestInteger :
    let f : Format := ⟨.int32, 4, 4, true, 1, .asRead⟩
    let body : List UInt8 := [0, 0, 0, 128] ++ List.replicate 13 7
    takeInteger f.length body = .ok [0, 0, 0, 128] ∧ [0, 0, 0, 128] <+: body ∧
    (∃ q, takeQuaternion f.length body = .ok q) ∧ 4 * 3 + 4 ≤ body.length ∧
    takeBytes f.length body = .ok (body.take 16) ∧ 16 ≤ body.length ∧
    f.decode? (9 :: body) = some (.ok (.int32 (-2147483648))) := by
  intro f body
  have ⟨_, hd, hi, hq, hb⟩ := decode_stays_in_bounds f
  have hti : takeInteger f.length body = .ok [0, 0, 0, 128] := rfl
  have htb : takeBytes f.length body = .ok (body.take 16) := rfl
  have ⟨q, htq⟩ : ∃ q, takeQuaternion f.length body = .ok q := ⟨_, rfl⟩
  have hv : integer true [0, 0, 0, 128] = .int32 (-2147483648) := by decide +kernel
  have hf : f.decode (9 :: body) = .ok (integer true [0, 0, 0, 128]) := rfl
  exact ⟨hti, (hi body _ hti).left, ⟨q, htq⟩, hq body q htq 3 (by decide), htb,
    (hb body _ htb).left, (hd _).trans <| congrArg some <| hv ▸ hf⟩

end Format

end SensorBoard.Sample
