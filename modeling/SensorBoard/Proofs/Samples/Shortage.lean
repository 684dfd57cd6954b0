import SensorBoard.Proofs.Samples.Acceptance

namespace SensorBoard.Sample

section Take

variable {body : List UInt8}

theorem ite_error_iff {c c' : Prop} [Decidable c] {e₁ e₂ : ε} (hc : c ↔ c') (he : c → e₁ = e₂) :
    (if c then .error e₁ else .ok x : Except ε α) = .error e ↔ c' ∧ e = e₂ := by
  rw [← hc]
  split <;> simp_all [eq_comm]

theorem takeInteger_error_iff :
    takeInteger n body = .error e ↔
      body.length < (if n = 0 then 1 else min 4 n) ∧
        e = ⟨if n = 0 then 1 else min 4 n, body.length⟩ := by
  refine ite_error_iff ?short fun h => TooShort.ext ?needed rfl
  case short  => split <;> omega
  case needed => grind

-- Lengths that a quaternion never has are reported as if there were bytes missing.
theorem takeQuaternion_error_iff :
    takeQuaternion n body = .error e ↔
      ((n ≠ 0 ∧ n < 16) ∨ body.length < (if n = 0 then 16 else n)) ∧
        e = ⟨max 16 n, body.length⟩ := by
  refine ite_error_iff ?short fun h => TooShort.ext ?needed rfl
  case short  => split <;> omega
  case needed => grind

theorem takeBytes_error_iff :
    takeBytes n body = .error e ↔ body.length < n ∧ e = ⟨n, body.length⟩ := by
  refine ite_error_iff ?short fun h => TooShort.ext ?needed rfl
  case short  => split <;> omega
  case needed => grind

end Take

theorem map_eq_error_iff {r : Except ε α} {g : α → β} : r.map g = .error e ↔ r = .error e := by
  cases r <;> simp [Except.map]

namespace Format

theorem required?_eq_none_iff {f : Format} :
    f.required? = none ↔ f.interpreter = .quaternion ∧ f.length ≠ 0 ∧ f.length < 16 := by
  unfold required?
  cases f.interpreter <;> grind

section Body

variable {f : Format} {body : List UInt8}

theorem decodeBody_error_iff :
    f.decodeBody body = .error e ↔
      (∃ r, f.required? = some r ∧ body.length < r ∧ e = ⟨r, body.length⟩) ∨
      (f.required? = none ∧ e = ⟨16, body.length⟩) := by
  unfold decodeBody required?
  cases f.interpreter <;> simp only [map_eq_error_iff]
  case uint32 | int32 =>
    rw [takeInteger_error_iff]
    split <;> simp
  case quaternion =>
    rw [takeQuaternion_error_iff]
    obtain h₀ | ⟨h₀, h₁₆⟩ | h₁₆ :
      f.length = 0 ∨ (f.length ≠ 0 ∧ f.length < 16) ∨ 16 ≤ f.length := by omega
    case inl => simp [h₀]
    case inr.inl =>
      have hm : max 16 f.length = 16 := Nat.max_eq_left <| Nat.le_of_lt h₁₆
      simp [h₀, h₁₆, hm, Nat.not_le.mpr h₁₆]
    case inr.inr =>
      have h₀ : f.length ≠ 0 := by omega
      simp [h₀, h₁₆, Nat.not_lt.mpr h₁₆]
  case bytes =>
    rw [takeBytes_error_iff]
    simp

end Body

variable {f : Format} {payload : List UInt8}

-- The offset is checked first, and against the payload as a whole.
theorem decode_error_iff :
    f.decode payload = .error e ↔
      (payload.length < f.offset.toNat ∧ e = ⟨f.offset.toNat, payload.length⟩) ∨
      (f.offset.toNat ≤ payload.length ∧
        let available := payload.length - f.offset.toNat
        (∃ r, f.required? = some r ∧ available < r ∧ e = ⟨r, available⟩) ∨
        (f.required? = none ∧ e = ⟨16, available⟩)) := by
  by_cases h : payload.length < f.offset.toNat
  case pos =>
    simp [decode_of_lt h, h, Nat.not_le.mpr h, eq_comm]
  case neg =>
    have h' := Nat.not_lt.mp h
    simp [decode_of_le h', decodeBody_error_iff, h, h']

-- A payload that cannot be read is reported with the bytes that the failing check had before it:
-- all of the payload if it does not reach up to the offset, and what comes after the offset
-- otherwise. In the latter case the bytes that are reported as needed are those that a sample
-- takes. There are always fewer bytes than needed, except for a quaternion whose specified length
-- is less than that of any quaternion. No payload does for it, and it is reported to need sixteen
-- bytes even if they are all there.
theorem decode_reports_shortage (h : f.decode payload = .error e) :
    let available := payload.length - f.offset.toNat
    (payload.length < f.offset.toNat → e = ⟨f.offset.toNat, payload.length⟩) ∧
    (f.offset.toNat ≤ payload.length →
      e.got = available ∧ e.needed = f.required?.getD 16) ∧
    (e.needed ≤ e.got ↔
      f.offset.toNat ≤ payload.length ∧ 16 ≤ available ∧
        f.interpreter = .quaternion ∧ f.length ≠ 0 ∧ f.length < 16) := by
  intro available
  rw [← required?_eq_none_iff]
  obtain ⟨hp, rfl⟩ | ⟨hp, ⟨r, hr, hl, rfl⟩ | ⟨hr, rfl⟩⟩ := decode_error_iff.mp h
  case inl =>
    refine ⟨fun _ => rfl, fun hp' => absurd hp <| Nat.not_lt.mpr hp', ?_⟩
    dsimp only
    omega
  case inr.inl =>
    refine ⟨fun hp' => absurd hp' <| Nat.not_lt.mpr hp, fun _ => ⟨rfl, ?needed⟩, ?truthful⟩
    case needed   => simp [hr]
    case truthful => simp [hr, hl]
  case inr.inr =>
    refine ⟨fun hp' => absurd hp' <| Nat.not_lt.mpr hp, fun _ => ⟨rfl, ?needed⟩, ?untruthful⟩
    case needed     => simp [hr]
    case untruthful => simp [hr, hp, available]

-- Three bytes after the offset, where an integer of four bytes is to be read.
theorem decode_reports_shortage_of_threeBytes :
    let f : Format := { interpreter := .int32, channels := 2, channelSize := 2, offset := 2 }
    let e : TooShort := ⟨4, 3⟩
    f.decode [1, 2, 3, 4, 5] = .error e ∧ e.got = 5 - 2 ∧
    f.required? = some 4 ∧ e.got < e.needed := by
  intro f e
  have h : f.decode [1, 2, 3, 4, 5] = .error e := rfl
  have ⟨_, ha, ht⟩ := decode_reports_shortage h
  exact ⟨h, (ha (by decide)).left, rfl, Nat.not_le.mp <| mt ht.mp (by decide)⟩

-- Sixteen bytes make a quaternion, but not if it is specified as four channels of one byte each.
-- The report is then that sixteen bytes are needed, and that there are sixteen.
theorem sixteen_of_sixteen_bytes_reported_short :
    ¬∀ (f : Format) payload e, f.decode payload = .error e → e.got < e.needed := by
  intro h
  let f : Format := Format.quaternion.withChannels 4 1
  have he : f.decode (List.replicate 16 0) = .error ⟨16, 16⟩ := rfl
  exact absurd (h f _ _ he) (Nat.lt_irrefl 16)

end Format

end SensorBoard.Sample
