import SensorBoard.Processor.FilterTable

namespace SensorBoard.Processor.FilterTable

-- What can be done with a table.
inductive Edit where
  | bind (k : Kind) (filter : UInt8)
  | unbind (k : Kind)
  | allocate (name : String)
  -- The table is replaced by a copy of itself.
  | copy
deriving DecidableEq

namespace Edit

-- The name for which a synthetic kind is asked for.
def name? : Edit → Option String
  | allocate name             => some name
  | bind .. | unbind _ | copy => none

def allocates (e : Edit) : Bool :=
  e.name?.isSome

end Edit

def edit (t : FilterTable) : Edit → FilterTable
  | .bind k filter  => (t.bind k filter).2
  | .unbind k       => (t.unbind k).2
  | .allocate name  => (t.allocate name).2
  | .copy           => t

def edits (t : FilterTable) (es : List Edit) : FilterTable :=
  es.foldl edit t

-- How many tags there are above those of stock firmware. The first of them is `18`.
def capacity : Nat :=
  238

-- The names that have a kind: the first ones that were asked for, each of them once.
def granted (es : List Edit) : List String :=
  (es.filterMap Edit.name?).eraseDups.take capacity

section Granted

theorem granted_concat_of_none (es : List Edit) (h : Edit.name? e = none) :
    granted (es ++ [e]) = granted es := by
  simp [granted, h]

theorem granted_concat_allocate (es : List Edit) (name : String) :
    granted (es ++ [.allocate name]) =
      if name ∈ granted es ∨ (granted es).length = capacity then granted es
      else granted es ++ [name] := by
  have hd : granted (es ++ [.allocate name]) =
      ((es.filterMap Edit.name?).eraseDups ++
        ([name].removeAll (es.filterMap Edit.name?)).eraseDups).take capacity := by
    rw [granted, List.filterMap_append, List.eraseDups_append]
    rfl
  rw [hd, granted]
  generalize es.filterMap Edit.name? = names
  by_cases hm : name ∈ names
  case pos =>
    have hr : [name].removeAll names = [] := by simp [List.removeAll, hm]
    rw [hr, List.eraseDups_nil, List.append_nil, if_pos]
    by_cases hl : names.eraseDups.length ≤ capacity
    case pos => exact .inl <| by rwa [List.take_of_length_le hl, List.mem_eraseDups]
    case neg => exact .inr <| by rw [List.length_take]; omega
  case neg =>
    have hr : [name].removeAll names = [name] := by simp [List.removeAll, hm]
    have hn : name ∉ names.eraseDups.take capacity :=
      fun h => hm <| List.mem_eraseDups.mp <| List.mem_of_mem_take h
    have he : [name].eraseDups = [name] := rfl
    rw [hr, he, List.take_append]
    by_cases hl : names.eraseDups.length < capacity
    case pos =>
      have ht : [name].take (capacity - names.eraseDups.length) = [name] :=
        List.take_of_length_le (Nat.sub_pos_of_lt hl)
      rw [ht, if_neg]
      rintro (h | h)
      · exact hn h
      · rw [List.length_take] at h
        omega
    case neg =>
      have ht : capacity - names.eraseDups.length = 0 := by omega
      rw [ht, List.take_zero, List.append_nil, if_pos]
      exact .inr <| by rw [List.length_take]; omega

end Granted

-- The table numbers the names, starting from `18`.
structure Numbers (t : FilterTable) (names : List String) : Prop where
  nodup     : names.Nodup
  length_le : names.length ≤ capacity
  kind_iff  : t.synthetic? name = some k ↔ ∃ i, names[i]? = some name ∧ k.tag.toNat = 18 + i
  nextTag   :
    t.nextTag = if names.length < capacity then some (.ofNat (18 + names.length)) else none

namespace Numbers

variable {t t' : FilterTable} {names : List String}

theorem start (bindings : Std.ExtTreeMap Kind UInt8) : Numbers { bindings } [] where
  nodup     := List.nodup_nil
  length_le := Nat.zero_le _
  kind_iff  := by simp [synthetic?]
  nextTag   := rfl

theorem congr (n : Numbers t names) (hs : t'.synthetic = t.synthetic)
    (ht : t'.nextTag = t.nextTag) : Numbers t' names where
  nodup     := n.nodup
  length_le := n.length_le
  kind_iff  := by
    intro name k
    rw [← n.kind_iff, synthetic?, hs, synthetic?]
  nextTag   := ht.trans n.nextTag

theorem toNat_tag (h : i < capacity) : (UInt8.ofNat (18 + i)).toNat = 18 + i := by
  rw [capacity] at h
  simp
  omega

theorem mem_iff (n : Numbers t names) : name ∈ names ↔ t.synthetic? name ≠ none := by
  constructor
  case mp =>
    intro hm hs
    have ⟨i, hl, hi⟩ := List.mem_iff_getElem.mp hm
    have ht := toNat_tag (Nat.lt_of_lt_of_le hl n.length_le)
    have hk := n.kind_iff.mpr ⟨i, List.getElem?_eq_some_iff.mpr ⟨hl, hi⟩, ht⟩
    cases hs.symm.trans hk
  case mpr =>
    intro hs
    have ⟨k, hk⟩ := Option.ne_none_iff_exists'.mp hs
    have ⟨i, hi, _⟩ := n.kind_iff.mp hk
    exact List.mem_of_getElem? hi

theorem name_eq (n : Numbers t names) (h₁ : t.synthetic? name₁ = some k)
    (h₂ : t.synthetic? name₂ = some k) : name₁ = name₂ := by
  have ⟨i, hi, hk⟩ := n.kind_iff.mp h₁
  have ⟨j, hj, hk'⟩ := n.kind_iff.mp h₂
  obtain rfl : i = j := by omega
  exact Option.some.inj <| hi.symm.trans hj

theorem isSynthetic (n : Numbers t names) (h : t.synthetic? name = some k) : k.isSynthetic := by
  have ⟨i, _, hk⟩ := n.kind_iff.mp h
  have hl : 17 < k.tag := UInt8.lt_iff_toNat_lt.mpr <| by
    rw [hk]
    exact Nat.le_add_right 18 i
  exact decide_eq_true hl

theorem synthetic?_insert :
    ({ t with synthetic := t.synthetic.insert name k, nextTag := tag? } : FilterTable).synthetic?
      name' = if name = name' then some k else t.synthetic? name' := by
  simp [synthetic?, Std.ExtTreeMap.getElem?_insert]

theorem tagAfter_tag (h : i < capacity) :
    tagAfter (.ofNat (18 + i)) =
      if i + 1 < capacity then some (.ofNat (18 + (i + 1))) else none := by
  have ht := toNat_tag h
  rw [capacity] at h
  have hl : UInt8.ofNat (18 + i) = 0xFF ↔ i = 237 := by
    rw [← UInt8.toNat_inj, ht]
    change 18 + i = 255 ↔ i = 237
    omega
  rw [tagAfter]
  by_cases hi : i = 237
  case pos =>
    rw [if_pos (hl.mpr hi), if_neg]
    rw [capacity]
    omega
  case neg =>
    rw [if_neg (mt hl.mp hi), if_pos]
    · exact congrArg some (UInt8.ofNat_add (18 + i) 1).symm
    · rw [capacity]
      omega

theorem fresh (n : Numbers t names) (hm : name ∉ names) (hl : names.length < capacity) :
    Numbers (t.allocate name).2 (names ++ [name]) := by
  have hs : t.synthetic? name = none := by simpa [n.mem_iff] using hm
  have ht : t.nextTag = some (.ofNat (18 + names.length)) := n.nextTag.trans <| if_pos hl
  rw [allocate_of_fresh hs ht]
  constructor
  case nodup => grind [n.nodup]
  case length_le =>
    rw [List.length_append]
    exact hl
  case kind_iff =>
    intro name' k
    rw [synthetic?_insert]
    by_cases hn : name = name'
    case neg =>
      rw [if_neg hn, n.kind_iff]
      refine exists_congr fun i => and_congr_left fun _ => ?_
      grind
    case pos =>
      subst hn
      rw [if_pos rfl]
      constructor
      case mp =>
        rintro ⟨⟩
        exact ⟨names.length, List.getElem?_concat_length, toNat_tag hl⟩
      case mpr =>
        rintro ⟨i, hi, hk⟩
        have hi : i = names.length := by grind
        exact congrArg some <| Kind.ext <| UInt8.toNat_inj.mp <| (toNat_tag hl).trans (hi ▸ hk).symm
  case nextTag =>
    rw [List.length_append]
    exact tagAfter_tag hl

-- An allocation extends the numbering, unless the name has a number or there are none left.
theorem allocate_cases (n : Numbers t names) (name : String) :
    (∃ k, t.synthetic? name = some k ∧ name ∈ names ∧ t.allocate name = (some k, t)) ∨
    (t.synthetic? name = none ∧ names.length = capacity ∧ t.allocate name = (none, t)) ∨
    (t.synthetic? name = none ∧ name ∉ names ∧ names.length < capacity ∧
      (t.allocate name).1 ≠ none) := by
  cases hs : t.synthetic? name
  case some k => exact .inl ⟨k, rfl, n.mem_iff.mpr (by simp [hs]), allocate_of_synthetic hs⟩
  case none =>
    have hm : name ∉ names := fun hm => n.mem_iff.mp hm hs
    have hn := n.nextTag
    by_cases hl : names.length < capacity
    case pos =>
      rw [if_pos hl] at hn
      exact .inr <| .inr ⟨rfl, hm, hl, by simp [allocate_of_fresh hs hn]⟩
    case neg =>
      rw [if_neg hl] at hn
      have hl : names.length = capacity := Nat.le_antisymm n.length_le <| Nat.le_of_not_lt hl
      exact .inr <| .inl ⟨rfl, hl, allocate_of_exhausted hs hn⟩

theorem edit (n : Numbers t (granted es)) (e : Edit) :
    Numbers (t.edit e) (granted (es ++ [e])) := by
  cases e with
  | bind | unbind | copy =>
    rw [granted_concat_of_none es rfl]
    exact n.congr rfl rfl
  | allocate name =>
    change Numbers (t.allocate name).2 _
    rw [granted_concat_allocate]
    obtain ⟨k, _, hm, ha⟩ | ⟨_, hl, ha⟩ | ⟨_, hm, hl, _⟩ := n.allocate_cases name
    case inl     => rwa [ha, if_pos (.inl hm)]
    case inr.inl => rwa [ha, if_pos (.inr hl)]
    case inr.inr =>
      rw [if_neg]
      · exact n.fresh hm hl
      · rintro (hm' | hl')
        · exact hm hm'
        · exact absurd hl' (Nat.ne_of_lt hl)

theorem edits (n : Numbers t (granted es₁)) (es₂ : List Edit) :
    Numbers (t.edits es₂) (granted (es₁ ++ es₂)) := by
  induction es₂ generalizing t es₁
  case nil => rwa [List.append_nil]
  case cons e es₂ hi =>
    rw [List.append_cons]
    exact hi (n.edit e)

end Numbers

section Stability

variable {t : FilterTable}

-- A name that has a kind keeps it.
theorem synthetic?_edit (h : t.synthetic? name = some k) (e : Edit) :
    (t.edit e).synthetic? name = some k := by
  cases e with
  | bind | unbind | copy => exact h
  | allocate name' =>
    change (t.allocate name').2.synthetic? name = some k
    unfold allocate
    split
    case h_1 => exact h
    case h_2 => exact h
    case h_3 hn _ =>
      refine Numbers.synthetic?_insert.trans <| (if_neg ?_).trans h
      rintro rfl
      cases hn.symm.trans h

theorem synthetic?_edits (h : t.synthetic? name = some k) (es : List Edit) :
    (t.edits es).synthetic? name = some k := by
  induction es generalizing t
  case nil          => exact h
  case cons e _ hi  => exact hi (synthetic?_edit h e)

end Stability

section Independence

variable {t₁ t₂ : FilterTable}

theorem allocate_congr (hs : t₁.synthetic = t₂.synthetic) (ht : t₁.nextTag = t₂.nextTag)
    (name : String) :
    (t₁.allocate name).2.synthetic = (t₂.allocate name).2.synthetic ∧
    (t₁.allocate name).2.nextTag = (t₂.allocate name).2.nextTag := by
  simp only [allocate, synthetic?, hs, ht]
  split <;> simp [hs, ht]

-- Kinds depend on allocations only,
theorem edits_synthetic (hs : t₁.synthetic = t₂.synthetic) (ht : t₁.nextTag = t₂.nextTag)
    (es : List Edit) :
    (t₁.edits es).synthetic = (t₂.edits (es.filter Edit.allocates)).synthetic := by
  induction es generalizing t₁ t₂
  case nil => exact hs
  case cons e es hi =>
    cases e with
    | bind | unbind | copy => exact hi hs ht
    | allocate name =>
      have ⟨hs, ht⟩ := allocate_congr hs ht name
      exact hi hs ht

theorem edit_bindings_of_allocates (ha : e.allocates) (t : FilterTable) :
    (t.edit e).bindings = t.bindings := by
  cases e with
  | bind | unbind | copy => cases ha
  | allocate name =>
    change (t.allocate name).2.bindings = t.bindings
    unfold allocate
    split <;> rfl

theorem edit_bindings_congr (hb : t₁.bindings = t₂.bindings) (ha : e.allocates = false) :
    (t₁.edit e).bindings = (t₂.edit e).bindings := by
  cases e with
  | bind k filter => exact congrArg (·.insert k filter) hb
  | unbind k      => exact congrArg (·.erase k) hb
  | allocate      => cases ha
  | copy          => exact hb

-- and filters on bindings only.
theorem edits_bindings (hb : t₁.bindings = t₂.bindings) (es : List Edit) :
    (t₁.edits es).bindings = (t₂.edits (es.filter (!·.allocates))).bindings := by
  induction es generalizing t₁ t₂
  case nil => exact hb
  case cons e es hi =>
    cases ha : e.allocates
    case true =>
      rw [List.filter_cons_of_neg (by simp [ha])]
      exact hi <| (edit_bindings_of_allocates ha t₁).trans hb
    case false =>
      rw [List.filter_cons_of_pos (by simp [ha])]
      exact hi <| edit_bindings_congr hb ha

end Independence

-- Whatever is done with a table that starts out without synthetic kinds: the names have kinds in
-- the order in which they were first asked for, with tags that count up from `18` and never meet
-- those of stock kinds. A name that has a kind gets that one for all time. A new name is denied a
-- kind only once all `238` are taken, and the table then stays as it is. Bindings do not matter to
-- the kinds of names, and neither do allocations to bindings.
theorem edits_number_synthetic_kinds (h₀ : t₀ = stock ∨ t₀ = empty) (es : List Edit) :
    let t := t₀.edits es
    let names := granted es
    (∀ name k,
      t.synthetic? name = some k ↔ ∃ i, names[i]? = some name ∧ k.tag.toNat = 18 + i) ∧
    (names.Nodup ∧ names.length ≤ 238) ∧
    (∀ name₁ name₂ k, t.synthetic? name₁ = some k → t.synthetic? name₂ = some k → name₁ = name₂) ∧
    (∀ name k, t.synthetic? name = some k → k.isSynthetic ∧ ∀ e ∈ Kind.stock, e.1 ≠ k) ∧
    (∀ name, (t.allocate name).2.synthetic? name = (t.allocate name).1) ∧
    (∀ name k, t.synthetic? name = some k → ∀ es', let t' := t.edits es'
      t'.synthetic? name = some k ∧ t'.allocate name = (some k, t')) ∧
    (∀ name, (t.allocate name).1 = none ↔ name ∉ names ∧ names.length = 238) ∧
    (∀ name, (t.allocate name).1 = none → (t.allocate name).2 = t) ∧
    (∀ k, t.filter? k = (t₀.edits (es.filter (!·.allocates))).filter? k) ∧
    (∀ name, t.synthetic? name = (t₀.edits (es.filter Edit.allocates)).synthetic? name) := by
  intro t names
  have n₀ : Numbers t₀ (granted []) := by
    rcases h₀ with rfl | rfl <;> exact .start _
  have n : Numbers t names := n₀.edits es
  refine ⟨@n.kind_iff, ⟨n.nodup, n.length_le⟩, fun _ _ _ => n.name_eq, ?above,
    fun _ => synthetic?_allocate, ?kept, ?denied, ?unchanged, ?filters, ?kinds⟩
  case above =>
    intro name k h
    have hs := n.isSynthetic h
    refine ⟨hs, ?_⟩
    rintro e he rfl
    simp [Kind.not_isSynthetic_of_mem_stock e he] at hs
  case kept =>
    intro name k h es'
    have h' := synthetic?_edits h es'
    exact ⟨h', allocate_of_synthetic h'⟩
  case denied =>
    intro name
    obtain ⟨k, _, hm, ha⟩ | ⟨hs, hl, ha⟩ | ⟨_, _, hl, ha⟩ := n.allocate_cases name
    case inl     => simp [ha, hm]
    case inr.inl => simp [ha, n.mem_iff, hs, show names.length = 238 from hl]
    case inr.inr => simp [ha, show names.length ≠ 238 from Nat.ne_of_lt hl]
  case unchanged =>
    intro name h
    obtain ⟨k, _, _, ha⟩ | ⟨_, _, ha⟩ | ⟨_, _, _, ha⟩ := n.allocate_cases name
    case inl     => rw [ha]
    case inr.inl => rw [ha]
    case inr.inr => exact absurd h ha
  case filters =>
    intro k
    rw [filter?, edits_bindings rfl, filter?]
  case kinds =>
    intro name
    rw [synthetic?, edits_synthetic rfl rfl, synthetic?]

-- Two names on a stock table, with a stray binding to the first synthetic kind.
theorem edits_number_synthetic_kinds_of_twoNames :
    let es : List Edit :=
      [.allocate "a", .bind ⟨18⟩ 7, .allocate "b", .copy, .allocate "a", .unbind ⟨3⟩]
    let t := stock.edits es
    granted es = ["a", "b"] ∧ t.synthetic? "a" = some ⟨18⟩ ∧ t.synthetic? "b" = some ⟨19⟩ ∧
    t.synthetic? "c" = none ∧ t.filter? ⟨18⟩ = some 7 := by
  intro es t
  have hg : granted es = ["a", "b"] := by decide
  have ⟨hk, _, _, _, _, _, _, _, hf, _⟩ := edits_number_synthetic_kinds (.inl rfl) es
  rw [hg] at hk
  refine ⟨hg, (hk _ _).mpr ⟨0, rfl, rfl⟩, (hk _ _).mpr ⟨1, rfl, rfl⟩, ?other, ?filter⟩
  case other =>
    refine Option.eq_none_iff_forall_ne_some.mpr fun k h => ?_
    have ⟨i, hi, _⟩ := (hk _ _).mp h
    match i with
    | 0 | 1 | _ + 2 => simp at hi
  case filter =>
    refine (hf _).trans ?_
    simp [es, Edit.allocates, Edit.name?, edits, edit, filter?_bind, filter?_unbind]

end SensorBoard.Processor.FilterTable
