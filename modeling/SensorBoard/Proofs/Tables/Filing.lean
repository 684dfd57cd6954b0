import SensorBoard.Board.Signals

namespace SensorBoard

-- Ascending by module, then by register, then by channel. A register as a whole comes before all of
-- its channels.
def Header.Precedes (h₁ h₂ : Header) : Prop :=
  h₁.module < h₂.module ∨ h₁.module = h₂.module ∧
    (h₁.register < h₂.register ∨ h₁.register = h₂.register ∧
      match h₁.channel, h₂.channel with
      | none,    some _  => True
      | some c₁, some c₂ => c₁ < c₂
      | _,       none    => False)

theorem Header.compare_eq_lt_iff {h₁ h₂ : Header} : compare h₁ h₂ = .lt ↔ h₁.Precedes h₂ := by
  obtain ⟨m₁, r₁, c₁⟩ := h₁
  obtain ⟨m₂, r₂, c₂⟩ := h₂
  change (compare m₁ m₂).then ((compare r₁ r₂).then (compare c₁ c₂)) = .lt ↔ _
  have hc : compare c₁ c₂ = .lt ↔
      match c₁, c₂ with
      | none,    some _  => True
      | some c₁, some c₂ => c₁ < c₂
      | _,       none    => False := by
    cases c₁ <;> cases c₂
    case none.none => exact iff_of_false nofun id
    case none.some => exact iff_of_true rfl trivial
    case some.none => exact iff_of_false nofun id
    case some.some => exact Std.compare_eq_lt (α := UInt8)
  simp only [Ordering.then_eq_lt, Std.compare_eq_lt, Std.compare_eq_iff_eq, hc, Precedes]

namespace Registry

-- The registry with the signal under that very header.
def file (r : Registry) (h : Header) (s : Signal) : Registry where
  signals := r.signals.insert h s

-- What can be done with a registry.
inductive Edit where
  | insert (s : Signal)
  -- Asks for the signal at the header, where `s` is what would be made if there is none.
  | ensure (h : Header) (s : Signal)
  | remove (h : Header)
  | drain (p : Signal → Bool)

def edit (r : Registry) : Edit → Registry
  | .insert s   => (r.insert s).2
  | .ensure h s => (Id.run <| r.getOrInsertWith h (pure s)).2.2
  | .remove h   => (r.remove h).2
  | .drain p    => (r.drainWhere p).2

def edits (r : Registry) (es : List Edit) : Registry :=
  es.foldl edit r

-- What an edit makes of what is filed under a header. Other headers do not come into it.
def Edit.leave (e : Edit) (h : Header) (s? : Option Signal) : Option Signal :=
  match e with
  | insert s   => if s.header = h then some s else s?
  | ensure k s => if k = h then s?.or (some s) else s?
  | remove k   => if k = h then none else s?
  | drain p    => s?.filter (!p ·)

variable {r : Registry} {p : Signal → Bool}

section Edits

theorem get?_file : (r.file h s).get? h' = if h = h' then some s else r.get? h' := by
  simp [file, get?, Std.ExtTreeMap.getElem?_insert]

theorem getOrInsertWith_eq_file [Monad m] {create : m Signal} (h : r.get? k = none) :
    r.getOrInsertWith k create = create >>= fun s => pure (s, true, r.file k s) :=
  getOrInsertWith_of_none h

theorem get?_edit : (r.edit e).get? h = e.leave h (r.get? h) := by
  cases e with
  | insert s => exact get?_insert
  | remove k => exact get?_remove
  | drain p  => exact get?_drainWhere
  | ensure k s =>
    rw [edit, Edit.leave]
    cases hk : r.get? k
    case some s' =>
      rw [getOrInsertWith_of_some hk]
      by_cases hh : k = h
      case pos => simp [← hh, hk]
      case neg => simp [hh]
    case none =>
      rw [getOrInsertWith_eq_file hk]
      change (r.file k s).get? h = _
      rw [get?_file]
      by_cases hh : k = h
      case pos => simp [← hh, hk]
      case neg => simp [hh]

theorem get?_edits : (r.edits es).get? h = es.foldl (fun s? e => e.leave h s?) (r.get? h) := by
  induction es generalizing r
  case nil => rfl
  case cons e es hi =>
    change ((r.edit e).edits es).get? h = _
    rw [hi, get?_edit, List.foldl_cons]

end Edits

section Order

theorem entries_ascending (r : Registry) : r.entries.Pairwise (·.1.Precedes ·.1) :=
  r.entries_ordered.imp Header.compare_eq_lt_iff.mp

theorem nodup_of_ordered {es : List (Header × Signal)}
    (ho : es.Pairwise fun e₁ e₂ => compare e₁.1 e₂.1 = .lt) : es.Nodup := by
  refine ho.imp ?_
  rintro e _ hl rfl
  rw [Std.ReflOrd.compare_self] at hl
  cases hl

-- There is one way only to list what a registry holds in ascending order.
theorem eq_entries {es : List (Header × Signal)}
    (ho : es.Pairwise fun e₁ e₂ => compare e₁.1 e₂.1 = .lt)
    (hm : ∀ h s, (h, s) ∈ es ↔ r.get? h = some s) : es = r.entries := by
  have hn := nodup_of_ordered r.entries_ordered
  refine List.Perm.eq_of_pairwise ?antisymm ho r.entries_ordered ?perm
  case antisymm =>
    intro e₁ e₂ _ _ h₁ h₂
    rw [Std.OrientedOrd.eq_swap, h₂] at h₁
    cases h₁
  case perm =>
    refine (List.perm_ext_iff_of_nodup (nodup_of_ordered ho) hn).mpr fun e => ?_
    exact (hm e.1 e.2).trans mem_entries.symm

-- The others stay where they were.
theorem entries_drainWhere : (r.drainWhere p).2.entries = r.entries.filter (!p ·.2) := by
  refine (eq_entries (r.entries_ordered.filter _) fun h s => ?_).symm
  rw [List.mem_filter, mem_entries, get?_drainWhere, Option.filter_eq_some_iff]

end Order

-- Whatever a registry has been through: what it holds under a header is up to the edits at that very
-- header. It lists its signals in the order of these headers, one for each. A drain takes out the
-- signals that satisfy the predicate, in the same order, and as often as they are filed. It leaves
-- the others where they are, so that there is nothing left for a second drain. A signal is made only
-- if there is none under the header that was asked for. It is filed there, whereas an insertion
-- files under the signal's own header, and gives back the signal that had been there.
theorem edits_list_and_drain_in_order (es : List Edit) :
    let r : Registry := edits {} es
    (∀ h, r.get? h = es.foldl (fun s? e => e.leave h s?) none) ∧
    (r.toList = r.entries.map (·.2) ∧ r.entries.Pairwise (·.1.Precedes ·.1) ∧
      ∀ h s, (h, s) ∈ r.entries ↔ r.get? h = some s) ∧
    (∀ p,
      let drained := (r.drainWhere p).1
      let kept := (r.drainWhere p).2
      (∃ taken : List (Header × Signal),
        drained = taken.map (·.2) ∧ taken.Pairwise (·.1.Precedes ·.1) ∧
        (∀ h s, (h, s) ∈ taken ↔ r.get? h = some s ∧ p s) ∧
        (taken ++ kept.entries).Perm r.entries) ∧
      (∀ h s, kept.get? h = some s ↔ r.get? h = some s ∧ ¬p s) ∧
      kept.drainWhere p = ([], kept)) ∧
    (∀ (m : Type → Type) [Monad m] (create : m Signal) h,
      (∀ s, r.get? h = some s → r.getOrInsertWith h create = pure (s, false, r)) ∧
      (r.get? h = none →
        r.getOrInsertWith h create = create >>= fun s => pure (s, true, r.file h s))) ∧
    (∀ h s h', (r.file h s).get? h' = if h = h' then some s else r.get? h') ∧
    (∀ s, r.insert s = (r.get? s.header, r.file s.header s)) := by
  intro r
  refine ⟨fun _ => ?held, ⟨rfl, r.entries_ascending, fun _ _ => mem_entries⟩, fun p => ?drain,
    fun _ _ _ _ => ⟨fun _ => getOrInsertWith_of_some, getOrInsertWith_eq_file⟩,
    fun _ _ _ => get?_file, fun _ => rfl⟩
  case held =>
    exact get?_edits.trans <| by simp [get?]
  case drain =>
    refine ⟨⟨r.entries.filter (p ·.2), r.drainWhere_fst p, r.entries_ascending.filter _,
      fun h s => ?taken, ?perm⟩, fun h s => ?kept, drainWhere_drainWhere⟩
    case taken => rw [List.mem_filter, mem_entries]
    case perm  => exact entries_drainWhere ▸ List.filter_append_perm _ _
    case kept  => simp [get?_drainWhere, Option.filter_eq_some_iff]

-- A signal under its own header and under another one, and one for their register as a whole. The
-- signals that are made are counted.
theorem edits_list_and_drain_in_order_of_twoFilings :
    let whole := BuiltIn.switchState.header
    let s : Signal := .device ⟨.caller, 0⟩ (whole.subChannel 2) .statusByte
    let t : Signal := .device ⟨.caller, 1⟩ whole .statusByte
    let r := edits {} [.ensure (whole.subChannel 0) s, .insert s, .insert t]
    let kept := (r.drainWhere (·.header.channel.isSome)).2
    let made : StateM Nat Signal := fun count => (s, count + 1)
    r.get? whole = some t ∧ r.get? (whole.subChannel 0) = some s ∧ r.toList = [t, s, s] ∧
    kept.get? whole = some t ∧ kept.get? (whole.subChannel 0) ≠ some s ∧
    (r.getOrInsertWith whole made).run 0 = ((t, false, r), 0) ∧
    (r.getOrInsertWith (whole.subChannel 1) made).run 0 =
      ((s, true, r.file (whole.subChannel 1) s), 1) := by
  intro whole s t r kept made
  have ⟨hg, _, hd, hm, _⟩ :=
    edits_list_and_drain_in_order [.ensure (whole.subChannel 0) s, .insert s, .insert t]
  have ⟨_, hk, _⟩ := hd (·.header.channel.isSome)
  have ht : r.get? whole = some t := hg whole
  have hs : r.get? (whole.subChannel 0) = some s := hg _
  have hn : r.get? (whole.subChannel 1) = none := hg _
  refine ⟨ht, hs, ?list, (hk _ _).mpr ⟨ht, by decide⟩, fun h => (hk _ _).mp h |>.right (by decide),
    ?found, ?missing⟩
  case list    => decide +kernel
  case found   => rw [(hm _ made whole).left t ht]; rfl
  case missing => rw [(hm _ made _).right hn]; rfl

end Registry

end SensorBoard
