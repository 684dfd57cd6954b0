import SensorBoard.Signal.Basic

namespace SensorBoard

@[ext]
structure Registry where
  signals : Std.ExtTreeMap Header Signal := ∅
deriving DecidableEq

namespace Registry

def get? (r : Registry) (h : Header) : Option Signal :=
  r.signals[h]?

def contains (r : Registry) (h : Header) : Bool :=
  r.signals.contains h

-- Files the signal under its own header and returns the one that it displaces.
def insert (r : Registry) (s : Signal) : Option Signal × Registry :=
  (r.get? s.header, { signals := r.signals.insert s.header s })

def remove (r : Registry) (h : Header) : Option Signal × Registry :=
  (r.get? h, { signals := r.signals.erase h })

-- The signal filed under the header. If there is none, `create` makes one, which is filed there
-- even if it names another header. The flag tells whether `create` was run.
def getOrInsertWith [Monad m] (r : Registry) (h : Header) (create : m Signal) :
    m (Signal × Bool × Registry) :=
  match r.get? h with
  | some s => pure (s, false, r)
  | none   => do
    let s ← create
    return (s, true, { signals := r.signals.insert h s })

-- What is filed under which header, in the order of the headers.
def entries (r : Registry) : List (Header × Signal) :=
  r.signals.toList

-- Takes out what is filed under the headers, one after the other.
def removeEach (r : Registry) : List Header → List Signal × Registry
  | []      => ([], r)
  | h :: hs =>
    let (s?, r) := r.remove h
    let (ss, r) := r.removeEach hs
    (s?.toList ++ ss, r)

-- Takes out the signals that satisfy the predicate. They are picked first and taken out afterwards,
-- by the headers under which they are filed.
def drainWhere (r : Registry) (p : Signal → Bool) : List Signal × Registry :=
  r.removeEach <| (r.entries.filter (p ·.2)).map (·.1)

-- The signals in the order of the headers under which they are filed.
def toList (r : Registry) : List Signal :=
  r.entries.map (·.2)

def size (r : Registry) : Nat :=
  r.signals.size

def isEmpty (r : Registry) : Bool :=
  r.signals.isEmpty

variable {r : Registry} {p : Signal → Bool}

theorem ext_get? {r₁ r₂ : Registry} (h : ∀ h, r₁.get? h = r₂.get? h) : r₁ = r₂ :=
  Registry.ext <| Std.ExtTreeMap.ext_getElem? h

theorem get?_insert : (r.insert s).2.get? h = if s.header = h then some s else r.get? h := by
  simp [insert, get?, Std.ExtTreeMap.getElem?_insert]

theorem get?_remove : (r.remove h).2.get? h' = if h = h' then none else r.get? h' := by
  simp [remove, get?, Std.ExtTreeMap.getElem?_erase]

section Entries

theorem mem_entries : (h, s) ∈ r.entries ↔ r.get? h = some s :=
  Std.ExtTreeMap.mem_toList_iff_getElem?_eq_some

theorem entries_ordered (r : Registry) :
    r.entries.Pairwise fun e₁ e₂ => compare e₁.1 e₂.1 = .lt :=
  Std.ExtTreeMap.ordered_keys_toList

theorem entries_distinct (r : Registry) : (r.entries.map (·.1)).Nodup := by
  have hk : r.entries.map (·.1) = r.signals.keys := Std.ExtTreeMap.map_fst_toList_eq_keys
  exact hk ▸ Std.ExtTreeMap.nodup_keys

end Entries

section RemoveEach

theorem get?_removeEach :
    (r.removeEach hs).2.get? h = if h ∈ hs then none else r.get? h := by
  induction hs generalizing r
  case nil => rfl
  case cons h' hs hi =>
    change ((r.remove h').2.removeEach hs).2.get? h = _
    rw [hi, get?_remove]
    grind

-- Taking out one entry leaves the others for their turn, as long as no header comes twice.
theorem removeEach_fst {es : List (Header × Signal)} (hn : (es.map (·.1)).Nodup)
    (hs : ∀ e ∈ es, r.get? e.1 = some e.2) : (r.removeEach (es.map (·.1))).1 = es.map (·.2) := by
  induction es generalizing r
  case nil => rfl
  case cons e es hi =>
    have ⟨hm, hn⟩ := List.nodup_cons.mp hn
    have hr : ∀ e' ∈ es, (r.remove e.1).2.get? e'.1 = some e'.2 := by
      intro e' hm'
      rw [get?_remove, if_neg, hs e' (List.mem_cons_of_mem _ hm')]
      exact fun he => hm <| List.mem_map.mpr ⟨e', hm', he.symm⟩
    change (r.get? e.1).toList ++ ((r.remove e.1).2.removeEach (es.map (·.1))).1 = _
    rw [hi hn hr, hs e List.mem_cons_self]
    rfl

end RemoveEach

-- The signals that are drained are the ones that were picked.
theorem drainWhere_fst (r : Registry) (p : Signal → Bool) :
    (r.drainWhere p).1 = (r.entries.filter (p ·.2)).map (·.2) :=
  removeEach_fst (r.entries_distinct.sublist <| (List.filter_sublist).map _)
    fun _ hm => mem_entries.mp (List.mem_filter.mp hm).left

theorem get?_drainWhere : (r.drainWhere p).2.get? h = (r.get? h).filter (!p ·) := by
  have hm : h ∈ (r.entries.filter (p ·.2)).map (·.1) ↔ ∃ s, r.get? h = some s ∧ p s := by
    simp [mem_entries]
  rw [drainWhere, get?_removeEach]
  cases hs : r.get? h
  case none   => simp [hm, hs]
  case some s => cases hp : p s <;> simp [hm, hs, hp, Option.filter]

theorem mem_drainWhere : s ∈ (r.drainWhere p).1 ↔ (∃ h, r.get? h = some s) ∧ p s := by
  simp [drainWhere_fst, mem_entries]

theorem drainWhere_of_fst_eq_nil (h : (r.drainWhere p).1 = []) : (r.drainWhere p).2 = r := by
  apply ext_get?
  intro h'
  rw [get?_drainWhere]
  cases hs : r.get? h'
  case none => rfl
  case some s =>
    have hp : ¬p s := fun hp => List.not_mem_nil <| h ▸ mem_drainWhere.mpr ⟨⟨h', hs⟩, hp⟩
    simp [hp]

-- There is nothing left for a second drain.
theorem drainWhere_drainWhere :
    (r.drainWhere p).2.drainWhere p = ([], (r.drainWhere p).2) := by
  have hn : ((r.drainWhere p).2.drainWhere p).1 = [] := by
    refine List.eq_nil_iff_forall_not_mem.mpr fun s hm => ?_
    have ⟨⟨h, hs⟩, hp⟩ := mem_drainWhere.mp hm
    rw [get?_drainWhere, Option.filter_eq_some_iff] at hs
    simp [hp] at hs
  exact Prod.ext hn (drainWhere_of_fst_eq_nil hn)

section GetOrInsertWith

variable [Monad m] {create : m Signal}

theorem getOrInsertWith_of_some (h : r.get? k = some s) :
    r.getOrInsertWith k create = pure (s, false, r) := by
  simp [getOrInsertWith, h]

theorem getOrInsertWith_of_none (h : r.get? k = none) :
    r.getOrInsertWith k create =
      create >>= fun s => pure (s, true, { signals := r.signals.insert k s }) := by
  simp [getOrInsertWith, h]

end GetOrInsertWith

end Registry

end SensorBoard
