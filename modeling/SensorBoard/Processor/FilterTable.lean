import SensorBoard.Processor.Kind

namespace SensorBoard.Processor

@[ext]
structure FilterTable where
  bindings : Std.ExtTreeMap Kind UInt8 := ∅
  -- The synthetic kinds by name.
  synthetic : Std.ExtTreeMap String Kind := ∅
  -- The next tag to hand out, unless all are in use.
  nextTag : Option UInt8 := some (Kind.lastStock.tag + 1)
deriving DecidableEq

namespace FilterTable

def empty : FilterTable :=
  {}

def stock : FilterTable where
  bindings := .ofList <| Kind.stock.map fun (kind, filter, _) => (kind, filter)

def filter? (t : FilterTable) (k : Kind) : Option UInt8 :=
  t.bindings[k]?

-- Returns the filter that was bound before.
def bind (t : FilterTable) (k : Kind) (filter : UInt8) : Option UInt8 × FilterTable :=
  (t.filter? k, { t with bindings := t.bindings.insert k filter })

-- Returns the filter that was bound before.
def unbind (t : FilterTable) (k : Kind) : Option UInt8 × FilterTable :=
  (t.filter? k, { t with bindings := t.bindings.erase k })

def synthetic? (t : FilterTable) (name : String) : Option Kind :=
  t.synthetic[name]?

def tagAfter (tag : UInt8) : Option UInt8 :=
  if tag = 0xFF then none else some (tag + 1)

-- The kind of that name, which is a new one if the name is new. There is none for a new name once
-- the tags are used up.
def allocate (t : FilterTable) (name : String) : Option Kind × FilterTable :=
  match t.synthetic? name, t.nextTag with
  | some k, _        => (some k, t)
  | none,   none     => (none, t)
  | none,   some tag =>
    (some ⟨tag⟩, { t with synthetic := t.synthetic.insert name ⟨tag⟩, nextTag := tagAfter tag })

-- The bound kinds with their filters, in the order of their tags.
def toList (t : FilterTable) : List (Kind × UInt8) :=
  t.bindings.toList

section Binding

variable {t : FilterTable}

theorem filter?_bind : (t.bind k f).2.filter? k' = if k = k' then some f else t.filter? k' := by
  simp [bind, filter?, Std.ExtTreeMap.getElem?_insert]

theorem filter?_unbind : (t.unbind k).2.filter? k' = if k = k' then none else t.filter? k' := by
  simp [unbind, filter?, Std.ExtTreeMap.getElem?_erase]

theorem allocate_preserves_bindings : (t.allocate name).2.bindings = t.bindings := by
  unfold allocate
  split <;> rfl

theorem allocate_preserves_filter? : (t.allocate name).2.filter? k = t.filter? k := by
  rw [filter?, allocate_preserves_bindings, filter?]

end Binding

section Allocation

variable {t : FilterTable}

theorem allocate_of_synthetic (h : t.synthetic? name = some k) : t.allocate name = (some k, t) := by
  simp [allocate, h]

theorem allocate_of_exhausted (h₁ : t.synthetic? name = none) (h₂ : t.nextTag = none) :
    t.allocate name = (none, t) := by
  simp [allocate, h₁, h₂]

-- A name that is denied a kind leaves no mark.
theorem allocate_of_fst_eq_none (h : (t.allocate name).1 = none) : (t.allocate name).2 = t := by
  unfold allocate at *
  split at * <;> simp_all

theorem allocate_of_fresh (h₁ : t.synthetic? name = none) (h₂ : t.nextTag = some tag) :
    t.allocate name = (
      some ⟨tag⟩,
      { t with synthetic := t.synthetic.insert name ⟨tag⟩, nextTag := tagAfter tag }
    ) := by
  simp [allocate, h₁, h₂]

-- What is handed out stays on record.
theorem synthetic?_allocate : (t.allocate name).2.synthetic? name = (t.allocate name).1 := by
  unfold allocate
  split
  case h_1 h => exact h
  case h_2 h _ => exact h
  case h_3 => simp [synthetic?]

end Allocation

end FilterTable

end SensorBoard.Processor
