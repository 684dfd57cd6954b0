namespace SensorBoard

-- The ids of the commands in the order in which they were recorded.
@[ext]
structure Ledger where
  ids : List UInt8 := []
deriving DecidableEq

namespace Ledger

def empty : Ledger :=
  {}

-- Tells whether the id is new. An id that is on record already is not recorded again.
def record (l : Ledger) (id : UInt8) : Bool × Ledger :=
  if id ∈ l.ids then (false, l) else (true, { ids := l.ids ++ [id] })

def ofList (ids : List UInt8) : Ledger :=
  ids.foldl (fun l id => (l.record id).2) empty

def isEmpty (l : Ledger) : Bool :=
  l.ids.isEmpty

variable {l : Ledger} {id id' : UInt8} {ids : List UInt8}

theorem record_fst : (l.record id).1 = true ↔ id ∉ l.ids := by
  unfold record
  split <;> simp_all

theorem record_of_not_mem (h : id ∉ l.ids) : l.record id = (true, { ids := l.ids ++ [id] }) :=
  if_neg h

theorem record_nodup (h : l.ids.Nodup) : (l.record id).2.ids.Nodup := by
  unfold record
  split
  case isTrue => exact h
  case isFalse hm => grind

theorem mem_record_iff : id' ∈ (l.record id).2.ids ↔ id' ∈ l.ids ∨ id' = id := by
  unfold record
  split
  case isTrue h =>
    refine ⟨.inl, ?_⟩
    rintro (h' | rfl) <;> assumption
  case isFalse => simp

theorem foldl_record_of_nodup (h : (l.ids ++ ids).Nodup) :
    ids.foldl (fun l id => (l.record id).2) l = { ids := l.ids ++ ids } := by
  induction ids generalizing l
  case nil => simp
  case cons id ids hi =>
    have hm : id ∉ l.ids := by grind
    rw [List.foldl_cons, record_of_not_mem hm, hi (by simpa using h)]
    simp

theorem ofList_of_nodup (h : ids.Nodup) : ofList ids = { ids } := by
  rw [ofList, foldl_record_of_nodup] <;> simp [empty, h]

end Ledger

end SensorBoard
