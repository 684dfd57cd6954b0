import Std.Data.ExtTreeMap

namespace SensorBoard.Processor

@[ext]
structure Kind where
  tag : UInt8
deriving DecidableEq

namespace Kind

-- The kinds that stock firmware knows, in the firmware's own numbering, with the filter that
-- implements each. Kinds may share a filter.
def stock : List (Kind × UInt8 × String) := [
  (⟨0⟩,  0x02, "accumulator"),
  (⟨1⟩,  0x03, "average"),
  (⟨2⟩,  0x0F, "buffer"),
  (⟨3⟩,  0x07, "combiner"),
  (⟨4⟩,  0x06, "comparator"),
  (⟨5⟩,  0x02, "counter"),
  (⟨6⟩,  0x0C, "delta"),
  (⟨7⟩,  0x09, "math"),
  (⟨8⟩,  0x06, "multi-comparator"),
  (⟨9⟩,  0x01, "passthrough"),
  (⟨10⟩, 0x0B, "pulse"),
  (⟨11⟩, 0x0A, "sample"),
  (⟨12⟩, 0x0D, "threshold"),
  (⟨13⟩, 0x08, "time"),
  (⟨14⟩, 0x03, "high-pass"),
  (⟨15⟩, 0x10, "packer"),
  (⟨16⟩, 0x11, "accounter"),
  (⟨17⟩, 0x1B, "fuser")
]

-- The last kind of the stock numbering. Everything above is synthetic: a kind of the host's own.
def lastStock : Kind :=
  ⟨17⟩

def isSynthetic (k : Kind) : Bool :=
  lastStock.tag < k.tag

def name? (k : Kind) : Option String :=
  stock.find? (·.1 = k) |>.map (·.2.2)

def text (k : Kind) : String :=
  k.name?.getD ("synthetic(" ++ toString k.tag.toNat ++ ")")

theorem not_isSynthetic_of_mem_stock : ∀ e ∈ stock, e.1.isSynthetic = false := by
  decide

section Order

instance : Ord Kind where
  compare := compareOn tag

instance : Std.TransOrd Kind :=
  inferInstanceAs <| Std.TransCmp <| compareOn tag

instance : Std.LawfulEqOrd Kind where
  eq_of_compare {k₁ k₂} h := Kind.ext <| by
    change compareOn tag k₁ k₂ = .eq at h
    simpa [compareOn] using h

end Order

end Kind

end SensorBoard.Processor
