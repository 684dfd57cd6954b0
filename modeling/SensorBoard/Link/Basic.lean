namespace SensorBoard

-- What a link makes of one attempt to write a command.
inductive Attempt (ε : Type) where
  -- The link cannot take the command yet.
  | busy
  -- The link took the command, which does not mean that the board acted on it.
  | accepted
  | refused (fault : ε)
deriving DecidableEq

class Link (L : Type) (ε : outParam Type) where
  attempt : L → List UInt8 → Attempt ε × L
  -- How often the link can still be busy for these bytes. So every command gets its verdict.
  patience : L → List UInt8 → Nat
  patience_lt : attempt l bytes = (.busy, l') → patience l' bytes < patience l bytes

-- How a command fared that was attempted until the link was no longer busy.
structure Delivery (L ε : Type) where
  busy : Nat
  verdict : Except ε Unit
  link : L

namespace Link

variable [Link L ε] {l l' : L} {bytes : List UInt8}

def write (l : L) (bytes : List UInt8) : Delivery L ε :=
  match _h : attempt l bytes with
  | (.busy,          l') => let d := write l' bytes; { d with busy := d.busy + 1 }
  | (.accepted,      l') => ⟨0, .ok (), l'⟩
  | (.refused fault, l') => ⟨0, .error fault, l'⟩
termination_by patience l bytes
decreasing_by exact patience_lt _h

theorem write_of_busy (h : attempt l bytes = (.busy, l')) :
    write l bytes = { write l' bytes with busy := (write l' bytes).busy + 1 } := by
  rw [write]
  split <;> simp_all

theorem write_of_accepted (h : attempt l bytes = (.accepted, l')) :
    write l bytes = ⟨0, .ok (), l'⟩ := by
  rw [write]
  split <;> simp_all

theorem write_of_refused (h : attempt l bytes = (.refused fault, l')) :
    write l bytes = ⟨0, .error fault, l'⟩ := by
  rw [write]
  split <;> simp_all

end Link

namespace Delivery

-- The answer that ended the delivery.
def answer (d : Delivery L ε) : Attempt ε :=
  match d.verdict with
  | .ok ()        => .accepted
  | .error fault  => .refused fault

-- All answers, in order.
def answers (d : Delivery L ε) : List (Attempt ε) :=
  .replicate d.busy .busy ++ [d.answer]

end Delivery

end SensorBoard
