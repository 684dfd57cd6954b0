import SensorBoard.Link.Basic

namespace SensorBoard

@[ext]
structure LinkFault where
  code : UInt8
deriving DecidableEq

def LinkFault.text (fault : LinkFault) : String :=
  "LinkFault(" ++ toString fault.code.toNat ++ ")"

@[ext]
structure MeteredLink where
  -- Attempts for which the link is still busy.
  busy : Nat := 0
  -- Commands that the link still accepts. Without a quota it accepts all.
  quota : Option Nat := none
  -- The fault with which the link refuses commands beyond its quota.
  fault : LinkFault := ⟨0⟩
deriving DecidableEq

namespace MeteredLink

def attempt (l : MeteredLink) : Attempt LinkFault × MeteredLink :=
  match l.busy, l.quota with
  | n + 1, _          => (.busy, { l with busy := n })
  | 0,     none       => (.accepted, l)
  | 0,     some 0     => (.refused l.fault, l)
  | 0,     some (n+1) => (.accepted, { l with quota := some n })

theorem busy_lt_of_attempt {l l' : MeteredLink} (h : l.attempt = (.busy, l')) :
    l'.busy < l.busy := by
  unfold attempt at h
  split at h <;> cases h
  case h_1 h => exact h ▸ Nat.lt_succ_self _

instance : Link MeteredLink LinkFault where
  attempt l _ := l.attempt
  patience l _ := l.busy
  patience_lt := busy_lt_of_attempt

end MeteredLink

end SensorBoard
