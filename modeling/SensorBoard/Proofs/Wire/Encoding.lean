import SensorBoard.Wire.Command

namespace SensorBoard

namespace Header

-- The header that the board makes of a wire form, where channel `0xFF` is as good as none.
def understood (h : Header) : Header :=
  { h with channel := h.channel.filter (· ≠ Wire.noChannel) }

-- One of the headers has channel `0xFF` where the other has none.
def Synonym (h₁ h₂ : Header) : Prop :=
  h₁.module = h₂.module ∧ h₁.register = h₂.register ∧
    (h₁.channel = none ∧ h₂.channel = some 0xFF ∨ h₁.channel = some 0xFF ∧ h₂.channel = none)

theorem understood_eq_iff {h₁ h₂ : Header} :
    h₁.understood = h₂.understood ↔ h₁ = h₂ ∨ h₁.Synonym h₂ := by
  rcases h₁ with ⟨m₁, r₁, _ | c₁⟩ <;> rcases h₂ with ⟨m₂, r₂, _ | c₂⟩ <;>
    simp [understood, Synonym, Option.filter_some]
  case some.some => grind

theorem wire_understood (h : Header) : h.understood.wire = h.wire := by
  rcases h with ⟨m, r, _ | i⟩
  case none => rfl
  case some =>
    by_cases hi : i = Wire.noChannel <;> simp [understood, wire, Option.filter_some, hi]

end Header

namespace Processor.Config

-- Bytes that are few enough are taken over as they are.
theorem ofBytes_cases (bs : List UInt8) :
    bs.length ≤ 14 ∧ (∃ config, ofBytes bs = .ok config ∧ config.bytes = bs) ∨
      14 < bs.length ∧ ∃ e, ofBytes bs = .error e := by
  by_cases h : bs.length ≤ maxLength
  case pos => exact .inl ⟨h, _, ofBytes_of_le h, rfl⟩
  case neg =>
    have h := Nat.not_le.mp h
    exact .inr ⟨h, _, ofBytes_of_lt h⟩

end Processor.Config

namespace Command

-- Reads go to any module and register. So they may look like another command.
def isRead : Command → Bool
  | read _ => true
  | _      => false

-- The requests are for the same processor, but they spell its source differently.
def SameCreation : Command → Command → Prop
  | createProcessor source₁ filter₁ config₁, createProcessor source₂ filter₂ config₂ =>
    source₁.Synonym source₂ ∧ filter₁ = filter₂ ∧ config₁ = config₂
  | _, _ => False

-- The command that the board makes of the bytes of this one.
def understood : Command → Command
  | createProcessor source filter config => createProcessor source.understood filter config
  | c                                    => c

theorem understood_eq_iff {c₁ c₂ : Command} :
    c₁.understood = c₂.understood ↔ c₁ = c₂ ∨ c₁.SameCreation c₂ := by
  cases c₁ with
  | createProcessor =>
    cases c₂ with
    | createProcessor => simp [understood, SameCreation, Header.understood_eq_iff, or_and_right]
    | _               => simp [understood, SameCreation]
  | _ => cases c₂ <;> simp [understood, SameCreation]

-- Takes the bytes for a command that is not a read. The first two bytes tell which one it is.
def ofBytes? : List UInt8 → Option Command
  | [module, opcode] =>
    if module = Module.settings ∧ opcode = Register.stopAdvertising then
      some stopAdvertising
    else if module = Module.processor ∧ opcode = Register.removeAllProcessors then
      some removeAllProcessors
    else if module = Module.event ∧ opcode = Register.removeAllEventCommands then
      some removeAllEventCommands
    else
      none
  | [module, opcode, id] =>
    if module = Module.processor ∧ opcode = Register.removeProcessor then
      some (removeProcessor id)
    else if module = Module.event ∧ opcode = Register.removeEventCommand then
      some (removeEventCommand id)
    else
      none
  | module :: opcode :: m :: r :: channel :: filter :: config =>
    if h : module = Module.processor ∧ opcode = Register.addProcessor ∧
        config.length ≤ Processor.Config.maxLength then
      let source : Header := { module := m, register := r, channel := some channel }
      some (createProcessor source.understood filter ⟨config, h.right.right⟩)
    else
      none
  | _ => none

theorem ofBytes?_bytes {c : Command} (h : c.isRead = false) :
    ofBytes? c.bytes = some c.understood := by
  cases c with
  | read => contradiction
  | createProcessor source _ config =>
    rcases source with ⟨m, r, _ | i⟩ <;>
      simp [ofBytes?, bytes, understood, Header.wire, Header.understood, config.length_le]
  | _ => rfl

theorem bytes_understood (c : Command) : c.understood.bytes = c.bytes := by
  cases c with
  | createProcessor source => simp [understood, bytes, source.wire_understood]
  | _                      => rfl

theorem encode_eq_iff_bytes {c₁ c₂ : Command} : c₁.encode = c₂.encode ↔ c₁.bytes = c₂.bytes := by
  simp

theorem encode_eq_iff {c₁ c₂ : Command} (h₁ : c₁.isRead = false) (h₂ : c₂.isRead = false) :
    c₁.encode = c₂.encode ↔ c₁ = c₂ ∨ c₁.SameCreation c₂ := by
  rw [encode_eq_iff_bytes, ← understood_eq_iff]
  constructor
  case mp =>
    intro h
    exact Option.some.inj <| (ofBytes?_bytes h₁).symm.trans <| h ▸ ofBytes?_bytes h₂
  case mpr =>
    intro h
    exact c₁.bytes_understood.symm.trans <| h ▸ c₂.bytes_understood

theorem encode_read_inj {h₁ h₂ : Header} : (read h₁).encode = (read h₂).encode ↔ h₁ = h₂ := by
  rcases h₁ with ⟨m₁, r₁, _ | i₁⟩ <;> rcases h₂ with ⟨m₂, r₂, _ | i₂⟩ <;> simp [bytes]

-- A read has three bytes at most, and a request to create a processor has at least six.
theorem encode_read_ne {config : Processor.Config} :
    (read h).encode ≠ (createProcessor source filter config).encode := by
  rw [ne_eq, encode_eq_iff_bytes]
  intro hb
  have hr : (read h).bytes.length ≤ 3 := by
    cases hc : h.channel <;> simp [bytes, hc]
  have hc : 6 ≤ (createProcessor source filter config).bytes.length := by
    simp [bytes, Header.wire_length]
    omega
  rw [hb] at hr
  omega

theorem two_le_length_bytes (c : Command) : 2 ≤ c.bytes.length := by
  cases c <;> simp [bytes]

-- Configurations have up to `14` bytes, whichever they are. Then every command has an encoding, of
-- up to `20` bytes, that starts with the module to which it is addressed. From the encoding of a
-- command that is not a read it can be told which command it is, except that channel `0xFF` of a
-- source cannot be told from no channel. From the encoding of a read it can be told what is read. A
-- read is never taken for a request to create a processor.
theorem encode_unambiguous :
    (∀ bs : List UInt8,
      bs.length ≤ 14 ∧ (∃ config, Processor.Config.ofBytes bs = .ok config ∧ config.bytes = bs) ∨
      14 < bs.length ∧ ∃ e, Processor.Config.ofBytes bs = .error e) ∧
    (∀ c : Command, ∃ bs,
      c.encode = .ok bs ∧ 2 ≤ bs.length ∧ bs.length ≤ 20 ∧ bs.head? = some c.module) ∧
    (∀ c₁ c₂ : Command, c₁.isRead = false → c₂.isRead = false →
      (c₁.encode = c₂.encode ↔ c₁ = c₂ ∨ c₁.SameCreation c₂)) ∧
    (∀ h₁ h₂, (read h₁).encode = (read h₂).encode ↔ h₁ = h₂) ∧
    ∀ h source filter config, (read h).encode ≠ (createProcessor source filter config).encode := by
  refine ⟨Processor.Config.ofBytes_cases, fun c => ?bounded, fun _ _ => encode_eq_iff,
    fun _ _ => encode_read_inj, fun _ _ _ _ => encode_read_ne⟩
  case bounded =>
    exact ⟨c.bytes, c.encode_eq, c.two_le_length_bytes, c.bytes_length_le, c.head?_bytes⟩

-- Two spellings of a request with the longest configuration that there is. With another channel it
-- is another request.
theorem encode_unambiguous_of_longestCreation :
    let source : Header := { module := Module.switch, register := Register.switchState }
    let request (source : Header) := createProcessor source 1 { bytes := List.replicate 14 7 }
    let c₁ := request source
    let c₂ := request (source.subChannel 0xFF)
    let c₃ := request (source.subChannel 0)
    c₁.isRead = false ∧ c₂.isRead = false ∧ c₃.isRead = false ∧ c₁.bytes.length = 20 ∧ c₁ ≠ c₂ ∧
    c₁.encode = c₂.encode ∧ c₁.encode ≠ c₃.encode := by
  intro source request c₁ c₂ c₃
  have ⟨_, _, he, _⟩ := encode_unambiguous
  refine ⟨rfl, rfl, rfl, rfl, by decide,
    (he c₁ c₂ rfl rfl).mpr ?same, mt (he c₁ c₃ rfl rfl).mp ?other⟩
  case same  => exact .inr ⟨⟨rfl, rfl, .inl ⟨rfl, rfl⟩⟩, rfl, rfl⟩
  case other =>
    rintro (h | ⟨⟨_, _, h⟩, _⟩)
    · exact absurd h (by decide)
    · exact absurd h (by decide)

end Command

end SensorBoard
