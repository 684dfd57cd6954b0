import SensorBoard.Proofs.Creation.Provenance
import SensorBoard.Proofs.Session.Sequences
import SensorBoard.Link.Metered

namespace SensorBoard.Board

-- The processor is on file. There may be others that look like it.
structure Live (b : Board L κ) (s : Signal) : Prop where
  isProcessor : s.isProcessor
  filed       : b.lookup? s.header = some s

-- The board has made the signal, but does not have it on file.
structure Retired (b : Board L κ) (s : Signal) : Prop where
  issued    : b.Issued s.id
  not_filed : b.lookup? h ≠ some s

section Retired

variable {b b' : Board L κ} {es : List (Event ε κ)}

theorem Retired.not_live (r : Retired b s) : ¬Live b s :=
  fun l => r.not_filed l.filed

theorem Coherent.retired_forget (c : Coherent b) (hi : b.Issued s.id) :
    Retired (b.forget s.header) s where
  issued := hi
  not_filed hs := by
    rw [lookup?_forget] at hs
    split at hs
    case isTrue     => contradiction
    case isFalse hh => exact hh (c.filed hs)

-- Everything that is new on file has an identity of its own.
theorem Step.preserves_retired (e : Step b a es b') (r : Retired b s) : Retired b' s where
  issued := e.mints.issued r.issued
  not_filed hs := by
    cases e.mints.filed hs
    case inl hs => exact r.not_filed hs
    case inr hn => exact b.not_issued_nextId (hn.left ▸ r.issued)

theorem Retired.play [Link L ε] (r : Retired b s) (as : List (Action L κ)) :
    Retired (b.play as).board s :=
  play_induction (motive := fun _ _ b => Retired b s)
    (fun _ _ _ _ _ _ _ r e => e.preserves_retired r) r

end Retired

section Removal

variable [Link L ε] {b : Board L κ}

theorem removeProcessor_of_not_live (h : ¬Live b s) :
    b.removeProcessor s = ⟨.error (.notAProcessor s.header), [], b⟩ := by
  cases hi : s.processorId?
  case none    => rw [removeProcessor, hi]
  case some id =>
    have hs : b.lookup? s.header ≠ some s :=
      fun hs => h ⟨Signal.isProcessor_of_processorId? hi, hs⟩
    simp only [removeProcessor, hi, if_neg hs]

theorem Live.exists_output (l : Live b s) (c : Coherent b) :
    ∃ id, s.header = Processor.output id ∧ s.processorId? = some id := by
  have ⟨id, hh, hi, _⟩ := c.lookupProcessor?_of_isProcessor l.filed l.isProcessor
  exact ⟨id, hh, hi⟩

-- There is but one command, and nothing is forgotten unless the link accepts it.
theorem Live.removeProcessor_eq {id : UInt8} (l : Live b s) (hi : s.processorId? = some id) :
    let bytes := (Command.removeProcessor id).bytes
    let d := Link.write b.link bytes
    let o := b.removeProcessor s
    writes o.events = d.answers.map (bytes, ·) ∧ o.result = d.verdict.mapError .link ∧
    o.board =
      if d.verdict.isOk then (b.withLink d.link).forget s.header else b.withLink d.link := by
  intro bytes d o
  have ho : o = _ := removeProcessor_of_some hi l.filed
  rw [ho]
  refine ⟨writes_send_andThen ?silent, ?rest⟩
  case silent => rintro (_ | _) _ <;> rfl
  case rest =>
    have hd : Link.write b.link (Command.removeProcessor id).bytes = d := rfl
    rw [send_eq, hd]
    cases d.verdict <;> exact ⟨rfl, rfl⟩

-- Exactly the processors that are on file can be removed. Anything else is turned down without a
-- command, and changes nothing. There is a single command with the id of the processor. If the link
-- refuses it, the tables stay as they are. If the link accepts it, then the signal, the route and
-- the subscriber of this very header go, and nothing but them. From then on, the processor is
-- turned down, even if the firmware gives its id to another one.
theorem removeProcessor_takes_live_processors
    (link : L) (name : Nat) (filters : Processor.FilterTable) (as : List (Action L κ))
    (s : Signal) :
    let b := ((withFilters link name filters : Board L κ).play as).board
    let o := b.removeProcessor s
    let turnedDown (b : Board L κ) : Outcome L ε κ (Except (BoardError ε) Unit) :=
      ⟨.error (.notAProcessor s.header), [], b⟩
    (writes o.events ≠ [] ↔ Live b s) ∧
    (¬Live b s → o = turnedDown b) ∧
    (Live b s → ∃ id, s.header = Processor.output id ∧ s.processorId? = some id ∧
      let bytes := [0x09, 0x06, id]
      let d := Link.write b.link bytes
      writes o.events = d.answers.map (bytes, ·) ∧ o.result = d.verdict.mapError .link ∧
      (∀ fault, d.verdict = .error fault → o.board = b.withLink d.link) ∧
      (d.verdict = .ok () →
        (∀ h,
          o.board.lookup? h = (if s.header = h then none else b.lookup? h) ∧
          o.board.route? h = (if s.header = h then none else b.route? h) ∧
          o.board.subscriber? h = if s.header = h then none else b.subscriber? h) ∧
        (∃ signals routes subscribers,
          o.board = { b with link := d.link, signals, routes, subscribers } ∧
          routes.unhandled = b.routes.unhandled) ∧
        ∀ as', let b' := (o.board.play as').board
          b'.removeProcessor s = turnedDown b')) := by
  intro b o turnedDown
  have c : Coherent b := (withFilters_coherent link name filters).play as |>.left
  have p := play_provenance link name filters as
  have hn (h : ¬Live b s) : o = turnedDown b := removeProcessor_of_not_live h
  refine ⟨⟨?live, ?attempted⟩, hn, ?removal⟩
  case live => exact fun hw => Classical.byContradiction fun h => hw <| by rw [hn h]; rfl
  case attempted =>
    intro l
    obtain ⟨_, _, hi⟩ := l.exists_output c
    rw [(l.removeProcessor_eq hi).left]
    simp [Delivery.answers]
  case removal =>
    intro l
    obtain ⟨id, hh, hi⟩ := l.exists_output c
    obtain ⟨hw, hr, hb⟩ := l.removeProcessor_eq hi
    refine ⟨id, hh, hi, ?_⟩
    intro bytes d
    have hb : o.board =
      if d.verdict.isOk then (b.withLink d.link).forget s.header else b.withLink d.link := hb
    refine ⟨hw, hr, fun fault hv => ?refused, fun hv => ?accepted⟩ <;> rw [hv] at hb
    case refused => exact hb
    case accepted =>
      have r : Retired o.board s := hb ▸ (c.withLink d.link).retired_forget (p.issued_filed l.filed)
      refine ⟨fun h => ?views, ⟨_, _, _, hb, rfl⟩, fun as' => ?gone⟩
      case views =>
        rw [hb]
        exact ⟨lookup?_forget, route?_forget, subscriber?_forget⟩
      case gone => exact removeProcessor_of_not_live (r.play as').not_live

end Removal

-- The firmware gives the id of a processor to the next one, too.
def reassignedId : List (Action MeteredLink String) :=
  let source := .device ⟨.caller, 0⟩ BuiltIn.switchState.header .statusByte
  let create (k : String) : List (Action MeteredLink String) := [
    .perform <| .createProcessor source ⟨⟨9⟩, .empty, .statusByte, none⟩ k,
    .perform <| .receive [Module.processor, Register.addProcessor, 4]
  ]
  create "first" ++ create "second"

theorem removeProcessor_takes_live_processors_of_reassignedId :
    let b := ((withFilters {} 0 .stock : Board MeteredLink String).play reassignedId).board
    let source := .device ⟨.caller, 0⟩ BuiltIn.switchState.header .statusByte
    let first := .processor ⟨.board 0, 0⟩ (Processor.output 4) .statusByte ⟨9⟩ .empty source
    let second := .processor ⟨.board 0, 1⟩ (Processor.output 4) .statusByte ⟨9⟩ .empty source
    let o := b.removeProcessor second
    ¬Live b first ∧ Live b second ∧
    b.removeProcessor first = ⟨.error (.notAProcessor (Processor.output 4)), [], b⟩ ∧
    writes o.events = [([0x09, 0x06, 4], .accepted)] ∧
    o.board.lookup? (Processor.output 4) = none ∧
    ((o.board.play reassignedId).board.removeProcessor second).result =
      .error (.notAProcessor (Processor.output 4)) := by
  intro b source first second o
  have hf : ¬Live b first := fun l => absurd l.filed (by decide +kernel)
  have hs : Live b second := ⟨rfl, by decide +kernel⟩
  have turns := removeProcessor_takes_live_processors ({} : MeteredLink) 0 .stock reassignedId
  obtain ⟨_, hn, _⟩ := turns first
  obtain ⟨_, _, hr⟩ := turns second
  obtain ⟨id, hh, _, hw, _, _, ha⟩ := hr hs
  obtain rfl : 4 = id := by simpa [second, Signal.header, Processor.output] using hh
  have hd : Link.write b.link [0x09, 0x06, 4] = ⟨0, .ok (), {}⟩ :=
    Link.write_of_accepted (by decide +kernel)
  obtain ⟨hv, _, hg⟩ := ha <| congrArg (·.verdict) hd
  rw [hd] at hw
  refine ⟨hf, hs, hn hf, hw, (hv _).left.trans <| if_pos rfl, ?_⟩
  exact congrArg (·.result) (hg reassignedId)

end SensorBoard.Board
