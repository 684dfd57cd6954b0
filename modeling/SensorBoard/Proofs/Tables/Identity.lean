import SensorBoard.Proofs.Creation.Queue

namespace SensorBoard.Board

section Effect

variable {b : Board L κ}

theorem singletonSignal_result (hs : b.lookup? h = some s) (format : Sample.Format) :
    (b.singletonSignal h format : Outcome L ε κ Signal).result = s := by
  rw [singletonSignal, ensureSignal_of_some hs]

theorem idSignal_result (hs : b.lookup? (t.header.subChannel i) = some s) :
    (b.idSignal t i : Outcome L ε κ Signal).result = s := by
  rw [idSignal, ensureSignal_of_some hs]

theorem lookup?_confirm (hp : b.pending = p :: ps) :
    (b.confirm (i :: payload) : Outcome L ε κ Unit).board.lookup? (Processor.output i) =
      some (b.confirmed p i) := by
  rw [confirm_of_cons_cons hp]
  exact lookup?_install.trans <| if_pos rfl

end Effect

section Distinct

variable {b b' : Board L κ} {es : List (Event ε κ)}

-- The identities of signals suffice to tell those on file apart.
def Distinct (b : Board L κ) : Prop :=
  ∀ h h' s s', b.lookup? h = some s → b.lookup? h' = some s' → s.id = s'.id → h = h'

-- There is one header at most at which something new is put on file.
theorem Step.exists_filed (e : Step b a es b') :
    ∃ h, ∀ h' s, h' ≠ h → b'.lookup? h' = some s → b.lookup? h' = some s := by
  cases e with
  | aside | refused | requested | singletonFound | channelFound | subscribed | unsubscribed
  | rerouted | dropped | handled | sampled | unexpected | malformed | aborted =>
    exact ⟨Processor.confirmation, fun _ _ _ => id⟩
  | singletonMade | channelMade =>
    exact ⟨_, fun _ _ hh hl => (if_neg hh.symm).symm.trans <| lookup?_file_register.symm.trans hl⟩
  | created =>
    exact ⟨_, fun _ _ hh hl => (if_neg hh.symm).symm.trans <| lookup?_install.symm.trans hl⟩
  | @removed s =>
    refine ⟨s.header, fun _ _ hh hl => ?_⟩
    exact (if_neg hh.symm).symm.trans <| lookup?_forget.symm.trans hl
  | tornDown =>
    refine ⟨Processor.confirmation, fun _ _ _ hl => ?_⟩
    exact (Option.filter_eq_some_iff.mp <| lookup?_cleared.symm.trans hl).left

-- What is new has an identity that nothing on file has, and it is at one header only.
theorem Distinct.step (d : Distinct b) (p : Provenance es₀ b) (e : Step b a es b') : Distinct b' := by
  intro h h' s s' hs hs' hi
  have ⟨h₀, hf⟩ := e.exists_filed
  have old {h s} (hs : b'.lookup? h = some s) (hi : b.Issued s.id) : b.lookup? h = some s :=
    (e.mints.filed hs).resolve_right fun hn => b.not_issued_nextId (hn.left ▸ hi)
  have new {h s} (hs : b'.lookup? h = some s) (hi : ¬b.Issued s.id) : h = h₀ :=
    Classical.byContradiction fun hh => hi <| p.issued_filed (hf h s hh hs)
  by_cases his : b.Issued s.id
  case pos => exact d h h' s s' (old hs his) (old hs' <| hi ▸ his) hi
  case neg => exact (new hs his).trans (new hs' <| hi ▸ his).symm

end Distinct

variable [Link L ε] {b : Board L κ}

theorem play_distinct
    (link : L) (name : Nat) (filters : Processor.FilterTable) (as : List (Action L κ)) :
    let o := (withFilters link name filters : Board L κ).play as
    Distinct o.board ∧ Provenance o.events o.board := by
  apply play_induction (motive := fun _ es b => Distinct b ∧ Provenance es b)
  case start =>
    refine ⟨fun h _ s _ hs => ?_, play_provenance link name filters []⟩
    cases (lookup?_withFilters link name filters h).symm.trans hs
  case step =>
    intro _ _ _ _ _ _ _ ⟨d, p⟩ e
    exact ⟨d.step p e, p.extend e.mints⟩

-- What makes a signal lose its place: that it is removed, that everything is torn down, or that the
-- firmware confirms a processor under the same header.
inductive Displaces (b : Board L κ) (s : Signal) : Action L κ → Prop
  | removal (hr : (b.removeProcessor s).result = .ok ()) :
    Displaces b s (.perform (.removeProcessor s))
  | tearDown (hp : s.isProcessor) :
    Displaces b s (.perform .tearDown)
  | confirmation (hh : s.header = Processor.output i)
      (hr : b.route? Processor.confirmation = some .processorCreated) (hp : b.pending ≠ []) :
    Displaces b s (.perform (.receive (Module.processor :: Register.addProcessor :: i :: payload)))

-- The packet that confirms a processor is the one that looks like it.
theorem Coherent.eq_of_confirms (c : Coherent b) (hm : b.routes.match? packet = some route)
    (hh : b.route? route.header = some .processorCreated)
    (hl : route.payload packet = i :: payload) :
    b.route? Processor.confirmation = some .processorCreated ∧
      packet = Module.processor :: Register.addProcessor :: i :: payload := by
  have hr := c.confirmation hh
  rw [hr] at hh
  have hp := RouteTable.isConfirmation_of_match? hm hr
  rw [RouteTable.match?_of_isConfirmation (contains_confirmation hh) hp] at hm
  cases hm
  have ⟨rest, hp⟩ := List.isPrefixOf_iff_prefix.mp hp
  subst hp
  exact ⟨hh, congrArg (Module.processor :: Register.addProcessor :: ·) hl⟩

theorem Step.lookup?_cases {b' : Board L κ} {es : List (Event ε κ)} (e : Step b a es b')
    (c : Coherent b) (hs : b.lookup? h = some s) :
    b'.lookup? h = some s ∨ a = .perform (.removeProcessor s) ∨ Displaces b s a := by
  cases e with
  | aside | refused | requested | singletonFound | channelFound | subscribed | unsubscribed
  | rerouted | dropped | handled | sampled | unexpected | malformed | aborted => exact .inl hs
  | singletonMade _ hn | channelMade _ hn =>
    refine .inl <| lookup?_file_register.trans <| (if_neg ?_).trans hs
    rintro rfl
    cases hn.symm.trans hs
  | @created _ _ i _ p ps hm hh hl hp =>
    by_cases ho : Processor.output i = h
    case neg => exact .inl <| lookup?_install.trans <| (if_neg ho).trans hs
    case pos =>
      obtain ⟨hr, rfl⟩ := c.eq_of_confirms hm hh hl
      exact .inr <| .inr <| .confirmation ((c.filed hs).trans ho.symm) hr (by simp [hp])
  | @removed t _ _ _ ht =>
    by_cases hh : t.header = h
    case neg => exact .inl <| lookup?_forget.trans <| (if_neg hh).trans hs
    case pos =>
      subst hh
      cases ht.symm.trans hs
      exact .inr <| .inl rfl
  | tornDown link =>
    have hl : (b.cleared.withLink link).lookup? h = _ := lookup?_cleared
    cases hp : s.isProcessor
    case false => exact .inl <| hl.trans <| by simp [hs, hp]
    case true  => exact .inr <| .inr <| .tearDown hp

section Displaces

variable {a : Action L κ}

theorem Displaces.exists_output (d : Displaces b s a) (c : Coherent b)
    (hs : b.lookup? h = some s) : ∃ i, h = Processor.output i := by
  cases d with
  | tearDown hp     => exact c.output hs hp
  | confirmation hh => exact ⟨_, (c.filed hs).symm.trans hh⟩
  | removal hr =>
    obtain ⟨_, _, _, ho, _⟩ | ⟨_, _, _, hi, _⟩ := b.removeProcessor_cases s
    case inl => cases ho ▸ hr
    case inr => exact c.output hs <| Signal.isProcessor_of_processorId? hi

-- What the firmware puts in the place of a signal is new, so it is never the signal itself.
theorem Displaces.lookup?_act_ne (d : Displaces b s a) (c : Coherent b)
    (hi : b.Issued s.id) (hs : b.lookup? h = some s) : (b.act a).board.lookup? h ≠ some s := by
  intro hl
  cases d with
  | removal hr =>
    have hl : (b.removeProcessor s).board.lookup? h = some s := hl
    obtain ⟨_, _, _, ho, _⟩ | ⟨_, _, _, _, _, ho, _⟩ := b.removeProcessor_cases s <;> rw [ho] at hr hl
    case inl => cases hr
    case inr => cases (lookup?_forget.trans <| if_pos (c.filed hs)).symm.trans hl
  | tearDown hp =>
    have ⟨link, hb⟩ := (b.act_step (.perform .tearDown)).of_tearDown
    have hc : (b.cleared.withLink link).lookup? h = _ := lookup?_cleared
    rw [hb, hc, hs] at hl
    simp [hp] at hl
  | @confirmation i payload hh hr hp =>
    have ⟨p, ps, hp⟩ := List.exists_cons_of_ne_nil hp
    have hl : (b.receive (Module.processor :: Register.addProcessor :: i :: payload) :
      Outcome L ε κ Unit).board.lookup? h = some s := hl
    rw [receive_confirmation hr, (c.filed hs).symm.trans hh, lookup?_confirm hp] at hl
    cases hl
    exact b.not_issued_nextId hi

theorem Coherent.lookup?_act (c : Coherent b) (hs : b.lookup? h = some s)
    (hd : ¬Displaces b s a) : (b.act a).board.lookup? h = some s := by
  obtain hl | rfl | hd' := (b.act_step a).lookup?_cases c hs
  case inl     => exact hl
  case inr.inr => contradiction
  case inr.inl =>
    have hb : (b.act (.perform (.removeProcessor s))).board = (b.removeProcessor s).board := rfl
    obtain ⟨_, _, _, ho, _⟩ | ⟨_, _, _, _, _, ho, _⟩ := b.removeProcessor_cases s <;> rw [hb, ho]
    case inl => exact hs
    case inr => exact absurd (.removal <| by rw [ho]) hd

end Displaces

-- Where no processor can be, nothing is ever displaced.
theorem Coherent.play_lookup? (c : Coherent b) (hs : b.lookup? h = some s)
    (hh : ∀ i, h ≠ Processor.output i) (as : List (Action L κ)) :
    (b.play as).board.lookup? h = some s := by
  induction as generalizing b
  case nil => exact hs
  case cons a as hi =>
    refine hi ((b.act_step a).preserves_coherent c) <| c.lookup?_act hs fun d => ?_
    have ⟨i, ho⟩ := d.exists_output c hs
    exact hh i ho

-- Apart from the headers of processors, a signal that is on file remains there for good, and is
-- returned whenever it is asked for. At the headers of processors, it is there until it is displaced.
-- No two headers have a signal with the same identity, let alone the same signal.
theorem play_keeps_signals
    (link : L) (name : Nat) (filters : Processor.FilterTable) (as : List (Action L κ)) :
    let b := ((withFilters link name filters : Board L κ).play as).board
    (∀ h s, b.lookup? h = some s → (∀ i, h ≠ Processor.output i) → ∀ as',
      let b' := (b.play as').board
      b'.lookup? h = some s ∧
      (∀ format, (b'.singletonSignal h format : Outcome L ε κ Signal).result = s) ∧
      ∀ t i, t.header.subChannel i = h → (b'.idSignal t i : Outcome L ε κ Signal).result = s) ∧
    (∀ i s, b.lookup? (Processor.output i) = some s → ∀ a,
      (b.act a).board.lookup? (Processor.output i) ≠ some s ↔ Displaces b s a) ∧
    ∀ h h' s s', b.lookup? h = some s → b.lookup? h' = some s' → s.id = s'.id → h = h' := by
  intro b
  have c : Coherent b := (withFilters_coherent link name filters : Coherent _).play as |>.left
  have ⟨d, p⟩ := play_distinct link name filters as
  refine ⟨fun h s hs hh as' => ?kept, fun i s hs a => ⟨?mp, ?mpr⟩, d⟩
  case kept =>
    have hl := c.play_lookup? hs hh as'
    exact ⟨hl, singletonSignal_result hl, fun t i ht => idSignal_result <| ht ▸ hl⟩
  case mp   => exact fun hl => Classical.not_not.mp fun hd => hl <| c.lookup?_act hs hd
  case mpr  => exact fun d => d.lookup?_act_ne c (p.issued_filed hs) hs

-- A button, and a channel of the register on which processors send their output.
def buttonAndChannel : List (Action MeteredLink String) :=
  let button := .device ⟨.board 0, 0⟩ BuiltIn.switchState.header .statusByte
  let output := .device ⟨.caller, 0⟩ (Processor.output 0).plain .statusByte
  [
    .perform <| .builtIn .switchState,
    .perform <| .idSignal output 4,
    .perform <| .createProcessor button ⟨⟨9⟩, .empty, .statusByte, some 1⟩ "callback"
  ]

theorem play_keeps_signals_of_buttonAndChannel :
    let b := ((withFilters {} 0 .stock : Board MeteredLink String).play buttonAndChannel).board
    let button := .device ⟨.board 0, 0⟩ BuiltIn.switchState.header .statusByte
    let channel := .device ⟨.board 0, 1⟩ (Processor.output 4) .unsized
    let confirmation := .perform (.receive [Module.processor, Register.addProcessor, 4])
    b.lookup? BuiltIn.switchState.header = some button ∧
    (∀ i, BuiltIn.switchState.header ≠ Processor.output i) ∧
    b.lookup? (Processor.output 4) = some channel ∧
    Displaces b channel confirmation ∧
    (b.play [confirmation, .perform .tearDown]).board.lookup? BuiltIn.switchState.header =
      some button ∧
    (b.act confirmation).board.lookup? (Processor.output 4) ≠ some channel := by
  intro b button channel confirmation
  have hb : b.lookup? BuiltIn.switchState.header = some button := by decide +kernel
  have ho : ∀ i, BuiltIn.switchState.header ≠ Processor.output i := nofun
  have hc : b.lookup? (Processor.output 4) = some channel := by decide +kernel
  have hd : Displaces b channel confirmation :=
    .confirmation rfl (by decide +kernel) (by decide +kernel)
  have ⟨hk, hl, _⟩ := play_keeps_signals ({} : MeteredLink) 0 .stock buttonAndChannel
  exact ⟨hb, ho, hc, hd, (hk _ _ hb ho _).left, (hl _ _ hc _).mpr hd⟩

end SensorBoard.Board
