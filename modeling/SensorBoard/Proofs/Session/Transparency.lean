import SensorBoard.Proofs.Session.Deliveries
import SensorBoard.Link.Metered

namespace SensorBoard

-- The commands that the link has decided on, and what it has decided.
def verdicts (es : List (Event ε κ)) : List (List UInt8 × Attempt ε) :=
  writes (settled es)

@[simp]
theorem verdicts_append {es₁ es₂ : List (Event ε κ)} :
    verdicts (es₁ ++ es₂) = verdicts es₁ ++ verdicts es₂ := by
  simp [verdicts]

-- As long as both sides have been given the same commands and have decided alike, they also decide
-- alike on the next command, provided that it is the same.
def Concur (vs₁ vs₂ : List (List UInt8 × Attempt ε)) : Prop :=
  ∀ done bytes answer₁ answer₂,
    done ++ [(bytes, answer₁)] <+: vs₁ → done ++ [(bytes, answer₂)] <+: vs₂ → answer₁ = answer₂

namespace Concur

variable {vs vs₁ vs₂ ws₁ ws₂ : List (List UInt8 × Attempt ε)}

theorem refl (vs : List (List UInt8 × Attempt ε)) : Concur vs vs := by
  intro done bytes answer₁ answer₂ h₁ h₂
  have h := List.prefix_of_prefix_length_le h₁ h₂ (by simp)
  simpa using h

theorem left (c : Concur (vs₁ ++ ws₁) (vs₂ ++ ws₂)) : Concur vs₁ vs₂ :=
  fun done bytes _ _ h₁ h₂ =>
    c done bytes _ _ (h₁.trans (List.prefix_append ..)) (h₂.trans (List.prefix_append ..))

theorem right (c : Concur (vs ++ ws₁) (vs ++ ws₂)) : Concur ws₁ ws₂ := by
  intro done bytes _ _ h₁ h₂
  apply c (vs ++ done) bytes
  · rwa [List.append_assoc, List.prefix_append_right_inj]
  · rwa [List.append_assoc, List.prefix_append_right_inj]

theorem answer_eq (c : Concur [(bytes, answer₁)] [(bytes, answer₂)]) : answer₁ = answer₂ :=
  c [] bytes _ _ List.prefix_rfl List.prefix_rfl

end Concur

namespace Outcome

-- The same outcome, except for the link and for how often it was busy.
structure Alike (o₁ : Outcome L₁ ε κ α) (o₂ : Outcome L₂ ε κ α) : Prop where
  result : o₁.result = o₂.result
  events : settled o₁.events = settled o₂.events
  board : o₁.board.withLink () = o₂.board.withLink ()

-- The outcomes are alike, provided that the links decide alike.
def Mirrors (o₁ : Outcome L₁ ε κ α) (o₂ : Outcome L₂ ε κ α) : Prop :=
  Concur (verdicts o₁.events) (verdicts o₂.events) → Alike o₁ o₂

theorem Mirrors.withLink (o : Outcome L₁ ε κ α) (link : L₂) : o.Mirrors (o.withLink link) :=
  fun _ => ⟨rfl, rfl, rfl⟩

theorem Mirrors.mapResult {o₁ : Outcome L₁ ε κ α} {o₂ : Outcome L₂ ε κ α} (m : Mirrors o₁ o₂)
    (f : α → β) : Mirrors (o₁.mapResult f) (o₂.mapResult f) := by
  intro c
  have a := m c
  exact ⟨congrArg f a.result, a.events, a.board⟩

theorem Alike.exists_eq {o₁ : Outcome L₁ ε κ α} {o₂ : Outcome L₂ ε κ α} (a : Alike o₁ o₂) :
    ∃ es link, o₂ = ⟨o₁.result, es, o₁.board.withLink link⟩ ∧ settled o₁.events = settled es := by
  refine ⟨o₂.events, o₂.board.link, ?_, a.events⟩
  have hb : o₂.board = o₁.board.withLink o₂.board.link :=
    congrArg (·.withLink o₂.board.link) a.board.symm
  rw [a.result, ← hb]

theorem Mirrors.andThen {o₁ : Outcome L₁ ε κ α} {o₂ : Outcome L₂ ε κ α}
    {f₁ : α → Board L₁ κ → Outcome L₁ ε κ β} {f₂ : α → Board L₂ κ → Outcome L₂ ε κ β}
    (m : Mirrors o₁ o₂)
    (hf : ∀ r (b : Board L₁ κ) (link : L₂), Mirrors (f₁ r b) (f₂ r (b.withLink link))) :
    Mirrors (o₁.andThen f₁) (o₂.andThen f₂) := by
  intro c
  simp only [Outcome.andThen, verdicts_append] at c
  -- Once the first parts are alike, the second parts start out from the same result and tables.
  have a := m c.left
  obtain ⟨es, link, rfl, hs⟩ := a.exists_eq
  have hv : verdicts o₁.events = verdicts es := congrArg writes hs
  rw [hv] at c
  have a' := hf _ _ _ c.right
  exact ⟨a'.result, by simp [Outcome.andThen, hs, a'.events], a'.board⟩

-- What follows leaves the links alone.
theorem Mirrors.andThen_withLink {o₁ : Outcome L₁ ε κ α} {o₂ : Outcome L₂ ε κ α}
    {f₁ : α → Board L₁ κ → Outcome L₁ ε κ β} {f₂ : α → Board L₂ κ → Outcome L₂ ε κ β}
    (m : Mirrors o₁ o₂)
    (hf : ∀ r (b : Board L₁ κ) (link : L₂), f₂ r (b.withLink link) = (f₁ r b).withLink link) :
    Mirrors (o₁.andThen f₁) (o₂.andThen f₂) := by
  apply m.andThen
  intro r b link
  rw [hf]
  exact .withLink _ link

end Outcome

theorem Delivery.verdict_eq_of_answer_eq {d₁ : Delivery L₁ ε} {d₂ : Delivery L₂ ε}
    (h : d₁.answer = d₂.answer) : d₁.verdict = d₂.verdict := by
  unfold answer at h
  cases h₁ : d₁.verdict <;> cases h₂ : d₂.verdict <;> simp_all

namespace Board

variable [Link L₁ ε] [Link L₂ ε]

theorem settled_send [Link L ε] (b : Board L κ) (c : Command) :
    let d := Link.write b.link c.bytes
    settled (b.send c).events =
      .write c.bytes d.answer :: if d.verdict.isOk then [.notice (.sent c.bytes)] else [] := by
  rw [send_eq]
  dsimp only
  rw [settled_append, settled_answers]
  split <;> rfl

theorem verdicts_send [Link L ε] (b : Board L κ) (c : Command) :
    verdicts (b.send c).events = [(c.bytes, (Link.write b.link c.bytes).answer)] := by
  rw [verdicts, settled_send]
  split <;> rfl

theorem send_mirrors (b : Board L₁ κ) (link : L₂) (c : Command) :
    (b.send c).Mirrors ((b.withLink link).send c) := by
  intro h
  rw [verdicts_send, verdicts_send] at h
  have ha := h.answer_eq
  have hv := Delivery.verdict_eq_of_answer_eq ha
  refine ⟨?result, ?events, ?board⟩
  case result =>
    rw [send_eq, send_eq]
    exact congrArg (Except.mapError BoardError.link) hv
  case events =>
    rw [settled_send, settled_send, ha, hv]
  case board =>
    rw [send_board, send_board]
    rfl

theorem removeEventCommands_mirrors (b : Board L₁ κ) (link : L₂) (ids : List UInt8) :
    (b.removeEventCommands ids).Mirrors ((b.withLink link).removeEventCommands ids) := by
  induction ids generalizing b link
  case nil => exact .withLink _ link
  case cons id ids hi =>
    rw [removeEventCommands_cons, removeEventCommands_cons]
    apply (b.send_mirrors link _).andThen
    intro r b link
    cases r
    case error => exact .withLink _ link
    case ok    => exact hi b link

theorem eraseEventCommands_mirrors (b : Board L₁ κ) (link : L₂) (event : Header) :
    (b.eraseEventCommands event).Mirrors ((b.withLink link).eraseEventCommands event) := by
  have hl : (b.withLink link).ledger? event = b.ledger? event := rfl
  cases h : b.ledger? event
  case none =>
    rw [eraseEventCommands, eraseEventCommands, hl, h]
    exact .withLink _ link
  case some ledger =>
    rw [eraseEventCommands_of_some h, eraseEventCommands_of_some (hl.trans h)]
    apply (b.removeEventCommands_mirrors link ledger.ids).andThen_withLink
    intro r b link
    cases r <;> rfl

theorem createProcessor_mirrors
    (b : Board L₁ κ) (link : L₂) (source : Signal) (r : Processor.Request) (k : κ) :
    (b.createProcessor source r k).Mirrors ((b.withLink link).createProcessor source r k) := by
  have hp : (b.withLink link).prepared r = (b.prepared r).withLink link := rfl
  have hf : ((b.withLink link).prepared r).filters = (b.prepared r).filters := rfl
  cases h : (b.prepared r).filters.filter? r.kind
  case none =>
    rw [createProcessor_of_none h, createProcessor_of_none (hf ▸ h)]
    exact .withLink _ link
  case some filter =>
    rw [createProcessor_of_some h, createProcessor_of_some (hf ▸ h), hp]
    apply ((b.prepared r).send_mirrors link _).andThen_withLink
    intro r b link
    cases r <;> rfl

theorem averageQuaternions_mirrors
    (b : Board L₁ κ) (link : L₂) (source : Signal) (depth filter : UInt8) (k : κ) :
    (b.averageQuaternions source depth filter k).Mirrors
      ((b.withLink link).averageQuaternions source depth filter k) := by
  have hf : (b.withLink link).filters = b.filters := rfl
  rw [averageQuaternions, averageQuaternions, hf]
  rcases b.filters.allocate Processor.QuaternionAverage.name with ⟨_ | kind, filters⟩
  case none => exact .withLink _ link
  case some => exact createProcessor_mirrors { b with filters } link source _ k

theorem removeProcessor_mirrors (b : Board L₁ κ) (link : L₂) (s : Signal) :
    (b.removeProcessor s).Mirrors ((b.withLink link).removeProcessor s) := by
  have hl : (b.withLink link).lookup? s.header = b.lookup? s.header := rfl
  cases hi : s.processorId?
  case none =>
    rw [removeProcessor, removeProcessor, hi]
    exact .withLink _ link
  case some id =>
    by_cases hs : b.lookup? s.header = some s
    case neg =>
      simp only [removeProcessor, hi, hl, if_neg hs]
      exact .withLink _ link
    case pos =>
      rw [removeProcessor_of_some hi hs, removeProcessor_of_some hi (hl.trans hs)]
      apply (b.send_mirrors link _).andThen_withLink
      intro r b link
      cases r <;> rfl

theorem tearDown_mirrors (b : Board L₁ κ) (link : L₂) :
    b.tearDown.Mirrors (b.withLink link).tearDown := by
  rw [tearDown_eq, tearDown_eq, cleared_withLink]
  apply Outcome.Mirrors.andThen (.withLink _ link)
  intro _ b link
  apply (b.send_mirrors link _).andThen
  intro r b link
  cases r
  case error => exact .withLink _ link
  case ok    => exact b.send_mirrors link _

theorem perform_mirrors (b : Board L₁ κ) (link : L₂) (op : Operation κ) :
    (b.perform op).Mirrors ((b.withLink link).perform op) := by
  cases hq : op.isQuiet
  case true =>
    rw [perform_withLink b link hq]
    exact .withLink _ link
  case false =>
    cases op with
    | send | read | stopAdvertising => exact .mapResult (b.send_mirrors link _) _
    | createProcessor               => exact .mapResult (b.createProcessor_mirrors link _ _ _) _
    | averageQuaternions            => exact .mapResult (b.averageQuaternions_mirrors link _ _ _ _) _
    | removeProcessor               => exact .mapResult (b.removeProcessor_mirrors link _) _
    | eraseEventCommands            => exact .mapResult (b.eraseEventCommands_mirrors link _) _
    | tearDown                      => exact .mapResult (b.tearDown_mirrors link) _
    | _                             => cases hq

end Board

-- What is done behind another link.
def Action.mapLink (f : L → L') : Action L κ → Action L' κ
  | perform op         => perform op
  | setLink link       => setLink (f link)
  | setFilters filters => setFilters filters

namespace Board

variable [Link L₁ ε] [Link L₂ ε]

theorem act_mirrors (b : Board L₁ κ) (link : L₂) (a : Action (L₁ × L₂) κ) :
    (b.act (a.mapLink Prod.fst)).Mirrors ((b.withLink link).act (a.mapLink Prod.snd)) := by
  cases a
  case perform op         => exact b.perform_mirrors link op
  case setLink links      => exact fun _ => ⟨rfl, rfl, rfl⟩
  case setFilters filters => exact fun _ => ⟨rfl, rfl, rfl⟩

theorem play_mirrors (b : Board L₁ κ) (link : L₂) (as : List (Action (L₁ × L₂) κ)) :
    (b.play (as.map (·.mapLink Prod.fst))).Mirrors
      ((b.withLink link).play (as.map (·.mapLink Prod.snd))) := by
  induction as generalizing b link
  case nil => exact fun _ => ⟨rfl, rfl, rfl⟩
  case cons a as hi =>
    rw [List.map_cons, List.map_cons, play_cons_eq_andThen, play_cons_eq_andThen]
    refine (b.act_mirrors link a).andThen fun r b link c => ?_
    have a := hi b link c
    exact ⟨congrArg (r :: ·) a.result, a.events, a.board⟩

-- Two sessions in which the same is done, though behind links of their own. If the links decide
-- alike, then the sessions are alike at any point, however often the links are busy. And whatever
-- is done next, either link is given the commands of this operation: `k` answers that the link is
-- busy make `k + 1` attempts with the same bytes, and no command is left out or accepted twice.
theorem play_hides_busy_links
    (link₁ : L₁) (link₂ : L₂) (name : Nat) (filters : Processor.FilterTable)
    (as : List (Action (L₁ × L₂) κ))
    (hc : Concur
      (verdicts (play (withFilters link₁ name filters) (as.map (·.mapLink Prod.fst))).events)
      (verdicts (play (withFilters link₂ name filters) (as.map (·.mapLink Prod.snd))).events))
    (n : Nat) :
    let o₁ := play (withFilters link₁ name filters) ((as.take n).map (·.mapLink Prod.fst))
    let o₂ := play (withFilters link₂ name filters) ((as.take n).map (·.mapLink Prod.snd))
    o₁.Alike o₂ ∧ ∀ op, o₁.board.Delivers op ∧ o₂.board.Delivers op := by
  intro o₁ o₂
  rw [← List.take_append_drop n as] at hc
  simp only [List.map_append, play_append, verdicts_append] at hc
  have a := play_mirrors (withFilters link₁ name filters) link₂ (as.take n) hc.left
  exact ⟨a, fun op => ⟨perform_delivers _ op, perform_delivers _ op⟩⟩

-- Requests, a read, an erasure that is cut short, and a tear-down. The links are replaced on the way.
def twoLinks : List (Action (MeteredLink × MeteredLink) String) :=
  let event := BuiltIn.switchState.header
  let source := .device ⟨.caller, 0⟩ event .statusByte
  let rotation := .device ⟨.caller, 1⟩ { module := Module.sensorFusion, register := 7 } .quaternion
  [
    .perform <| .createProcessor source ⟨⟨9⟩, .empty, .statusByte, some 1⟩ "first",
    .perform <| .createProcessor source ⟨⟨9⟩, .empty, .statusByte, none⟩ "second",
    .setLink ({ busy := 3, quota := some 3 }, { quota := some 3 }),
    .perform <| .read source,
    .perform <| .averageQuaternions rotation 4 26 "average",
    .perform <| .recordEventCommand event 1,
    .perform <| .recordEventCommand event 2,
    .perform <| .eraseEventCommands event,
    .setLink ({ busy := 1 }, {}),
    .perform .tearDown
  ]

theorem play_hides_busy_links_of_twoLinks :
    let o₁ := play (withFilters { busy := 2, quota := some 1 } 0 .stock)
      (twoLinks.map (·.mapLink Prod.fst))
    let o₂ := play (withFilters { quota := some 1 } 0 .stock) (twoLinks.map (·.mapLink Prod.snd))
    Concur (verdicts o₁.events) (verdicts o₂.events) ∧
    o₁.events.countP Event.isBusy = 6 ∧ o₂.events.countP Event.isBusy = 0 ∧
    accepted o₁.events = [
      [0x09, 0x02, 0x01, 0x01, 0xFF, 0x01],
      [0x01, 0x01],
      [0x09, 0x02, 0x19, 0x07, 0xFF, 0x1A, 0x04],
      [0x0A, 0x04, 0x01],
      [0x09, 0x08],
      [0x0A, 0x05]
    ] ∧
    o₁.Alike o₂ ∧ ∀ op, o₁.board.Delivers op ∧ o₂.board.Delivers op := by
  intro o₁ o₂
  have hv : verdicts o₁.events = verdicts o₂.events := by decide +kernel
  have hc : Concur (verdicts o₁.events) (verdicts o₂.events) := hv ▸ .refl _
  have h := play_hides_busy_links _ _ 0 .stock twoLinks hc twoLinks.length
  rw [List.take_length] at h
  exact ⟨hc, by decide +kernel, by decide +kernel, by decide +kernel, h⟩

end Board

end SensorBoard
