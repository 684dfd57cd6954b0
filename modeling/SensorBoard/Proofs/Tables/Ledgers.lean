import SensorBoard.Proofs.Session.History
import SensorBoard.Link.Metered

namespace SensorBoard

namespace Entry

-- The id that is new on record for the event.
def recorded? (event : Header) (e : Entry L ε κ) : Option UInt8 :=
  match e.action, e.answer with
  | .perform (.recordEventCommand event' id), .isNew true => if event' = event then some id else none
  | _,                                        _           => none

-- The ids for which the link accepts a command to remove them, if they are to be erased.
def erased (event : Header) (e : Entry L ε κ) : List UInt8 :=
  match e.action with
  | .perform (.eraseEventCommands event') =>
    if event' = event then (accepted e.events).filterMap Command.removedId? else []
  | _ => []

end Entry

def Action.tearsDown : Action L κ → Bool
  | perform .tearDown => true
  | _                 => false

-- Ledgers are not touched.
def Action.sparesLedgers : Action L κ → Bool
  | perform (.recordEventCommand ..) | perform (.eraseEventCommands _) | perform .tearDown => false
  | _                                                                                      => true

theorem Action.ledger_cases (a : Action L κ) :
    a.sparesLedgers ∨ (∃ event id, a = .perform (.recordEventCommand event id)) ∨
      (∃ event, a = .perform (.eraseEventCommands event)) ∨ a = .perform .tearDown := by
  cases a
  case perform op => cases op <;> simp [sparesLedgers]
  all_goals exact .inl rfl

namespace Entry

variable {e : Entry L ε κ}

theorem recorded?_of_sparesLedgers (he : e.action.sparesLedgers) (event : Header) :
    e.recorded? event = none := by
  unfold recorded?
  split
  case h_1 ha _ => cases ha ▸ he
  case h_2      => rfl

theorem erased_of_sparesLedgers (he : e.action.sparesLedgers) (event : Header) :
    e.erased event = [] := by
  unfold erased
  split
  case h_1 ha => cases ha ▸ he
  case h_2    => rfl

end Entry

theorem Ledger.record_ids (l : Ledger) (id : UInt8) :
    (l.record id).2.ids = l.ids ++ if (l.record id).1 then [id] else [] := by
  unfold record
  split <;> simp

namespace Board

section Record

variable {b : Board L κ}

theorem recordEventCommand_ledger? {id : UInt8} :
    (b.recordEventCommand event id).2.ledger? event' =
      if event = event' then some (((b.ledger? event).getD .empty).record id).2
      else b.ledger? event' :=
  ledger?_setLedger

theorem eventCommandIds_of_ledger? (h : b.ledger? event = some l) :
    b.eventCommandIds event = l.ids := by
  rw [eventCommandIds, h, Option.elim_some]

theorem eventCommandIds_of_none (h : b.ledger? event = none) : b.eventCommandIds event = [] := by
  rw [eventCommandIds, h, Option.elim_none]

theorem eventCommandIds_congr {b' : Board L κ} (h : b'.ledger? event = b.ledger? event) :
    b'.eventCommandIds event = b.eventCommandIds event :=
  congrArg (·.elim [] Ledger.ids) h

theorem getD_ledger? (b : Board L κ) (event : Header) :
    ((b.ledger? event).getD .empty).ids = b.eventCommandIds event := by
  unfold eventCommandIds
  cases b.ledger? event <;> rfl

theorem recordEventCommand_ids (b : Board L κ) (event : Header) (id : UInt8) :
    let o := b.recordEventCommand event id
    o.2.eventCommandIds event = b.eventCommandIds event ++ if o.1 then [id] else [] := by
  intro o
  have hl : o.2.ledger? event = some (((b.ledger? event).getD .empty).record id).2 :=
    recordEventCommand_ledger?.trans <| if_pos rfl
  rw [eventCommandIds_of_ledger? hl, Ledger.record_ids, getD_ledger?]
  rfl

end Record

-- No ledger is kept for nothing, and no id is on record twice.
def Tidy (b : Board L κ) : Prop :=
  ∀ event l, b.ledger? event = some l → l.ids ≠ [] ∧ l.ids.Nodup

theorem Tidy.nodup_ids {b : Board L κ} (ht : Tidy b) (event : Header) :
    (b.eventCommandIds event).Nodup := by
  unfold eventCommandIds
  cases hl : b.ledger? event
  case none   => exact List.nodup_nil
  case some l => exact (ht event l hl).right

variable [Link L ε] {b : Board L κ}

section Erase

-- Erasing removes a first part of the ids from the ledger, and it fails unless that is all of them.
theorem Tidy.eraseEventCommands_cases (ht : Tidy b) (event : Header) :
    let ids := b.eventCommandIds event
    let o : Outcome L ε κ (Except (BoardError ε) Nat) := b.eraseEventCommands event
    (o.result = .ok ids.length ∧ accepted o.events = Command.removals ids ∧
      ∀ event', o.board.ledger? event' = if event = event' then none else b.ledger? event') ∨
    (∃ e sent unsent, o.result = .error e ∧ ids = sent ++ unsent ∧ unsent ≠ [] ∧
      accepted o.events = Command.removals sent ∧
      ∀ event', o.board.ledger? event' =
        if event = event' then some ⟨unsent⟩ else b.ledger? event') := by
  intro ids o
  cases hl : b.ledger? event
  case none =>
    have ho : o = ⟨.ok 0, [], b⟩ := by simp only [o, eraseEventCommands, hl]
    have hi : ids = [] := eventCommandIds_of_none hl
    rw [ho, hi]
    refine .inl ⟨rfl, rfl, fun event' => ?_⟩
    split
    case isTrue h => exact h ▸ hl
    case isFalse  => rfl
  case some l =>
    have hi : ids = l.ids := eventCommandIds_of_ledger? hl
    obtain ⟨es, link, hr, _, he⟩ | ⟨e, sent, unsent, es, link, hids, hu, hr, _, he⟩ :=
      b.removeEventCommands_cases l.ids
    case inl =>
      simp only [o, eraseEventCommands, hl, hr, hi]
      exact .inl ⟨trivial, by simp [he], fun event' => ledger?_dropLedger⟩
    case inr =>
      have hn : unsent.Nodup :=
        (List.nodup_append.mp <| hids ▸ (ht event l hl).right).right.left
      simp only [o, eraseEventCommands, hl, hr, hi, Ledger.ofList_of_nodup hn]
      exact .inr ⟨e, sent, unsent, rfl, hids, hu, he, fun event' => ledger?_setLedger⟩

end Erase

section Spared

theorem send_ledgers (b : Board L κ) (c : Command) : (b.send c).board.ledgers = b.ledgers := by
  rw [send_board]
  rfl

-- Only three operations ever touch a ledger.
theorem act_ledgers {a : Action L κ} (ha : a.sparesLedgers) :
    (b.act a).board.ledgers = b.ledgers := by
  cases hs : a.isAside
  case false =>
    have e := b.act_step a
    generalize (b.act a).board = b' at e
    generalize (b.act a).events = es at e
    cases e with
    | aside _ _ _ ha' => cases hs.symm.trans ha'
    | tornDown        => contradiction
    | _               => rfl
  case true =>
    cases a
    case setLink    => rfl
    case setFilters => rfl
    case perform op =>
      cases op
      case send c          => exact b.send_ledgers c
      case read s          => exact b.send_ledgers _
      case stopAdvertising => exact b.send_ledgers _
      case removeProcessor s =>
        have hb : (b.act (.perform (.removeProcessor s))).board = (b.removeProcessor s).board := rfl
        obtain ⟨_, _, _, ho, _⟩ | ⟨_, _, _, _, _, ho, _⟩ := b.removeProcessor_cases s <;>
          rw [hb, ho] <;> rfl
      all_goals first | rfl | contradiction

theorem act_ledger? {a : Action L κ} (ha : a.sparesLedgers) (event : Header) :
    (b.act a).board.ledger? event = b.ledger? event := by
  rw [ledger?, act_ledgers ha, ledger?]

end Spared

theorem Tidy.record (ht : Tidy b) (event : Header) (id : UInt8) :
    Tidy (b.recordEventCommand event id).2 := by
  intro event' l hl
  rw [recordEventCommand_ledger?] at hl
  split at hl
  case isFalse => exact ht event' l hl
  case isTrue =>
    cases hl
    refine ⟨List.ne_nil_of_mem <| Ledger.mem_record_iff.mpr <| .inr rfl, Ledger.record_nodup ?_⟩
    rw [getD_ledger?]
    exact ht.nodup_ids event

theorem Tidy.erase (ht : Tidy b) (event : Header) :
    Tidy (b.eraseEventCommands event : Outcome L ε κ (Except (BoardError ε) Nat)).board := by
  intro event' l hl
  obtain ⟨_, _, hb⟩ | ⟨_, sent, unsent, _, hids, hu, _, hb⟩ := ht.eraseEventCommands_cases event <;>
    rw [hb] at hl <;> split at hl
  case inl.isTrue => cases hl
  case inr.isTrue =>
    cases hl
    exact ⟨hu, (List.nodup_append.mp <| hids ▸ ht.nodup_ids event).right.left⟩
  all_goals exact ht event' l hl

theorem Tidy.act (ht : Tidy b) (a : Action L κ) : Tidy (b.act a).board := by
  obtain ha | ⟨event, id, rfl⟩ | ⟨event, rfl⟩ | rfl := a.ledger_cases
  case inl =>
    intro event l hl
    exact ht event l <| act_ledger? ha event ▸ hl
  case inr.inl     => exact ht.record event id
  case inr.inr.inl => exact ht.erase event
  case inr.inr.inr =>
    intro event l hl
    have ⟨link, hb⟩ := (b.act_step (.perform .tearDown)).of_tearDown
    have hn : (b.cleared.withLink link).ledger? event = none := ledger?_cleared
    cases hn.symm.trans <| hb ▸ hl

theorem record_conserves (b : Board L κ) (event event' : Header) (id : UInt8) :
    (b.recordEventCommand event' id).2.eventCommandIds event =
      b.eventCommandIds event ++
        ((b.entry (.perform (.recordEventCommand event' id))).recorded? event).toList := by
  by_cases h : event' = event
  case neg =>
    rw [eventCommandIds_congr <| recordEventCommand_ledger?.trans <| if_neg h]
    cases hn : (b.recordEventCommand event' id).1 <;>
      simp [entry, act, perform, Outcome.quiet, Entry.recorded?, hn, h]
  case pos =>
    subst h
    rw [recordEventCommand_ids]
    cases hn : (b.recordEventCommand event' id).1 <;>
      simp [entry, act, perform, Outcome.quiet, Entry.recorded?, hn]

theorem Tidy.erase_conserves (ht : Tidy b) (event event' : Header) :
    (b.entry (.perform (.eraseEventCommands event'))).erased event ++
      (b.act (.perform (.eraseEventCommands event'))).board.eventCommandIds event =
        b.eventCommandIds event := by
  let o : Outcome L ε κ (Except (BoardError ε) Nat) := b.eraseEventCommands event'
  have he : (b.entry (.perform (.eraseEventCommands event'))).erased event =
    if event' = event then (accepted o.events).filterMap Command.removedId? else [] := rfl
  have hb : (b.act (.perform (.eraseEventCommands event'))).board = o.board := rfl
  rw [he, hb]
  by_cases h : event' = event
  case neg =>
    rw [if_neg h, List.nil_append]
    obtain ⟨_, _, hl⟩ | ⟨_, _, _, _, _, _, _, hl⟩ := ht.eraseEventCommands_cases event'
    all_goals exact eventCommandIds_congr <| (hl event).trans <| if_neg h
  case pos =>
    subst h
    rw [if_pos rfl]
    obtain ⟨_, ha, hl⟩ | ⟨_, sent, unsent, _, hids, _, ha, hl⟩ := ht.eraseEventCommands_cases event'
    all_goals rw [ha, Command.filterMap_removals]
    case inl => rw [eventCommandIds_of_none <| (hl event').trans <| if_pos rfl, List.append_nil]
    case inr => rw [eventCommandIds_of_ledger? <| (hl event').trans <| if_pos rfl, hids]

-- What an action erases was on record, and what it records comes after all that is.
theorem Tidy.act_conserves {a : Action L κ} (ht : Tidy b) (ha : ¬a.tearsDown) (event : Header) :
    (b.entry a).erased event ++ (b.act a).board.eventCommandIds event =
      b.eventCommandIds event ++ ((b.entry a).recorded? event).toList := by
  obtain hs | ⟨event', id, rfl⟩ | ⟨event', rfl⟩ | rfl := a.ledger_cases
  case inl =>
    rw [Entry.erased_of_sparesLedgers hs, Entry.recorded?_of_sparesLedgers hs,
      eventCommandIds_congr (act_ledger? hs event), List.nil_append, Option.toList_none,
      List.append_nil]
  case inr.inl     => exact b.record_conserves event event' id
  case inr.inr.inl => exact (ht.erase_conserves event event').trans (List.append_nil _).symm
  case inr.inr.inr => contradiction

theorem Tidy.play (ht : Tidy b) (as : List (Action L κ)) : Tidy (b.play as).board := by
  induction as generalizing b
  case nil          => exact ht
  case cons a _ hi  => exact hi (ht.act a)

theorem Tidy.play_conserves (ht : Tidy b) (ha : ∀ a ∈ as, ¬a.tearsDown) (event : Header) :
    (b.history as).flatMap (·.erased event) ++ (b.play as).board.eventCommandIds event =
      b.eventCommandIds event ++ (b.history as).filterMap (·.recorded? event) := by
  induction as generalizing b
  case nil => exact (List.append_nil _).symm
  case cons a as hi =>
    have ⟨ha, has⟩ := List.forall_mem_cons.mp ha
    let b' := (b.act a).board
    calc (b.history (a :: as)).flatMap (·.erased event) ++
          (b.play (a :: as)).board.eventCommandIds event
      _ = (b.entry a).erased event ++
          ((b'.history as).flatMap (·.erased event) ++ (b'.play as).board.eventCommandIds event) :=
        by simp [history, play_cons, b']
      _ = (b.entry a).erased event ++
          (b'.eventCommandIds event ++ (b'.history as).filterMap (·.recorded? event)) := by
        rw [hi (ht.act a) has]
      _ = b.eventCommandIds event ++ (((b.entry a).recorded? event).toList ++
          (b'.history as).filterMap (·.recorded? event)) := by
        rw [← List.append_assoc, ht.act_conserves ha, List.append_assoc]
      _ = b.eventCommandIds event ++ (b.history (a :: as)).filterMap (·.recorded? event) := by
        cases h : (b.entry a).recorded? event <;> simp [history, h, b']

-- As long as nothing is torn down, the ids that were erased for an event, followed by those that are
-- on record for it, are the ids that were recorded for it. If ids are said to have been erased, then
-- the link has accepted as many commands, and none of them is left. No ledger is empty or has an id
-- twice, and none changes on account of another event.
theorem play_conserves_event_commands
    (link : L) (name : Nat) (filters : Processor.FilterTable) (as : List (Action L κ)) :
    let start : Board L κ := withFilters link name filters
    let b := (start.play as).board
    ((∀ a ∈ as, ¬a.tearsDown) → ∀ event,
      (start.history as).flatMap (·.erased event) ++ b.eventCommandIds event =
        (start.history as).filterMap (·.recorded? event)) ∧
    (∀ event n, let o : Outcome L ε κ (Except (BoardError ε) Nat) := b.eraseEventCommands event
      o.result = .ok n →
        accepted o.events = Command.removals (b.eventCommandIds event) ∧
        (accepted o.events).length = n ∧ o.board.eventCommandIds event = []) ∧
    (∀ event l, b.ledger? event = some l → l.ids ≠ [] ∧ l.ids.Nodup) ∧
    ∀ event event', event ≠ event' →
      (∀ id, (b.recordEventCommand event id).2.eventCommandIds event' = b.eventCommandIds event') ∧
      (b.eraseEventCommands event : Outcome L ε κ (Except (BoardError ε) Nat)).board.eventCommandIds
        event' = b.eventCommandIds event' := by
  intro start b
  have hs : Tidy start := fun event l hl => by
    cases (ledger?_withFilters link name filters event).symm.trans hl
  have ht : Tidy b := hs.play as
  refine ⟨?conserved, ?counted, ht, fun event event' h => ⟨fun id => ?recorded, ?erased⟩⟩
  case conserved =>
    intro ha event
    have hn : start.eventCommandIds event = [] :=
      eventCommandIds_of_none <| ledger?_withFilters ..
    simpa [hn] using hs.play_conserves ha event
  case counted =>
    intro event n o ho
    obtain ⟨hr, ha, hl⟩ | ⟨_, _, _, hr, _⟩ := ht.eraseEventCommands_cases event
    case inr => cases hr.symm.trans ho
    case inl =>
      cases hr.symm.trans ho
      exact ⟨ha, ha ▸ List.length_map _, eventCommandIds_of_none <| (hl event).trans <| if_pos rfl⟩
  case recorded => exact eventCommandIds_congr <| recordEventCommand_ledger?.trans <| if_neg h
  case erased =>
    obtain ⟨_, _, hl⟩ | ⟨_, _, _, _, _, _, _, hl⟩ := ht.eraseEventCommands_cases event
    all_goals exact eventCommandIds_congr <| (hl event').trans <| if_neg h

-- The link accepts one command only until it is replaced.
def interruptedErasure : List (Action MeteredLink String) :=
  let event := BuiltIn.switchState.header
  [
    .setLink { quota := some 1 },
    .perform <| .recordEventCommand event 1,
    .perform <| .recordEventCommand event 2,
    .perform <| .recordEventCommand event 2,
    .perform <| .eraseEventCommands event,
    .perform <| .recordEventCommand event 1,
    .perform <| .recordEventCommand BuiltIn.quaternion.header 3,
    .setLink {},
    .perform <| .eraseEventCommands event,
    .perform <| .recordEventCommand event 4
  ]

theorem play_conserves_event_commands_of_interruptedErasure :
    (∀ a ∈ interruptedErasure, ¬a.tearsDown) ∧
    let start : Board MeteredLink String := withFilters {} 0 .stock
    let event := BuiltIn.switchState.header
    (start.history interruptedErasure).flatMap (·.erased event) = [1, 2, 1] ∧
    (start.history interruptedErasure).flatMap (·.erased event) ++
      (start.play interruptedErasure).board.eventCommandIds event =
        (start.history interruptedErasure).filterMap (·.recorded? event) := by
  have ha : ∀ a ∈ interruptedErasure, ¬a.tearsDown := by decide
  have ⟨h, _⟩ := play_conserves_event_commands ({} : MeteredLink) 0 .stock interruptedErasure
  exact ⟨ha, by decide +kernel, h ha _⟩

end Board

end SensorBoard
