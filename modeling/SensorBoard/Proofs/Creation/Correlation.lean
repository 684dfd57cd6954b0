import SensorBoard.Proofs.Creation.Queue

namespace SensorBoard

-- A request in the queue. The commands to create a processor are numbered as the link accepts them,
-- and the command of this request has got `number`. At that time there were `unclaimed` answers on
-- their way for which there was no request in the queue.
structure Ticket (κ : Type) where
  request : PendingCreation κ
  number : Nat
  unclaimed : Nat

-- A board and its firmware, which answers the commands in the order in which they were accepted.
structure Exchange (L κ : Type) where
  board : Board L κ
  -- The commands to create a processor that were accepted, and those whose answer has arrived.
  accepted : Nat := 0
  answered : Nat := 0
  -- The queue with what the board itself does not keep.
  tickets : List (Ticket κ) := []

inductive Move (L κ : Type) where
  | host (a : Action L κ)
  -- The next answer of the firmware arrives, if there is one on its way.
  | answer

namespace Action

-- The board gets the packet in which the firmware tells what id it has given to a processor.
def arrival (id : UInt8) : Action L κ :=
  perform <| .receive [Module.processor, Register.addProcessor, id]

-- Leaves answers without a request in the queue.
def abandons : Action L κ → Bool
  | perform .abortPending | perform .tearDown => true
  | perform (.send c)                         => c.creates
  | _                                         => false

theorem abandons_of_isBareCreation {a : Action L κ} (h : a.isBareCreation) : a.abandons := by
  unfold isBareCreation at h
  split at h
  case h_1 => exact h
  case h_2 => contradiction

theorem advance_cases (p? : Option α) (es : List (Event ε κ)) (q : List α) {a : Action L κ}
    (ha : ¬a.confirms) :
    a.advance p? es q = [] ∨ a.advance p? es q = q ∨
      ∃ p, p? = some p ∧ 0 < creations es ∧ a.advance p? es q = q ++ [p] := by
  unfold advance
  split
  case h_1 => exact .inr <| .inl <| if_neg ha
  case h_2 => exact .inl rfl
  case h_3 => exact .inl rfl
  case h_4 =>
    by_cases hn : 0 < creations es
    case neg => exact .inr <| .inl <| if_neg hn
    case pos =>
      rw [if_pos hn]
      cases p?
      case none   => exact .inr <| .inl <| List.append_nil _
      case some p => exact .inr <| .inr ⟨p, rfl, hn, rfl⟩

theorem advance_of_creations_eq_zero {a : Action L κ} {es : List (Event ε κ)} (hc : ¬a.confirms)
    (ha : ¬a.abandons) (hn : creations es = 0) : a.advance p? es q = q := by
  unfold advance
  split
  case h_1 => exact if_neg hc
  case h_2 => contradiction
  case h_3 => contradiction
  case h_4 => simp [hn]

end Action

-- The caller feeds the board confirmations of its own making, or takes over those of the firmware.
def Move.interferes : Move L κ → Bool
  | host a => a.confirms || a.rebinds Processor.confirmation
  | answer => false

theorem Move.of_not_interferes {a : Action L κ} (h : ¬(host a).interferes) :
    ¬a.confirms ∧ ¬a.rebinds Processor.confirmation := by
  simpa [interferes] using h

def Move.abandons : Move L κ → Bool
  | host a => a.abandons
  | answer => false

namespace Exchange

def start (link : L) (name : Nat) (filters : Processor.FilterTable) : Exchange L κ where
  board := .withFilters link name filters

-- The answers on their way for which there is no request in the queue.
def unclaimed (x : Exchange L κ) : Nat :=
  x.accepted - (x.answered + x.board.pending.length)

-- The ticket of a request that comes now.
def ticket (x : Exchange L κ) (p : PendingCreation κ) : Ticket κ :=
  ⟨p, x.accepted, x.unclaimed⟩

variable [Link L ε]

def host (x : Exchange L κ) (a : Action L κ) : Exchange L κ :=
  let o := x.board.act a
  { x with
    board := o.board
    accepted := x.accepted + creations o.events
    tickets := a.advance (x.board.creation? a |>.map x.ticket) o.events x.tickets }

-- The answer to the command of number `n` gives the id `ids n`.
def answer (ids : Nat → UInt8) (x : Exchange L κ) : Exchange L κ :=
  if x.answered < x.accepted then
    { x.host (.arrival <| ids x.answered) with answered := x.answered + 1 }
  else
    x

def move (ids : Nat → UInt8) (x : Exchange L κ) : Move L κ → Exchange L κ
  | .host a => x.host a
  | .answer => x.answer ids

def run (ids : Nat → UInt8) (x : Exchange L κ) (ms : List (Move L κ)) : Exchange L κ :=
  ms.foldl (move ids) x

theorem creations_arrival (x : Exchange L κ) (id : UInt8) :
    creations (x.board.act (.arrival id)).events = 0 := by
  obtain hn | ⟨_, _, hp⟩ | hb := (x.board.act_step (.arrival id)).creations_cases
  case inl => exact hn
  all_goals contradiction

theorem answer_of_due {x : Exchange L κ} (ids : Nat → UInt8) (h : x.answered < x.accepted) :
    x.answer ids = {
      board := (x.board.act (.arrival (ids x.answered))).board
      accepted := x.accepted
      answered := x.answered + 1
      tickets := x.tickets.tail
    } := by
  rw [answer, if_pos h, host, creations_arrival]
  rfl

theorem answer_of_not_due {x : Exchange L κ} (ids : Nat → UInt8) (h : ¬x.answered < x.accepted) :
    x.answer ids = x :=
  if_neg h

-- The tickets are right about the queue. The request at position `i` has `i` answers before its own
-- that are claimed, and with those that were unclaimed when it came these are all.
structure Aligned (x : Exchange L κ) : Prop where
  coherent : x.board.Coherent
  route    : x.board.route? Processor.confirmation = some .processorCreated
  pending  : x.board.pending = x.tickets.map (·.request)
  due      : x.answered + x.tickets.length ≤ x.accepted
  number   : x.tickets[i]? = some t → t.number = x.answered + i + t.unclaimed

@[simp]
theorem host_answered (x : Exchange L κ) (a : Action L κ) : (x.host a).answered = x.answered :=
  rfl

theorem host_tickets_cases (x : Exchange L κ) (ha : ¬a.confirms) :
    (x.host a).tickets = [] ∨ (x.host a).tickets = x.tickets ∨
      ∃ p, (x.host a).tickets = x.tickets ++ [x.ticket p] ∧ x.accepted < (x.host a).accepted := by
  obtain h | h | ⟨t, ht, hn, h⟩ :=
    Action.advance_cases (x.board.creation? a |>.map x.ticket) (x.board.act a).events x.tickets ha
  case inl     => exact .inl h
  case inr.inl => exact .inr <| .inl h
  case inr.inr =>
    have ⟨p, _, hp⟩ := Option.map_eq_some_iff.mp ht
    exact .inr <| .inr ⟨p, hp ▸ h, Nat.lt_add_of_pos_right hn⟩

namespace Aligned

variable {x : Exchange L κ}

theorem start (link : L) (name : Nat) (filters : Processor.FilterTable) :
    Aligned (start link name filters : Exchange L κ) where
  coherent := Board.withFilters_coherent link name filters
  route    := (Board.route?_withFilters ..).trans <| if_pos rfl
  pending  := rfl
  due      := Nat.le_refl _
  number   := by simp [Exchange.start]

theorem length_pending (h : Aligned x) : x.board.pending.length = x.tickets.length := by
  simp [h.pending]

-- What holds as long as the route of confirmations is left alone.
theorem act (h : Aligned x) (ha : ¬a.rebinds Processor.confirmation) :
    (x.host a).board.Coherent ∧
    (x.host a).board.route? Processor.confirmation = some .processorCreated ∧
    (x.host a).board.pending = (x.host a).tickets.map (·.request) := by
  have e := x.board.act_step a
  refine ⟨e.preserves_coherent h.coherent, ?route, ?pending⟩
  case route   => exact (e.preserves_confirmation_route h.coherent ha).trans h.route
  case pending =>
    have hp := e.pending_eq h.coherent h.route
    rw [h.pending] at hp
    simp only [Exchange.host, Action.map_advance, Option.map_map]
    exact hp.trans (by simp [Function.comp_def, ticket])

theorem host (h : Aligned x) (ha : ¬(Move.host a).interferes) : Aligned (x.host a) := by
  have ⟨hc, hr⟩ := Move.of_not_interferes ha
  have ⟨coherent, route, pending⟩ := h.act hr
  have hd := h.due
  have hn : x.accepted ≤ (x.host a).accepted := Nat.le_add_right ..
  obtain ht | ht | ⟨p, ht, hp⟩ := x.host_tickets_cases hc
  case inl =>
    refine ⟨coherent, route, pending, ?due, by simp [ht]⟩
    case due =>
      have hd : x.answered ≤ x.accepted := by omega
      simpa [ht] using Nat.le_trans hd hn
  case inr.inl =>
    refine ⟨coherent, route, pending, ?due, ?number⟩
    case due    => exact ht ▸ Nat.le_trans hd hn
    case number => exact ht ▸ h.number
  case inr.inr =>
    refine ⟨coherent, route, pending, ?due, ?number⟩
    case due =>
      rw [ht, List.length_append]
      exact Nat.lt_of_le_of_lt hd hp
    case number =>
      intro i t hi
      rw [ht, List.getElem?_append] at hi
      split at hi
      case isTrue => exact h.number hi
      case isFalse hl =>
        have ⟨hi, ht⟩ := List.getElem?_eq_some_iff.mp hi
        have hi : i = x.tickets.length := by simp at hi; omega
        subst hi
        simp only [Nat.sub_self, List.getElem_cons_zero] at ht
        subst ht
        have hl := h.length_pending
        simp only [ticket, unclaimed, host_answered]
        omega

theorem answer (h : Aligned x) (ids : Nat → UInt8) : Aligned (x.answer ids) := by
  by_cases hd : x.answered < x.accepted
  case neg => rwa [answer_of_not_due ids hd]
  case pos =>
    have ⟨coherent, route, pending⟩ := h.act (a := .arrival (ids x.answered)) nofun
    rw [answer_of_due ids hd]
    refine ⟨coherent, route, pending, ?due, ?number⟩
    case due =>
      have := h.due
      simp only [List.length_tail]
      omega
    case number =>
      intro i t hi
      rw [List.getElem?_tail] at hi
      calc t.number
        _ = x.answered + (i + 1) + t.unclaimed := h.number hi
        _ = x.answered + 1 + i + t.unclaimed := by omega

theorem run (h : Aligned x) (ids : Nat → UInt8) (hm : ∀ m ∈ ms, ¬m.interferes) :
    Aligned (x.run ids ms) := by
  induction ms generalizing x
  case nil => exact h
  case cons m ms hi =>
    have ⟨hm, hms⟩ := List.forall_mem_cons.mp hm
    cases m
    case host   => exact hi (h.host hm) hms
    case answer => exact hi (h.answer ids) hms

end Aligned

-- Every answer on its way is claimed.
structure Settled (x : Exchange L κ) : Prop where
  accepted  : x.accepted = x.answered + x.tickets.length
  unclaimed : t ∈ x.tickets → t.unclaimed = 0

namespace Settled

variable {x : Exchange L κ}

theorem start (link : L) (name : Nat) (filters : Processor.FilterTable) :
    Settled (start link name filters : Exchange L κ) where
  accepted  := rfl
  unclaimed := nofun

theorem host (h : Settled x) (hx : Aligned x) (hc : ¬a.confirms) (ha : ¬a.abandons) :
    Settled (x.host a) := by
  have hn : (x.host a).accepted = x.accepted + creations (x.board.act a).events := rfl
  obtain hz | ⟨ho, p, hp⟩ | hb := (x.board.act_step a).creations_cases
  case inl =>
    have ht : (x.host a).tickets = x.tickets := Action.advance_of_creations_eq_zero hc ha hz
    constructor
    case accepted  => rw [hn, hz, ht, h.accepted, host_answered, Nat.add_zero]
    case unclaimed => exact ht ▸ h.unclaimed
  case inr.inl =>
    have ht : (x.host a).tickets = x.tickets ++ [x.ticket p] := by
      simp [Exchange.host, Action.advance_of_callback? (Board.callback?_of_creation? hp), hp, ho]
    constructor
    case accepted =>
      rw [hn, ho, ht, h.accepted, host_answered, List.length_append]
      rfl
    case unclaimed =>
      intro t hm
      rw [ht] at hm
      cases List.mem_append.mp hm
      case inl hm => exact h.unclaimed hm
      case inr hm =>
        rw [List.mem_singleton.mp hm]
        have hl := hx.length_pending
        have ha := h.accepted
        simp only [ticket, Exchange.unclaimed]
        omega
  case inr.inr => exact absurd (Action.abandons_of_isBareCreation hb) ha

theorem answer (h : Settled x) (ids : Nat → UInt8) : Settled (x.answer ids) := by
  by_cases hd : x.answered < x.accepted
  case neg => rwa [answer_of_not_due ids hd]
  case pos =>
    rw [answer_of_due ids hd]
    constructor
    case accepted =>
      have := h.accepted
      simp only [List.length_tail]
      omega
    case unclaimed => exact fun ht => h.unclaimed (List.mem_of_mem_tail ht)

theorem run (h : Settled x) (hx : Aligned x) (ids : Nat → UInt8) (hm : ∀ m ∈ ms, ¬m.interferes)
    (ha : ∀ m ∈ ms, ¬m.abandons) : Settled (x.run ids ms) := by
  induction ms generalizing x
  case nil => exact h
  case cons m ms hi =>
    have ⟨hm, hms⟩ := List.forall_mem_cons.mp hm
    have ⟨ha, has⟩ := List.forall_mem_cons.mp ha
    cases m with
    | host =>
      have ⟨hc, _⟩ := Move.of_not_interferes hm
      exact hi (h.host hx hc ha) (hx.host hm) hms has
    | answer => exact hi (h.answer ids) (hx.answer ids) hms has

end Settled

theorem Aligned.deliveries_eq_nil {x : Exchange L κ} (h : Aligned x) (ha : ¬a.confirms) :
    deliveries (x.board.act a).events = [] :=
  (x.board.act_step a).deliveries_eq_nil h.coherent h.route ha

theorem Aligned.stray_deliveries {x : Exchange L κ} (h : Aligned x) (ht : x.tickets = [])
    (id : UInt8) : deliveries (x.board.act (.arrival id)).events = [] := by
  have hp : x.board.pending = [] := by rw [h.pending, ht]; rfl
  have hr : (x.board.act (.arrival id)).events = (x.board.receive _).events := rfl
  rw [hr, Board.receive_confirmation h.route, Board.confirm_of_nil hp]
  rfl

theorem Aligned.head_number {x : Exchange L κ} (h : Aligned x) (ht : x.tickets = t :: ts) :
    t.number = x.answered + t.unclaimed :=
  h.number (i := 0) (by rw [ht]; rfl)

-- An answer goes to the head of the queue.
theorem Aligned.arrival_events {x : Exchange L κ} (h : Aligned x) (ht : x.tickets = t :: ts)
    (id : UInt8) :
    (x.board.act (.arrival id)).events = [
      .notice (.routing Processor.confirmation 1),
      .notice (.processorCreated t.request.kind (Processor.output id)),
      .created t.request.callback (x.board.confirmed t.request id)
    ] := by
  have hp : x.board.pending = t.request :: ts.map (·.request) := by rw [h.pending, ht]; rfl
  have hr : (x.board.act (.arrival id)).events = (x.board.receive _).events := rfl
  rw [hr, Board.receive_confirmation h.route, Board.confirm_of_cons_cons hp]
  rfl

-- Whoever is given a processor at the next answer has asked for this very processor.
def Faithful (ids : Nat → UInt8) (x : Exchange L κ) : Prop :=
  ∀ t ∈ x.tickets.head?, x.answered < x.accepted →
    ∀ s ∈ deliveries (x.board.act (.arrival (ids x.answered))).events,
      s.processorId? = some (ids t.number)

theorem Aligned.faithful_iff {x : Exchange L κ} (h : Aligned x) (ids : Nat → UInt8) :
    Faithful ids x ↔ ∀ t ∈ x.tickets.head?, x.answered < x.accepted →
      ids (t.number - t.unclaimed) = ids t.number := by
  refine forall₃_congr fun t ht _ => ?_
  have ⟨ts, ht⟩ := List.head?_eq_some_iff.mp ht
  have hn : t.number - t.unclaimed = x.answered := by rw [h.head_number ht, Nat.add_sub_cancel]
  have hi (i : UInt8) : (x.board.confirmed t.request i).processorId? = some i := rfl
  rw [h.arrival_events ht, hn]
  simp [Event.delivery?, hi]

-- Only the firmware's answers hand over processors. An answer that finds the queue empty is ignored.
-- Any other goes to the head of the queue. But the id of the processor that is handed over was given
-- in response to an earlier command than that of the request: earlier by as many commands as there
-- were unclaimed answers when the request came. So if there were any, it is not the processor that
-- was asked for, unless the firmware has used one id for both. There are none as long as no request
-- is given up and no command of this sort is sent bare.
theorem run_shifts_answers_by_unclaimed
    (link : L) (name : Nat) (filters : Processor.FilterTable) (ids : Nat → UInt8)
    (ms : List (Move L κ)) (hm : ∀ m ∈ ms, ¬m.interferes) :
    let x := (start link name filters).run ids ms
    (∀ a, ¬(Move.host a).interferes → deliveries (x.board.act a).events = []) ∧
    (x.answered < x.accepted →
      let id := ids x.answered
      let es := (x.board.act (.arrival id)).events
      (x.tickets = [] → deliveries es = []) ∧
      ∀ t ts, x.tickets = t :: ts →
        t.number = x.answered + t.unclaimed ∧ ∃ s,
          s = .processor s.id (Processor.output id) t.request.format t.request.kind
            t.request.config t.request.source ∧
          es = [
            .notice (.routing Processor.confirmation 1),
            .notice (.processorCreated t.request.kind (Processor.output id)),
            .created t.request.callback s
          ]) ∧
    (Faithful ids x ↔ ∀ t ∈ x.tickets.head?, x.answered < x.accepted →
      ids (t.number - t.unclaimed) = ids t.number) ∧
    ((∀ m ∈ ms, ¬m.abandons) → (∀ t ∈ x.tickets, t.unclaimed = 0) ∧ Faithful ids x) := by
  intro x
  have h : Aligned x := (Aligned.start link name filters).run ids hm
  refine ⟨?host, fun _ => ⟨?stray, ?head⟩, h.faithful_iff ids, ?settled⟩
  case host  => exact fun a ha => h.deliveries_eq_nil (Move.of_not_interferes ha).left
  case stray => exact fun ht => h.stray_deliveries ht _
  case head  => exact fun t ts ht => ⟨h.head_number ht, _, rfl, h.arrival_events ht _⟩
  case settled =>
    intro ha
    have hs : Settled x := (Settled.start link name filters).run (.start ..) ids hm ha
    refine ⟨fun t ht => hs.unclaimed ht, h.faithful_iff ids |>.mpr fun t ht _ => ?_⟩
    rw [hs.unclaimed (List.mem_of_mem_head? ht), Nat.sub_zero]

-- A request is given up while its answer is on its way, and another one takes its place.
def abandonment : List (Move MeteredLink String) :=
  let source := .device ⟨.caller, 0⟩ BuiltIn.switchState.header .statusByte
  [
    .host <| .perform <| .createProcessor source ⟨⟨9⟩, .empty, .statusByte, some 1⟩ "first",
    .host <| .perform .abortPending,
    .host <| .perform <| .createProcessor source ⟨⟨5⟩, .empty, .unsized, some 2⟩ "second"
  ]

theorem run_shifts_answers_after_abandonment :
    (∀ m ∈ abandonment, ¬m.interferes) ∧
    let x := (start {} 0 .stock).run UInt8.ofNat abandonment
    x.tickets.map (fun t => (t.number, t.unclaimed)) = [(1, 1)] ∧
    (Faithful UInt8.ofNat x ↔ ∀ t ∈ x.tickets.head?, x.answered < x.accepted →
      UInt8.ofNat (t.number - t.unclaimed) = UInt8.ofNat t.number) := by
  have hm : ∀ m ∈ abandonment, ¬m.interferes := by decide
  have ⟨_, _, hf, _⟩ := run_shifts_answers_by_unclaimed {} 0 .stock UInt8.ofNat abandonment hm
  exact ⟨hm, by decide +kernel, hf⟩

-- The second request is given the processor of the first.
theorem not_faithful_after_abandonment :
    (∀ m ∈ abandonment, ¬m.interferes) ∧
    ¬Faithful UInt8.ofNat ((start {} 0 .stock).run UInt8.ofNat abandonment) := by
  refine ⟨by decide, ?_⟩
  unfold Faithful
  decide +kernel

end Exchange

end SensorBoard
