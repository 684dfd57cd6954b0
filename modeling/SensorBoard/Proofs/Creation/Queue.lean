import SensorBoard.Proofs.Creation.Provenance
import SensorBoard.Proofs.Tables.Routes
import SensorBoard.Link.Metered

namespace SensorBoard

-- The packet confirms a processor, whatever else there is in it.
def isConfirmation (packet : List UInt8) : Bool :=
  [Module.processor, Register.addProcessor].isPrefixOf packet

namespace RouteTable

variable {t : RouteTable κ}

-- The route of confirmations has no channel, so it takes precedence over those that have one.
theorem match?_of_isConfirmation (ht : t.contains Processor.confirmation)
    (hp : isConfirmation packet) : t.match? packet = some ⟨Processor.confirmation, 2⟩ := by
  have ⟨_, hp⟩ := List.isPrefixOf_iff_prefix.mp hp
  subst hp
  exact if_pos ht

theorem isConfirmation_of_match? (hm : t.match? packet = some route)
    (hr : route.header = Processor.confirmation) : isConfirmation packet := by
  unfold match? at hm
  split at hm
  case h_1 m r rest =>
    have hh : ⟨m, r, route.header.channel⟩ = route.header := by grind
    rw [hr] at hh
    cases hh
    rfl
  case h_2 => contradiction

end RouteTable

namespace Action

-- The board gets a packet that confirms a processor.
def confirms : Action L κ → Bool
  | perform (.receive packet) => isConfirmation packet
  | _                         => false

-- The packets of the header are to go elsewhere from now on.
def rebinds (h : Header) : Action L κ → Bool
  | perform (.onResponse h' _) | perform (.singletonSignal h' _) => h' = h
  | _                                                            => false

-- What becomes of a queue of requests, going by the action, by the entry that it asks for, and by
-- its events. Requests line up once the link has accepted them.
def advance (p? : Option α) (es : List (Event ε κ)) (q : List α) : Action L κ → List α
  | perform (.receive packet)                 => if isConfirmation packet then q.tail else q
  | perform .abortPending | perform .tearDown => []
  | _                                         => if 0 < creations es then q ++ p?.toList else q

variable {a : Action L κ} {es : List (Event ε κ)}

theorem rebinds_of_singleton? (ha : a.singleton? = some (Processor.confirmation, format)) :
    a.rebinds Processor.confirmation := by
  cases a
  case perform op =>
    cases op
    case builtIn s => cases s <;> simp [singleton?, Operation.singleton?] at ha <;> cases ha.1
    case singletonSignal =>
      cases ha
      simp [rebinds]
    all_goals cases ha
  all_goals cases ha

theorem advance_of_isAside (ha : a.isAside) : a.advance none es q = q := by
  cases a
  case perform op => cases op <;> first | cases ha; done | simp [advance]
  all_goals simp [advance]

theorem advance_of_singleton? (ha : a.singleton? = some r) : a.advance none es q = q := by
  cases a
  case perform op => cases op <;> first | cases ha; done | simp [advance]
  all_goals cases ha

theorem advance_of_callback? (ha : a.callback? = some k) :
    a.advance p? es q = if 0 < creations es then q ++ p?.toList else q := by
  cases a
  case perform op => cases op <;> first | cases ha; done | rfl
  all_goals cases ha

-- It does not matter what the entries look like.
theorem map_advance (f : α → β) (p? : Option α) (q : List α) :
    (a.advance p? es q).map f = a.advance (p?.map f) es (q.map f) := by
  unfold advance
  split
  case h_1 => split <;> simp
  case h_4 => cases p? <;> split <;> simp
  all_goals rfl

end Action

namespace Board

section Confirmation

variable {b : Board L κ}

theorem creation?_of_callback? (ha : a.callback? = none) : b.creation? a = none := by
  cases hp : b.creation? a
  case none => rfl
  case some => cases ha ▸ callback?_of_creation? hp

theorem contains_confirmation (hr : b.route? Processor.confirmation = some .processorCreated) :
    b.routes.contains Processor.confirmation :=
  RouteTable.contains_iff.mpr <| Option.isSome_of_eq_some hr

-- The confirmations are the packets that are handled as such.
theorem Coherent.isConfirmation_iff (c : Coherent b)
    (hr : b.route? Processor.confirmation = some .processorCreated)
    (hm : b.routes.match? packet = some route) (hh : b.route? route.header = some handler) :
    isConfirmation packet ↔ handler = .processorCreated := by
  constructor
  case mp =>
    intro hp
    rw [RouteTable.match?_of_isConfirmation (contains_confirmation hr) hp] at hm
    cases hm
    exact Option.some.inj <| hh.symm.trans hr
  case mpr =>
    rintro rfl
    exact RouteTable.isConfirmation_of_match? hm (c.confirmation hh)

theorem receive_confirmation (hr : b.route? Processor.confirmation = some .processorCreated) :
    b.receive (Module.processor :: Register.addProcessor :: payload) =
      let o : Outcome L ε κ Unit := b.confirm payload
      let n := payload.length
      { o with events := .notice (.routing Processor.confirmation n) :: o.events } := by
  rw [receive_of_match? <| RouteTable.match?_of_isConfirmation (contains_confirmation hr) rfl]
  simp only [dispatch, hr]
  rfl

end Confirmation

section Step

variable {b b' : Board L κ} {es : List (Event ε κ)}

-- Nothing but a handler or a signal at the very header takes the confirmations away.
theorem Step.preserves_confirmation_route (e : Step b a es b') (c : Coherent b)
    (ha : ¬a.rebinds Processor.confirmation) :
    b'.route? Processor.confirmation = b.route? Processor.confirmation := by
  obtain hr | ⟨_, ⟨_, hs⟩ | ⟨_, rfl⟩⟩ := e.plain_route?_cases c (h := Processor.confirmation) rfl
  case inl     => exact hr
  case inr.inl => exact absurd (Action.rebinds_of_singleton? hs) ha
  case inr.inr => exact absurd (by simp [Action.rebinds]) ha

-- A step of the board is a step of the queue.
theorem Step.pending_eq (e : Step b a es b') (c : Coherent b)
    (hr : b.route? Processor.confirmation = some .processorCreated) :
    b'.pending = a.advance (b.creation? a) es b.pending := by
  cases e with
  | aside _ _ _ ha =>
    rw [creation?_of_callback? <| Action.callback?_of_isAside ha, Action.advance_of_isAside ha]
  | refused _ _ ha he =>
    rw [Action.advance_of_callback? ha]
    simp [he.creations_eq, Event.isCreation]
  | requested _ _ hp he =>
    rw [Action.advance_of_callback? (callback?_of_creation? hp), hp]
    simp [he.creations_eq]
  | singletonFound ha | singletonMade ha =>
    rw [creation?_of_callback? <| Action.callback?_of_singleton? ha,
      Action.advance_of_singleton? ha]
    rfl
  | channelFound | channelMade | subscribed | unsubscribed => rfl
  | rerouted he | removed _ _ _ he =>
    have hn : ¬0 < creations es := by simp [he.creations_eq]
    exact (if_neg hn).symm
  | aborted  => rfl
  | tornDown => exact pending_cleared
  | dropped hm =>
    refine Eq.symm <| if_neg fun hp => ?_
    rw [RouteTable.match?_of_isConfirmation (contains_confirmation hr) hp] at hm
    contradiction
  | handled hm hh =>
    refine Eq.symm <| if_neg <| mt (c.isConfirmation_iff hr hm hh).mp ?_
    simp
  | sampled hm hh hs =>
    refine Eq.symm <| if_neg <| mt (c.isConfirmation_iff hr hm hh).mp ?_
    rintro rfl
    contradiction
  | unexpected hm hh _ hp | malformed hm hh _ hp | created hm hh _ hp =>
    have := c.isConfirmation_iff hr hm hh |>.mpr rfl
    simp [Action.advance, this, hp]

-- Nobody is given a processor unless the firmware has confirmed one.
theorem Step.deliveries_eq_nil (e : Step b a es b') (c : Coherent b)
    (hr : b.route? Processor.confirmation = some .processorCreated) (ha : ¬a.confirms) :
    deliveries es = [] := by
  cases e with
  | aside _ _ _ _ he | requested _ _ _ he | rerouted he | removed _ _ _ he => exact he.deliveries_eq
  | refused _ _ _ he => simp [he.deliveries_eq, Event.delivery?]
  | tornDown _ he    => simp [he.deliveries_eq, deliveries_aborted]
  | sampled          => exact deliveries_of_completions completions_deliver
  | aborted          => exact deliveries_aborted _
  | created hm hh    => exact absurd (c.isConfirmation_iff hr hm hh |>.mpr rfl) ha
  | singletonFound | singletonMade | channelFound | channelMade | subscribed | unsubscribed
  | dropped | handled | unexpected | malformed => rfl

-- An action has at most one command to create a processor accepted, and that command comes with a
-- request, unless it was sent bare.
theorem Step.creations_cases (e : Step b a es b') :
    creations es = 0 ∨ (creations es = 1 ∧ ∃ p, b.creation? a = some p) ∨ a.isBareCreation := by
  cases e with
  | aside _ _ _ _ he hn =>
    cases ha : a.isBareCreation
    case false => exact .inl <| he.creations_eq.trans (hn ha)
    case true  => exact .inr <| .inr rfl
  | requested _ _ hp he => exact .inr <| .inl ⟨he.creations_eq, _, hp⟩
  | refused _ _ _ he => simp [he.creations_eq, Event.isCreation]
  | tornDown _ he    => simp [he.creations_eq, creations_aborted]
  | sampled          => simp [Event.isCreation]
  | aborted          => exact .inl <| creations_aborted _
  | rerouted he | removed _ _ _ he => exact .inl he.creations_eq
  | singletonFound | singletonMade | channelFound | channelMade | subscribed | unsubscribed
  | dropped | handled | unexpected | malformed | created => exact .inl rfl

end Step

-- The processor `s` that `b'` has for a request that `b` had in its queue. The board calls it `i`.
structure Fulfils (b : Board L κ) (p : PendingCreation κ) (i : UInt8) (s : Signal)
    (b' : Board L κ) : Prop where
  signal : s = .processor s.id (Processor.output i) p.format p.kind p.config p.source
  filed  : b'.lookup? (Processor.output i) = some s
  found  : b'.lookupProcessor? i = some s
  routed : b'.route? (Processor.output i) = some .sampleWithId
  others : h ≠ Processor.output i → b'.lookup? h = b.lookup? h ∧ b'.route? h = b.route? h

theorem install_fulfils (b : Board L κ) (p : PendingCreation κ) (ps : List (PendingCreation κ))
    (i : UInt8) :
    Fulfils b p i (b.confirmed p i) { b.install (b.confirmed p i) with pending := ps } := by
  have hl : (b.install (b.confirmed p i)).lookup? (Processor.output i) = b.confirmed p i :=
    lookup?_install.trans <| if_pos rfl
  refine ⟨rfl, hl, ?found, route?_install.trans <| if_pos rfl, fun hh => ⟨?lookup, ?route⟩⟩
  case found  => exact Option.filter_eq_some_iff.mpr ⟨hl, rfl⟩
  case lookup => exact lookup?_install.trans <| if_neg hh.symm
  case route  => exact route?_install.trans <| if_neg hh.symm

variable [Link L ε]

-- The reference for the queue: requests line up as the link accepts them, each confirmation calls
-- up the first in line, and aborts and teardowns send everyone away.
def outstanding (b : Board L κ) (q : List (PendingCreation κ)) :
    List (Action L κ) → List (PendingCreation κ)
  | []      => q
  | a :: as =>
    let o := b.act a
    o.board.outstanding (a.advance (b.creation? a) o.events q) as

theorem play_pending {b : Board L κ} (c : Coherent b)
    (hr : b.route? Processor.confirmation = some .processorCreated)
    (ha : ∀ a ∈ as, ¬a.rebinds Processor.confirmation) :
    (b.play as).board.pending = b.outstanding b.pending as := by
  induction as generalizing b
  case nil => rfl
  case cons a as hi =>
    have e := b.act_step a
    have ⟨ha, has⟩ := List.forall_mem_cons.mp ha
    have hr' := (e.preserves_confirmation_route c ha).trans hr
    calc (b.play (a :: as)).board.pending
      _ = ((b.act a).board.play as).board.pending := rfl
      _ = (b.act a).board.outstanding (b.act a).board.pending as :=
        hi (e.preserves_coherent c) hr' has
      _ = b.outstanding b.pending (a :: as) := by rw [e.pending_eq c hr, outstanding]

theorem play_confirmation_route {b : Board L κ} (c : Coherent b)
    (hr : b.route? Processor.confirmation = some .processorCreated)
    (ha : ∀ a ∈ as, ¬a.rebinds Processor.confirmation) :
    (b.play as).board.route? Processor.confirmation = some .processorCreated := by
  have h : Coherent (b.play as).board ∧
      (b.play as).board.route? Processor.confirmation = some .processorCreated := by
    apply play_induction
      (motive := fun _ _ b' => Coherent b' ∧
        b'.route? Processor.confirmation = some .processorCreated)
    case start => exact ⟨c, hr⟩
    case step =>
      intro a hm _ _ _ _ _ ⟨c, hr⟩ e
      exact ⟨e.preserves_coherent c, (e.preserves_confirmation_route c (ha a hm)).trans hr⟩
  exact h.right

-- If nobody takes over the confirmations, then the queue holds the requests that are still to be
-- answered, in order. A confirmation completes the oldest of them, and with it there comes a new
-- processor that is on file and routed when the callback is run. In this way, and only in this way,
-- the processors on file got there.
theorem play_refines_queue
    (link : L) (name : Nat) (filters : Processor.FilterTable) (as : List (Action L κ))
    (ha : ∀ a ∈ as, ¬a.rebinds Processor.confirmation) :
    let start : Board L κ := withFilters link name filters
    let o := start.play as
    let b := o.board
    b.pending = start.outstanding [] as ∧
    (∀ payload,
      let o' : Outcome L ε κ Unit :=
        b.receive (Module.processor :: Register.addProcessor :: payload)
      let routing := .notice (.routing Processor.confirmation payload.length)
      (b.pending = [] →
        o'.events = [routing, .notice .unexpectedConfirmation] ∧ o'.board = b) ∧
      ∀ p ps, b.pending = p :: ps →
        (payload = [] →
          o'.events = [
            routing,
            .notice .emptyConfirmation,
            .failed p.callback .malformedConfirmation
          ] ∧
          o'.board = { b with pending := ps }) ∧
        ∀ i payload', payload = i :: payload' → ∃ s,
          Fulfils b p i s o'.board ∧ o'.board.pending = ps ∧
          (∀ t, (∃ h, b.lookup? h = some t) ∨ t ∈ deliveries o.events → t.id ≠ s.id) ∧
          o'.events = [
            routing,
            .notice (.processorCreated p.kind (Processor.output i)),
            .created p.callback s
          ]) ∧
    ∀ h s, b.lookup? h = some s → s.isProcessor → (deliveries o.events).count s = 1 := by
  intro start o b
  have c : Coherent start := withFilters_coherent link name filters
  have hr : start.route? Processor.confirmation = some .processorCreated :=
    (route?_withFilters ..).trans <| if_pos rfl
  have hv := play_provenance link name filters as
  refine ⟨play_pending c hr ha, fun payload => ?_, fun h s hs hp => ?_⟩
  · intro o' routing
    have ho' :
        o' = ⟨(), routing :: (b.confirm payload).events, (b.confirm payload).board⟩ :=
      receive_confirmation <| play_confirmation_route c hr ha
    refine ⟨fun hp => ?_, fun p ps hp => ⟨?_, ?_⟩⟩
    · rw [ho', confirm_of_nil hp]
      exact ⟨rfl, rfl⟩
    · rintro rfl
      rw [ho', confirm_of_cons_nil hp]
      exact ⟨rfl, rfl⟩
    · rintro i payload' rfl
      rw [ho', confirm_of_cons_cons hp]
      refine ⟨_, install_fulfils b p ps i, rfl, ?_, rfl⟩
      intro t ht hi
      have ht : b.Issued t.id := ht.elim (fun ⟨_, ht⟩ => hv.issued_filed ht) hv.issued_delivered
      rw [hi] at ht
      exact Nat.lt_irrefl _ ht.right
  · exact hv.nodup.count.trans <| if_pos <| hv.delivered hs hp

-- Two requests, of which the first is confirmed while another route to the same register is around.
def twoRequests : List (Action MeteredLink String) :=
  let source := .device ⟨.caller, 0⟩ BuiltIn.quaternion.header .quaternion
  [
    .perform (.averageQuaternions source 4 Processor.QuaternionAverage.currentFilter "first"),
    .perform (.onResponse (Processor.confirmation.subChannel 0) "other"),
    .perform (.averageQuaternions source 8 Processor.QuaternionAverage.currentFilter "second"),
    .perform (.receive [Module.processor, Register.addProcessor, 0])
  ]

theorem play_refines_queue_of_two_requests :
    (∀ a ∈ twoRequests, ¬a.rebinds Processor.confirmation) ∧
    let start : Board MeteredLink String := withFilters {} 0 .stock
    let b := (start.play twoRequests).board
    b.pending.map (·.callback) = ["second"] ∧ b.pending = start.outstanding [] twoRequests := by
  have ha : ∀ a ∈ twoRequests, ¬a.rebinds Processor.confirmation := by decide
  have ⟨h, _⟩ := play_refines_queue {} 0 .stock twoRequests ha
  exact ⟨ha, by decide +kernel, h⟩

end Board

end SensorBoard
