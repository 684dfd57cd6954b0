import SensorBoard.Proofs.Tables.Containment
import SensorBoard.Proofs.Tables.Dormancy
import SensorBoard.Proofs.Tables.Removal

namespace SensorBoard

-- A packet of the stream at the header.
def Header.packet (h : Header) (payload : List UInt8) : List UInt8 :=
  [h.module, h.register] ++ h.channel.toList ++ payload

-- The samples that can be read from the payloads, in order.
def Sample.Format.readings (f : Format) (payloads : List (List UInt8)) : List Value :=
  payloads.filterMap (f.decode · |>.toOption)

-- The packet of a channel takes the route of the channel, unless there is one for the register as a
-- whole.
theorem RouteTable.match?_packet {t : RouteTable κ} (hr : (t.get? h).isSome)
    (hp : h.channel.isSome → t.get? h.plain = none) (payload : List UInt8) :
    ∃ route, t.match? (h.packet payload) = some route ∧ route.header = h ∧
      route.payload (h.packet payload) = payload := by
  have hc := contains_iff.mpr hr
  obtain ⟨m, r, _ | i⟩ := h
  case none => exact ⟨⟨⟨m, r, none⟩, 2⟩, if_pos hc, rfl, rfl⟩
  case some =>
    have hp : t.get? ⟨m, r, none⟩ = none := hp rfl
    have hn : ¬t.contains ⟨m, r, none⟩ := by simp [contains_iff, hp]
    exact ⟨⟨⟨m, r, some i⟩, 3⟩, (if_neg hn).trans <| if_pos hc, rfl, rfl⟩

namespace Board

-- Nothing stands between the stream at the header, which is that of the signal `s`, and the
-- subscriber `k`.
structure Listening (b : Board L κ) (h : Header) (s : Signal) (k : κ) : Prop where
  filed      : b.lookup? h = some s
  routed     : ∃ handler, b.route? h = some handler ∧ handler.isSample
  subscribed : b.subscriber? h = some k
  unshadowed : h.channel.isSome → b.route? h.plain = none

-- The packets bring the subscriber `k` the values, in order, and do nothing else.
structure Brings [Link L ε] (b : Board L κ) (packets : List (List UInt8)) (k : κ) (h : Header)
    (vs : List Sample.Value) : Prop where
  calls  : calls (b.play <| packets.map (.perform <| .receive ·)).events = vs.map (.sample k h ·)
  writes : writes (b.play <| packets.map (.perform <| .receive ·)).events = []
  board  : (b.play <| packets.map (.perform <| .receive ·)).board = b

section Listening

variable {b : Board L κ}

theorem Listening.receive (l : Listening b h s k) (payload : List UInt8) :
    (b.receive (h.packet payload) : Outcome L ε κ Unit) =
      ⟨(), .notice (.routing h payload.length) :: b.deliver h payload, b⟩ := by
  have ⟨handler, hh, hs⟩ := l.routed
  have ⟨route, hr, hrh, hp⟩ :=
    RouteTable.match?_packet (Option.isSome_of_eq_some hh) l.unshadowed payload
  rw [receive_of_match? hr, hp, hrh]
  dsimp only [dispatch]
  rw [hh]
  cases handler with
  | sampleWithId | sampleWithoutId => rfl
  | processorCreated | custom      => cases hs

-- A payload that cannot be read is reported and skipped.
theorem Listening.calls_deliver (l : Listening b h s k) (payload : List UInt8) :
    calls (b.deliver h payload : List (Event ε κ)) =
      (s.format.readings [payload]).map (.sample k h ·) := by
  rw [deliver, l.filed]
  cases hv : s.format.decode payload <;>
    simp [hv, l.subscribed, calls, Event.isCall, Sample.Format.readings, Except.toOption]

variable [Link L ε]

theorem Listening.brings_singleton (l : Listening b h s k) (payload : List UInt8) :
    Brings b [h.packet payload] k h (s.format.readings [payload]) := by
  have hw : writes (b.receive (h.packet payload) : Outcome L ε κ Unit).events = [] := writes_receive
  have ho : b.play [.perform (.receive (h.packet payload))] =
      ⟨[.nothing], .notice (.routing h payload.length) :: b.deliver h payload, b⟩ := by
    rw [play_cons, act, perform, l.receive]
    simp [play_nil, Outcome.mapResult]
  rw [l.receive] at hw
  constructor
  case calls  => exact (congrArg (calls ·.events) ho).trans <| l.calls_deliver payload
  case writes => exact (congrArg (writes ·.events) ho).trans hw
  case board  => exact congrArg (·.board) ho

theorem Brings.append (b₁ : Brings b packets₁ k h vs₁) (b₂ : Brings b packets₂ k h vs₂) :
    Brings b (packets₁ ++ packets₂) k h (vs₁ ++ vs₂) := by
  constructor <;> rw [List.map_append, play_append]
  case calls  => simp [b₁.calls, b₁.board, b₂.calls]
  case writes => simp [b₁.writes, b₁.board, b₂.writes]
  case board  => simp [b₁.board, b₂.board]

theorem Listening.brings (l : Listening b h s k) (payloads : List (List UInt8)) :
    Brings b (payloads.map h.packet) k h (s.format.readings payloads) := by
  induction payloads
  case nil => exact ⟨rfl, rfl, rfl⟩
  case cons payload payloads hi =>
    have hf : s.format.readings (payload :: payloads) =
      s.format.readings [payload] ++ s.format.readings payloads := List.filterMap_append (l := [_])
    rw [hf]
    exact (l.brings_singleton payload).append hi

end Listening

section Persistence

-- Whoever subscribes to a signal stays for as long as the signal does, unless told otherwise.
theorem Step.subscriber?_of_lookup? {b b' : Board L κ} {es : List (Event ε κ)} (e : Step b a es b')
    (c : Coherent b) (hi : b.Issued s.id) (hs : b'.lookup? h = some s) :
    b'.subscriber? h = a.reassign h (b.subscriber? h) := by
  obtain ⟨hk, _⟩ | ⟨_, _, _, hn⟩ := e.subscriber?_cases c h
  case inl => exact hk
  case inr => exact absurd (hn s hs ▸ hi) b.not_issued_nextId

variable [Link L ε] {b : Board L κ}

theorem Issued.play (hi : b.Issued i) (as : List (Action L κ)) : (b.play as).board.Issued i :=
  play_induction (motive := fun _ _ b => b.Issued i) (fun _ _ _ _ _ _ _ hi e => e.mints.issued hi) hi

-- A signal that is still on file has never been away, since there is no way back.
theorem Coherent.lookup?_of_play (c : Coherent b) (hi : b.Issued s.id)
    (hs : (b.play as).board.lookup? s.header = some s) : b.lookup? s.header = some s := by
  refine Classical.byContradiction fun h => ?_
  have r : Retired b s := ⟨hi, fun hf => h (c.filed hf ▸ hf)⟩
  exact (r.play as).not_filed hs

theorem Coherent.play_subscriber? (c : Coherent b) (hi : b.Issued s.id)
    (hs : (b.play as).board.lookup? s.header = some s) (hk : b.subscriber? s.header = some k)
    (ha : ∀ a ∈ as, a.reassign s.header (some k) = some k) :
    (b.play as).board.subscriber? s.header = some k := by
  induction as generalizing b
  case nil => exact hk
  case cons a as ih =>
    have ⟨ha, has⟩ := List.forall_mem_cons.mp ha
    have e := b.act_step a
    have c' := e.preserves_coherent c
    have hi' := e.mints.issued hi
    have hk' := e.subscriber?_of_lookup? c hi (c'.lookup?_of_play hi' hs)
    rw [hk, ha] at hk'
    exact ih c' hi' hs hk' has

-- A processor has the route of its stream, unless a handler has taken it over.
theorem Coherent.listening {id : UInt8} (c : Coherent b)
    (hs : b.lookup? (Processor.output id) = some s)
    (hk : b.subscriber? (Processor.output id) = some k)
    (hc : ∀ k', b.route? (Processor.output id) ≠ some (.custom k'))
    (hp : b.route? (Processor.output id).plain = none) : Listening b (Processor.output id) s k where
  filed        := hs
  subscribed   := hk
  unshadowed _ := hp
  routed := by
    have ⟨handler, hr⟩ := Option.isSome_iff_exists.mp (c.routed hs)
    refine ⟨handler, hr, ?_⟩
    cases handler with
    | sampleWithId | sampleWithoutId => rfl
    | processorCreated               => cases c.confirmation hr
    | custom k'                      => exact absurd hr (hc k')

end Persistence

variable [Link L ε]

-- Wherever a session stands: if a signal has a route and a subscriber, and there is no route for its
-- register as a whole that gets in the way of its channel, then the subscriber gets every sample that
-- can be read from its packets, and nothing else happens. Whoever subscribes to a new processor gets
-- there. It does not matter what else is done, as long as the processor is kept, nobody takes over
-- its subscription or its route, and there is no route for the outputs of processors as a whole.
theorem play_delivers_every_sample
    (link : L) (name : Nat) (filters : Processor.FilterTable) (as : List (Action L κ)) :
    let b := ((withFilters link name filters : Board L κ).play as).board
    (∀ h s k, Listening b h s k → s.header = h ∧
      ∀ payloads, Brings b (payloads.map h.packet) k h (s.format.readings payloads)) ∧
    ∀ packet k₀ s, .created k₀ s ∈ (b.receive packet : Outcome L ε κ Unit).events →
      ∃ id, s.header = Processor.output id ∧ s.processorId? = some id ∧ ∀ as₁ k as₂,
        let b₁ := ((b.receive packet : Outcome L ε κ Unit).board.play as₁).board
        let b₂ := ((b₁.subscribe s k).2.play as₂).board
        b₂.lookup? s.header = some s →
        (∀ a ∈ as₂, a.reassign s.header (some k) = some k) →
        (∀ k', b₂.route? s.header ≠ some (.custom k')) →
        b₂.route? s.header.plain = none →
        ∀ payloads,
          Brings b₂ (payloads.map ([0x09, 0x03, id] ++ ·)) k s.header (s.format.readings payloads) := by
  intro b
  have c : Coherent b := (withFilters_coherent link name filters : Coherent _).play as |>.left
  refine ⟨fun h s k l => ⟨c.filed l.filed, l.brings⟩, fun packet k₀ s hc => ?processor⟩
  case processor =>
    have e : Step b (.perform (.receive packet)) _ (b.receive packet : Outcome L ε κ Unit).board :=
      receive_step rfl
    have c' := e.preserves_coherent c
    have ⟨hi, hn⟩ := e.mints.delivered (List.mem_filterMap.mpr ⟨_, hc, rfl⟩)
    have hi := hi ▸ e.mints.issued_nextId hn
    have ⟨id, p, ps, hs, _⟩ := e.of_mem_created hc
    have hh : s.header = Processor.output id := congrArg Signal.header hs
    refine ⟨id, hh, hs ▸ rfl, fun as₁ k as₂ => ?_⟩
    intro b₁ b₂ hf ha hr hp payloads
    have c₁ : Coherent (b₁.subscribe s k).2 :=
      (c'.play as₁).left.congr (fun _ => rfl) (fun _ => rfl)
    have hi₁ : (b₁.subscribe s k).2.Issued s.id := hi.play as₁
    have hk := c₁.play_subscriber? hi₁ hf (subscriber?_subscribe.trans <| if_pos rfl) ha
    rw [hh] at hf hk hr hp ⊢
    exact ((c₁.play as₂).left.listening hf hk hr hp).brings payloads

-- Someone subscribes to a new processor, and asks for the button as well. One of the packets that
-- come in then is too short.
theorem play_delivers_every_sample_of_firstOfTwo :
    let start : Board MeteredLink String := withFilters {} 0 .stock
    let o : Outcome MeteredLink LinkFault String Unit :=
      (start.play ((creationOfFour "first").take 1)).board.receive [9, 2, 4]
    let b := ((o.board.subscribe firstOfTwo "subscriber").2.play
      [.perform (.builtIn .switchState)]).board
    .created "first" firstOfTwo ∈ o.events ∧ b.lookup? firstOfTwo.header = some firstOfTwo ∧
    (∀ k, b.route? firstOfTwo.header ≠ some (.custom k)) ∧
    b.route? firstOfTwo.header.plain = none ∧
    Brings b [[9, 3, 4, 7], [9, 3, 4], [9, 3, 4, 8]] "subscriber" firstOfTwo.header
      [.uint32 7, .uint32 8] := by
  intro start o b
  have hc : .created "first" firstOfTwo ∈ o.events := by decide +kernel
  have hs : b.lookup? firstOfTwo.header = some firstOfTwo := by decide +kernel
  have hr : b.route? firstOfTwo.header = some .sampleWithId := by decide +kernel
  have hr : ∀ k, b.route? firstOfTwo.header ≠ some (.custom k) := by simp [hr]
  have hp : b.route? firstOfTwo.header.plain = none := by decide +kernel
  have ⟨_, h⟩ :=
    play_delivers_every_sample ({} : MeteredLink) 0 .stock ((creationOfFour "first").take 1)
  obtain ⟨id, hh, _, h⟩ := h _ _ _ hc
  cases hh
  exact ⟨hc, hs, hr, hp, h [] _ _ hs (fun _ _ => by simp_all [Action.reassign]) hr hp [[7], [], [8]]⟩

end Board

end SensorBoard
