import SensorBoard.Proofs.Creation.Completion
import SensorBoard.Proofs.Tables.Identity

namespace SensorBoard

-- Someone outside of the board is called: a subscriber, a handler, or the callback of a request.
def Event.isCall : Event ε κ → Bool
  | sample .. | custom .. | created .. | failed .. => true
  | write .. | notice _                            => false

-- The calls to someone outside of the board, in order.
def calls (es : List (Event ε κ)) : List (Event ε κ) :=
  es.filter Event.isCall

@[simp]
theorem calls_append {es₁ es₂ : List (Event ε κ)} : calls (es₁ ++ es₂) = calls es₁ ++ calls es₂ :=
  List.filter_append ..

theorem Outbound.calls_eq {es : List (Event ε κ)} (h : Outbound n es) : calls es = [] := by
  rw [calls, ← List.filterMap_eq_filter]
  exact h.filterMap_eq (fun _ _ => rfl) fun _ => rfl

namespace Board

-- The packet is taken for an answer to a request.
def Answered (b : Board L κ) (packet : List UInt8) : Prop :=
  b.pending ≠ [] ∧ ∃ route, b.routes.match? packet = some route ∧
    b.route? route.header = some .processorCreated

-- What a packet is limited to. Nothing is written, and at most one from outside is called. Tables
-- only change if a request is answered, and then only where its processor belongs. The packet is
-- counted if there is no route that it can take.
structure Confined (b : Board L κ) (packet : List UInt8) (es : List (Event ε κ)) (b' : Board L κ) :
    Prop where
  link       : b'.link = b.link
  writes     : es.countP Event.isWrite = 0
  filters    : b'.filters = b.filters
  ledgers    : b'.ledgers = b.ledgers
  calls      : es.countP Event.isCall ≤ 1
  unanswered : ¬b.Answered packet →
                 b'.signals = b.signals ∧ b'.routes.handlers = b.routes.handlers ∧
                 b'.subscribers = b.subscribers ∧ b'.pending = b.pending
  answered   : b.Answered packet →
                 (∃ p, b.pending = p :: b'.pending) ∧
                 ∀ h, (∀ i, packet[2]? = some i → h ≠ Processor.output i) →
                   b'.lookup? h = b.lookup? h ∧ b'.route? h = b.route? h ∧
                   b'.subscriber? h = b.subscriber? h
  counted    : (∀ route ∈ routesOf packet, b.route? route.header = none) →
                 b'.routes.unhandled = min (b.routes.unhandled + 1) RouteTable.unhandledLimit
  uncounted  : (∃ route ∈ routesOf packet, (b.route? route.header).isSome) →
                 b'.routes.unhandled = b.routes.unhandled

variable {b b' : Board L κ} {es : List (Event ε κ)}

theorem unrouted_iff :
    b.routes.match? packet = none ↔ ∀ route ∈ routesOf packet, b.route? route.header = none :=
  RouteTable.match?_eq_none_iff

namespace Confined

-- A packet that has a route, but leaves the board alone.
theorem idle (hr : b.routes.match? packet = some route) (ha : ¬b.Answered packet)
    (hw : es.countP Event.isWrite = 0) (hc : es.countP Event.isCall ≤ 1) :
    Confined b packet es b where
  link         := rfl
  writes       := hw
  filters      := rfl
  ledgers      := rfl
  calls        := hc
  unanswered _ := ⟨rfl, rfl, rfl, rfl⟩
  answered h   := absurd h ha
  counted h    := by cases hr.symm.trans <| unrouted_iff.mpr h
  uncounted _  := rfl

theorem dropped (hr : b.routes.match? packet = none) :
    Confined b packet ([.notice (.dropped packet)] : List (Event ε κ))
      { b with routes := (b.routes.resolve packet).2 } where
  link         := rfl
  writes       := rfl
  filters      := rfl
  ledgers      := rfl
  calls        := Nat.zero_le _
  unanswered _ := ⟨rfl, RouteTable.resolve_preserves_handlers, rfl, rfl⟩
  answered     := fun ⟨_, _, hm, _⟩ => by cases hr.symm.trans hm
  counted _    := RouteTable.resolve_unhandled_of_none hr
  uncounted    := by
    rintro ⟨route, hm, hs⟩
    simp [unrouted_iff.mp hr route hm] at hs

-- A packet that calls up the first request in the queue.
theorem answer {b' : Board L κ} (hr : b.routes.match? packet = some route)
    (hh : b.route? route.header = some .processorCreated) (hp : b.pending = p :: b'.pending)
    (hb : b'.link = b.link ∧ b'.filters = b.filters ∧ b'.ledgers = b.ledgers)
    (hu : b'.routes.unhandled = b.routes.unhandled)
    (hw : es.countP Event.isWrite = 0) (hc : es.countP Event.isCall ≤ 1)
    (ht : ∀ h, (∀ i, packet[2]? = some i → h ≠ Processor.output i) →
      b'.lookup? h = b.lookup? h ∧ b'.route? h = b.route? h ∧
      b'.subscriber? h = b.subscriber? h) :
    Confined b packet es b' where
  link         := hb.left
  writes       := hw
  filters      := hb.right.left
  ledgers      := hb.right.right
  calls        := hc
  unanswered h := absurd ⟨by simp [hp], route, hr, hh⟩ h
  answered _   := ⟨⟨p, hp⟩, ht⟩
  counted h    := by cases hr.symm.trans <| unrouted_iff.mpr h
  uncounted _  := hu

end Confined

theorem countP_deliver (b : Board L κ) (h : Header) (payload : List UInt8) :
    let es : List (Event ε κ) := b.deliver h payload
    es.countP Event.isWrite = 0 ∧ es.countP Event.isCall ≤ 1 := by
  dsimp only
  obtain he | ⟨_, _, he⟩ | ⟨_, he, _⟩ := b.deliver_cases (ε := ε) h payload <;> rw [he] <;>
    simp [Event.isWrite, Event.isCall]

theorem Step.confined (e : Step b (.perform (.receive packet)) es b') (c : Coherent b) :
    Confined b packet es b' := by
  have unanswered {route : Route} {handler : Handler κ} (hr : b.routes.match? packet = some route)
      (hh : b.route? route.header = some handler) (hn : handler ≠ .processorCreated) :
      ¬b.Answered packet := by
    rintro ⟨_, _, hr', hh'⟩
    cases hr.symm.trans hr'
    exact hn <| Option.some.inj <| hh.symm.trans hh'
  cases e with
  | aside _ _ _ ha | refused _ _ ha | singletonFound ha | singletonMade ha => cases ha
  | requested _ _ hp => cases hp
  | dropped hr       => exact .dropped hr
  | handled hr hh =>
    exact .idle hr (unanswered hr hh nofun) rfl (Nat.le_refl 1)
  | @sampled _ route _ payload hr hh hs =>
    have ⟨hw, hc⟩ := b.countP_deliver (ε := ε) route.header payload
    refine .idle hr (unanswered hr hh ?_) hw hc
    rintro rfl
    contradiction
  | unexpected hr hh _ hp => exact .idle hr (fun ha => ha.left hp) rfl (Nat.zero_le _)
  | malformed hr hh _ hp =>
    exact .answer hr hh hp ⟨rfl, rfl, rfl⟩ rfl rfl (Nat.le_refl 1) fun _ _ => ⟨rfl, rfl, rfl⟩
  | created hr hh hl hp =>
    refine .answer hr hh hp ⟨rfl, rfl, rfl⟩ rfl rfl (Nat.le_refl 1) fun h ho => ?_
    obtain ⟨_, rfl⟩ := c.eq_of_confirms hr hh hl
    have ho := (ho _ rfl).symm
    refine ⟨?lookup, ?route, ?subscriber⟩
    case lookup     => exact lookup?_install.trans <| if_neg ho
    case route      => exact route?_install.trans <| if_neg ho
    case subscriber => exact subscriber?_install.trans <| if_neg fun hh => ho hh.left

variable [Link L ε]

-- Whatever a board has been through, and whatever bytes it receives then, they are confined.
theorem play_confines_packets
    (link : L) (name : Nat) (filters : Processor.FilterTable) (as : List (Action L κ))
    (packet : List UInt8) :
    let b := ((withFilters link name filters : Board L κ).play as).board
    let o : Outcome L ε κ Unit := b.receive packet
    Confined b packet o.events o.board := by
  intro b o
  have c : Coherent b := (withFilters_coherent link name filters : Coherent _).play as |>.left
  exact (receive_step rfl : Step b (.perform (.receive packet)) o.events o.board).confined c

end Board

end SensorBoard
