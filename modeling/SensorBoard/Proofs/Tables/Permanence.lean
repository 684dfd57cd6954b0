import SensorBoard.Proofs.Creation.Queue
import SensorBoard.Proofs.Tables.Routes

namespace SensorBoard

-- The header at which the packet came in that someone is given.
def Event.stream? : Event ε κ → Option Header
  | sample _ h _ | custom _ h _                   => some h
  | write .. | created .. | failed .. | notice _ => none

-- The headers of the packets that subscribers and handlers are given, in order.
def streams (es : List (Event ε κ)) : List Header :=
  es.filterMap Event.stream?

section Streams

variable {es es₁ es₂ : List (Event ε κ)}

@[simp]
theorem streams_nil : streams ([] : List (Event ε κ)) = [] :=
  rfl

@[simp]
theorem streams_append : streams (es₁ ++ es₂) = streams es₁ ++ streams es₂ :=
  List.filterMap_append

@[simp]
theorem streams_cons : streams (e :: es) = (Event.stream? e).toList ++ streams es := by
  cases e <;> rfl

theorem streams_aborted (ps : List (PendingCreation κ)) :
    streams (ps.map fun p => (.failed p.callback .aborted : Event ε κ)) = [] := by
  simp [streams, Event.stream?]

theorem mem_streams_of_sample (hm : .sample k h v ∈ es) : h ∈ streams es :=
  List.mem_filterMap.mpr ⟨_, hm, rfl⟩

theorem mem_streams_of_custom (hm : .custom k h payload ∈ es) : h ∈ streams es :=
  List.mem_filterMap.mpr ⟨_, hm, rfl⟩

theorem Outbound.streams_eq (h : Outbound n es) : streams es = [] :=
  h.filterMap_eq (fun _ _ => rfl) fun _ => rfl

end Streams

namespace Board

section Step

variable {b b' : Board L κ} {es : List (Event ε κ)}

theorem eq_of_mem_streams_deliver
    (hm : h ∈ streams (b.deliver h' payload : List (Event ε κ))) : h = h' := by
  obtain he | ⟨_, _, he⟩ | ⟨_, he, _⟩ := b.deliver_cases (ε := ε) h' payload <;> rw [he] at hm
  case inr.inl => exact List.mem_singleton.mp hm
  all_goals simp [Event.stream?] at hm

-- Whoever is given a packet owes that to the route that the packet took.
theorem Step.match?_of_mem_streams (e : Step b a es b') (hm : h ∈ streams es) :
    ∃ packet route, b.routes.match? packet = some route ∧ route.header = h := by
  cases e with
  | aside _ _ _ _ he | requested _ _ _ he | rerouted he | removed _ _ _ he =>
    simp [he.streams_eq] at hm
  | refused _ _ _ he => simp [he.streams_eq, Event.stream?] at hm
  | tornDown _ he    => simp [he.streams_eq, streams_aborted] at hm
  | aborted          => simp [streams_aborted] at hm
  | @handled packet route _ _ hr =>
    have hh : h = route.header := by simpa [Event.stream?] using hm
    exact ⟨packet, route, hr, hh.symm⟩
  | @sampled packet route _ _ hr =>
    have hh := eq_of_mem_streams_deliver (by simpa [Event.stream?] using hm)
    exact ⟨packet, route, hr, hh.symm⟩
  | singletonFound | singletonMade | channelFound | channelMade | subscribed | unsubscribed
  | dropped | unexpected | malformed | created => simp [Event.stream?] at hm

theorem Step.subChannel_not_mem_streams (e : Step b a es b') (hh : h.channel = none)
    (hr : (b.route? h).isSome) (i : UInt8) : h.subChannel i ∉ streams es := by
  intro hm
  have ⟨packet, route, hr', hc⟩ := e.match?_of_mem_streams hm
  have hp : route.header.plain = h := by
    rw [hc]
    exact Header.ext rfl rfl hh.symm
  apply RouteTable.not_contains_plain_of_match? hr' <| by rw [hc]; rfl
  rw [hp]
  exact RouteTable.contains_iff.mpr hr

end Step

variable [Link L ε] {b : Board L κ}

theorem Coherent.play_plain_route (c : Coherent b) (hh : h.channel = none)
    (hr : (b.route? h).isSome) (as : List (Action L κ)) :
    ((b.play as).board.route? h).isSome ∧ ∀ i, h.subChannel i ∉ streams (b.play as).events := by
  have h : Coherent (b.play as).board ∧ ((b.play as).board.route? h).isSome ∧
      ∀ i, h.subChannel i ∉ streams (b.play as).events := by
    apply play_induction
      (motive := fun _ es b' => Coherent b' ∧ (b'.route? h).isSome ∧
        ∀ i, h.subChannel i ∉ streams es)
    case start => exact ⟨c, hr, by simp⟩
    case step =>
      intro a _ _ _ _ _ _ ⟨c, hr, hs⟩ e
      refine ⟨e.preserves_coherent c, e.preserves_plain_route c hh hr, fun i hm => ?_⟩
      rw [streams_append] at hm
      cases List.mem_append.mp hm
      case inl hm => exact hs i hm
      case inr hm => exact e.subChannel_not_mem_streams hh hr i hm
  exact h.right

-- A route for a register as a whole can be changed, but it never goes again. From then on nobody is
-- given packets on account of one of the register's channels. The route of confirmations is there
-- from the start, and is only ever changed by those who ask for the packets at this very header.
theorem play_keeps_plain_routes
    (link : L) (name : Nat) (filters : Processor.FilterTable) (as : List (Action L κ)) :
    let b := ((withFilters link name filters : Board L κ).play as).board
    (∀ h, h.channel = none → (b.route? h).isSome → ∀ as',
      let o := b.play as'
      (o.board.route? h).isSome ∧ ∀ i k,
        (∀ payload, .custom k (h.subChannel i) payload ∉ o.events) ∧
        ∀ v, .sample k (h.subChannel i) v ∉ o.events) ∧
    ((∀ a ∈ as, ¬a.rebinds Processor.confirmation) →
      b.route? Processor.confirmation = some .processorCreated) := by
  intro b
  have c₀ : Coherent (withFilters link name filters : Board L κ) :=
    withFilters_coherent link name filters
  have c : Coherent b := c₀.play as |>.left
  refine ⟨fun h hh hr as' => ?_, fun ha => ?_⟩
  · have ⟨hr, hs⟩ := c.play_plain_route hh hr as'
    refine ⟨hr, fun i k => ⟨fun payload hm => ?_, fun v hm => ?_⟩⟩
    · exact hs i <| mem_streams_of_custom hm
    · exact hs i <| mem_streams_of_sample hm
  · exact play_confirmation_route c₀ ((route?_withFilters ..).trans <| if_pos rfl) ha

-- The packets of a channel go to a handler until there is a signal for the register as a whole.
def shadowedChannel : List (Action MeteredLink String) :=
  let h := BuiltIn.switchState.header
  [
    .perform <| .onResponse (h.subChannel 0) "handler",
    .perform <| .receive [Module.switch, Register.switchState, 0, 5],
    .perform <| .builtIn .switchState
  ]

theorem play_keeps_plain_routes_of_shadowedChannel :
    let o := (withFilters {} 0 .stock : Board MeteredLink String).play shadowedChannel
    let h := BuiltIn.switchState.header
    let packet := [Module.switch, Register.switchState, 0, 5]
    .custom "handler" (h.subChannel 0) [5] ∈ o.events ∧
    (o.board.route? h).isSome ∧
    o.board.route? (h.subChannel 0) = some (.custom "handler") ∧
    .custom "handler" (h.subChannel 0) [5] ∉
      (o.board.play [.perform .tearDown, .perform (.receive packet)]).events := by
  intro o h packet
  have hr : (o.board.route? h).isSome := by decide +kernel
  have ⟨hp, _⟩ := play_keeps_plain_routes ({} : MeteredLink) 0 .stock shadowedChannel
  have ⟨_, hc⟩ := hp h rfl hr [.perform .tearDown, .perform (.receive packet)]
  exact ⟨by decide +kernel, hr, by decide +kernel, (hc 0 "handler").left _⟩

end Board

end SensorBoard
