import SensorBoard.Proofs.Session.Sequences
import SensorBoard.Proofs.Tables.Identity
import SensorBoard.Proofs.Tables.Routes
import SensorBoard.Link.Metered

namespace SensorBoard.Board

section Cleared

variable {b : Board L κ}

-- Where there is a processor, everything goes. All other headers stay as they are.
theorem Coherent.views_cleared (c : Coherent b) (h : Header) :
    let isGone := (b.lookup? h).any (·.isProcessor)
    b.cleared.lookup? h = (if isGone then none else b.lookup? h) ∧
    b.cleared.route? h = (if isGone then none else b.route? h) ∧
    b.cleared.subscriber? h = if isGone then none else b.subscriber? h := by
  have hg : h ∈ b.processors.map Signal.header ↔ (b.lookup? h).any (·.isProcessor) := by
    simp [c.mem_headers_iff, Option.any_eq_true]
  simp only [lookup?_cleared, route?_cleared, subscriber?_cleared, hg, and_self, and_true]
  cases b.lookup? h
  case none   => rfl
  case some s => cases hp : s.isProcessor <;> simp [hp]

theorem unhandled_foldl_detach (ss : List Signal) (b : Board L κ) :
    (ss.foldl (·.detach ·.header) b).routes.unhandled = b.routes.unhandled := by
  induction ss generalizing b
  case nil         => rfl
  case cons s _ hi => exact hi (b.detach s.header)

theorem unhandled_cleared : b.cleared.routes.unhandled = b.routes.unhandled :=
  unhandled_foldl_detach b.processors _

-- A cleared board has nothing more to clear.
theorem processors_cleared : b.cleared.processors = [] := by
  have ⟨_, _, hb, _, _⟩ := b.cleared_eq
  rw [hb]
  exact congrArg Prod.fst Registry.drainWhere_drainWhere

theorem cleared_of_processors (hp : b.processors = []) :
    b.cleared = { b with pending := [], ledgers := ∅ } := by
  have hs : (b.signals.drainWhere (·.isProcessor)).2 = b.signals :=
    Registry.drainWhere_of_fst_eq_nil hp
  have hc : b.cleared = b.processors.foldl (·.detach ·.header)
    { b with signals := (b.signals.drainWhere _).2, pending := [], ledgers := ∅ } := rfl
  rw [hc, hp, hs]
  rfl

theorem cleared_cleared : b.cleared.cleared = b.cleared := by
  rw [cleared_of_processors processors_cleared]
  have ⟨_, _, hb, _, _⟩ := b.cleared_eq
  rw [hb]

end Cleared

section Routes

variable {b b' : Board L κ} {es : List (Event ε κ)}

-- What gives a route to a header that has none: a signal or a channel that is asked for, a handler,
-- and a processor that the firmware confirms there.
inductive Routes (b : Board L κ) (h : Header) : Action L κ → Prop
  | singleton (ha : a.singleton? = some (h, format)) :
    Routes b h a
  | channel (hh : s.header.subChannel i = h) (hs : b.lookup? h = none) :
    Routes b h (.perform (.idSignal s i))
  | handler :
    Routes b h (.perform (.onResponse h k))
  | confirmation (hh : Processor.output i = h)
      (hr : b.route? Processor.confirmation = some .processorCreated) (hp : b.pending ≠ []) :
    Routes b h (.perform (.receive (Module.processor :: Register.addProcessor :: i :: payload)))

theorem Step.routes_of_route? (e : Step b a es b') (c : Coherent b) (hr : b.route? h = none)
    (hr' : b'.route? h ≠ none) : Routes b h a := by
  -- The header at which a route is set is the one that gets a route.
  have at_header {h' handler} (hi : b'.route? h = if h' = h then some handler else b.route? h) :
      h' = h :=
    (route?_cases_of_ite hi).resolve_left (fun he => hr' <| he.trans hr) |>.right
  cases e with
  | aside | refused | requested | channelFound | subscribed | unsubscribed | handled | sampled
  | unexpected | malformed | aborted => exact absurd hr hr'
  | dropped =>
    refine absurd ?_ hr'
    simpa [route?, RouteTable.get?, RouteTable.resolve_preserves_handlers] using hr
  | singletonFound ha    => exact .singleton (at_header route?_register ▸ ha)
  | singletonMade ha     => exact .singleton (at_header route?_file_register ▸ ha)
  | rerouted             => exact at_header route?_register ▸ .handler
  | channelMade hs hl =>
    have hh := at_header route?_file_register
    exact .channel (hs.trans hh) (hh ▸ hl)
  | created hm ht hl hp =>
    obtain ⟨hc, rfl⟩ := c.eq_of_confirms hm ht hl
    exact .confirmation (at_header route?_install) hc (by simp [hp])
  | removed => exact absurd (route?_forget.trans <| ite_eq_left_iff.mpr fun _ => hr) hr'
  | tornDown => exact absurd (route?_cleared.trans <| ite_eq_left_iff.mpr fun _ => hr) hr'

theorem route?_singletonSignal :
    (b.singletonSignal h format : Outcome L ε κ Signal).board.route? h =
      some .sampleWithoutId := by
  unfold singletonSignal
  split <;> exact route?_register.trans <| if_pos rfl

theorem route?_idSignal (hs : b.lookup? (s.header.subChannel i) = none) :
    (b.idSignal s i : Outcome L ε κ Signal).board.route? (s.header.subChannel i) =
      some .sampleWithId := by
  rw [idSignal, ensureSignal_of_none hs]
  exact route?_register.trans <| if_pos rfl

variable [Link L ε]

theorem act_of_singleton? {a : Action L κ} (ha : a.singleton? = some (h, format)) :
    b.act a = (b.singletonSignal h format).mapResult .signal := by
  cases a
  case perform op => cases op <;> cases ha <;> rfl
  all_goals cases ha

-- There is no other way to get a route.
theorem Coherent.route?_act_iff (c : Coherent b) (hr : b.route? h = none) (a : Action L κ) :
    ((b.act a).board.route? h).isSome ↔ Routes b h a := by
  constructor
  case mp =>
    intro hr'
    refine (b.act_step a).routes_of_route? c hr fun hn => ?_
    simp [hn] at hr'
  case mpr =>
    intro ha
    cases ha with
    | singleton ha =>
      rw [act_of_singleton? ha]
      exact Option.isSome_of_eq_some route?_singletonSignal
    | channel hh hs =>
      subst hh
      exact Option.isSome_of_eq_some (route?_idSignal hs)
    | handler => exact Option.isSome_of_eq_some <| route?_register.trans <| if_pos rfl
    | @confirmation i payload hh hr hp =>
      have ⟨p, ps, hp⟩ := List.exists_cons_of_ne_nil hp
      have hb : (b.act (.perform <| .receive <|
          Module.processor :: Register.addProcessor :: i :: payload)).board =
          { b.install (b.confirmed p i) with pending := ps } := by
        dsimp only [act, perform, Outcome.mapResult]
        rw [receive_confirmation hr, confirm_of_cons_cons hp]
      rw [hb]
      exact Option.isSome_of_eq_some <| route?_install.trans <| if_pos hh

theorem Coherent.play_route?_eq_none (c : Coherent b) (hr : b.route? h = none)
    (ha : ∀ before a after, as = before ++ a :: after → ¬Routes (b.play before).board h a) :
    (b.play as).board.route? h = none := by
  induction as generalizing b
  case nil => exact hr
  case cons a as hi =>
    have hr' : (b.act a).board.route? h = none := by
      have := mt (c.route?_act_iff hr a).mp (ha [] a as rfl)
      simpa using this
    refine hi ((b.act_step a).preserves_coherent c) hr' fun before a' after has => ?_
    exact ha (a :: before) a' after (has ▸ rfl)

end Routes

section TearDown

variable [Link L ε] {b : Board L κ}

-- The callbacks are told first, and then the commands go out.
theorem tearDown_commands (b : Board L κ) :
    let d₁ := Link.write b.link Command.removeAllProcessors.bytes
    let d₂ := Link.write d₁.link Command.removeAllEventCommands.bytes
    let o := b.tearDown
    o.result = (d₁.verdict.bind fun _ => d₂.verdict).mapError .link ∧
    ∃ es, o.events = b.pending.map (.failed ·.callback .aborted) ++ es ∧ completions es = [] ∧
      writes es = d₁.answers.map (Command.removeAllProcessors.bytes, ·) ++
        if d₁.verdict.isOk then d₂.answers.map (Command.removeAllEventCommands.bytes, ·)
        else [] := by
  have ⟨hr, hc, hw⟩ := b.cleared.send_andThen_send .removeAllProcessors .removeAllEventCommands
  rw [link_cleared] at hr hw
  rw [tearDown_eq]
  refine ⟨hr, _, List.append_assoc .., ?_, ?_⟩
  · exact completions_append.trans hc
  · exact writes_append.trans hw

theorem tearDown_board (b : Board L κ) : ∃ link, b.tearDown.board = b.cleared.withLink link :=
  (b.act_step (.perform .tearDown)).of_tearDown

end TearDown

variable [Link L ε] [Link L₁ ε₁] [Link L₂ ε₂]

-- A tear-down leaves the same tables behind any link. Everyone who waits for a processor is told
-- first that there will be none. The commands go out after that, the second one only if the first
-- one is accepted, and the result tells whether both of them are. Processors are gone with their
-- routes and subscribers, and all other headers are as they were. If there is no route for the
-- register as a whole, the packets of such a processor are counted as unhandled until an action
-- gives one to the register or to the header. To tear down once more makes no difference.
theorem tearDown_clears_behind_any_link
    (link : L) (name : Nat) (filters : Processor.FilterTable) (as : List (Action L κ))
    (link₁ : L₁) (link₂ : L₂) :
    let b := ((withFilters link name filters : Board L κ).play as).board
    let o := (b.withLink link₁).tearDown
    let cleared := o.board
    let isGone h := (b.lookup? h).any (·.isProcessor)
    (b.withLink link₂).tearDown.board.withLink cleared.link = cleared ∧
    (cleared.pending = [] ∧ (∀ event, cleared.ledger? event = none) ∧
      (∀ h s, cleared.lookup? h = some s → s.isProcessor = false) ∧
      cleared.filters = b.filters ∧ cleared.routes.unhandled = b.routes.unhandled) ∧
    (∀ h,
      cleared.lookup? h = (if isGone h then none else b.lookup? h) ∧
      cleared.route? h = (if isGone h then none else b.route? h) ∧
      cleared.subscriber? h = if isGone h then none else b.subscriber? h) ∧
    (let d₁ := Link.write link₁ [0x09, 0x08]
    let d₂ := Link.write d₁.link [0x0A, 0x05]
    (∃ es, o.events = b.pending.map (.failed ·.callback .aborted) ++ es ∧ completions es = [] ∧
      writes es = d₁.answers.map ([0x09, 0x08], ·) ++
        if d₁.verdict.isOk then d₂.answers.map ([0x0A, 0x05], ·) else []) ∧
    o.result = (d₁.verdict.bind fun _ => d₂.verdict).mapError .link ∧
    (o.result = .ok () ↔ d₁.verdict = .ok () ∧ d₂.verdict = .ok ())) ∧
    (∀ id as', let out := Processor.output id
      isGone out → b.route? out.plain = none →
      (∀ before a after, as' = before ++ a :: after → ∀ h ∈ [out.plain, out],
        ¬Routes (cleared.play before).board h a) →
      let b' := (cleared.play as').board
      (∀ h ∈ [out.plain, out], ∀ a, ((b'.act a).board.route? h).isSome ↔ Routes b' h a) ∧
      ∀ payload,
        let packet := 0x09 :: 0x03 :: id :: payload
        let unhandled := min (b'.routes.unhandled + 1) RouteTable.unhandledLimit
        let dropped : Outcome L₁ ε₁ κ Unit :=
          ⟨(), [.notice (.dropped packet)], { b' with routes := { b'.routes with unhandled } }⟩
        b'.receive packet = dropped) ∧
    (cleared.withLink link₂).tearDown.board.withLink cleared.link = cleared := by
  intro b o cleared isGone
  have c : Coherent b := (withFilters_coherent link name filters).play as |>.left
  have ⟨l₁, h₁⟩ := (b.withLink link₁).tearDown_board
  have ⟨l₂, h₂⟩ := (b.withLink link₂).tearDown_board
  rw [cleared_withLink] at h₁ h₂
  have h₁ : cleared = b.cleared.withLink l₁ := h₁
  have hv (h : Header) :
      cleared.lookup? h = (if isGone h then none else b.lookup? h) ∧
      cleared.route? h = (if isGone h then none else b.route? h) ∧
      cleared.subscriber? h = if isGone h then none else b.subscriber? h := by
    rw [h₁]
    exact c.views_cleared h
  refine ⟨?same, ⟨?pending, ?ledgers, ?signals, ?filters, ?unhandled⟩, hv, ?commands, ?packets,
    ?again⟩
  case same =>
    rw [h₂, h₁]
    rfl
  case pending   => exact (congrArg (·.pending) h₁).trans (pending_cleared (b := b))
  case ledgers   => exact fun event => (congrArg (·.ledger? event) h₁).trans ledger?_cleared
  case filters   => exact (congrArg (·.filters) h₁).trans (filters_cleared (b := b))
  case unhandled => exact (congrArg (·.routes.unhandled) h₁).trans unhandled_cleared
  case signals =>
    intro h s hs
    have hl := (congrArg (·.lookup? h) h₁).symm.trans hs
    have hp := Option.filter_eq_some_iff.mp <| lookup?_cleared.symm.trans hl
    simpa using hp.right
  case commands =>
    intro d₁ d₂
    have ⟨hr, he⟩ := (b.withLink link₁).tearDown_commands
    have hr : o.result = (d₁.verdict.bind fun _ => d₂.verdict).mapError .link := hr
    refine ⟨he, hr, ?_⟩
    rw [hr]
    cases d₁.verdict
    case error => exact ⟨nofun, fun h => nomatch h.left⟩
    case ok =>
      cases d₂.verdict
      case error => exact ⟨nofun, fun h => nomatch h.right⟩
      case ok    => exact ⟨fun _ => ⟨rfl, rfl⟩, fun _ => rfl⟩
  case packets =>
    intro id as' out hg hp ha b'
    have c' : Coherent cleared := h₁ ▸ c.cleared.withLink l₁
    have hr : ∀ h ∈ [out.plain, out], cleared.route? h = none := by
      simp [hv, hg, hp]
    have hr' : ∀ h ∈ [out.plain, out], b'.route? h = none := fun h hm =>
      c'.play_route?_eq_none (hr h hm) fun before a after has => ha before a after has h hm
    refine ⟨fun h hm a => (c'.play as').left.route?_act_iff (hr' h hm) a, fun payload => ?_⟩
    exact receive_of_unrouted (hr' out.plain (by simp)) (hr' out (by simp)) payload
  case again =>
    have ⟨l, h⟩ := (cleared.withLink link₂).tearDown_board
    rw [h, h₁, cleared_withLink, cleared_withLink, cleared_cleared]
    rfl

-- A processor and a channel of the same register, someone who waits for another processor, and an
-- event with a command.
def occupiedOutputs : List (Action MeteredLink String) :=
  let event := BuiltIn.switchState.header
  let source := .device ⟨.caller, 0⟩ event .statusByte
  let outputs := .device ⟨.caller, 1⟩ (Processor.output 0).plain .unsized
  [
    .perform <| .createProcessor source ⟨⟨9⟩, .empty, .statusByte, some 1⟩ "processor",
    .perform <| .receive [Module.processor, Register.addProcessor, 4],
    .perform <| .idSignal outputs 5,
    .perform <| .createProcessor source ⟨⟨9⟩, .empty, .statusByte, none⟩ "waiting",
    .perform <| .recordEventCommand event 1
  ]

theorem tearDown_clears_behind_any_link_of_occupiedOutputs :
    let b := ((withFilters {} 0 .stock : Board MeteredLink String).play occupiedOutputs).board
    let interrupted := (b.withLink ({ quota := some 1 } : MeteredLink)).tearDown
    let refused := (b.withLink ({ quota := some 0 } : MeteredLink)).tearDown
    accepted interrupted.events = [[0x09, 0x08]] ∧ accepted refused.events = [] ∧
    completions interrupted.events = ["waiting"] ∧
    refused.board.withLink interrupted.board.link = interrupted.board ∧
    (b.lookup? (Processor.output 5)).isSome ∧
    interrupted.board.lookup? (Processor.output 5) = b.lookup? (Processor.output 5) ∧
    (b.lookup? (Processor.output 4)).any (·.isProcessor) ∧
    interrupted.board.lookup? (Processor.output 4) = none ∧
    (interrupted.board.receive [0x09, 0x03, 4, 1] : Outcome _ LinkFault _ _).events =
      [.notice (.dropped [0x09, 0x03, 4, 1])] := by
  intro b interrupted refused
  have h₄ : (b.lookup? (Processor.output 4)).any (·.isProcessor) := by decide +kernel
  have h₅ : (b.lookup? (Processor.output 5)).any (·.isProcessor) = false := by decide +kernel
  have hp : b.route? (Processor.output 4).plain = none := by decide +kernel
  have ⟨hs, _, hv, _, hd, _⟩ := tearDown_clears_behind_any_link ({} : MeteredLink) 0 .stock
    occupiedOutputs ({ quota := some 1 } : MeteredLink) ({ quota := some 0 } : MeteredLink)
  refine ⟨by decide +kernel, by decide +kernel, by decide +kernel, hs, by decide +kernel, ?_, h₄,
    ?_, ?_⟩
  · exact (hv (Processor.output 5)).left.trans <| if_neg (ne_true_of_eq_false h₅)
  · exact (hv (Processor.output 4)).left.trans <| if_pos h₄
  · exact congrArg (·.events) <| (hd 4 [] h₄ hp (by simp)).right [1]

end SensorBoard.Board
