import SensorBoard.Proofs.Session.Step

namespace SensorBoard.Board

section Start

-- At the start there are no signals, subscribers and ledgers, and the one route is that of
-- confirmations.
theorem lookup?_withFilters (link : L) (name : Nat) (filters : Processor.FilterTable) (h : Header) :
    (withFilters link name filters : Board L κ).lookup? h = none := by
  simp [lookup?, withFilters, Registry.get?]

theorem route?_withFilters (link : L) (name : Nat) (filters : Processor.FilterTable) (h : Header) :
    (withFilters link name filters : Board L κ).route? h =
      if Processor.confirmation = h then some .processorCreated else none :=
  RouteTable.get?_register

theorem subscriber?_withFilters
    (link : L) (name : Nat) (filters : Processor.FilterTable) (h : Header) :
    (withFilters link name filters : Board L κ).subscriber? h = none := by
  simp [subscriber?, withFilters]

theorem ledger?_withFilters
    (link : L) (name : Nat) (filters : Processor.FilterTable) (event : Header) :
    (withFilters link name filters : Board L κ).ledger? event = none := by
  simp [ledger?, withFilters]

end Start

section File

variable {b : Board L κ}

theorem lookup?_file : (b.file s).lookup? h = if s.header = h then some s else b.lookup? h :=
  Registry.get?_insert

theorem lookup?_file_register :
    ((b.file s).register h' handler).lookup? h = if s.header = h then some s else b.lookup? h :=
  lookup?_file

theorem route?_file_register :
    ((b.file s).register h' handler).route? h = if h' = h then some handler else b.route? h :=
  route?_register

end File

section Cleared

def processors (b : Board L κ) : List Signal :=
  (b.signals.drainWhere (·.isProcessor)).1

-- Detaching signals one after the other touches routes and subscribers only, and only where those
-- signals belong.
theorem foldl_detach (ss : List Signal) (b : Board L κ) :
    ∃ routes subscribers, ss.foldl (·.detach ·.header) b = { b with routes, subscribers } ∧
      (∀ h, routes.get? h = if h ∈ ss.map Signal.header then none else b.route? h) ∧
      (∀ h, subscribers[h]? = if h ∈ ss.map Signal.header then none else b.subscriber? h) := by
  induction ss generalizing b
  case nil => exact ⟨b.routes, b.subscribers, by simp [route?, subscriber?]⟩
  case cons s ss hi =>
    obtain ⟨routes, subscribers, hb, hr, hs⟩ := hi (b.detach s.header)
    refine ⟨routes, subscribers, hb, fun h => ?_, fun h => ?_⟩
    · rw [hr, route?_detach, List.map_cons]
      grind
    · rw [hs, subscriber?_detach, List.map_cons]
      grind

variable {b : Board L κ}

theorem cleared_eq (b : Board L κ) :
    ∃ routes subscribers,
      b.cleared = {
        b with
        signals := (b.signals.drainWhere (·.isProcessor)).2
        pending := []
        ledgers := ∅
        routes
        subscribers
      } ∧
      (∀ h, routes.get? h = if h ∈ b.processors.map Signal.header then none else b.route? h) ∧
      (∀ h, subscribers[h]? =
        if h ∈ b.processors.map Signal.header then none else b.subscriber? h) :=
  foldl_detach b.processors _

@[simp]
theorem pending_cleared : b.cleared.pending = [] := by
  have ⟨_, _, hb, _, _⟩ := b.cleared_eq
  rw [hb]

theorem name_cleared : b.cleared.name = b.name := by
  have ⟨_, _, hb, _, _⟩ := b.cleared_eq
  rw [hb]

theorem issued_cleared : b.cleared.issued = b.issued := by
  have ⟨_, _, hb, _, _⟩ := b.cleared_eq
  rw [hb]

theorem filters_cleared : b.cleared.filters = b.filters := by
  have ⟨_, _, hb, _, _⟩ := b.cleared_eq
  rw [hb]

theorem lookup?_cleared : b.cleared.lookup? h = (b.lookup? h).filter (!·.isProcessor) := by
  have ⟨_, _, hb, _, _⟩ := b.cleared_eq
  rw [hb]
  exact Registry.get?_drainWhere

theorem route?_cleared :
    b.cleared.route? h =
      if h ∈ b.processors.map Signal.header then none else b.route? h := by
  have ⟨_, _, hb, hr, _⟩ := b.cleared_eq
  rw [hb]
  exact hr h

theorem subscriber?_cleared :
    b.cleared.subscriber? h =
      if h ∈ b.processors.map Signal.header then none else b.subscriber? h := by
  have ⟨_, _, hb, _, hs⟩ := b.cleared_eq
  rw [hb]
  exact hs h

theorem ledger?_cleared : b.cleared.ledger? event = none := by
  have ⟨_, _, hb, _, _⟩ := b.cleared_eq
  simp [hb, ledger?]

theorem mem_processors : s ∈ b.processors ↔ (∃ h, b.lookup? h = some s) ∧ s.isProcessor :=
  Registry.mem_drainWhere

theorem Step.of_tearDown {b' : Board L κ} {es : List (Event ε κ)}
    (e : Step b (.perform .tearDown) es b') : ∃ link, b' = b.cleared.withLink link := by
  cases e with
  | tornDown link => exact ⟨link, rfl⟩
  | aside _ _ _ ha | refused _ _ ha | singletonFound ha | singletonMade ha => cases ha
  | requested _ _ hp => cases hp

end Cleared

section Deliver

variable {b : Board L κ}

-- Delivery comes down to at most one event.
theorem deliver_cases (b : Board L κ) (h : Header) (payload : List UInt8) :
    let es : List (Event ε κ) := b.deliver h payload
    es = [] ∨ (∃ k v, es = [.sample k h v]) ∨
      ∃ n, es = [.notice n] ∧ (n.isUnregistered → b.lookup? h = none) := by
  dsimp only [deliver]
  cases hs : b.lookup? h
  case none => exact .inr <| .inr ⟨_, rfl, fun _ => rfl⟩
  case some s =>
    dsimp only
    cases s.format.decode payload
    case error => exact .inr <| .inr ⟨_, rfl, nofun⟩
    case ok v =>
      cases b.subscriber? h
      case none   => exact .inl rfl
      case some k => exact .inr <| .inl ⟨k, v, rfl⟩

@[simp]
theorem completions_deliver :
    completions (b.deliver h payload : List (Event ε κ)) = [] := by
  obtain he | ⟨_, _, he⟩ | ⟨_, he, _⟩ := b.deliver_cases h payload <;> rw [he] <;> rfl

@[simp]
theorem creations_deliver : creations (b.deliver h payload : List (Event ε κ)) = 0 := by
  obtain he | ⟨_, _, he⟩ | ⟨_, he, _⟩ := b.deliver_cases h payload <;> rw [he] <;> rfl

theorem unregistered_not_mem_deliver (hs : (b.lookup? h).isSome) :
    .notice (.unregistered h') ∉ (b.deliver h payload : List (Event ε κ)) := by
  obtain he | ⟨_, _, he⟩ | ⟨n, he, hn⟩ := b.deliver_cases h payload <;> rw [he]
  case inl      => simp
  case inr.inl  => simp
  case inr.inr =>
    intro hm
    cases List.mem_singleton.mp hm
    simp [hn rfl] at hs

end Deliver

end SensorBoard.Board
