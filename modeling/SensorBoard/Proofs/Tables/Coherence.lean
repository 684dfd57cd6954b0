import SensorBoard.Proofs.Session.Views

namespace SensorBoard.Board

-- Registry and route table are kept apart, but always fit together.
structure Coherent (b : Board L κ) : Prop where
  filed        : b.lookup? h = some s → s.header = h
  routed       : b.lookup? h = some s → (b.route? h).isSome
  registered   : b.route? h = some handler → handler.isSample → (b.lookup? h).isSome
  confirmation : b.route? h = some .processorCreated → h = Processor.confirmation
  output       : b.lookup? h = some s → s.isProcessor → ∃ id, h = Processor.output id

namespace Coherent

variable {b b' : Board L κ}

theorem congr (c : Coherent b) (hl : ∀ h, b'.lookup? h = b.lookup? h)
    (hr : ∀ h, b'.route? h = b.route? h) : Coherent b' where
  filed h        := c.filed (hl _ ▸ h)
  routed h       := hr _ ▸ c.routed (hl _ ▸ h)
  registered h   := hl _ ▸ c.registered (hr _ ▸ h)
  confirmation h := c.confirmation (hr _ ▸ h)
  output h       := c.output (hl _ ▸ h)

theorem withLink (c : Coherent b) (link : L') : Coherent (b.withLink link) where
  filed        := c.filed
  routed       := c.routed
  registered   := c.registered
  confirmation := c.confirmation
  output       := c.output

-- Signals may go as long as their routes go with them.
theorem restrict (c : Coherent b) (p : Header → Bool)
    (hl : ∀ h, b'.lookup? h = if p h then none else b.lookup? h)
    (hr : ∀ h, b'.route? h = if p h then none else b.route? h) : Coherent b' where
  filed        := by grind [c.filed]
  routed       := by grind [c.routed]
  registered   := by grind [c.registered]
  confirmation := by grind [c.confirmation]
  output       := by grind [c.output]

theorem register (c : Coherent b) (hn : handler ≠ .processorCreated)
    (hs : handler.isSample → (b.lookup? h).isSome) : Coherent (b.register h handler) where
  filed := c.filed
  routed hl := by
    rw [route?_register]
    split
    · rfl
    · exact c.routed hl
  registered hr := by
    rw [route?_register] at hr
    split at hr
    case isTrue h => cases hr; exact h ▸ hs
    case isFalse => exact c.registered hr
  confirmation hr := by
    rw [route?_register] at hr
    split at hr
    case isTrue => simp_all
    case isFalse => exact c.confirmation hr
  output := c.output

-- A signal is filed and routed in one go.
theorem file_register (c : Coherent b) (hh : s.header = h) (hs : handler.isSample)
    (hp : s.isProcessor → ∃ id, h = Processor.output id) :
    Coherent ((b.file s).register h handler) where
  filed := by grind [lookup?_file_register, c.filed]
  routed := by grind [lookup?_file_register, route?_file_register, c.routed]
  registered := by grind [lookup?_file_register, route?_file_register, c.registered]
  confirmation hr := by
    rw [route?_file_register] at hr
    split at hr
    case isTrue =>
      cases hr
      contradiction
    case isFalse => exact c.confirmation hr
  output := by grind [lookup?_file_register, c.output]

-- Under coherence, the headers of the processors are the headers at which there are processors.
theorem mem_headers_iff (c : Coherent b) :
    h ∈ b.processors.map Signal.header ↔ ∃ s, b.lookup? h = some s ∧ s.isProcessor := by
  simp only [List.mem_map, mem_processors]
  constructor
  case mp =>
    rintro ⟨s, ⟨⟨h', hs⟩, hp⟩, rfl⟩
    exact ⟨s, c.filed hs ▸ hs, hp⟩
  case mpr =>
    rintro ⟨s, hs, hp⟩
    exact ⟨s, ⟨⟨h, hs⟩, hp⟩, c.filed hs⟩

theorem cleared (c : Coherent b) : Coherent b.cleared := by
  apply c.restrict (· ∈ b.processors.map Signal.header)
  case hl =>
    intro h
    rw [lookup?_cleared]
    cases hs : b.lookup? h
    case none => simp
    case some s => grind [c.mem_headers_iff (h := h)]
  case hr => simp [route?_cleared]

theorem install (c : Coherent b) (p : PendingCreation κ) (id : UInt8) :
    Coherent (b.install (b.confirmed p id)) := by
  have hf : Coherent ((b.file (b.confirmed p id)).register (Processor.output id) .sampleWithId) :=
    c.file_register (b.confirmed_header p) rfl fun _ => ⟨id, rfl⟩
  exact hf.congr (fun _ => rfl) (fun _ => rfl)

end Coherent

theorem Step.preserves_coherent {b b' : Board L κ} {es : List (Event ε κ)}
    (e : Step b a es b') (c : Coherent b) : Coherent b' := by
  cases e with
  | aside | refused | requested | subscribed | unsubscribed | malformed | aborted =>
    exact c.congr (fun _ => rfl) (fun _ => rfl)
  | channelFound | handled | sampled | unexpected => exact c
  | singletonFound _ hs => exact c.register nofun fun _ => by simp [hs]
  | rerouted => exact c.register nofun nofun
  | singletonMade | channelMade => exact c.file_register rfl rfl nofun
  | created => exact (c.install _ _).congr (fun _ => rfl) (fun _ => rfl)
  | dropped =>
    refine c.congr (fun _ => rfl) fun h => ?_
    simp [route?, RouteTable.get?, RouteTable.resolve_preserves_handlers]
  | @removed s =>
    apply c.restrict (s.header = ·) <;> simp only [decide_eq_true_eq]
    case hl => exact fun _ => lookup?_forget
    case hr => exact fun _ => route?_forget
  | tornDown _ _ => exact c.cleared.congr (fun _ => rfl) (fun _ => rfl)

theorem withFilters_coherent (link : L) (name : Nat) (filters : Processor.FilterTable) :
    Coherent (withFilters link name filters : Board L κ) where
  filed hs  := by simp [lookup?_withFilters] at hs
  routed hs := by simp [lookup?_withFilters] at hs
  output hs := by simp [lookup?_withFilters] at hs
  registered hr hs := by
    rw [route?_withFilters] at hr
    split at hr <;> cases hr
    contradiction
  confirmation hr := by
    rw [route?_withFilters] at hr
    split at hr
    case isTrue h => exact h.symm
    case isFalse  => contradiction

namespace Coherent

variable {b : Board L κ} {id : UInt8}

theorem processorId?_eq (c : Coherent b) (hs : b.lookup? (Processor.output id) = some s)
    (hp : s.isProcessor) : s.processorId? = some id := by
  have hh := c.filed hs
  simp [Signal.processorId?, hp, hh, Processor.output]

-- A processor is found under its id just as well as under its header.
theorem lookupProcessor?_of_isProcessor (c : Coherent b) (hs : b.lookup? h = some s)
    (hp : s.isProcessor) :
    ∃ id, s.header = Processor.output id ∧ s.processorId? = some id ∧
      b.lookupProcessor? id = some s := by
  have ⟨id, ho⟩ := c.output hs hp
  subst ho
  refine ⟨id, c.filed hs, c.processorId?_eq hs hp, ?_⟩
  have hs : b.signals.get? (Processor.output id) = some s := hs
  rw [lookupProcessor?, hs]
  exact Option.filter_eq_some_iff.mpr ⟨rfl, hp⟩

end Coherent

-- A sample is always that of a signal on file.
theorem Step.unregistered_not_mem {b b' : Board L κ} {es : List (Event ε κ)} (e : Step b a es b')
    (c : Coherent b) : .notice (.unregistered h) ∉ es := by
  cases e with
  | aside _ _ _ _ he | requested _ _ _ he | rerouted he | removed _ _ _ he =>
    exact he.unregistered_not_mem
  | refused _ _ _ he => simp [he.unregistered_not_mem]
  | tornDown _ he    => simp [he.unregistered_not_mem]
  | sampled _ hh hs  => simp [unregistered_not_mem_deliver (c.registered hh hs)]
  | singletonFound | singletonMade | channelFound | channelMade | subscribed | unsubscribed
  | dropped | handled | unexpected | malformed | created | aborted => simp

variable [Link L ε]

theorem Coherent.play {b : Board L κ} (c : Coherent b) (as : List (Action L κ)) :
    Coherent (b.play as).board ∧ ∀ h, .notice (.unregistered h) ∉ (b.play as).events := by
  apply play_induction
    (motive := fun _ es b' => Coherent b' ∧ ∀ h, .notice (.unregistered h) ∉ es)
  case start => exact ⟨c, by simp⟩
  case step =>
    intro a _ done es b₁ es' b₂ ⟨c, hu⟩ e
    refine ⟨e.preserves_coherent c, fun h => ?_⟩
    have := hu h
    have := e.unregistered_not_mem c (h := h)
    simp_all

-- Whatever is done with a board and whatever its link and its packets are like, registry and routes
-- fit together. So there is never a report of a sample without signal.
theorem play_coherent
    (link : L) (name : Nat) (filters : Processor.FilterTable) (as : List (Action L κ)) :
    let o := (withFilters link name filters : Board L κ).play as
    let b := o.board
    (∀ h s, b.lookup? h = some s → s.header = h ∧ (b.route? h).isSome) ∧
    (∀ h handler, b.route? h = some handler → handler.isSample → (b.lookup? h).isSome) ∧
    (∀ h, b.route? h = some .processorCreated → h = Processor.confirmation) ∧
    (∀ h s, b.lookup? h = some s → s.isProcessor →
      ∃ id, s.header = Processor.output id ∧ s.processorId? = some id ∧
        b.lookupProcessor? id = some s) ∧
    ∀ h, .notice (.unregistered h) ∉ o.events := by
  intro o b
  have ⟨c, hu⟩ := (withFilters_coherent link name filters : Coherent (κ := κ) _).play as
  refine ⟨?filed, ?registered, ?confirmation, ?output, hu⟩
  case filed        => exact fun h s hs => ⟨c.filed hs, c.routed hs⟩
  case registered   => exact fun h handler hr hs => c.registered hr hs
  case confirmation => exact fun h hr => c.confirmation hr
  case output       => exact fun h s hs hp => c.lookupProcessor?_of_isProcessor hs hp

end SensorBoard.Board
