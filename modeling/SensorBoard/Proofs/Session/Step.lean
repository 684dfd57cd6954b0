import SensorBoard.Proofs.Session.Events

namespace SensorBoard

namespace Board

-- The entry for the queue that an action asks for.
def creation? (b : Board L κ) : Action L κ → Option (PendingCreation κ)
  | .perform (.createProcessor source r k) => some ⟨r.kind, r.config, r.format, source, k⟩
  | .perform (.averageQuaternions source depth filter k) =>
    (b.filters.allocate Processor.QuaternionAverage.name).1.map fun kind =>
      let r := Processor.QuaternionAverage.request kind depth filter
      ⟨r.kind, r.config, r.format, source, k⟩
  | _ => none

-- The device signal that the board makes next.
def device (b : Board L κ) (h : Header) (format : Sample.Format) : Signal :=
  .device ⟨.board b.name, b.issued⟩ h format

def file (b : Board L κ) (s : Signal) : Board L κ :=
  { b with signals := (b.signals.insert s).2, issued := b.issued + 1 }

theorem callback?_of_creation? {b : Board L κ} (h : b.creation? a = some p) :
    a.callback? = some p.callback := by
  unfold creation? at h
  split at h
  case h_1 => simp [Action.callback?, Operation.callback?, ← Option.some.inj h]
  case h_2 =>
    have ⟨_, _, hp⟩ := Option.map_eq_some_iff.mp h
    simp [Action.callback?, Operation.callback?, ← hp]
  case h_3 => contradiction

-- Link, filters and ledgers change in many ways, and nothing else depends on them. So they are left
-- open.
inductive Step {ε : Type} (b : Board L κ) : Action L κ → List (Event ε κ) → Board L κ → Prop
  | aside (link filters ledgers)
      (ha : a.isAside) (he : Outbound n es) (hn : a.isBareCreation = false → n = 0) :
    Step b a es { b with link, filters, ledgers }
  | refused (link filters) (ha : a.callback? = some k) (he : Outbound 0 es) :
    Step b a (es ++ [.failed k e]) { b with link, filters }
  | requested (link filters) (hp : b.creation? a = some p) (he : Outbound 1 es) :
    Step b a es { b with link, filters, pending := b.pending ++ [p] }
  | singletonFound (ha : a.singleton? = some (h, format)) (hs : b.lookup? h = some s) :
    Step b a [] (b.register h .sampleWithoutId)
  | singletonMade (ha : a.singleton? = some (h, format)) (hs : b.lookup? h = none) :
    Step b a [.notice (.signalCreated h)]
      ((b.file (b.device h format)).register h .sampleWithoutId)
  | channelFound (hs : b.lookup? (s.header.subChannel i) = some t) :
    Step b (.perform (.idSignal s i)) [] b
  | channelMade (hh : s.header.subChannel i = h) (hs : b.lookup? h = none) :
    Step b (.perform (.idSignal s i)) [.notice (.idSignalCreated h)]
      ((b.file (b.device h .unsized)).register h .sampleWithId)
  | subscribed :
    Step b (.perform (.subscribe s k)) [] (b.subscribe s k).2
  | unsubscribed :
    Step b (.perform (.unsubscribe s)) [] (b.unsubscribe s).2
  | rerouted (he : Outbound 0 es) :
    Step b (.perform (.onResponse h k)) es (b.register h (.custom k))
  | dropped (hr : b.routes.match? packet = none) :
    Step b (.perform (.receive packet)) [.notice (.dropped packet)]
      { b with routes := (b.routes.resolve packet).2 }
  | handled
      (hr : b.routes.match? packet = some route) (hh : b.route? route.header = some (.custom k))
      (hp : route.payload packet = payload) :
    Step b (.perform (.receive packet))
      [.notice (.routing route.header payload.length), .custom k route.header payload] b
  | sampled
      (hr : b.routes.match? packet = some route) (hh : b.route? route.header = some handler)
      (hs : handler.isSample) (hp : route.payload packet = payload) :
    Step b (.perform (.receive packet))
      (.notice (.routing route.header payload.length) :: b.deliver route.header payload) b
  | unexpected
      (hr : b.routes.match? packet = some route)
      (hh : b.route? route.header = some .processorCreated)
      (hl : (route.payload packet).length = n) (hp : b.pending = []) :
    Step b (.perform (.receive packet))
      [.notice (.routing route.header n), .notice .unexpectedConfirmation] b
  | malformed
      (hr : b.routes.match? packet = some route)
      (hh : b.route? route.header = some .processorCreated)
      (hl : route.payload packet = []) (hp : b.pending = p :: ps) :
    Step b (.perform (.receive packet))
      [
        .notice (.routing route.header 0),
        .notice .emptyConfirmation,
        .failed p.callback .malformedConfirmation
      ]
      { b with pending := ps }
  | created
      (hr : b.routes.match? packet = some route)
      (hh : b.route? route.header = some .processorCreated)
      (hl : route.payload packet = i :: payload) (hp : b.pending = p :: ps) :
    Step b (.perform (.receive packet))
      [
        .notice (.routing route.header (payload.length + 1)),
        .notice (.processorCreated p.kind (Processor.output i)),
        .created p.callback (b.confirmed p i)
      ]
      { b.install (b.confirmed p i) with pending := ps }
  | aborted :
    Step b (.perform .abortPending) (b.pending.map (.failed ·.callback .aborted))
      { b with pending := [] }
  | removed (link)
      (hs : b.lookup? s.header = some s) (hi : s.processorId? = some i) (he : Outbound 0 es) :
    Step b (.perform (.removeProcessor s)) es ((b.withLink link).forget s.header)
  | tornDown (link) (he : Outbound 0 es) :
    Step b (.perform .tearDown) (b.pending.map (.failed ·.callback .aborted) ++ es)
      (b.cleared.withLink link)

section Signals

variable {b : Board L κ} {o : Outcome L ε κ Signal}

theorem singletonSignal_step
    (ha : a.singleton? = some (h, format)) (ho : b.singletonSignal h format = o) :
    Step b a o.events o.board := by
  cases hs : b.lookup? h
  case none =>
    rw [← ho, singletonSignal, ensureSignal_of_none hs]
    exact .singletonMade ha hs
  case some =>
    rw [← ho, singletonSignal, ensureSignal_of_some hs]
    exact .singletonFound ha hs

theorem idSignal_step (ho : b.idSignal s i = o) :
    Step b (.perform (.idSignal s i)) o.events o.board := by
  cases hs : b.lookup? (s.header.subChannel i)
  case none =>
    rw [← ho, idSignal, ensureSignal_of_none hs]
    exact .channelMade rfl hs
  case some =>
    rw [← ho, idSignal, ensureSignal_of_some hs]
    exact .channelFound hs

end Signals

section Outward

variable [Link L ε] {b : Board L κ}

-- Whatever becomes of a command, all that it leaves is a record and another link.
theorem send_cases (b : Board L κ) (c : Command) :
    (∃ fault es link, b.send c = ⟨.error (.link fault), es, b.withLink link⟩ ∧ Outbound 0 es ∧
      accepted es = []) ∨
    (∃ es link, b.send c = ⟨.ok (), es, b.withLink link⟩ ∧
      Outbound (if c.creates then 1 else 0) es ∧ accepted es = [c.bytes]) := by
  cases h : (Link.write b.link c.bytes).verdict
  case error fault =>
    refine .inl ⟨_, _, _, send_of_refused h, ⟨by simp, ?_⟩, ?_⟩ <;>
      simp [creations_eq_countP, accepted_answers, h, Except.isOk, Except.toBool]
  case ok =>
    refine .inr ⟨_, _, send_of_accepted h, .concat ⟨by simp, ?_⟩ rfl, ?_⟩
    · simp [creations_eq_countP, accepted_answers, h, Except.isOk, Except.toBool,
        Command.isCreation_bytes]
    · simp [accepted_answers, h, Except.isOk, Except.toBool]

-- The loop gets through, or it stops at the first command that the link refuses.
theorem removeEventCommands_cases (b : Board L κ) (ids : List UInt8) :
    (∃ es link, b.removeEventCommands ids = ⟨.ok (), es, b.withLink link⟩ ∧ Outbound 0 es ∧
      accepted es = Command.removals ids) ∨
    (∃ e sent unsent es link, ids = sent ++ unsent ∧ unsent ≠ [] ∧
      b.removeEventCommands ids = ⟨.error (e, unsent), es, b.withLink link⟩ ∧ Outbound 0 es ∧
      accepted es = Command.removals sent) := by
  induction ids generalizing b
  case nil => exact .inl ⟨[], b.link, rfl, .nil, rfl⟩
  case cons id ids hi =>
    obtain ⟨fault, es, link, hs, he, ha⟩ | ⟨es, link, hs, he, ha⟩ :=
      b.send_cases (.removeEventCommand id)
    case inl =>
      refine .inr ⟨.link fault, [], id :: ids, es, link, rfl, by simp, ?_, he, ha⟩
      rw [removeEventCommands, hs]
    case inr =>
      have he : Outbound 0 es := he
      obtain ⟨es', link', hr, he', ha'⟩ | ⟨e, sent, unsent, es', link', hids, hu, hr, he', ha'⟩ :=
        hi (b.withLink link)
      case inl =>
        refine .inl ⟨es ++ es', link', ?_, he.append he', by simp [ha, ha', Command.removals]⟩
        simp only [removeEventCommands, hs, hr]
        rfl
      case inr =>
        refine .inr ⟨e, id :: sent, unsent, es ++ es', link', by simp [hids], hu, ?_,
          he.append he', by simp [ha, ha', Command.removals]⟩
        simp only [removeEventCommands, hs, hr]
        rfl

theorem send_step (ha : a.isAside) (hc : a.isBareCreation = false → c.creates = false)
    (ho : b.send c = o) : Step b a o.events o.board := by
  obtain ⟨_, es, link, hs, he, _⟩ | ⟨es, link, hs, he, _⟩ := b.send_cases c
  case inl => exact ho ▸ hs ▸ .aside link b.filters b.ledgers ha he fun _ => rfl
  case inr =>
    refine ho ▸ hs ▸ .aside link b.filters b.ledgers ha he fun h => ?_
    simp [hc h]

theorem eraseEventCommands_step (ho : b.eraseEventCommands event = o) :
    Step b (.perform (.eraseEventCommands event)) o.events o.board := by
  cases hl : b.ledger? event
  case none =>
    rw [← ho, eraseEventCommands, hl]
    exact .aside b.link b.filters b.ledgers rfl .nil fun _ => rfl
  case some ledger =>
    obtain ⟨es, link, hr, he, _⟩ | ⟨_, _, _, es, link, _, _, hr, he, _⟩ :=
      b.removeEventCommands_cases ledger.ids
    case inl =>
      simp only [← ho, eraseEventCommands, hl, hr]
      exact .aside link b.filters _ rfl (he.concat rfl) fun _ => rfl
    case inr =>
      simp only [← ho, eraseEventCommands, hl, hr]
      exact .aside link b.filters _ rfl he fun _ => rfl

theorem createProcessor_step (filters : Processor.FilterTable)
    (hp : b.creation? a = some ⟨r.kind, r.config, r.format, source, k⟩)
    (ho : { b with filters }.createProcessor source r k = o) : Step b a o.events o.board := by
  have ha := callback?_of_creation? hp
  rw [← ho, createProcessor]
  generalize r.filter?.elim _ _ = filters'
  dsimp only
  cases filters'.filter? r.kind
  case none => exact .refused b.link filters' ha .nil
  case some filter =>
    have hs := ({ b with filters := filters' }.enqueue ⟨r.kind, r.config, r.format, source, k⟩)
      |>.send_cases (.createProcessor source.header filter r.config)
    obtain ⟨_, es, link, hs, he, _⟩ | ⟨es, link, hs, he, _⟩ := hs
    case inl =>
      simp only [hs, enqueue_withLink, withdraw_enqueue]
      exact .refused link filters' ha he
    case inr =>
      have he : Outbound 1 es := he
      simp only [hs]
      exact .requested link filters' hp (he.concat rfl)

theorem averageQuaternions_step (ho : b.averageQuaternions source depth filter k = o) :
    Step b (.perform (.averageQuaternions source depth filter k)) o.events o.board := by
  cases hk : b.filters.allocate Processor.QuaternionAverage.name
  case mk kind? filters =>
    cases kind?
    case none =>
      rw [← ho, averageQuaternions, hk]
      exact .refused b.link filters rfl .nil
    case some kind =>
      rw [averageQuaternions, hk] at ho
      exact createProcessor_step filters (by simp [creation?, hk]) ho

-- A removal that fails leaves everything but the link as it is.
theorem removeProcessor_cases (b : Board L κ) (s : Signal) :
    (∃ e es link, b.removeProcessor s = ⟨.error e, es, b.withLink link⟩ ∧ Outbound 0 es) ∨
    (∃ i es link, s.processorId? = some i ∧ b.lookup? s.header = some s ∧
      b.removeProcessor s = ⟨.ok (), es, (b.withLink link).forget s.header⟩ ∧ Outbound 0 es) := by
  rw [removeProcessor]
  cases hi : s.processorId?
  case none => exact .inl ⟨_, _, b.link, rfl, .nil⟩
  case some i =>
    by_cases hs : b.lookup? s.header = some s
    case neg =>
      simp only [if_neg hs]
      exact .inl ⟨_, _, b.link, rfl, .nil⟩
    case pos =>
      simp only [if_pos hs]
      obtain ⟨_, es, link, hc, he, _⟩ | ⟨es, link, hc, he, _⟩ := b.send_cases (.removeProcessor i)
      all_goals rw [hc]
      case inl => exact .inl ⟨_, _, link, rfl, he⟩
      case inr =>
        have he : Outbound 0 es := he
        exact .inr ⟨i, _, link, rfl, hs, rfl, he.concat rfl⟩

theorem removeProcessor_step (ho : b.removeProcessor s = o) :
    Step b (.perform (.removeProcessor s)) o.events o.board := by
  obtain ⟨_, es, link, hr, he⟩ | ⟨i, es, link, hi, hs, hr, he⟩ := b.removeProcessor_cases s
  case inl => exact ho ▸ hr ▸ .aside link b.filters b.ledgers rfl he fun _ => rfl
  case inr => exact ho ▸ hr ▸ .removed link hs hi he

theorem tearDown_step (ho : b.tearDown = o) : Step b (.perform .tearDown) o.events o.board := by
  rw [← ho, tearDown]
  have hn (n₁ n₂ : Nat) : Outbound 0 ([.notice (.tearingDown n₁ n₂)] : List (Event ε κ)) :=
    .concat .nil rfl
  obtain ⟨_, es₁, link₁, h₁, he₁, _⟩ | ⟨es₁, link₁, h₁, he₁, _⟩ :=
    b.cleared.send_cases .removeAllProcessors
  case inl =>
    simp only [h₁, List.append_assoc]
    exact .tornDown link₁ ((hn ..).append he₁)
  case inr =>
    have he₁ : Outbound 0 es₁ := he₁
    obtain ⟨_, es₂, link₂, h₂, he₂, _⟩ | ⟨es₂, link₂, h₂, he₂, _⟩ :=
      (b.cleared.withLink link₁).send_cases .removeAllEventCommands
    all_goals
      have he₂ : Outbound 0 es₂ := he₂
      simp only [h₁, h₂, List.append_assoc]
      exact .tornDown link₂ ((hn ..).append (he₁.append he₂))

end Outward

section Inbound

variable {b : Board L κ} {o : Outcome L ε κ Unit}

theorem receive_step (ho : b.receive packet = o) :
    Step b (.perform (.receive packet)) o.events o.board := by
  rw [← ho]
  cases hr : b.routes.match? packet
  case none =>
    rw [receive_of_no_match? hr]
    exact .dropped hr
  case some route =>
    rw [receive_of_match? hr]
    dsimp only [dispatch]
    cases hh : b.route? route.header
    case none =>
      have := RouteTable.contains_iff.mp <| RouteTable.contains_of_match? hr
      simp_all [route?]
    case some handler =>
      cases handler
      case custom           => exact .handled hr hh rfl
      case sampleWithId     => exact .sampled hr hh rfl rfl
      case sampleWithoutId  => exact .sampled hr hh rfl rfl
      case processorCreated =>
        dsimp only
        cases hp : b.pending
        case nil =>
          rw [confirm_of_nil hp]
          exact .unexpected hr hh rfl hp
        case cons p ps =>
          cases hl : route.payload packet
          case nil =>
            rw [confirm_of_cons_nil hp]
            exact .malformed hr hh hl hp
          case cons i payload =>
            rw [confirm_of_cons_cons hp]
            exact .created hr hh hl hp

end Inbound

-- The only place where the operations are told apart.
theorem act_step [Link L ε] (b : Board L κ) (a : Action L κ) :
    Step b a (b.act a).events (b.act a).board := by
  cases a
  case setLink link       => exact .aside link b.filters b.ledgers rfl .nil fun _ => rfl
  case setFilters filters => exact .aside b.link filters b.ledgers rfl .nil fun _ => rfl
  case perform op =>
    cases op
    case builtIn s                 => exact singletonSignal_step rfl rfl
    case singletonSignal h format  => exact singletonSignal_step rfl rfl
    case idSignal s i              => exact idSignal_step rfl
    case send c                    => exact send_step rfl id rfl
    case read s                    => exact send_step rfl (fun _ => rfl) rfl
    case stopAdvertising           => exact send_step rfl (fun _ => rfl) rfl
    case subscribe s k             => exact .subscribed
    case unsubscribe s             => exact .unsubscribed
    case receive packet            => exact receive_step rfl
    case createProcessor s r k     => exact createProcessor_step b.filters rfl rfl
    case averageQuaternions        => exact averageQuaternions_step rfl
    case removeProcessor s         => exact removeProcessor_step rfl
    case abortPending              => exact .aborted
    case eraseEventCommands event  => exact eraseEventCommands_step rfl
    case tearDown                  => exact tearDown_step rfl
    case onResponse h k =>
      refine .rerouted ?_
      dsimp only [act, perform, Outcome.mapResult, onResponse]
      split
      · exact .concat .nil rfl
      · exact .nil
    case recordEventCommand =>
      exact .aside b.link b.filters _ rfl .nil fun _ => rfl
    case bind     => exact .aside b.link _ b.ledgers rfl .nil fun _ => rfl
    case unbind   => exact .aside b.link _ b.ledgers rfl .nil fun _ => rfl
    case allocate => exact .aside b.link _ b.ledgers rfl .nil fun _ => rfl

section Induction

variable [Link L ε] {motive : List (Action L κ) → List (Event ε κ) → Board L κ → Prop}

-- The induction principle for sessions that go on from a given point. What is proved may speak of
-- everything that has been done and of everything that has happened so far.
theorem play_induction_from
    (step : ∀ a ∈ as, ∀ {done es b es' b'}, motive done es b → Step b a es' b' →
      motive (done ++ [a]) (es ++ es') b')
    (start : motive done es b) :
    motive (done ++ as) (es ++ (b.play as).events) (b.play as).board := by
  induction as generalizing done es b
  case nil => simpa [play_nil] using start
  case cons a as hi =>
    have h := hi (fun a ha => step a (List.mem_cons_of_mem _ ha))
      (step a List.mem_cons_self start (b.act_step a))
    simpa [play_cons] using h

theorem play_induction
    (step : ∀ a ∈ as, ∀ {done es b es' b'}, motive done es b → Step b a es' b' →
      motive (done ++ [a]) (es ++ es') b')
    (start : motive [] [] b) : motive as (b.play as).events (b.play as).board :=
  play_induction_from step start

end Induction

end Board

end SensorBoard
