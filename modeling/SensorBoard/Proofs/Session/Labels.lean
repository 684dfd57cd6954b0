import SensorBoard.Link.Metered
import SensorBoard.Proofs.Session.Interchange
import SensorBoard.Proofs.Tables.Routes

namespace SensorBoard

namespace Handler

def unlabelled : Handler κ → Handler κ
  | sampleWithId => sampleWithoutId
  | handler      => handler

theorem unlabelled_eq_iff {h₁ h₂ : Handler κ} :
    h₁.unlabelled = h₂.unlabelled ↔ h₁ = h₂ ∨ h₁.isSample ∧ h₂.isSample := by
  cases h₁ <;> cases h₂ <;> simp [unlabelled, isSample]

end Handler

namespace RouteTable

-- The table without the labels of its sample routes.
def unlabelled (t : RouteTable κ) : RouteTable κ :=
  { t with handlers := t.handlers.map fun _ handler => handler.unlabelled }

variable {t t₁ t₂ : RouteTable κ}

theorem get?_unlabelled : t.unlabelled.get? h = (t.get? h).map Handler.unlabelled := by
  simp [unlabelled, get?]

theorem contains_unlabelled : t.unlabelled.contains h = t.contains h := by
  simp [unlabelled, contains]

theorem size_unlabelled : t.unlabelled.size = t.size := by
  simp [unlabelled, size]

theorem unlabelled_ext (hg : ∀ h, t₁.get? h = t₂.get? h) (hu : t₁.unhandled = t₂.unhandled) :
    t₁ = t₂ :=
  RouteTable.ext (Std.ExtTreeMap.ext_getElem? @hg) hu

theorem unlabelled_register :
    (t.register h handler).2.unlabelled = (t.unlabelled.register h handler.unlabelled).2 := by
  refine unlabelled_ext (fun h' => ?_) rfl
  rw [get?_unlabelled, get?_register, get?_register, get?_unlabelled]
  split <;> rfl

theorem unlabelled_unregister :
    (t.unregister h).2.unlabelled = (t.unlabelled.unregister h).2 := by
  refine unlabelled_ext (fun h' => ?_) rfl
  rw [get?_unlabelled, get?_unregister, get?_unregister, get?_unlabelled]
  split <;> rfl

theorem match?_unlabelled : t.unlabelled.match? packet = t.match? packet := by
  simp [match?_eq_find?, contains_unlabelled]

theorem unlabelled_resolve :
    (t.resolve packet).2.unlabelled = (t.unlabelled.resolve packet).2 := by
  rw [resolve, resolve, match?_unlabelled]
  cases t.match? packet <;> rfl

section Congr

variable (ht : t₁.unlabelled = t₂.unlabelled)
include ht

theorem register_congr :
    (t₁.register h handler).2.unlabelled = (t₂.register h handler).2.unlabelled := by
  rw [unlabelled_register, ht, unlabelled_register]

theorem unregister_congr : (t₁.unregister h).2.unlabelled = (t₂.unregister h).2.unlabelled := by
  rw [unlabelled_unregister, ht, unlabelled_unregister]

theorem resolve_congr : (t₁.resolve packet).2.unlabelled = (t₂.resolve packet).2.unlabelled := by
  rw [unlabelled_resolve, ht, unlabelled_resolve]

theorem contains_congr (h : Header) : t₁.contains h = t₂.contains h := by
  rw [← contains_unlabelled, ht, contains_unlabelled]

theorem match?_congr : t₁.match? packet = t₂.match? packet := by
  rw [← match?_unlabelled, ht, match?_unlabelled]

theorem size_congr : t₁.size = t₂.size := by
  rw [← size_unlabelled, ht, size_unlabelled]

-- Two routes are the same, or both are routes of samples.
theorem get?_congr (h : Header) :
    t₁.get? h = t₂.get? h ∨
      (t₁.get? h).any Handler.isSample ∧ (t₂.get? h).any Handler.isSample := by
  have hh : (t₁.get? h).map Handler.unlabelled = (t₂.get? h).map Handler.unlabelled := by
    rw [← get?_unlabelled, ht, get?_unlabelled]
  cases h₁ : t₁.get? h <;> cases h₂ : t₂.get? h <;> rw [h₁, h₂] at hh
  case none.none => exact .inl rfl
  case none.some => cases hh
  case some.none => cases hh
  case some.some => simpa using Handler.unlabelled_eq_iff.mp (Option.some.inj hh)

end Congr

end RouteTable

namespace Board

-- The same board with other routes.
def withRoutes (b : Board L κ) (routes : RouteTable κ) : Board L κ :=
  { b with routes }

-- The board without the labels of its sample routes.
def unlabelled (b : Board L κ) : Board L κ :=
  b.withRoutes b.routes.unlabelled

end Board

def Outcome.unlabelled (o : Outcome L ε κ α) : Outcome L ε κ α :=
  { o with board := o.board.unlabelled }

namespace Board

variable {b b₁ b₂ : Board L κ}

theorem unlabelled_withRoutes (ht : t.unlabelled = b.routes.unlabelled) :
    (b.withRoutes t).unlabelled = b.unlabelled :=
  congrArg b.withRoutes ht

theorem routes_congr (hb : b₁.unlabelled = b₂.unlabelled) :
    b₁.routes.unlabelled = b₂.routes.unlabelled :=
  congrArg (·.routes) hb

-- Boards that differ in labels only have everything but the routes in common.
theorem exists_withRoutes (hb : b₁.unlabelled = b₂.unlabelled) :
    ∃ t, t.unlabelled = b₂.routes.unlabelled ∧ b₁ = b₂.withRoutes t :=
  ⟨b₁.routes, routes_congr hb, congrArg (·.withRoutes b₁.routes) hb⟩

section Tables

-- A change that treats the routes apart from everything else, and whatever their labels are.
theorem reroute_congr {f : Board L κ → Board L κ} (g : RouteTable κ → RouteTable κ)
    (hf : ∀ b t, f (b.withRoutes t) = (f b).withRoutes (g t))
    (hg : ∀ t₁ t₂, t₁.unlabelled = t₂.unlabelled → (g t₁).unlabelled = (g t₂).unlabelled)
    (hb : b₁.unlabelled = b₂.unlabelled) : (f b₁).unlabelled = (f b₂).unlabelled := by
  obtain ⟨t, ht, rfl⟩ := exists_withRoutes hb
  have hr : (f b₂).routes = g b₂.routes := congrArg (·.routes) (hf b₂ b₂.routes)
  rw [hf]
  exact unlabelled_withRoutes <| hr ▸ hg _ _ ht

-- A change that has nothing to do with the routes.
theorem update_congr {f : Board L κ → Board L κ}
    (hf : ∀ b t, f (b.withRoutes t) = (f b).withRoutes t) (hb : b₁.unlabelled = b₂.unlabelled) :
    (f b₁).unlabelled = (f b₂).unlabelled :=
  reroute_congr id hf (fun _ _ => id) hb

theorem register_congr (hb : b₁.unlabelled = b₂.unlabelled) (h : Header) (handler : Handler κ) :
    (b₁.register h handler).unlabelled = (b₂.register h handler).unlabelled :=
  reroute_congr (f := (·.register h handler)) (fun t => (t.register h handler).2) (fun _ _ => rfl)
    (fun _ _ ht => RouteTable.register_congr ht) hb

theorem detach_congr (hb : b₁.unlabelled = b₂.unlabelled) (h : Header) :
    (b₁.detach h).unlabelled = (b₂.detach h).unlabelled :=
  reroute_congr (f := (·.detach h)) (fun t => (t.unregister h).2) (fun _ _ => rfl)
    (fun _ _ ht => RouteTable.unregister_congr ht) hb

theorem install_congr (hb : b₁.unlabelled = b₂.unlabelled) (s : Signal) :
    (b₁.install s).unlabelled = (b₂.install s).unlabelled :=
  reroute_congr (f := (·.install s)) (fun t => (t.register s.header .sampleWithId).2)
    (fun _ _ => rfl) (fun _ _ ht => RouteTable.register_congr ht) hb

theorem forget_congr (hb : b₁.unlabelled = b₂.unlabelled) (h : Header) :
    (b₁.forget h).unlabelled = (b₂.forget h).unlabelled :=
  let f (b : Board L κ) : Board L κ := { b with signals := (b.signals.remove h).2 }
  detach_congr (update_congr (f := f) (fun _ _ => rfl) hb) h

theorem foldl_detach_congr (ss : List Signal) (hb : b₁.unlabelled = b₂.unlabelled) :
    (ss.foldl (·.detach ·.header) b₁).unlabelled =
      (ss.foldl (·.detach ·.header) b₂).unlabelled := by
  induction ss generalizing b₁ b₂
  case nil         => exact hb
  case cons s _ hi => exact hi (detach_congr hb s.header)

theorem cleared_congr (hb : b₁.unlabelled = b₂.unlabelled) :
    b₁.cleared.unlabelled = b₂.cleared.unlabelled := by
  let f (b : Board L κ) : Board L κ :=
    { b with signals := (b.signals.drainWhere (·.isProcessor)).2, pending := [], ledgers := ∅ }
  have hp : b₁.processors = b₂.processors := congrArg (·.processors) hb
  have hf := foldl_detach_congr b₁.processors (update_congr (f := f) (fun _ _ => rfl) hb)
  exact hf.trans <| hp ▸ rfl

end Tables

section Sequences

variable {o₁ o₂ : Outcome L ε κ α}

theorem andThen_congr {f : α → Board L κ → Outcome L ε κ β} (ho : o₁.unlabelled = o₂.unlabelled)
    (hf : ∀ r b₁ b₂, b₁.unlabelled = b₂.unlabelled → (f r b₁).unlabelled = (f r b₂).unlabelled) :
    (o₁.andThen f).unlabelled = (o₂.andThen f).unlabelled := by
  rcases o₁ with ⟨r, es, b₁⟩
  rcases o₂ with ⟨_, _, b₂⟩
  obtain ⟨rfl, rfl, hb⟩ := (Outcome.mk.injEq ..).mp ho
  have h := hf r b₁ b₂ hb
  have he : (f r b₁).events = (f r b₂).events := congrArg (·.events) h
  exact Outcome.ext (congrArg (·.result) h) (congrArg (es ++ ·) he) (congrArg (·.board) h)

theorem mapResult_congr (ho : o₁.unlabelled = o₂.unlabelled) (f : α → β) :
    (o₁.mapResult f).unlabelled = (o₂.mapResult f).unlabelled :=
  congrArg (·.mapResult f) ho

end Sequences

section Quiet

theorem file_device_congr (hb : b₁.unlabelled = b₂.unlabelled) (h : Header)
    (format : Sample.Format) :
    (b₁.file (b₁.device h format)).unlabelled = (b₂.file (b₂.device h format)).unlabelled :=
  update_congr (f := fun b => b.file (b.device h format)) (fun _ _ => rfl) hb

theorem singletonSignal_congr (hb : b₁.unlabelled = b₂.unlabelled) (h : Header)
    (format : Sample.Format) :
    (b₁.singletonSignal h format : Outcome L ε κ Signal).unlabelled =
      (b₂.singletonSignal h format).unlabelled := by
  obtain ⟨t, ht, rfl⟩ := exists_withRoutes hb
  cases hs : b₂.signals.get? h
  case none =>
    rw [singletonSignal, ensureSignal_of_none (b := b₂.withRoutes t) hs, singletonSignal,
      ensureSignal_of_none hs]
    exact Outcome.ext rfl rfl (register_congr (file_device_congr hb ..) ..)
  case some =>
    rw [singletonSignal, ensureSignal_of_some (b := b₂.withRoutes t) hs, singletonSignal,
      ensureSignal_of_some hs]
    exact Outcome.ext rfl rfl (register_congr hb ..)

theorem idSignal_congr (hb : b₁.unlabelled = b₂.unlabelled) (s : Signal) (i : UInt8) :
    (b₁.idSignal s i : Outcome L ε κ Signal).unlabelled = (b₂.idSignal s i).unlabelled := by
  obtain ⟨t, ht, rfl⟩ := exists_withRoutes hb
  cases hs : b₂.signals.get? (s.header.subChannel i)
  case none =>
    rw [idSignal, ensureSignal_of_none (b := b₂.withRoutes t) hs, idSignal,
      ensureSignal_of_none hs]
    exact Outcome.ext rfl rfl (register_congr (file_device_congr hb ..) ..)
  case some =>
    rw [idSignal, ensureSignal_of_some (b := b₂.withRoutes t) hs, idSignal,
      ensureSignal_of_some hs]
    exact Outcome.ext rfl rfl hb

theorem onResponse_congr (hb : b₁.unlabelled = b₂.unlabelled) (h : Header) (k : κ) :
    (b₁.onResponse h k : Outcome L ε κ Unit).unlabelled = (b₂.onResponse h k).unlabelled := by
  refine Outcome.ext rfl ?_ (register_congr hb ..)
  dsimp only [onResponse, Outcome.unlabelled]
  rw [RouteTable.contains_congr (routes_congr hb)]

theorem confirm_congr (hb : b₁.unlabelled = b₂.unlabelled) (payload : List UInt8) :
    (b₁.confirm payload : Outcome L ε κ Unit).unlabelled = (b₂.confirm payload).unlabelled := by
  obtain ⟨t, ht, rfl⟩ := exists_withRoutes hb
  cases hp : b₂.pending
  case nil =>
    rw [confirm_of_nil (b := b₂.withRoutes t) hp, confirm_of_nil hp]
    exact Outcome.ext rfl rfl hb
  case cons p ps =>
    have hf {b₁ b₂ : Board L κ} (hb : b₁.unlabelled = b₂.unlabelled) :
        { b₁ with pending := ps }.unlabelled = { b₂ with pending := ps }.unlabelled :=
      update_congr (f := fun b => { b with pending := ps }) (fun _ _ => rfl) hb
    cases payload
    case nil =>
      rw [confirm_of_cons_nil (b := b₂.withRoutes t) hp, confirm_of_cons_nil hp]
      exact Outcome.ext rfl rfl (hf hb)
    case cons =>
      rw [confirm_of_cons_cons (b := b₂.withRoutes t) hp, confirm_of_cons_cons hp]
      exact Outcome.ext rfl rfl (hf (install_congr hb _))

-- What is done with a payload can be told without the label of its route.
theorem dispatch_eq (b : Board L κ) (h : Header) (payload : List UInt8) :
    (b.dispatch h payload : Outcome L ε κ Unit) =
      match b.unlabelled.route? h with
      | some (.custom handler) => ⟨(), [.custom handler h payload], b⟩
      | some .processorCreated => b.confirm payload
      | _                      => ⟨(), b.deliver h payload, b⟩ := by
  have hr : b.unlabelled.route? h = (b.route? h).map Handler.unlabelled :=
    RouteTable.get?_unlabelled
  rw [dispatch, hr]
  rcases b.route? h with _ | _ | _ | _ | _ <;> rfl

theorem dispatch_congr (hb : b₁.unlabelled = b₂.unlabelled) (h : Header) (payload : List UInt8) :
    (b₁.dispatch h payload : Outcome L ε κ Unit).unlabelled =
      (b₂.dispatch h payload).unlabelled := by
  have hd : (b₁.deliver h payload : List (Event ε κ)) = b₂.deliver h payload := by
    obtain ⟨t, ht, rfl⟩ := exists_withRoutes hb
    rfl
  rw [dispatch_eq, dispatch_eq, hb]
  split
  case h_1 => exact Outcome.ext rfl rfl hb
  case h_2 => exact confirm_congr hb payload
  case h_3 => exact Outcome.ext rfl hd hb

theorem receive_congr (hb : b₁.unlabelled = b₂.unlabelled) (packet : List UInt8) :
    (b₁.receive packet : Outcome L ε κ Unit).unlabelled = (b₂.receive packet).unlabelled := by
  have hm : b₁.routes.match? packet = b₂.routes.match? packet :=
    RouteTable.match?_congr (routes_congr hb)
  cases hr : b₂.routes.match? packet
  case none =>
    rw [receive_of_no_match? (hm.trans hr), receive_of_no_match? hr]
    let f (b : Board L κ) : Board L κ := { b with routes := (b.routes.resolve packet).2 }
    have hf : (f b₁).unlabelled = (f b₂).unlabelled :=
      reroute_congr (fun t => (t.resolve packet).2) (fun _ _ => rfl)
        (fun _ _ ht => RouteTable.resolve_congr ht) hb
    exact Outcome.ext rfl rfl hf
  case some route =>
    rw [receive_of_match? (hm.trans hr), receive_of_match? hr]
    have hd := dispatch_congr (ε := ε) hb route.header (route.payload packet)
    have he := congrArg (·.events) hd
    exact Outcome.ext rfl (congrArg (_ :: ·) he) (congrArg (·.board) hd)

end Quiet

section Sends

variable [Link L ε]

theorem send_congr (hb : b₁.unlabelled = b₂.unlabelled) (c : Command) :
    (b₁.send c).unlabelled = (b₂.send c).unlabelled := by
  obtain ⟨t, ht, rfl⟩ := exists_withRoutes hb
  rw [send_eq, send_eq]
  exact Outcome.ext rfl rfl (unlabelled_withRoutes (b := b₂.withLink _) ht)

theorem createProcessor_congr (hb : b₁.unlabelled = b₂.unlabelled) (source : Signal)
    (r : Processor.Request) (k : κ) :
    (b₁.createProcessor source r k).unlabelled = (b₂.createProcessor source r k).unlabelled := by
  have hp : (b₁.prepared r).unlabelled = (b₂.prepared r).unlabelled :=
    update_congr (f := (·.prepared r)) (fun _ _ => rfl) hb
  have hf : (b₁.prepared r).filters = (b₂.prepared r).filters := congrArg (·.filters) hp
  cases hk : (b₂.prepared r).filters.filter? r.kind
  case none =>
    rw [createProcessor_of_none (hf ▸ hk), createProcessor_of_none hk]
    exact Outcome.ext rfl rfl hp
  case some filter =>
    rw [createProcessor_of_some (hf ▸ hk), createProcessor_of_some hk]
    refine andThen_congr (send_congr hp _) ?_
    rintro (e | _) b₁ b₂ hb
    case error => exact Outcome.ext rfl rfl hb
    case ok =>
      let p : PendingCreation κ := ⟨r.kind, r.config, r.format, source, k⟩
      exact Outcome.ext rfl rfl <| update_congr (f := (·.enqueue p)) (fun _ _ => rfl) hb

theorem averageQuaternions_congr (hb : b₁.unlabelled = b₂.unlabelled) (source : Signal)
    (depth filter : UInt8) (k : κ) :
    (b₁.averageQuaternions source depth filter k).unlabelled =
      (b₂.averageQuaternions source depth filter k).unlabelled := by
  have hf : b₁.filters = b₂.filters := congrArg (·.filters) hb
  rw [averageQuaternions, averageQuaternions, hf]
  rcases b₂.filters.allocate Processor.QuaternionAverage.name with ⟨kind?, filters⟩
  have hb' : { b₁ with filters }.unlabelled = { b₂ with filters }.unlabelled :=
    update_congr (f := fun b => { b with filters }) (fun _ _ => rfl) hb
  cases kind?
  case none => exact Outcome.ext rfl rfl hb'
  case some => exact createProcessor_congr hb' ..

theorem removeProcessor_congr (hb : b₁.unlabelled = b₂.unlabelled) (s : Signal) :
    (b₁.removeProcessor s).unlabelled = (b₂.removeProcessor s).unlabelled := by
  have hl : b₁.lookup? s.header = b₂.lookup? s.header := congrArg (·.lookup? s.header) hb
  cases hi : s.processorId?
  case none =>
    simp only [removeProcessor, hi]
    exact Outcome.ext rfl rfl hb
  case some id =>
    by_cases hs : b₂.lookup? s.header = some s
    case neg =>
      simp only [removeProcessor, hi, hl, if_neg hs]
      exact Outcome.ext rfl rfl hb
    case pos =>
      rw [removeProcessor_of_some hi (hl.trans hs), removeProcessor_of_some hi hs]
      refine andThen_congr (send_congr hb _) ?_
      rintro (e | _) b₁ b₂ hb
      case error => exact Outcome.ext rfl rfl hb
      case ok    => exact Outcome.ext rfl rfl (forget_congr hb _)

theorem tearDown_congr (hb : b₁.unlabelled = b₂.unlabelled) :
    b₁.tearDown.unlabelled = b₂.tearDown.unlabelled := by
  rw [tearDown_eq, tearDown_eq]
  refine andThen_congr (Outcome.ext rfl ?_ (cleared_congr hb)) fun _ b₁ b₂ hb => ?_
  case refine_1 =>
    obtain ⟨t, ht, rfl⟩ := exists_withRoutes hb
    rfl
  case refine_2 =>
    refine andThen_congr (send_congr hb _) ?_
    rintro (e | _) b₁ b₂ hb
    case error => exact Outcome.ext rfl rfl hb
    case ok    => exact send_congr hb _

end Sends

section Sessions

variable [Link L ε]

theorem act_congr_of_isOutward (ha : a.isOutward) (hb : b₁.unlabelled = b₂.unlabelled) :
    (b₁.act a).unlabelled = (b₂.act a).unlabelled := by
  obtain ⟨t, ht, rfl⟩ := exists_withRoutes hb
  have h₁ : (b₂.withRoutes t).act a = (b₂.act a).within (b₂.withRoutes t) :=
    act_of_isOutward ha (b := b₂.withRoutes t) (c := b₂)
  have h₂ : b₂.act a = (b₂.act a).within b₂ := act_of_isOutward ha (b := b₂) (c := b₂)
  have hw : ((b₂.act a).within (b₂.withRoutes t)).unlabelled = ((b₂.act a).within b₂).unlabelled :=
    Outcome.ext rfl rfl (unlabelled_withRoutes (b := b₂.withOutward (b₂.act a).board) ht)
  rw [h₁, hw, ← h₂]

theorem act_congr (hb : b₁.unlabelled = b₂.unlabelled) (a : Action L κ) :
    (b₁.act a).unlabelled = (b₂.act a).unlabelled := by
  cases ho : a.isOutward
  case true => exact act_congr_of_isOutward ho hb
  case false =>
    cases a with
    | setLink | setFilters => cases ho
    | perform op =>
      cases op with
      | builtIn | singletonSignal => exact mapResult_congr (singletonSignal_congr hb ..) _
      | idSignal                  => exact mapResult_congr (idSignal_congr hb ..) _
      | onResponse                => exact mapResult_congr (onResponse_congr hb ..) _
      | receive                   => exact mapResult_congr (receive_congr hb ..) _
      | createProcessor           => exact mapResult_congr (createProcessor_congr hb ..) _
      | averageQuaternions        => exact mapResult_congr (averageQuaternions_congr hb ..) _
      | removeProcessor           => exact mapResult_congr (removeProcessor_congr hb ..) _
      | tearDown                  => exact mapResult_congr (tearDown_congr hb) _
      | subscribe s k =>
        obtain ⟨t, ht, rfl⟩ := exists_withRoutes hb
        exact Outcome.ext rfl rfl (unlabelled_withRoutes (b := (b₂.subscribe s k).2) ht)
      | unsubscribe s =>
        obtain ⟨t, ht, rfl⟩ := exists_withRoutes hb
        exact Outcome.ext rfl rfl (unlabelled_withRoutes (b := (b₂.unsubscribe s).2) ht)
      | abortPending =>
        obtain ⟨t, ht, rfl⟩ := exists_withRoutes hb
        exact Outcome.ext rfl rfl (unlabelled_withRoutes (b := { b₂ with pending := [] }) ht)
      | _ => cases ho

theorem play_congr (hb : b₁.unlabelled = b₂.unlabelled) (as : List (Action L κ)) :
    (b₁.play as).unlabelled = (b₂.play as).unlabelled := by
  induction as generalizing b₁ b₂
  case nil => exact Outcome.ext rfl rfl hb
  case cons a as hi =>
    rw [play_cons_eq_andThen, play_cons_eq_andThen]
    exact andThen_congr (act_congr hb a) fun r b₁ b₂ hb => mapResult_congr (hi hb) _

-- Whatever is asked of two boards that differ in labels only, they answer alike and do alike: the
-- same writes, samples, calls of handlers and callbacks, in the same order. This leaves them with
-- the same routes but for the labels, and with everything else in common, what becomes of their
-- pending creations when they close included.
theorem labels_are_inert (hb : b₁.unlabelled = b₂.unlabelled) (as : List (Action L κ)) :
    let o₁ := b₁.play as
    let o₂ := b₂.play as
    o₁.result = o₂.result ∧ o₁.events = o₂.events ∧
    o₁.board.unlabelled = o₂.board.unlabelled ∧
    o₁.board = o₂.board.withRoutes o₁.board.routes ∧
    o₁.board.routes.unhandled = o₂.board.routes.unhandled ∧
    o₁.board.routes.size = o₂.board.routes.size ∧
    (∀ h, o₁.board.route? h = o₂.board.route? h ∨
      (o₁.board.route? h).any Handler.isSample ∧ (o₂.board.route? h).any Handler.isSample) ∧
    (o₁.board.close : List (Event ε κ)) = o₂.board.close := by
  intro o₁ o₂
  have ho : o₁.unlabelled = o₂.unlabelled := play_congr hb as
  have hb : o₁.board.unlabelled = o₂.board.unlabelled := congrArg (·.board) ho
  have ht : o₁.board.routes.unlabelled = o₂.board.routes.unlabelled := routes_congr hb
  have hw : o₁.board = o₂.board.withRoutes o₁.board.routes :=
    congrArg (·.withRoutes o₁.board.routes) hb
  refine ⟨congrArg (·.result) ho, congrArg (·.events) ho, hb, hw, congrArg (·.unhandled) ht,
    RouteTable.size_congr ht, RouteTable.get?_congr ht, ?close⟩
  case close =>
    rw [hw]
    rfl

-- The second board asks for the signal of a channel a second time, as that of a register as a
-- whole.
theorem labels_are_inert_of_twoLabels :
    let s := Signal.device ⟨.caller, 0⟩ BuiltIn.switchState.header .statusByte
    let channel := s.header.subChannel 3
    let once : List (Action MeteredLink String) := [.perform (.idSignal s 3)]
    let twice := once ++ [.perform (.singletonSignal channel .unsized)]
    let b₁ := ((withFilters {} 0 .stock : Board MeteredLink String).play once).board
    let b₂ := ((withFilters {} 0 .stock : Board MeteredLink String).play twice).board
    let sampled : Signal := .device ⟨.board 0, 0⟩ channel .unsized
    let as := [.perform (.subscribe sampled "subscriber"), .perform (.receive [1, 1, 3, 5])]
    b₁.unlabelled = b₂.unlabelled ∧
    b₁.route? channel = some .sampleWithId ∧ b₂.route? channel = some .sampleWithoutId ∧
    .sample "subscriber" channel (.uint32 5) ∈ (b₁.play as).events ∧
    (b₁.play as).events = (b₂.play as).events := by
  intro s channel once twice b₁ b₂ sampled as
  have hb : b₁.unlabelled = b₂.unlabelled := by decide +kernel
  have ⟨_, he, _⟩ := labels_are_inert hb as
  exact ⟨hb, by decide +kernel, by decide +kernel, by decide +kernel, he⟩

end Sessions

end Board

end SensorBoard
