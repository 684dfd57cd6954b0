import SensorBoard.Proofs.Filters.Bindings
import SensorBoard.Proofs.Tables.Containment

namespace SensorBoard

open Processor (FilterTable Kind Request QuaternionAverage.name QuaternionAverage.request)

-- What the callback of a request is told, given the error that the request returns.
def BoardError.reason? : BoardError ε → Option Processor.CreationError
  | creation e                                          => some e
  | link _                                              => some .linkFailed
  | commandTooLong _ | configTooLong _ | notAProcessor _ => none

namespace Board

-- The request `r` has come to nothing on the board `b`, whose filters were `t` when the request was
-- made. Its callback, and nobody else, has been told the reason for the error.
structure Refused (b : Board L κ) (t : FilterTable) (r : Request) (k : κ) (e : BoardError ε)
    (es : List (Event ε κ)) (b' : Board L κ) : Prop where
  told  : ∃ reason, e.reason? = some reason ∧ calls es = [.failed k reason]
  kept  : b' = { b with link := b'.link, filters := b'.filters }
  kinds : b'.filters = { t with bindings := b'.filters.bindings }
  bound : b'.filters.filter? kind =
            if kind = r.kind then r.filter?.or (t.filter? kind) else t.filter? kind

section Refused

variable {b : Board L κ} {es : List (Event ε κ)}

theorem Refused.of_prepared {e : BoardError ε} (he : e.reason? = some reason)
    (hc : calls es = [.failed k reason]) (link : L) :
    Refused b b.filters r k e es ((b.prepared r).withLink link) where
  told := ⟨reason, he, hc⟩
  kept := rfl
  kinds := by
    change (b.prepared r).filters = _
    unfold prepared
    cases r.filter? <;> rfl
  bound {kind} := by
    change (b.prepared r).filters.filter? kind = _
    split
    case isTrue hk  => rw [hk, filter?_prepared]
    case isFalse hk => exact filter?_prepared_of_ne hk

theorem Refused.of_unbound (hr : r.filter? = none) :
    Refused b b.filters r k (.creation (.unboundKind r.kind) : BoardError ε)
      [.failed k (.unboundKind r.kind)] b := by
  have hp : b.prepared r = b := by
    rw [prepared, hr]
    rfl
  have h : Refused b b.filters r k (.creation (.unboundKind r.kind) : BoardError ε)
    [.failed k (.unboundKind r.kind)] ((b.prepared r).withLink b.link) := .of_prepared rfl rfl b.link
  rwa [hp] at h

-- A request on a board with other filters is one on the board itself, up to its filters.
theorem Refused.of_filters {e : BoardError ε} {b' : Board L κ}
    (h : Refused { b with filters := t } t r k e es b') : Refused b t r k e es b' where
  told  := h.told
  kept  := h.kept
  kinds := h.kinds
  bound := h.bound

end Refused

variable [Link L ε] {b : Board L κ}

theorem createProcessor_cases (b : Board L κ) (source : Signal) (r : Request) (k : κ) :
    let o := b.createProcessor source r k
    (r.filter? = none ∧ b.filters.filter? r.kind = none ∧
      o = ⟨.error (.creation (.unboundKind r.kind)), [.failed k (.unboundKind r.kind)], b⟩) ∨
    ((r.filter?.or (b.filters.filter? r.kind)).isSome ∧
      (o.result = .ok () ∨ ∃ fault, o.result = .error (.link fault) ∧
        Refused b b.filters r k (.link fault : BoardError ε) o.events o.board)) := by
  intro o
  cases hf : r.filter?.or (b.filters.filter? r.kind)
  case none =>
    obtain ⟨hr, hb⟩ := Option.or_eq_none_iff.mp hf
    exact .inl ⟨hr, hb, createProcessor_of_unbound hr hb⟩
  case some filter =>
    refine .inr ⟨rfl, ?_⟩
    have ho : o = _ := createProcessor_of_some <| (b.filter?_prepared r).trans hf
    obtain ⟨fault, es, link, hs, he, _⟩ | ⟨es, link, hs, _⟩ :=
      (b.prepared r).send_cases (.createProcessor source.header filter r.config)
    all_goals rw [ho, hs]
    case inl =>
      have hc : calls (es ++ [.failed k .linkFailed]) = [.failed k .linkFailed] := by
        rw [calls_append, he.calls_eq]
        rfl
      exact .inr ⟨fault, rfl, .of_prepared rfl hc link⟩
    case inr => exact .inl rfl

theorem createProcessor_refused {e : BoardError ε}
    (he : (b.createProcessor source r k).result = .error e) :
    Refused b b.filters r k e (b.createProcessor source r k).events
      (b.createProcessor source r k).board := by
  obtain ⟨hr, _, ho⟩ | ⟨_, hv | ⟨fault, hv, h⟩⟩ := b.createProcessor_cases source r k
  case inl =>
    rw [ho] at he ⊢
    cases he
    exact .of_unbound hr
  case inr.inl => cases hv.symm.trans he
  case inr.inr =>
    cases hv.symm.trans he
    exact h

theorem createProcessor_result_iff {e : Processor.CreationError} :
    (b.createProcessor source r k).result = .error (.creation e) ↔
      e = .unboundKind r.kind ∧ r.filter? = none ∧ b.filters.filter? r.kind = none := by
  obtain ⟨hr, hf, ho⟩ | ⟨hf, hv⟩ := b.createProcessor_cases source r k
  case inl => simp [ho, hr, hf, eq_comm]
  case inr =>
    refine ⟨fun he => ?_, fun ⟨_, hr, hb⟩ => ?_⟩
    · obtain hv | ⟨fault, hv, _⟩ := hv <;> cases hv.symm.trans he
    · simp [hr, hb] at hf

-- Whatever is in the queue and in the tables, and whatever the link does: if a request fails, then
-- its callback has been told so, once, and the filter that came with it is all that is left of it.
-- That there is no filter is found out before anything is written. Requests for averages are no
-- different, but they may also have given a kind to the name. If there is no kind left for it, then
-- nothing changes at all.
theorem refused_requests_leave_bindings (b : Board L κ) (source : Signal) (k : κ) :
    (∀ r, let o := b.createProcessor source r k
      (∀ e, o.result = .error e → Refused b b.filters r k e o.events o.board) ∧
      (∀ e, o.result = .error (.creation e) ↔
        e = .unboundKind r.kind ∧ r.filter? = none ∧ b.filters.filter? r.kind = none) ∧
      (∀ e, o.result = .error (.creation e) → writes o.events = [] ∧ o.board = b)) ∧
    ∀ depth filter, let o := b.averageQuaternions source depth filter k
      let kind? := (b.filters.allocate QuaternionAverage.name).1
      let filters := (b.filters.allocate QuaternionAverage.name).2
      filters.bindings = b.filters.bindings ∧
      (∀ e, o.result = .error (.creation e) ↔ e = .kindsExhausted ∧ kind? = none) ∧
      (kind? = none →
        o = ⟨.error (.creation .kindsExhausted), [.failed k .kindsExhausted], b⟩) ∧
      (∀ kind e, kind? = some kind → o.result = .error e →
        Refused b filters (QuaternionAverage.request kind depth filter) k e o.events o.board) := by
  refine ⟨fun r => ⟨fun e => ?refused, fun e => ?unbound, fun e he => ?silent⟩,
    fun depth filter => ?average⟩
  case refused => exact createProcessor_refused
  case unbound => exact createProcessor_result_iff
  case silent =>
    have ⟨_, hr, hf⟩ := createProcessor_result_iff.mp he
    rw [createProcessor_of_unbound hr hf]
    exact ⟨rfl, rfl⟩
  case average =>
    intro o kind? filters
    refine ⟨FilterTable.allocate_preserves_bindings, ?_⟩
    cases hk : kind?
    case none =>
      have hf : filters = b.filters := FilterTable.allocate_of_fst_eq_none hk
      have ho : o = ⟨.error (.creation .kindsExhausted), [.failed k .kindsExhausted],
        { b with filters }⟩ := averageQuaternions_of_none hk
      rw [ho, hf]
      refine ⟨fun e => ?_, fun _ => rfl, nofun⟩
      simp [eq_comm]
    case some kind =>
      have ho : o = _ := averageQuaternions_of_some hk
      refine ⟨fun e => ?_, nofun, fun kind' e hk' he => ?_⟩
      · rw [ho, createProcessor_result_iff]
        simp [Processor.QuaternionAverage.request]
      · cases hk'
        rw [ho] at he ⊢
        exact (createProcessor_refused he).of_filters

-- There is a request in the queue when the link stops taking commands.
def occupiedQueue : List (Action MeteredLink String) :=
  let source := .device ⟨.caller, 0⟩ BuiltIn.switchState.header .statusByte
  [
    .perform <| .createProcessor source ⟨⟨9⟩, .empty, .statusByte, some 1⟩ "waiting",
    .setLink { quota := some 0 }
  ]

theorem refused_requests_leave_bindings_of_occupiedQueue :
    let b := ((withFilters {} 0 .empty : Board MeteredLink String).play occupiedQueue).board
    let source := .device ⟨.caller, 0⟩ BuiltIn.switchState.header .statusByte
    let o := b.createProcessor source ⟨⟨3⟩, .empty, .statusByte, some 40⟩ "refused"
    let o' := b.createProcessor source ⟨⟨3⟩, .empty, .statusByte, none⟩ "unbound"
    let o'' := b.averageQuaternions source 4 26 "average"
    b.pending.map (·.callback) = ["waiting"] ∧
    o.result = .error (.link ⟨0⟩) ∧ calls o.events = [.failed "refused" .linkFailed] ∧
    o.board.pending = b.pending ∧ o.board.filters.filter? ⟨3⟩ = some 40 ∧
    o'.result = .error (.creation (.unboundKind ⟨3⟩)) ∧ o'.board = b ∧
    o''.result = .error (.link ⟨0⟩) ∧ o''.board.filters.synthetic? "quaternion-average" = some ⟨18⟩ ∧
    Refused b (b.filters.allocate "quaternion-average").2
      (QuaternionAverage.request ⟨18⟩ 4 26) "average" (.link ⟨0⟩ : BoardError LinkFault) o''.events
      o''.board := by
  intro b source o o' o''
  have hl (bytes : List UInt8) : Link.write b.link bytes = ⟨0, .error ⟨0⟩, b.link⟩ :=
    Link.write_of_refused rfl
  have hk : (b.filters.allocate QuaternionAverage.name).1 = some ⟨18⟩ := by decide +kernel
  have hr : o.result = .error (.link ⟨0⟩) :=
    (createProcessor_of_filter source "refused" rfl).right.left.trans <| by rw [hl]; rfl
  have hr'' : o''.result = .error (.link ⟨0⟩) :=
    (averageQuaternions_of_kind hk).right.left.trans <| by rw [hl]; rfl
  have ⟨h, _⟩ := refused_requests_leave_bindings b source "refused"
  have ⟨h', _⟩ := refused_requests_leave_bindings b source "unbound"
  have ⟨_, h''⟩ := refused_requests_leave_bindings b source "average"
  have hr' : o'.result = .error (.creation (.unboundKind ⟨3⟩)) :=
    (h' _).right.left _ |>.mpr ⟨rfl, rfl, by decide +kernel⟩
  have f := (h _).left _ hr
  have f' := (h' _).right.right _ hr'
  have f'' := (h'' 4 26).right.right.right ⟨18⟩ _ hk hr''
  have hp : o.board.pending = b.pending := by rw [f.kept]
  exact ⟨by decide +kernel, hr, by decide +kernel, hp, f.bound, hr', f'.right, hr'',
    by decide +kernel, f''⟩

end Board

end SensorBoard
