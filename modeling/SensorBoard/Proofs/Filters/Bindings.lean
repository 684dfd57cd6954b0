import SensorBoard.Proofs.Filters.Allocation
import SensorBoard.Proofs.Session.Sequences
import SensorBoard.Link.Metered

namespace SensorBoard

open Processor (FilterTable Kind QuaternionAverage.name)

namespace Processor.FilterTable

-- The name has been asked for. It has got a kind, or has been denied one, and either is for good.
structure Decided (t : FilterTable) (name : String) (kind? : Option Kind) : Prop where
  kind_eq   : t.synthetic? name = kind?
  exhausted : kind? = none → t.nextTag = none

section Decided

variable {t : FilterTable}

theorem allocate_of_nextTag (h : t.nextTag = none) : t.allocate name = (t.synthetic? name, t) := by
  cases hs : t.synthetic? name
  case none => exact allocate_of_exhausted hs h
  case some => exact allocate_of_synthetic hs

theorem decided_allocate (t : FilterTable) (name : String) :
    Decided (t.allocate name).2 name (t.allocate name).1 := by
  cases hs : t.synthetic? name
  case some k =>
    rw [allocate_of_synthetic hs]
    exact ⟨hs, nofun⟩
  case none =>
    cases ht : t.nextTag
    case none =>
      rw [allocate_of_exhausted hs ht]
      exact ⟨hs, fun _ => ht⟩
    case some =>
      refine ⟨synthetic?_allocate, fun h => ?_⟩
      simp [allocate_of_fresh hs ht] at h

theorem Decided.edit (d : Decided t name kind?) (e : Edit) : Decided (t.edit e) name kind? := by
  cases e with
  | bind | unbind | copy => exact ⟨d.kind_eq, d.exhausted⟩
  | allocate name' =>
    cases kind?
    case some => exact ⟨synthetic?_edit d.kind_eq _, nofun⟩
    case none =>
      have ht : t.edit (.allocate name') = t :=
        congrArg Prod.snd <| allocate_of_nextTag (d.exhausted rfl)
      rwa [ht]

theorem Decided.edits (d : Decided t name kind?) (es : List Edit) :
    Decided (t.edits es) name kind? := by
  induction es generalizing t
  case nil         => exact d
  case cons e _ hi => exact hi (d.edit e)

end Decided

-- A name is denied a kind if it has none and all tags are in use.
theorem Numbers.allocate_eq_none_iff {t : FilterTable} (n : Numbers t names) :
    (t.allocate name).1 = none ↔
      t.synthetic? name = none ∧
      ∀ tag, Kind.lastStock.tag < tag → ∃ name', t.synthetic? name' = some ⟨tag⟩ := by
  obtain ⟨k, hs, _, ha⟩ | ⟨hs, hl, ha⟩ | ⟨hs, _, hl, ha⟩ := n.allocate_cases name
  case inl => simp [ha, hs]
  case inr.inl =>
    rw [ha]
    refine ⟨fun _ => ⟨hs, fun tag ht => ?_⟩, fun _ => rfl⟩
    have ht : 17 < tag.toNat := UInt8.lt_iff_toNat_lt.mp ht
    have hi : tag.toNat - 18 < names.length := by
      have := tag.toNat_lt
      rw [hl, capacity]
      omega
    refine ⟨names[tag.toNat - 18], n.kind_iff.mpr ⟨_, List.getElem?_eq_getElem hi, ?_⟩⟩
    dsimp only
    omega
  case inr.inr =>
    refine ⟨fun h => absurd h ha, ?_⟩
    rintro ⟨_, ht⟩
    obtain ⟨_, hk⟩ := ht 255 (by decide)
    obtain ⟨i, hi, hk⟩ := n.kind_iff.mp hk
    obtain ⟨hi, _⟩ := List.getElem?_eq_some_iff.mp hi
    have hk : 255 = 18 + i := hk
    rw [capacity] at hl
    omega

end Processor.FilterTable

namespace Action

-- The filter table is replaced as a whole.
def replacesFilters : Action L κ → Bool
  | setFilters _ => true
  | perform _ | setLink _ => false

def averages : Action L κ → Bool
  | perform (.averageQuaternions ..) => true
  | _                                => false

-- What an action does to the filter table `t`.
def edits (t : FilterTable) : Action L κ → List FilterTable.Edit
  | perform (.bind k filter)                 => [.bind k filter]
  | perform (.unbind k)                      => [.unbind k]
  | perform (.allocate name)                 => [.allocate name]
  | perform (.createProcessor _ r _)         => (r.filter?.map (.bind r.kind)).toList
  | perform (.averageQuaternions _ _ filter _) =>
    .allocate QuaternionAverage.name ::
      ((t.allocate QuaternionAverage.name).1.map (.bind · filter)).toList
  | _ => []

-- What an action says about the filter of a kind. It can also say that there is none from now on.
-- Averages of quaternions have the kind `average?`, if there is one for them.
def assigned? (average? : Option Kind) (k : Kind) : Action L κ → Option (Option UInt8)
  | perform (.bind k' filter) => if k' = k then some (some filter) else none
  | perform (.unbind k') => if k' = k then some none else none
  | perform (.createProcessor _ r _) => if r.kind = k then r.filter?.map some else none
  | perform (.averageQuaternions _ _ filter _) =>
    if average? = some k then some (some filter) else none
  | _ => none

-- The filter that a kind has after the actions if it had `filter?` before them. The last action
-- that says anything about it counts.
def latestFilter? (average? : Option Kind) (k : Kind) (filter? : Option UInt8)
    (as : List (Action L κ)) : Option UInt8 :=
  as.reverse.findSome? (·.assigned? average? k) |>.getD filter?

theorem latestFilter?_cons (a : Action L κ) (as : List (Action L κ)) :
    latestFilter? average? k filter? (a :: as) =
      latestFilter? average? k ((a.assigned? average? k).getD filter?) as := by
  simp [latestFilter?, List.findSome?_append]

end Action

namespace Board

section Filters

theorem Step.preserves_filters {b b' : Board L κ} {es : List (Event ε κ)} (e : Step b a es b')
    (ha : a.isAside = false) (hk : a.callback? = none) : b'.filters = b.filters := by
  cases e with
  | aside _ _ _ ha'  => cases ha.symm.trans ha'
  | refused _ _ hk'  => cases hk.symm.trans hk'
  | requested _ _ hp => cases hk.symm.trans (callback?_of_creation? hp)
  | tornDown         => exact filters_cleared
  | _                => rfl

variable [Link L ε] {b : Board L κ}

theorem eraseEventCommands_filters (b : Board L κ) (event : Header) :
    (b.eraseEventCommands event).board.filters = b.filters := by
  cases hl : b.ledger? event
  case none => simp only [eraseEventCommands, hl]
  case some ledger =>
    obtain ⟨_, _, hr, _⟩ | ⟨_, _, _, _, _, _, _, hr, _⟩ := b.removeEventCommands_cases ledger.ids
    all_goals
      simp only [eraseEventCommands, hl, hr]
      rfl

theorem removeProcessor_filters (b : Board L κ) (s : Signal) :
    (b.removeProcessor s).board.filters = b.filters := by
  obtain ⟨_, _, _, hr, _⟩ | ⟨_, _, _, _, _, hr, _⟩ := b.removeProcessor_cases s <;> rw [hr] <;> rfl

theorem prepared_filters (b : Board L κ) (r : Processor.Request) :
    (b.prepared r).filters = b.filters.edits (r.filter?.map (.bind r.kind)).toList := by
  unfold prepared
  cases r.filter? <;> rfl

theorem filter?_prepared (b : Board L κ) (r : Processor.Request) :
    (b.prepared r).filters.filter? r.kind = r.filter?.or (b.filters.filter? r.kind) := by
  unfold prepared
  cases r.filter?
  case none   => rfl
  case some f => exact FilterTable.filter?_bind.trans <| if_pos rfl

theorem filter?_prepared_of_ne (hk : kind ≠ r.kind) :
    (b.prepared r).filters.filter? kind = b.filters.filter? kind := by
  unfold prepared
  cases r.filter?
  case none   => rfl
  case some f => exact FilterTable.filter?_bind.trans <| if_neg hk.symm

-- The request is written if there is a filter for it, and it waits in the queue if it is accepted.
theorem createProcessor_of_filter (source : Signal) (k : κ)
    (hf : r.filter?.or (b.filters.filter? r.kind) = some filter) :
    let bytes := (Command.createProcessor source.header filter r.config).bytes
    let d := Link.write b.link bytes
    let o := b.createProcessor source r k
    writes o.events = d.answers.map (bytes, ·) ∧ o.result = d.verdict.mapError .link ∧
    o.board.filters = (b.prepared r).filters ∧
    (o.result = .ok () →
      o.board.pending = b.pending ++ [⟨r.kind, r.config, r.format, source, k⟩]) := by
  intro bytes d o
  have ho : o = _ := createProcessor_of_some <| (b.filter?_prepared r).trans hf
  rw [ho]
  refine ⟨writes_send_andThen ?silent, ?rest⟩
  case silent =>
    rintro (_ | _) _ <;> rfl
  case rest =>
    have hd : Link.write (b.prepared r).link bytes = d := rfl
    rw [send_eq, hd]
    cases d.verdict
    case error => exact ⟨rfl, rfl, nofun⟩
    case ok    => exact ⟨rfl, rfl, fun _ => rfl⟩

theorem createProcessor_of_no_filter (hf : r.filter?.or (b.filters.filter? r.kind) = none) :
    b.createProcessor source r k = ⟨
      .error (.creation (.unboundKind r.kind)),
      [.failed k (.unboundKind r.kind)],
      b.prepared r
    ⟩ :=
  createProcessor_of_none <| (b.filter?_prepared r).trans hf

theorem createProcessor_filters (b : Board L κ) (source : Signal) (r : Processor.Request) (k : κ) :
    (b.createProcessor source r k).board.filters = (b.prepared r).filters := by
  cases hf : r.filter?.or (b.filters.filter? r.kind)
  case none => rw [createProcessor_of_no_filter hf]
  case some => exact (createProcessor_of_filter source k hf).right.right.left

theorem averageQuaternions_of_none
    (hk : (b.filters.allocate QuaternionAverage.name).1 = none) :
    b.averageQuaternions source depth filter k = ⟨
      .error (.creation .kindsExhausted),
      [.failed k .kindsExhausted],
      { b with filters := (b.filters.allocate QuaternionAverage.name).2 }
    ⟩ := by
  unfold averageQuaternions
  split
  case h_1 h => rw [h]
  case h_2 h => simp [h] at hk

theorem averageQuaternions_of_some
    (hk : (b.filters.allocate QuaternionAverage.name).1 = some kind) :
    b.averageQuaternions source depth filter k =
      { b with
        filters := (b.filters.allocate QuaternionAverage.name).2
      }.createProcessor source (Processor.QuaternionAverage.request kind depth filter) k := by
  unfold averageQuaternions
  split
  case h_1 h => simp [h] at hk
  case h_2 h =>
    simp only [h] at hk ⊢
    cases hk
    rfl

-- A call for averages is a request that comes with its filter.
theorem averageQuaternions_of_kind
    (hk : (b.filters.allocate QuaternionAverage.name).1 = some kind) :
    let bytes := (Command.createProcessor source.header filter (.ofByte depth)).bytes
    let d := Link.write b.link bytes
    let o := b.averageQuaternions source depth filter k
    writes o.events = d.answers.map (bytes, ·) ∧ o.result = d.verdict.mapError .link ∧
    o.board.filters.filter? kind = some filter ∧
    (o.result = .ok () →
      o.board.pending = b.pending ++ [⟨kind, .ofByte depth, .quaternion, source, k⟩]) := by
  intro bytes d o
  have ho : o = _ := averageQuaternions_of_some hk
  have ⟨hw, hr, hf, hp⟩ := createProcessor_of_filter source k rfl
    (b := { b with filters := (b.filters.allocate QuaternionAverage.name).2 })
    (r := Processor.QuaternionAverage.request kind depth filter)
  rw [ho]
  refine ⟨hw, hr, ?_, hp⟩
  rw [hf]
  exact filter?_prepared ..

theorem averageQuaternions_filters
    (b : Board L κ) (source : Signal) (depth filter : UInt8) (k : κ) :
    (b.averageQuaternions source depth filter k).board.filters =
      b.filters.edits
        ((.perform (.averageQuaternions source depth filter k) : Action L κ).edits b.filters) := by
  cases hk : (b.filters.allocate QuaternionAverage.name).1
  case none =>
    rw [averageQuaternions_of_none hk]
    simp [Action.edits, hk, FilterTable.edits, FilterTable.edit]
  case some kind =>
    rw [averageQuaternions_of_some hk, createProcessor_filters]
    simp [Action.edits, hk, FilterTable.edits, FilterTable.edit, prepared,
      Processor.QuaternionAverage.request]

-- What an action does to the filter table is a list of edits.
theorem act_filters {a : Action L κ} (ha : ¬a.replacesFilters) :
    (b.act a).board.filters = b.filters.edits (a.edits b.filters) := by
  cases a
  case setLink    => rfl
  case setFilters => contradiction
  case perform op =>
    cases op with
    | bind | unbind | allocate | recordEventCommand => rfl
    | send c                   => exact congrArg (·.filters) (b.send_board (c := c))
    | read s                   => exact congrArg (·.filters) (b.send_board (c := .read s.header))
    | stopAdvertising          => exact congrArg (·.filters) (b.send_board (c := .stopAdvertising))
    | removeProcessor s        => exact b.removeProcessor_filters s
    | eraseEventCommands event => exact b.eraseEventCommands_filters event
    | averageQuaternions source depth filter k =>
      exact b.averageQuaternions_filters source depth filter k
    | createProcessor source r k =>
      exact (b.createProcessor_filters source r k).trans (b.prepared_filters r)
    | _ => exact (b.act_step _).preserves_filters rfl rfl

theorem play_filters (ha : ∀ a ∈ as, ¬a.replacesFilters) :
    ∃ es, (b.play as).board.filters = b.filters.edits es := by
  induction as generalizing b
  case nil => exact ⟨[], rfl⟩
  case cons a as hi =>
    have ⟨ha, has⟩ := List.forall_mem_cons.mp ha
    have ⟨es, he⟩ := hi (b := (b.act a).board) has
    rw [act_filters ha, FilterTable.edits, FilterTable.edits, ← List.foldl_append] at he
    exact ⟨a.edits b.filters ++ es, he⟩

-- Every action leaves a kind with the filter that it assigns.
theorem act_filter? {a : Action L κ} (ha : ¬a.replacesFilters)
    (hq : a.averages → (b.filters.allocate QuaternionAverage.name).1 = average?) (k : Kind) :
    (b.act a).board.filters.filter? k = (a.assigned? average? k).getD (b.filters.filter? k) := by
  rw [act_filters ha]
  cases a
  case setLink    => rfl
  case setFilters => rfl
  case perform op =>
    cases op with
    | bind k' f =>
      refine FilterTable.filter?_bind.trans ?_
      simp only [Action.assigned?]
      split <;> rfl
    | unbind k' =>
      refine FilterTable.filter?_unbind.trans ?_
      simp only [Action.assigned?]
      split <;> rfl
    | allocate name => exact FilterTable.allocate_preserves_filter?
    | createProcessor _ r =>
      simp only [Action.edits, Action.assigned?]
      cases r.filter?
      case none   => simp [FilterTable.edits]
      case some f =>
        refine FilterTable.filter?_bind.trans ?_
        split <;> rfl
    | averageQuaternions _ _ f =>
      simp only [Action.edits, Action.assigned?, hq rfl]
      clear hq
      cases average?
      case none => exact FilterTable.allocate_preserves_filter?
      case some kind =>
        refine FilterTable.filter?_bind.trans ?_
        rw [FilterTable.edit, FilterTable.allocate_preserves_filter?]
        by_cases h : kind = k <;> simp [h]
    | _ => rfl

-- A call for averages settles their kind for the rest of the session.
theorem play_decided {a : Action L κ} (hq : a.averages) (ha : ∀ a ∈ as, ¬a.replacesFilters) :
    ((b.act a).board.play as).board.filters.Decided QuaternionAverage.name
      (b.filters.allocate QuaternionAverage.name).1 := by
  have ⟨es, he⟩ := play_filters (b := (b.act a).board) ha
  rw [he]
  refine FilterTable.Decided.edits ?_ es
  cases a
  case setLink    => cases hq
  case setFilters => cases hq
  case perform op =>
    cases op with
    | averageQuaternions =>
      rw [act_filters (by simp [Action.replacesFilters])]
      exact (FilterTable.decided_allocate ..).edits _
    | _ => cases hq

-- The last action to assign a filter to a kind decides, wherever a session stands.
theorem play_filter? (ha : ∀ a ∈ as ++ as', ¬a.replacesFilters) (k : Kind) :
    let kind? := (b.play (as ++ as')).board.filters.synthetic? QuaternionAverage.name
    (b.play as).board.filters.filter? k =
      Action.latestFilter? kind? k (b.filters.filter? k) as := by
  induction as generalizing b
  case nil => rfl
  case cons a as hi =>
    have ⟨ha, has⟩ := List.forall_mem_cons.mp ha
    refine (hi has).trans ?_
    rw [Action.latestFilter?_cons]
    exact congrArg (Action.latestFilter? _ k · as) <|
      act_filter? ha (fun hq => (play_decided hq has).kind_eq.symm) k

end Filters

section Sessions

variable [Link L ε]

-- Whatever is done with a board whose filter table is not replaced as a whole: a request goes out
-- with the filter that comes with it, and otherwise with the one that the last action to say
-- anything about the kind left it, successful or not. If there is none, nothing goes out. Averages
-- of quaternions are all of one kind, which goes by no other name. Their requests always have a
-- filter, and they are only refused if all tags are taken by other names.
theorem play_names_latest_filters
    (h₀ : t₀ = FilterTable.stock ∨ t₀ = FilterTable.empty) (es : List FilterTable.Edit)
    (link : L) (name : Nat) (as : List (Action L κ)) (ha : ∀ a ∈ as, ¬a.replacesFilters) :
    let start : Board L κ := withFilters link name (t₀.edits es)
    let filters := (start.play as).board.filters
    let kind? := filters.synthetic? QuaternionAverage.name
    (∀ before source r k after, as = before ++ .perform (.createProcessor source r k) :: after →
      let b := (start.play before).board
      let o := b.createProcessor source r k
      let initial? := start.filters.filter? r.kind
      match r.filter?.or (Action.latestFilter? kind? r.kind initial? before) with
      | none =>
        writes o.events = [] ∧ o.result = .error (.creation (.unboundKind r.kind))
      | some filter =>
        let bytes := [0x09, 0x02] ++ source.header.wire ++ [filter] ++ r.config.bytes
        let d := Link.write b.link bytes
        writes o.events = d.answers.map (bytes, ·) ∧ o.result = d.verdict.mapError .link) ∧
    (∀ before source depth filter k after,
      as = before ++ .perform (.averageQuaternions source depth filter k) :: after →
      let b := (start.play before).board
      let o := b.averageQuaternions source depth filter k
      let exhausted :=
        b.filters.synthetic? QuaternionAverage.name = none ∧
        ∀ tag, 17 < tag → ∃ name', b.filters.synthetic? name' = some ⟨tag⟩
      (exhausted →
        kind? = none ∧ writes o.events = [] ∧ o.result = .error (.creation .kindsExhausted)) ∧
      (¬exhausted → ∃ kind, kind? = some kind ∧
        let bytes := [0x09, 0x02] ++ source.header.wire ++ [filter] ++ [depth]
        let d := Link.write b.link bytes
        writes o.events = d.answers.map (bytes, ·) ∧ o.result = d.verdict.mapError .link ∧
        o.board.filters.filter? kind = some filter ∧
        (o.result = .ok () →
          o.board.pending = b.pending ++ [⟨kind, .ofByte depth, .quaternion, source, k⟩]))) ∧
    ∀ kind, kind? = some kind → kind.isSynthetic ∧
      ∀ name', filters.synthetic? name' = some kind → name' = QuaternionAverage.name := by
  intro start filters kind?
  have numbers {as : List (Action L κ)} (ha : ∀ a ∈ as, ¬a.replacesFilters) :
      ∃ names, (start.play as).board.filters.Numbers names := by
    have n₀ : t₀.Numbers (FilterTable.granted []) := by
      rcases h₀ with rfl | rfl <;> exact .start _
    have ⟨es', he⟩ := play_filters (b := start) ha
    rw [he]
    exact ⟨_, (n₀.edits es).edits es'⟩
  refine ⟨?requests, ?averages, ?name⟩
  case requests =>
    rintro before source r k after rfl b o initial?
    have hf : b.filters.filter? r.kind = Action.latestFilter? kind? r.kind initial? before :=
      play_filter? ha r.kind
    rw [← hf]
    cases hf : r.filter?.or (b.filters.filter? r.kind)
    case none =>
      have ho : o = _ := createProcessor_of_no_filter hf
      rw [ho]
      exact ⟨rfl, rfl⟩
    case some filter =>
      have ⟨hw, hr, _, _⟩ := createProcessor_of_filter source k hf
      exact ⟨hw, hr⟩
  case averages =>
    rintro before source depth filter k after rfl b o exhausted
    have ⟨hb, ha⟩ := List.forall_mem_append.mp ha
    have ⟨_, n⟩ := numbers hb
    have hd : kind? = (b.filters.allocate QuaternionAverage.name).1 := by
      have hd := play_decided (a := .perform (.averageQuaternions source depth filter k)) rfl
        (List.forall_mem_cons.mp ha).right (b := b)
      rw [← hd.kind_eq]
      simp only [kind?, filters, play_append, play_cons]
      rfl
    have he : kind? = none ↔ exhausted := hd ▸ n.allocate_eq_none_iff
    constructor
    case left =>
      intro h
      have hk := he.mpr h
      have ho : o = _ := averageQuaternions_of_none (hd ▸ hk)
      rw [ho]
      exact ⟨hk, rfl, rfl⟩
    case right =>
      intro h
      have ⟨kind, hk⟩ := Option.ne_none_iff_exists'.mp (mt he.mp h)
      exact ⟨kind, hk, averageQuaternions_of_kind (hd ▸ hk)⟩
  case name =>
    intro kind hk
    have ⟨_, n⟩ := numbers ha
    exact ⟨n.isSynthetic hk, fun _ hk' => n.name_eq hk' hk⟩

end Sessions

-- A request that the link refuses, but whose filter stays bound. One more request of the same kind
-- comes after it, and another one once the kind has been unbound.
def refusedCombiner : List (Action MeteredLink String) :=
  let source := .device ⟨.caller, 0⟩ BuiltIn.switchState.header .statusByte
  [
    .setLink { quota := some 0 },
    .perform <| .createProcessor source ⟨⟨3⟩, .empty, .statusByte, some 40⟩ "refused",
    .setLink {},
    .perform <| .createProcessor source ⟨⟨3⟩, .empty, .statusByte, none⟩ "bound",
    .perform <| .averageQuaternions source 4 26 "average",
    .perform <| .unbind ⟨3⟩,
    .perform <| .createProcessor source ⟨⟨3⟩, .empty, .statusByte, none⟩ "unbound"
  ]

theorem play_names_latest_filters_of_refusedCombiner :
    let start : Board MeteredLink String :=
      withFilters {} 0 (FilterTable.stock.edits [.allocate "a"])
    let source := .device ⟨.caller, 0⟩ BuiltIn.switchState.header .statusByte
    let combiner : Processor.Request := ⟨⟨3⟩, .empty, .statusByte, none⟩
    let bound := (start.play (refusedCombiner.take 3)).board
    let unbound := (start.play (refusedCombiner.take 6)).board
    (∀ a ∈ refusedCombiner, ¬a.replacesFilters) ∧
    writes (bound.createProcessor source combiner "bound").events =
      [([9, 2] ++ BuiltIn.switchState.header.wire ++ [40], .accepted)] ∧
    (unbound.createProcessor source combiner "unbound").result =
      .error (.creation (.unboundKind ⟨3⟩)) ∧
    unbound.filters.synthetic? QuaternionAverage.name = some ⟨19⟩ := by
  intro start source combiner bound unbound
  have ha : ∀ a ∈ refusedCombiner, ¬a.replacesFilters := by decide
  have ⟨hr, _, _⟩ := play_names_latest_filters (.inl rfl) [.allocate "a"] {} 0 refusedCombiner ha
  refine ⟨ha, ?bound, ?unbound, by decide +kernel⟩
  case bound =>
    have h := hr (refusedCombiner.take 3) source combiner "bound" (refusedCombiner.drop 4) rfl
    exact h.left.trans <| by decide +kernel
  case unbound =>
    exact (hr (refusedCombiner.take 6) source combiner "unbound" [] rfl).right

end Board

end SensorBoard
