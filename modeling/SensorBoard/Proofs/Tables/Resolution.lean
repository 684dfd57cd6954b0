import SensorBoard.Proofs.Tables.Routes
import Mathlib.Data.Set.Card

namespace SensorBoard

section Routes

variable {packet : List UInt8}

theorem mem_routesOf_iff :
    route ∈ routesOf packet ↔
      ∃ module register rest, packet = module :: register :: rest ∧
        (route = ⟨{ module, register }, 2⟩ ∨
          ∃ channel, rest.head? = some channel ∧ route = ⟨{ module, register, channel }, 3⟩) := by
  match packet with
  | [] | [_]                  => simp [routesOf]
  | [_, _] | _ :: _ :: _ :: _ => simp [routesOf]

-- A route takes the packet apart into header and payload.
theorem packet_eq_of_mem_routesOf (h : route ∈ routesOf packet) :
    route.offset ≤ packet.length ∧
      packet = [route.header.module, route.header.register] ++ route.header.channel.toList ++
        route.payload packet := by
  obtain ⟨module, register, rest, rfl, rfl | ⟨channel, hc, rfl⟩⟩ := mem_routesOf_iff.mp h
  case inl => simp [Route.payload]
  case inr =>
    obtain ⟨rest, rfl⟩ := List.head?_eq_some_iff.mp hc
    simp [Route.payload]

end Routes

namespace RouteTable

-- What can be done with a table.
inductive Edit (κ : Type) where
  | register (h : Header) (handler : Handler κ)
  | unregister (h : Header)
  | resolve (packet : List UInt8)

def edit (t : RouteTable κ) : Edit κ → RouteTable κ
  | .register h handler => (t.register h handler).2
  | .unregister h       => (t.unregister h).2
  | .resolve packet     => (t.resolve packet).2

def edits (t : RouteTable κ) (es : List (Edit κ)) : RouteTable κ :=
  es.foldl edit t

-- What becomes of the packets.
def resolutions (t : RouteTable κ) : List (Edit κ) → List (Option Route)
  | []                    => []
  | .resolve packet :: es => (t.resolve packet).1 :: (t.edit (.resolve packet)).resolutions es
  | e :: es               => (t.edit e).resolutions es

-- The header has been registered, and not been unregistered since.
def Registered (es : List (Edit κ)) (h : Header) : Prop :=
  ∃ done handler rest, es = done ++ .register h handler :: rest ∧ .unregister h ∉ rest

theorem registered_cons {es : List (Edit κ)} :
    Registered (e :: es) h ↔
      Registered es h ∨ (∃ handler, e = .register h handler) ∧ .unregister h ∉ es := by
  constructor
  case mp =>
    rintro ⟨_ | ⟨_, done⟩, handler, rest, he, hn⟩
    case nil =>
      obtain ⟨rfl, rfl⟩ := List.cons.inj he
      exact .inr ⟨⟨handler, rfl⟩, hn⟩
    case cons =>
      exact .inl ⟨done, handler, rest, (List.cons.inj he).right, hn⟩
  case mpr =>
    rintro (⟨done, handler, rest, rfl, hn⟩ | ⟨⟨handler, rfl⟩, hn⟩)
    case inl => exact ⟨e :: done, handler, rest, rfl, hn⟩
    case inr => exact ⟨[], handler, es, rfl, hn⟩

section Edits

variable {t : RouteTable κ} {e : Edit κ} {es : List (Edit κ)}

theorem get?_resolve : (t.resolve packet).2.get? h = t.get? h := by
  rw [get?, resolve_preserves_handlers, get?]

theorem contains_edit_iff :
    (t.edit e).contains h ↔
      (∃ handler, e = .register h handler) ∨ t.contains h ∧ e ≠ .unregister h := by
  rw [contains_iff, contains_iff]
  cases e with
  | register h' handler =>
    rw [edit, get?_register]
    by_cases hh : h' = h <;> simp [hh]
  | unregister h' =>
    rw [edit, get?_unregister]
    by_cases hh : h' = h <;> simp [hh]
  | resolve => simp [edit, get?_resolve]

theorem contains_edits_iff :
    (t.edits es).contains h ↔ Registered es h ∨ t.contains h ∧ .unregister h ∉ es := by
  induction es generalizing t
  case nil => simp [edits, Registered]
  case cons e es hi =>
    change ((t.edit e).edits es).contains h ↔ _
    rw [hi, registered_cons, contains_edit_iff, List.mem_cons]
    grind

theorem contains_edits_empty_iff : (empty.edits es).contains h ↔ Registered es h := by
  rw [contains_edits_iff]
  simp [contains, empty]

theorem size_eq_ncard (t : RouteTable κ) : t.size = {h | t.contains h}.ncard := by
  have hk : {h | t.contains h} = (t.handlers.keys.toFinset : Set Header) := by
    ext h
    simp [contains]
  rw [hk, Set.ncard_coe_finset, List.toFinset_card_of_nodup Std.ExtTreeMap.nodup_keys,
    Std.ExtTreeMap.length_keys, size]

theorem unhandled_edits (hu : t.unhandled ≤ unhandledLimit) :
    (t.edits es).unhandled =
      min unhandledLimit (t.unhandled + (t.resolutions es).countP (·.isNone)) := by
  induction es generalizing t
  case nil => exact (Nat.min_eq_right hu).symm
  case cons e es hi =>
    change ((t.edit e).edits es).unhandled = _
    cases e with
    | register | unregister => exact hi hu
    | resolve packet =>
      rw [resolutions, List.countP_cons, edit, resolve_fst]
      cases hr : t.match? packet
      case some => simp [resolve_of_match? hr, hi hu]
      case none =>
        have hu' := resolve_unhandled_of_none hr
        rw [hi (hu' ▸ Nat.min_le_right ..), hu']
        simp
        omega

end Edits

section Resolve

variable {t : RouteTable κ}

theorem resolve_isSome_iff :
    (t.resolve packet).1.isSome ↔
      ∃ module register rest, packet = module :: register :: rest ∧
        (t.contains { module, register } ∨
          ∃ channel, rest.head? = some channel ∧ t.contains { module, register, channel }) := by
  rw [resolve_fst, match?_eq_find?, List.find?_isSome]
  constructor
  case mp =>
    rintro ⟨route, hm, hc⟩
    obtain ⟨module, register, rest, rfl, rfl | ⟨channel, hr, rfl⟩⟩ := mem_routesOf_iff.mp hm
    case inl => exact ⟨module, register, rest, rfl, .inl hc⟩
    case inr => exact ⟨module, register, rest, rfl, .inr ⟨channel, hr, hc⟩⟩
  case mpr =>
    rintro ⟨module, register, rest, hp, hc | ⟨channel, hr, hc⟩⟩
    case inl => exact ⟨_, mem_routesOf_iff.mpr ⟨module, register, rest, hp, .inl rfl⟩, hc⟩
    case inr =>
      exact ⟨_, mem_routesOf_iff.mpr ⟨module, register, rest, hp, .inr ⟨channel, hr, rfl⟩⟩, hc⟩

-- Whatever comes after its first two bytes.
theorem resolve_of_contains_plain {module register : UInt8}
    (h : t.contains { module, register }) (rest : List UInt8) :
    (t.resolve (module :: register :: rest)).1 = some ⟨{ module, register }, 2⟩ := by
  simp [resolve_fst, match?, h]

theorem of_resolve_eq_some (h : (t.resolve packet).1 = some route) :
    t.contains route.header ∧ route ∈ routesOf packet := by
  rw [resolve_fst, match?_eq_find?] at h
  have hc : t.contains route.header := by simpa using List.find?_some h
  exact ⟨hc, List.mem_of_find?_eq_some h⟩

end Resolve

-- Whatever a table has been through: a packet finds a route if its register as a whole is
-- registered, or else the channel that it names. The former takes precedence. The route takes the
-- packet apart into header and payload, and finding it leaves all routes as they are. The table has
-- counted the packets that found none, up to its limit, and it has as many routes as there are
-- headers registered.
theorem edits_resolve_packets (es : List (Edit κ)) :
    let t := empty.edits es
    (∀ packet, (t.resolve packet).1.isSome ↔
      ∃ module register rest, packet = module :: register :: rest ∧
        (Registered es { module, register } ∨
          ∃ channel, rest.head? = some channel ∧ Registered es { module, register, channel })) ∧
    (∀ module register rest, Registered es { module, register } →
      (t.resolve (module :: register :: rest)).1 = some ⟨{ module, register }, 2⟩) ∧
    (∀ packet route, (t.resolve packet).1 = some route →
      Registered es route.header ∧ route.offset ≤ packet.length ∧
      packet = [route.header.module, route.header.register] ++ route.header.channel.toList ++
        packet.drop route.offset) ∧
    (∀ packet, (t.resolve packet).2.handlers = t.handlers) ∧
    t.unhandled = min 0xFFFFFFFF ((empty.resolutions es).countP (·.isNone)) ∧
    t.size = {h | Registered es h}.ncard := by
  intro t
  have hc (h : Header) : t.contains h ↔ Registered es h := contains_edits_empty_iff
  simp only [← hc]
  refine ⟨fun _ => resolve_isSome_iff, fun _ _ rest h => resolve_of_contains_plain h rest, ?sound,
    fun _ => resolve_preserves_handlers, ?unhandled, t.size_eq_ncard⟩
  case sound =>
    intro packet route h
    have ⟨hc, hm⟩ := of_resolve_eq_some h
    exact ⟨hc, packet_eq_of_mem_routesOf hm⟩
  case unhandled =>
    exact (unhandled_edits (Nat.zero_le _)).trans <| congrArg _ (Nat.zero_add _)

-- A channel behind a route for its register as a whole, and a packet that is too short for either.
theorem edits_resolve_packets_of_shadowedChannel :
    let whole := BuiltIn.switchState.header
    let es : List (Edit String) := [
      .register (whole.subChannel 3) .sampleWithId,
      .register whole .processorCreated,
      .resolve [1],
      .register whole .sampleWithoutId
    ]
    let t := empty.edits es
    let packet : List UInt8 := [1, 1, 3, 5]
    Registered es whole ∧ Registered es (whole.subChannel 3) ∧
    (t.resolve packet).1 = some ⟨whole, 2⟩ ∧ packet = [1, 1] ++ [] ++ packet.drop 2 ∧
    t.unhandled = 1 ∧ {h | Registered es h}.ncard = 2 := by
  intro whole es t packet
  have hw : Registered es whole := ⟨es.take 3, .sampleWithoutId, [], rfl, by simp⟩
  have hc : Registered es (whole.subChannel 3) := ⟨[], .sampleWithId, es.tail, rfl, by simp [es]⟩
  have ⟨_, hp, hs, _, hu, hl⟩ := edits_resolve_packets es
  have hr : (t.resolve packet).1 = some ⟨whole, 2⟩ := hp 1 1 [3, 5] hw
  have ⟨_, _, hd⟩ := hs _ _ hr
  refine ⟨hw, hc, hr, hd, hu.trans ?unhandled, hl.symm.trans ?size⟩
  case unhandled => decide
  case size      => decide +kernel

end RouteTable

end SensorBoard
