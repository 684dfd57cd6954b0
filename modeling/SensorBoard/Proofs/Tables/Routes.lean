import SensorBoard.Proofs.Tables.Coherence

namespace SensorBoard

-- The routes that a packet can take, in the order in which they are tried.
def routesOf : List UInt8 → List Route
  | module :: register :: channel :: _ =>
    [⟨{ module, register }, 2⟩, ⟨{ module, register, channel }, 3⟩]
  | [module, register] => [⟨{ module, register }, 2⟩]
  | _                  => []

namespace RouteTable

variable {t : RouteTable κ}

theorem match?_eq_find? (t : RouteTable κ) :
    (packet : List UInt8) → t.match? packet = (routesOf packet).find? (t.contains ·.header)
  | [] | [_]                  => rfl
  | [_, _] | _ :: _ :: _ :: _ => by grind [match?, routesOf]

theorem match?_eq_none_iff :
    t.match? packet = none ↔ ∀ route ∈ routesOf packet, t.get? route.header = none := by
  simp [match?_eq_find?, contains_iff]

-- A channel is out of reach as long as there is a route for the register as a whole.
theorem not_contains_plain_of_match? (hm : t.match? packet = some route)
    (hc : route.header.channel.isSome) : ¬t.contains route.header.plain := by
  unfold match? at hm
  grind [Header.plain]

end RouteTable

namespace Board

variable {b b' : Board L κ} {es : List (Event ε κ)}

-- A packet that comes in without a route for it is counted, and that is all.
theorem receive_of_unrouted (hp : b.route? (Header.plain h) = none)
    (hr : b.route? (h.subChannel i) = none) (payload : List UInt8) :
    let packet := h.module :: h.register :: i :: payload
    (b.receive packet : Outcome L ε κ Unit) = ⟨
      (),
      [.notice (.dropped packet)],
      { b with
        routes := { b.routes with
          unhandled := min (b.routes.unhandled + 1) RouteTable.unhandledLimit } }
    ⟩ := by
  intro packet
  have hm : b.routes.match? packet = none :=
    RouteTable.match?_eq_none_iff.mpr <|
      List.forall_mem_cons.mpr ⟨hp, List.forall_mem_singleton.mpr hr⟩
  rw [receive_of_no_match? hm, RouteTable.resolve, hm]

theorem route?_cases_of_ite
    (hr : b'.route? h = if h' = h then some handler else b.route? h) :
    b'.route? h = b.route? h ∨ (b'.route? h).isSome ∧ h' = h := by
  by_cases hh : h' = h
  case pos => exact .inr ⟨Option.isSome_of_eq_some <| hr.trans <| if_pos hh, hh⟩
  case neg => exact .inl <| hr.trans <| if_neg hh

-- A route without channel only ever changes if someone asks for it. It then leads elsewhere, but
-- there is one.
theorem Step.plain_route?_cases (e : Step b a es b') (c : Coherent b) (hh : h.channel = none) :
    b'.route? h = b.route? h ∨
    (b'.route? h).isSome ∧
      ((∃ format, a.singleton? = some (h, format)) ∨ ∃ k, a = .perform (.onResponse h k)) := by
  cases e with
  | aside | refused | requested | channelFound | subscribed | unsubscribed | handled | sampled
  | unexpected | malformed | aborted => exact .inl rfl
  | dropped =>
    exact .inl <| by simp [route?, RouteTable.get?, RouteTable.resolve_preserves_handlers]
  | singletonFound ha =>
    refine (route?_cases_of_ite route?_register).imp_right ?_
    rintro ⟨hr, rfl⟩
    exact ⟨hr, .inl ⟨_, ha⟩⟩
  | singletonMade ha =>
    refine (route?_cases_of_ite route?_file_register).imp_right ?_
    rintro ⟨hr, rfl⟩
    exact ⟨hr, .inl ⟨_, ha⟩⟩
  | rerouted =>
    refine (route?_cases_of_ite route?_register).imp_right ?_
    rintro ⟨hr, rfl⟩
    exact ⟨hr, .inr ⟨_, rfl⟩⟩
  -- Everything else is about channels.
  | channelMade hs =>
    refine .inl <| route?_file_register.trans <| if_neg ?_
    rintro rfl
    cases hs ▸ hh
  | created =>
    refine .inl <| route?_install.trans <| if_neg ?_
    rintro rfl
    cases hh
  | removed _ _ hi =>
    refine .inl <| route?_forget.trans <| if_neg ?_
    rintro rfl
    cases (Signal.channel_of_processorId? hi).symm.trans hh
  | tornDown =>
    refine .inl <| route?_cleared.trans <| if_neg fun hm => ?_
    obtain ⟨_, hs, hp⟩ := c.mem_headers_iff.mp hm
    obtain ⟨_, rfl⟩ := c.output hs hp
    cases hh

theorem Step.preserves_plain_route (e : Step b a es b') (c : Coherent b) (hh : h.channel = none)
    (hr : (b.route? h).isSome) : (b'.route? h).isSome := by
  obtain h | ⟨h, _⟩ := e.plain_route?_cases c hh
  case inl => exact h ▸ hr
  case inr => exact h

end Board

end SensorBoard
