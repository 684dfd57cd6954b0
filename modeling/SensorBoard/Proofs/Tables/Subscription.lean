import SensorBoard.Proofs.Session.History
import SensorBoard.Proofs.Creation.Provenance
import SensorBoard.Link.Metered

namespace SensorBoard

namespace Action

-- Someone is to get the samples of the header from now on.
def subscribes (h : Header) : Action L κ → Bool
  | perform (.subscribe s _) => s.header = h
  | _                        => false

-- Who gets the samples of the header, going by what the action asks for.
def reassign (h : Header) (k? : Option κ) : Action L κ → Option κ
  | perform (.subscribe s k) => if s.header = h then some k else k?
  | perform (.unsubscribe s) => if s.header = h then none else k?
  | _                        => k?

theorem exists_of_subscribes {a : Action L κ} (ha : a.subscribes h) :
    ∃ s k, a = .perform (.subscribe s k) ∧ s.header = h := by
  unfold subscribes at ha
  split at ha
  case h_1 s k => exact ⟨s, k, rfl, of_decide_eq_true ha⟩
  case h_2     => contradiction

theorem reassign_cases {a : Action L κ} (ha : ¬a.subscribes h) (k? : Option κ) :
    a.reassign h k? = none ∨ a.reassign h k? = k? := by
  unfold reassign
  split
  case h_1 s k => exact .inr <| if_neg fun hh => ha <| decide_eq_true hh
  case h_2 s =>
    by_cases hh : s.header = h
    case pos => exact .inl <| if_pos hh
    case neg => exact .inr <| if_neg hh
  case h_3 => exact .inr rfl

-- What has to do with other things has nothing to do with subscribers.
theorem reassign_eq {a : Action L κ}
    (ha : a.isAside ∨ a.callback?.isSome ∨ a.singleton?.isSome) : a.reassign h k? = k? := by
  cases a
  case perform op =>
    cases op
    case subscribe   => obtain ha | ha | ha := ha <;> cases ha
    case unsubscribe => obtain ha | ha | ha := ha <;> cases ha
    all_goals rfl
  all_goals rfl

end Action

namespace Board

section Step

variable {b b' : Board L κ} {es : List (Event ε κ)}

-- The only way for a subscriber to leave without being asked to is together with its signal, in whose
-- place there can only be a new one. And the only way for a signal to leave is together with its
-- subscriber.
theorem Step.subscriber?_cases (e : Step b a es b') (c : Coherent b) (h : Header) :
    (b'.subscriber? h = a.reassign h (b.subscriber? h) ∧
      ∀ s, b.lookup? h = some s → b'.lookup? h = some s) ∨
    ((b.lookup? h).isSome ∧ b'.subscriber? h = none ∧ (∀ k?, a.reassign h k? = k?) ∧
      ∀ s, b'.lookup? h = some s → s.id = b.nextId) := by
  cases e with
  | aside _ _ _ ha => exact .inl ⟨(Action.reassign_eq <| .inl ha).symm, fun _ => id⟩
  | refused _ _ ha =>
    have ha := Option.isSome_of_eq_some ha
    exact .inl ⟨(Action.reassign_eq <| .inr <| .inl ha).symm, fun _ => id⟩
  | requested _ _ hp =>
    have ha := Option.isSome_of_eq_some <| callback?_of_creation? hp
    exact .inl ⟨(Action.reassign_eq <| .inr <| .inl ha).symm, fun _ => id⟩
  | singletonFound ha =>
    have ha := Option.isSome_of_eq_some ha
    exact .inl ⟨(Action.reassign_eq <| .inr <| .inr ha).symm, fun _ => id⟩
  | channelFound | rerouted | dropped | handled | sampled | unexpected | malformed | aborted =>
    exact .inl ⟨rfl, fun _ => id⟩
  | subscribed   => exact .inl ⟨subscriber?_subscribe, fun _ => id⟩
  | unsubscribed => exact .inl ⟨subscriber?_unsubscribe, fun _ => id⟩
  | singletonMade ha hs =>
    have ha := Option.isSome_of_eq_some ha
    refine .inl ⟨(Action.reassign_eq <| .inr <| .inr ha).symm, fun s hl => ?_⟩
    refine lookup?_file_register.trans <| (if_neg ?_).trans hl
    rintro rfl
    cases hs.symm.trans hl
  | channelMade hh hs =>
    refine .inl ⟨rfl, fun s hl => ?_⟩
    refine lookup?_file_register.trans <| (if_neg ?_).trans hl
    rintro rfl
    cases hs.symm.trans hl
  | @created _ _ i _ p ps =>
    have hb : ({ b.install (b.confirmed p i) with pending := ps } : Board L κ).subscriber? h =
      (b.install (b.confirmed p i)).subscriber? h := rfl
    by_cases hh : Processor.output i = h ∧ (b.lookup? h).isSome
    case pos =>
      refine .inr ⟨hh.right, (hb.trans subscriber?_install).trans <| if_pos hh, fun _ => rfl, ?_⟩
      intro s hs
      cases hs.symm.trans <| lookup?_install.trans <| if_pos hh.left
      rfl
    case neg =>
      refine .inl ⟨(hb.trans subscriber?_install).trans <| if_neg hh, fun s hl => ?_⟩
      refine lookup?_install.trans <| (if_neg fun ho => hh ⟨ho, ?_⟩).trans hl
      exact Option.isSome_of_eq_some hl
  | @removed s _ _ link hs =>
    by_cases hh : s.header = h
    case pos =>
      subst hh
      refine .inr ⟨Option.isSome_of_eq_some hs, subscriber?_forget.trans <| if_pos rfl,
        fun _ => rfl, fun _ ht => ?_⟩
      cases ht.symm.trans <| lookup?_forget.trans <| if_pos rfl
    case neg =>
      exact .inl ⟨subscriber?_forget.trans <| if_neg hh,
        fun _ => (lookup?_forget.trans <| if_neg hh).trans⟩
  | tornDown link =>
    have hs : (b.cleared.withLink link).subscriber? h = _ := subscriber?_cleared
    have hl : (b.cleared.withLink link).lookup? h = _ := lookup?_cleared
    by_cases hm : h ∈ b.processors.map Signal.header
    case pos =>
      obtain ⟨s, hf, hp⟩ := c.mem_headers_iff.mp hm
      refine .inr ⟨Option.isSome_of_eq_some hf, hs.trans <| if_pos hm, fun _ => rfl, fun _ ht => ?_⟩
      have hn : (b.lookup? h).filter (!·.isProcessor) = none := by simp [hf, hp]
      cases ht.symm.trans <| hl.trans hn
    case neg =>
      refine .inl ⟨hs.trans <| if_neg hm, fun s hf => ?_⟩
      have hp : ¬s.isProcessor := fun hp => hm <| c.mem_headers_iff.mpr ⟨s, hf, hp⟩
      rw [hl, hf]
      simp [hp]

end Step

-- If there is a subscriber at the header of `b'`, then `b` has had it there, too, and it has kept
-- its signal.
def Retains (h : Header) (b b' : Board L κ) : Prop :=
  b'.subscriber? h = none ∨
    (b'.subscriber? h = b.subscriber? h ∧ ∀ s, b.lookup? h = some s → b'.lookup? h = some s)

namespace Retains

variable {b b₁ b₂ b₃ : Board L κ}

theorem refl (h : Header) (b : Board L κ) : Retains h b b :=
  .inr ⟨rfl, fun _ => id⟩

theorem trans (r₁ : Retains h b₁ b₂) (r₂ : Retains h b₂ b₃) : Retains h b₁ b₃ := by
  obtain hn | ⟨hs₂, hk₂⟩ := r₂
  case inl => exact .inl hn
  case inr =>
    obtain hn | ⟨hs₁, hk₁⟩ := r₁
    case inl => exact .inl <| hs₂.trans hn
    case inr => exact .inr ⟨hs₂.trans hs₁, fun s hs => hk₂ s <| hk₁ s hs⟩

theorem of_some (r : Retains h b₁ b₂) (hk : b₂.subscriber? h = some k) :
    b₁.subscriber? h = some k ∧ ∀ s, b₁.lookup? h = some s → b₂.lookup? h = some s := by
  obtain hn | ⟨hs, hl⟩ := r
  case inl => cases hn.symm.trans hk
  case inr => exact ⟨hs.symm.trans hk, hl⟩

end Retains

theorem Step.retains {b b' : Board L κ} {es : List (Event ε κ)} (e : Step b a es b')
    (c : Coherent b) (ha : ¬a.subscribes h) : Retains h b b' := by
  obtain ⟨hs, hk⟩ | ⟨_, hs, _⟩ := e.subscriber?_cases c h
  case inr => exact .inl hs
  case inl =>
    cases Action.reassign_cases ha (b.subscriber? h)
    case inl hn  => exact .inl <| hs.trans hn
    case inr hk' => exact .inr ⟨hs.trans hk', hk⟩

-- The packet brings the subscriber `k` the value `v` of the signal `s`.
structure Sampling (b : Board L κ) (packet : List UInt8) (s : Signal) (k : κ) (v : Sample.Value) :
    Prop where
  decoded    : ∃ route, b.routes.match? packet = some route ∧ route.header = s.header ∧
                 s.format.decode (route.payload packet) = .ok v
  filed      : b.lookup? s.header = some s
  subscribed : b.subscriber? s.header = some k

section Sampling

variable {b b' : Board L κ} {es : List (Event ε κ)}

theorem mem_deliver (hm : .sample k h v ∈ (b.deliver h' payload : List (Event ε κ))) :
    h = h' ∧ b.subscriber? h' = some k ∧
      ∃ s, b.lookup? h' = some s ∧ s.format.decode payload = .ok v := by
  unfold deliver at hm
  split at hm
  case h_1 => simp at hm
  case h_2 s hs =>
    split at hm
    case h_1 => simp at hm
    case h_2 v' hv =>
      cases hk : b.subscriber? h' <;> simp [hk] at hm
      obtain ⟨rfl, rfl, rfl⟩ := hm
      exact ⟨rfl, rfl, s, hs, hv⟩

theorem Step.sampling (e : Step b a es b') (c : Coherent b) (hm : .sample k h v ∈ es) :
    ∃ packet s, a = .perform (.receive packet) ∧ s.header = h ∧ Sampling b packet s k v := by
  cases e with
  | aside _ _ _ _ he | requested _ _ _ he | rerouted he | removed _ _ _ he =>
    exact absurd (he.plain _ hm) nofun
  | refused _ _ _ he =>
    have hm := (List.mem_append.mp hm).resolve_right (by simp)
    exact absurd (he.plain _ hm) nofun
  | tornDown _ he =>
    have hm := (List.mem_append.mp hm).resolve_left (by simp)
    exact absurd (he.plain _ hm) nofun
  | @sampled packet route _ _ hr _ _ hp =>
    subst hp
    have hm := (List.mem_cons.mp hm).resolve_left nofun
    obtain ⟨rfl, hk, s, hs, hv⟩ := mem_deliver hm
    have hf := c.filed hs
    refine ⟨packet, s, rfl, hf, ⟨route, hr, hf.symm, hv⟩, ?_, ?_⟩ <;> rwa [hf]
  | singletonFound | singletonMade | channelFound | channelMade | subscribed | unsubscribed
  | dropped | handled | unexpected | malformed | created | aborted => simp at hm

end Sampling

section Play

variable [Link L ε] {b : Board L κ}

theorem Coherent.play_retains (c : Coherent b) (ha : ∀ a ∈ as, ¬a.subscribes h) :
    Retains h b (b.play as).board := by
  induction as generalizing b
  case nil => exact .refl h b
  case cons a as hi =>
    have e := b.act_step a
    have ⟨ha, has⟩ := List.forall_mem_cons.mp ha
    exact e.retains c ha |>.trans <| hi (e.preserves_coherent c) has

-- Every sample of a session is due to a packet in it.
theorem Coherent.play_sampling (c : Coherent b) (hm : .sample k h v ∈ (b.play as).events) :
    ∃ before packet after s,
      as = before ++ .perform (.receive packet) :: after ∧ s.header = h ∧
      Sampling (b.play before).board packet s k v := by
  have ⟨before, a, after, has, hm⟩ := exists_act_of_mem_play hm
  have ⟨packet, s, ha, hh, hs⟩ := ((b.play before).board.act_step a).sampling (c.play before).left hm
  exact ⟨before, packet, after, s, ha ▸ has, hh, hs⟩

-- If a signal is on file, then whoever subscribes to it is given samples of this very signal, and of
-- no other that may come to have the same header. As long as the subscription is there, the signal
-- is, too. Apart from it, a subscriber only gets samples by virtue of other subscriptions.
theorem play_subscription_sound
    (link : L) (name : Nat) (filters : Processor.FilterTable) (as₁ as₂ : List (Action L κ))
    (s : Signal) (k : κ)
    (hs : ((withFilters link name filters : Board L κ).play as₁).board.lookup? s.header = some s)
    (ha : ∀ a ∈ as₂, ¬a.subscribes s.header) :
    let b := (((withFilters link name filters : Board L κ).play as₁).board.subscribe s k).2
    let o := b.play as₂
    (∀ k', o.board.subscriber? s.header = some k' →
      k' = k ∧ o.board.lookup? s.header = some s) ∧
    ∀ k' h v, .sample k' h v ∈ o.events → ∃ before packet after t,
      as₂ = before ++ .perform (.receive packet) :: after ∧ t.header = h ∧
      Sampling (b.play before).board packet t k' v ∧
      (h = s.header → k' = k ∧ t = s) := by
  intro b o
  have c₁ := (withFilters_coherent link name filters : Coherent (κ := κ) _).play as₁ |>.left
  have c : Coherent b := c₁.congr (fun _ => rfl) (fun _ => rfl)
  have hb : b.subscriber? s.header = some k := subscriber?_subscribe.trans <| if_pos rfl
  have hr (as : List (Action L κ)) (ha : ∀ a ∈ as, ¬a.subscribes s.header) {k' : κ}
      (hk : (b.play as).board.subscriber? s.header = some k') :
      k' = k ∧ (b.play as).board.lookup? s.header = some s := by
    have ⟨hk', hl⟩ := (c.play_retains ha).of_some hk
    exact ⟨Option.some.inj <| hk'.symm.trans hb, hl s hs⟩
  refine ⟨fun k' => hr as₂ ha, fun k' h v hm => ?_⟩
  have ⟨before, packet, after, t, has, ht, hst⟩ := c.play_sampling hm
  refine ⟨before, packet, after, t, has, ht, hst, fun hh => ?_⟩
  have hht : t.header = s.header := ht.trans hh
  have ⟨hk, hl⟩ := hr before (fun a ha' => ha a <| by simp [has, ha']) (hht ▸ hst.subscribed)
  exact ⟨hk, Option.some.inj <| (hht ▸ hst.filed).symm.trans hl⟩

-- The processor that is made first.
def firstOfTwo : Signal :=
  let source := .device ⟨.caller, 0⟩ BuiltIn.switchState.header .statusByte
  .processor ⟨.board 0, 0⟩ (Processor.output 4) .statusByte ⟨9⟩ .empty source

-- A request for a processor, which the firmware confirms under the id `4`.
def creationOfFour (callback : String) : List (Action MeteredLink String) :=
  let source := .device ⟨.caller, 0⟩ BuiltIn.switchState.header .statusByte
  [
    .perform <| .createProcessor source ⟨⟨9⟩, .empty, .statusByte, some 1⟩ callback,
    .perform <| .receive [Module.processor, Register.addProcessor, 4]
  ]

-- The first processor is replaced by another one with the same id.
def succession : List (Action MeteredLink String) :=
  [
    .perform <| .receive [Module.processor, Register.processorOutput, 4, 7],
    .perform <| .removeProcessor firstOfTwo
  ] ++ creationOfFour "second" ++ [
    .perform <| .receive [Module.processor, Register.processorOutput, 4, 8]
  ]

theorem play_subscription_sound_of_succession :
    let b₁ := ((withFilters {} 0 .stock : Board MeteredLink String).play (creationOfFour "first")).board
    b₁.lookup? firstOfTwo.header = some firstOfTwo ∧
    (∀ a ∈ succession, ¬a.subscribes firstOfTwo.header) ∧
    let b := (b₁.subscribe firstOfTwo "subscriber").2
    let o := b.play succession
    o.board.lookup? firstOfTwo.header ≠ some firstOfTwo ∧
    .sample "subscriber" firstOfTwo.header (.uint32 7) ∈ o.events ∧
    ∀ k v, .sample k firstOfTwo.header v ∈ o.events → k = "subscriber" ∧
      ∃ before packet after, succession = before ++ .perform (.receive packet) :: after ∧
        Sampling (b.play before).board packet firstOfTwo k v := by
  intro b₁
  have hs : b₁.lookup? firstOfTwo.header = some firstOfTwo := by decide +kernel
  have ha : ∀ a ∈ succession, ¬a.subscribes firstOfTwo.header := by decide +kernel
  refine ⟨hs, ha, by decide +kernel, by decide +kernel, fun k v hm => ?_⟩
  have ⟨_, h⟩ :=
    play_subscription_sound ({} : MeteredLink) 0 .stock (creationOfFour "first") succession
      firstOfTwo "subscriber" hs ha
  have ⟨before, packet, after, t, has, _, hst, ht⟩ := h k _ v hm
  obtain ⟨hk, rfl⟩ := ht rfl
  exact ⟨hk, before, packet, after, has, hst⟩

end Play

end Board

end SensorBoard
