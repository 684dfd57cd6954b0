import SensorBoard.Proofs.Tables.Subscription

namespace SensorBoard.Board

-- The subscriber of a header at which there is no signal.
def dormant? (b : Board L κ) (h : Header) : Option κ :=
  if (b.lookup? h).isSome then none else b.subscriber? h

section Step

variable {b b' : Board L κ} {es : List (Event ε κ)}

-- At a header without signal, subscribers come and go as they are told to, until there is a signal.
theorem Step.dormant?_eq (e : Step b a es b') (c : Coherent b) (h : Header) :
    b'.dormant? h = if (b'.lookup? h).isSome then none else a.reassign h (b.dormant? h) := by
  by_cases hl : (b'.lookup? h).isSome
  case pos => rw [dormant?, if_pos hl, if_pos hl]
  case neg =>
    rw [dormant?, if_neg hl, if_neg hl, dormant?]
    obtain ⟨hs, hk⟩ | ⟨hf, hs, ha, _⟩ := e.subscriber?_cases c h
    case inl =>
      rw [hs, if_neg]
      intro hf
      have ⟨s, hf⟩ := Option.isSome_iff_exists.mp hf
      exact hl <| Option.isSome_of_eq_some (hk s hf)
    case inr => rw [hs, if_pos hf, ha]

-- Confirmations hand over the processors that they make.
theorem Step.of_mem_created (e : Step b (.perform (.receive packet)) es b')
    (hm : .created k s ∈ es) :
    ∃ i p ps, s = b.confirmed p i ∧ b' = { b.install s with pending := ps } := by
  have hk : k ∈ completions es := List.mem_filterMap.mpr ⟨_, hm, rfl⟩
  cases e with
  | @created _ _ i _ p ps =>
    have hs : .created k s = (.created p.callback (b.confirmed p i) : Event ε κ) := by simpa using hm
    cases hs
    exact ⟨i, p, ps, rfl, rfl⟩
  | aside _ _ _ ha | refused _ _ ha | singletonFound ha | singletonMade ha => cases ha
  | requested _ _ hp => cases hp
  | sampled => simp [Event.completion?] at hk
  | dropped | handled | unexpected | malformed => simp at hm

-- The new processor comes with the subscriber that lay dormant at its header.
theorem subscriber?_install_confirmed (p : PendingCreation κ) (i : UInt8) :
    (b.install (b.confirmed p i)).subscriber? (Processor.output i) =
      b.dormant? (Processor.output i) := by
  rw [subscriber?_install, confirmed_header, dormant?]
  simp only [true_and]

end Step

variable [Link L ε] {b : Board L κ}

-- The reference for a header without signal: there is the last subscriber that came since a signal
-- was there, unless the subscription has been taken back.
def dormantAfter (b : Board L κ) (h : Header) (k? : Option κ) : List (Action L κ) → Option κ
  | []      => k?
  | a :: as =>
    let b' := (b.act a).board
    b'.dormantAfter h (if (b'.lookup? h).isSome then none else a.reassign h k?) as

theorem Coherent.play_dormant? (c : Coherent b) (h : Header) (as : List (Action L κ)) :
    (b.play as).board.dormant? h = b.dormantAfter h (b.dormant? h) as := by
  induction as generalizing b
  case nil => rfl
  case cons a as hi =>
    have e := b.act_step a
    rw [dormantAfter, ← e.dormant?_eq c h]
    exact hi (e.preserves_coherent c)

-- There is no dormant subscriber if nobody subscribes at the header unless there is a signal.
theorem dormantAfter_eq_none
    (hs : ∀ before t k after, as = before ++ .perform (.subscribe t k) :: after → t.header = h →
      ((b.play before).board.lookup? h).isSome) :
    b.dormantAfter h none as = none := by
  induction as generalizing b
  case nil => rfl
  case cons a as hi =>
    have hn : (if ((b.act a).board.lookup? h).isSome then none else a.reassign h none) = none := by
      by_cases ha : a.subscribes h
      case pos =>
        obtain ⟨t, k, rfl, ht⟩ := Action.exists_of_subscribes ha
        exact if_pos (hs [] t k as rfl ht)
      case neg => rw [or_self_iff.mp (a.reassign_cases ha none), ite_self]
    rw [dormantAfter, hn]
    exact hi fun before t k after has => hs (a :: before) t k after (has ▸ rfl)

-- A new processor gets the subscriber that lies dormant at its header at that time. There is none if
-- everyone has subscribed there while there was a signal. Until someone does so anew, nobody else
-- gets samples of the processor.
theorem play_created_subscriber
    (link : L) (name : Nat) (filters : Processor.FilterTable) (as : List (Action L κ))
    (packet : List UInt8) (k₀ : κ) (s : Signal)
    (hc : .created k₀ s ∈
      (((withFilters link name filters : Board L κ).play as).board.receive packet :
        Outcome L ε κ Unit).events) :
    let start : Board L κ := withFilters link name filters
    let o : Outcome L ε κ Unit := (start.play as).board.receive packet
    let h := s.header
    (∃ i, h = Processor.output i) ∧ o.board.lookup? h = some s ∧
    o.board.subscriber? h = start.dormantAfter h none as ∧
    ((∀ before t k after, as = before ++ .perform (.subscribe t k) :: after → t.header = h →
      ((start.play before).board.lookup? h).isSome) → o.board.subscriber? h = none) ∧
    ∀ as', (∀ a ∈ as', ¬a.subscribes h) → ∀ k v, .sample k h v ∈ (o.board.play as').events →
      o.board.subscriber? h = some k := by
  intro start o h
  have c : Coherent start := withFilters_coherent link name filters
  have e : Step (start.play as).board (.perform (.receive packet)) o.events o.board :=
    receive_step rfl
  have ⟨i, p, ps, hs, hb⟩ := e.of_mem_created hc
  have hh : h = Processor.output i := congrArg Signal.header hs
  have hd : o.board.subscriber? h = start.dormantAfter h none as := by
    have hn : start.dormant? h = none := by
      rw [dormant?, lookup?_withFilters]
      exact subscriber?_withFilters link name filters h
    rw [← hn, ← c.play_dormant? h as, hb, hh]
    exact hs ▸ subscriber?_install_confirmed p i
  refine ⟨⟨i, hh⟩, ?_, hd, fun hr => hd.trans <| dormantAfter_eq_none hr, ?_⟩
  · rw [hb]
    exact lookup?_install.trans <| if_pos rfl
  · intro as' ha k v hm
    have c' : Coherent o.board := e.preserves_coherent (c.play as).left
    have ⟨before, _, _, t, has, ht, hst⟩ := c'.play_sampling hm
    have hr : Retains h o.board (o.board.play before).board :=
      c'.play_retains fun a ha' => ha a <| by simp [has, ha']
    exact (hr.of_some <| ht ▸ hst.subscribed).left

-- Someone subscribes to a processor after it has been removed, and before the firmware gives its id
-- to another one.
def staleSubscription : List (Action MeteredLink String) :=
  creationOfFour "first" ++ [
    .perform <| .removeProcessor firstOfTwo,
    .perform <| .subscribe firstOfTwo "stale",
    .perform <| .createProcessor firstOfTwo ⟨⟨9⟩, .empty, .statusByte, some 1⟩ "second"
  ]

def secondOfTwo : Signal :=
  .processor ⟨.board 0, 1⟩ (Processor.output 4) .statusByte ⟨9⟩ .empty firstOfTwo

theorem play_created_subscriber_of_staleSubscription :
    let start : Board MeteredLink String := withFilters {} 0 .stock
    let o : Outcome MeteredLink LinkFault String Unit :=
      (start.play staleSubscription).board.receive [Module.processor, Register.addProcessor, 4]
    .created "second" secondOfTwo ∈ o.events ∧
    start.dormantAfter secondOfTwo.header none staleSubscription = some "stale" ∧
    o.board.subscriber? secondOfTwo.header =
      start.dormantAfter secondOfTwo.header none staleSubscription := by
  intro start o
  have hc : .created "second" secondOfTwo ∈ o.events := by decide +kernel
  have ⟨_, _, hd, _⟩ :=
    play_created_subscriber ({} : MeteredLink) 0 .stock staleSubscription _ "second" secondOfTwo hc
  exact ⟨hc, by decide +kernel, hd⟩

-- The new processor has a subscriber, which is also given its samples, although nobody has subscribed
-- to it.
theorem created_with_subscriber :
    let start : Board MeteredLink String := withFilters {} 0 .stock
    let o : Outcome MeteredLink LinkFault String Unit :=
      (start.play staleSubscription).board.receive [Module.processor, Register.addProcessor, 4]
    .created "second" secondOfTwo ∈ o.events ∧
    o.board.subscriber? (Processor.output 4) ≠ none ∧
    .sample "stale" secondOfTwo.header (.uint32 1) ∈
      (o.board.play [
        .perform <| .receive [Module.processor, Register.processorOutput, 4, 1]
      ]).events := by
  decide +kernel

end SensorBoard.Board
