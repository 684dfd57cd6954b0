import SensorBoard.Proofs.Session.Quiet

namespace SensorBoard

namespace Outcome

-- One thing after the other.
def andThen (o : Outcome L ε κ α) (f : α → Board L κ → Outcome L ε κ β) : Outcome L ε κ β where
  result := (f o.result o.board).result
  events := o.events ++ (f o.result o.board).events
  board := (f o.result o.board).board

theorem andThen_assoc {o : Outcome L ε κ α} {f : α → Board L κ → Outcome L ε κ β}
    {g : β → Board L κ → Outcome L ε κ γ} :
    (o.andThen f).andThen g = o.andThen fun r b => (f r b).andThen g := by
  simp [andThen]

end Outcome

namespace Board

variable [Link L ε] {b : Board L κ}

theorem send_eq (b : Board L κ) (c : Command) :
    let d := Link.write b.link c.bytes
    b.send c = ⟨
      d.verdict.mapError .link,
      d.answers.map (.write c.bytes) ++
        if d.verdict.isOk then [.notice (.sent c.bytes)] else [],
      b.withLink d.link
    ⟩ := by
  dsimp only
  cases h : (Link.write b.link c.bytes).verdict
  case error =>
    rw [send_of_refused h]
    exact Outcome.ext rfl (List.append_nil _).symm rfl
  case ok =>
    rw [send_of_accepted h]
    rfl

theorem send_result (b : Board L κ) (c : Command) :
    (b.send c).result = (Link.write b.link c.bytes).verdict.mapError .link := by
  rw [send_eq]

theorem writes_send (b : Board L κ) (c : Command) :
    writes (b.send c).events = (Link.write b.link c.bytes).answers.map (c.bytes, ·) := by
  rw [send_eq]
  dsimp only
  rw [writes_append, writes_answers]
  split <;> simp [writes, Event.write?]

-- Everything that is written is due to the command unless there is a command in what follows.
theorem writes_send_andThen {c : Command}
    {f : Except (BoardError ε) Unit → Board L κ → Outcome L ε κ α}
    (hf : ∀ r b, writes (f r b).events = []) :
    writes ((b.send c).andThen f).events =
      (Link.write b.link c.bytes).answers.map (c.bytes, ·) := by
  rw [Outcome.andThen, writes_append, writes_send, hf, List.append_nil]

theorem completions_send (b : Board L κ) (c : Command) : completions (b.send c).events = [] := by
  obtain ⟨_, _, _, hs, he, _⟩ | ⟨_, _, hs, he, _⟩ := b.send_cases c <;>
    exact hs ▸ he.completions_eq

-- The second of two commands only goes out once the first is accepted.
theorem send_andThen_send (b : Board L κ) (c₁ c₂ : Command) :
    let d₁ := Link.write b.link c₁.bytes
    let d₂ := Link.write d₁.link c₂.bytes
    let o := (b.send c₁).andThen fun
      | .error e, b => ⟨.error e, [], b⟩
      | .ok (), b   => b.send c₂
    o.result = (d₁.verdict.bind fun _ => d₂.verdict).mapError .link ∧
    completions o.events = [] ∧
    writes o.events = d₁.answers.map (c₁.bytes, ·) ++
      if d₁.verdict.isOk then d₂.answers.map (c₂.bytes, ·) else [] := by
  intro d₁ d₂ o
  have hc : completions (b.send c₁).events = [] := completions_send ..
  have hw : writes (b.send c₁).events = d₁.answers.map (c₁.bytes, ·) := writes_send ..
  have hr : (b.send c₁).result = d₁.verdict.mapError .link := send_result ..
  have hb : (b.send c₁).board = b.withLink d₁.link := send_board
  simp only [o, Outcome.andThen, completions_append, writes_append, hc, hw, hr, hb]
  cases d₁.verdict
  case error => exact ⟨rfl, rfl, rfl⟩
  case ok =>
    refine ⟨send_result .., completions_send .., congrArg _ ?_⟩
    exact writes_send ..

theorem removeEventCommands_cons {id : UInt8} :
    b.removeEventCommands (id :: ids) =
      (b.send (.removeEventCommand id)).andThen fun
        | .error e, b => ⟨.error (e, id :: ids), [], b⟩
        | .ok (), b   => b.removeEventCommands ids := by
  rw [removeEventCommands]
  rcases b.send (.removeEventCommand id) with ⟨_ | _, es, b'⟩ <;> simp [Outcome.andThen]

theorem eraseEventCommands_of_some (hl : b.ledger? event = some ledger) :
    b.eraseEventCommands event =
      (b.removeEventCommands ledger.ids).andThen fun
        | .error (e, unsent), b => ⟨.error e, [], b.setLedger event (.ofList unsent)⟩
        | .ok (), b =>
          let count := ledger.ids.length
          ⟨.ok count, [.notice (.erased count event)], b.dropLedger event⟩ := by
  rw [eraseEventCommands, hl]
  dsimp only
  rcases b.removeEventCommands ledger.ids with ⟨⟨e, unsent⟩ | _, es, b'⟩ <;>
    simp [Outcome.andThen]

-- The board once the filter that comes with a request is bound.
def prepared (b : Board L κ) (r : Processor.Request) : Board L κ :=
  { b with filters := r.filter?.elim b.filters (b.filters.bind r.kind · |>.2) }

theorem createProcessor_of_none (hf : (b.prepared r).filters.filter? r.kind = none) :
    b.createProcessor source r k = ⟨
      .error (.creation (.unboundKind r.kind)),
      [.failed k (.unboundKind r.kind)],
      b.prepared r
    ⟩ := by
  unfold prepared at *
  simp [createProcessor, hf]

-- Commands do not look at the queue.
theorem send_enqueue (b : Board L κ) (p : PendingCreation κ) (c : Command) :
    (b.enqueue p).send c =
      ⟨(b.send c).result, (b.send c).events, (b.send c).board.enqueue p⟩ := by
  rw [send_eq, send_eq]
  rfl

-- A request that the link refuses might as well not have lined up.
theorem createProcessor_of_some (hf : (b.prepared r).filters.filter? r.kind = some filter) :
    b.createProcessor source r k =
      ((b.prepared r).send (.createProcessor source.header filter r.config)).andThen fun
        | .error e, b => ⟨.error e, [.failed k .linkFailed], b⟩
        | .ok (), b =>
          let p := ⟨r.kind, r.config, r.format, source, k⟩
          ⟨
            .ok (),
            [.notice (.requested r.kind source.header filter)],
            { b with pending := b.pending ++ [p] }
          ⟩ := by
  unfold prepared at *
  simp only [createProcessor, hf, send_enqueue, withdraw_enqueue]
  generalize send (L := L) _ _ = o
  rcases o with ⟨_ | _, es, b'⟩ <;> rfl

theorem removeProcessor_of_some {id : UInt8} (hi : s.processorId? = some id)
    (hs : b.lookup? s.header = some s) :
    b.removeProcessor s =
      (b.send (.removeProcessor id)).andThen fun
        | .error e, b => ⟨.error e, [], b⟩
        | .ok (), b   => ⟨.ok (), [.notice (.processorRemoved s.header)], b.forget s.header⟩ := by
  simp only [removeProcessor, hi, if_pos hs]
  rcases b.send (.removeProcessor id) with ⟨_ | _, es, b'⟩ <;> simp [Outcome.andThen]

theorem tearDown_eq :
    b.tearDown =
      let count := (b.signals.drainWhere (·.isProcessor)).1.length
      let events := b.abortPending.events ++ [.notice (.tearingDown count b.pending.length)]
      let o : Outcome L ε κ Unit := ⟨(), events, b.cleared⟩
      o.andThen fun _ b => (b.send .removeAllProcessors).andThen fun
        | .error e, b => ⟨.error e, [], b⟩
        | .ok (), b   => b.send .removeAllEventCommands := by
  simp only [tearDown, Outcome.andThen]
  rcases b.cleared.send .removeAllProcessors with ⟨_ | _, es, b'⟩ <;> simp

theorem play_cons_eq_andThen (b : Board L κ) :
    b.play (a :: as) = (b.act a).andThen fun r b => (b.play as).mapResult (r :: ·) :=
  rfl

end Board

end SensorBoard
