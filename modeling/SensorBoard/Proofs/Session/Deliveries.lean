import SensorBoard.Proofs.Filters.Bindings

namespace SensorBoard

-- The commands that an operation consists of, in order. A request for a processor takes a filter, and
-- the processor that is to be removed has to be the one on file.
def Board.commands (b : Board L κ) : Operation κ → List Command
  | .send c          => [c]
  | .read s          => [.read s.header]
  | .stopAdvertising => [.stopAdvertising]
  | .createProcessor source r _ =>
    (r.filter?.or (b.filters.filter? r.kind)).toList.map (.createProcessor source.header · r.config)
  | .averageQuaternions source depth filter _ =>
    (b.filters.allocate Processor.QuaternionAverage.name).1.toList.map fun _ =>
      .createProcessor source.header filter (.ofByte depth)
  | .removeProcessor s =>
    if b.lookup? s.header = some s then s.processorId?.toList.map .removeProcessor else []
  | .eraseEventCommands event => (b.eventCommandIds event).map .removeEventCommand
  | .tearDown                 => [.removeAllProcessors, .removeAllEventCommands]
  | _                         => []

-- The fault of the link with which an operation fails.
def linkFault? : Except (BoardError ε) α → Option ε
  | .error (.link fault) => some fault
  | _                    => none

def Answer.linkFault? : Answer ε κ → Option ε
  | verdict r => SensorBoard.linkFault? r
  | erased r  => SensorBoard.linkFault? r
  | _         => none

-- The bytes of an attempt that the link accepts.
def taken? : List UInt8 × Attempt ε → Option (List UInt8)
  | (bytes, .accepted) => some bytes
  | _                  => none

theorem accepted_eq_taken (es : List (Event ε κ)) : accepted es = (writes es).filterMap taken? := by
  have h : (fun e : Event ε κ => e.write?.bind taken?) = Event.accepted? := by
    funext e
    cases e
    case write bytes answer => cases answer <;> rfl
    all_goals rfl
  rw [accepted, writes, List.filterMap_filterMap, h]

theorem Delivery.answer_eq_accepted {d : Delivery L ε} (h : d.verdict = .ok ()) :
    d.answer = .accepted := by
  simp [answer, h]

theorem Delivery.answer_eq_refused {d : Delivery L ε} (h : d.verdict = .error fault) :
    d.answer = .refused fault := by
  simp [answer, h]

namespace Link

variable [Link L ε]

-- The answers to attempts that are made one after the other.
def replay (l : L) : List (List UInt8) → List (Attempt ε) × L
  | [] => ([], l)
  | bytes :: rest =>
    let (answer, l') := attempt l bytes
    let (answers, l'') := replay l' rest
    (answer :: answers, l'')

-- The attempts that are made, and what becomes of the link, if it is given the commands one after the
-- other. If the link is busy `k` times, then there are `k + 1` attempts with the bytes of the same
-- command, and only the last of them gets a verdict. A command that is accepted is not attempted
-- again, and the next one is due. A command that is refused is the last one.
inductive Deliveries : L → List Command → List (List UInt8 × Attempt ε) → Option ε → L → Prop
  | nil : Deliveries l [] [] none l
  | accepted {c : Command} (k : Nat)
      (hr : replay l (.replicate (k + 1) c.bytes) = (.replicate k .busy ++ [.accepted], l₁))
      (rest : Deliveries l₁ cs attempts fault? l₂) :
      Deliveries l (c :: cs) (.replicate k (c.bytes, .busy) ++ (c.bytes, .accepted) :: attempts)
        fault? l₂
  | refused {c : Command} (k : Nat)
      (hr : replay l (.replicate (k + 1) c.bytes) = (.replicate k .busy ++ [.refused fault], l₁)) :
      Deliveries l (c :: cs) (.replicate k (c.bytes, .busy) ++ [(c.bytes, .refused fault)])
        (some fault) l₁

theorem replay_write (l : L) (bytes : List UInt8) :
    replay l (.replicate ((write l bytes).busy + 1) bytes) =
      ((write l bytes).answers, (write l bytes).link) := by
  fun_induction write l bytes
  case case1 l l' h d hi =>
    rw [List.replicate_succ, replay, h]
    dsimp only
    rw [hi]
    rfl
  case case2 h => simp [replay, h, Delivery.answers, Delivery.answer]
  case case3 h => simp [replay, h, Delivery.answers, Delivery.answer]

namespace Deliveries

variable {l l' : L} {c : Command}

theorem of_accepted (h : (write l c.bytes).verdict = .ok ())
    (d : Deliveries (write l c.bytes).link cs attempts fault? l') :
    Deliveries l (c :: cs) ((write l c.bytes).answers.map (c.bytes, ·) ++ attempts) fault? l' := by
  have hr := replay_write l c.bytes
  rw [Delivery.answers, Delivery.answer_eq_accepted h] at *
  simpa using accepted _ hr d

theorem of_refused (h : (write l c.bytes).verdict = .error fault) :
    Deliveries l (c :: cs) ((write l c.bytes).answers.map (c.bytes, ·)) (some fault)
      (write l c.bytes).link := by
  have hr := replay_write l c.bytes
  rw [Delivery.answers, Delivery.answer_eq_refused h] at *
  simpa using refused _ hr

-- The commands that are accepted come first, in order and each of them once. There are others only
-- if the link refuses one.
theorem taken_eq (d : Deliveries l cs attempts fault? l') :
    ∃ done rest, cs = done ++ rest ∧ attempts.filterMap taken? = done.map Command.bytes ∧
      (rest = [] ↔ fault? = none) := by
  induction d
  case nil => exact ⟨[], [], rfl, rfl, by simp⟩
  case accepted c k hr _ hi =>
    have ⟨done, rest, hc, ht, hf⟩ := hi
    exact ⟨c :: done, rest, congrArg (c :: ·) hc, by simp [taken?, ht], hf⟩
  case refused c k hr => exact ⟨[], c :: _, rfl, by simp [taken?], by simp⟩

end Deliveries

end Link

namespace Outcome

-- All that is written is the delivery of the commands, and the fault that ends it is reported.
def Conveys (o : Outcome L ε κ (Except (BoardError ε) α)) [Link L ε] (l : L) (cs : List Command) :
    Prop :=
  Link.Deliveries l cs (writes o.events) (linkFault? o.result) o.board.link

-- The error is reported, and nothing is written.
structure Fails (o : Outcome L ε κ (Except (BoardError ε) α)) (l : L) (e : BoardError ε) : Prop where
  result : o.result = .error e
  writes : writes o.events = []
  link   : o.board.link = l

theorem Conveys.andThen_of_quiet [Link L ε] {b : Board L κ}
    {f : α → Board L κ → Outcome L ε κ (Except (BoardError ε) β)} (hw : writes es = [])
    (h : (f r b).Conveys b.link cs) : (andThen ⟨r, es, b⟩ f).Conveys b.link cs := by
  rw [Conveys, andThen, writes_append, hw]
  exact h

end Outcome

namespace Board

variable [Link L ε] {b : Board L κ}

theorem send_andThen_conveys {f : Except (BoardError ε) Unit → Board L κ →
      Outcome L ε κ (Except (BoardError ε) α)} (b : Board L κ) (c : Command)
    (ho : ∀ b, (f (.ok ()) b).Conveys b.link cs) (he : ∀ e b, (f (.error e) b).Fails b.link e) :
    ((b.send c).andThen f).Conveys b.link (c :: cs) := by
  cases h : (Link.write b.link c.bytes).verdict
  case error fault =>
    have hf := he (.link fault) (b.withLink (Link.write b.link c.bytes).link)
    simp only [send_of_refused h, Outcome.andThen, Outcome.Conveys, writes_append, writes_answers,
      hf.writes, hf.result, hf.link, List.append_nil]
    exact .of_refused h
  case ok =>
    have hf := ho (b.withLink (Link.write b.link c.bytes).link)
    simp only [send_of_accepted h, Outcome.andThen, Outcome.Conveys, writes_append, writes_answers,
      writes_notice, List.append_nil]
    exact .of_accepted h hf

theorem send_conveys (b : Board L κ) (c : Command) : (b.send c).Conveys b.link [c] := by
  have h := b.send_andThen_conveys c (f := fun r b => ⟨r, [], b⟩) (fun _ => .nil)
    fun _ _ => ⟨rfl, rfl, rfl⟩
  simpa [Outcome.andThen, Outcome.Conveys] using h

-- The erasure of an event ends with an update of its ledger, which has no part in the delivery.
theorem removeEventCommands_andThen_conveys {f : Except (BoardError ε × List UInt8) Unit →
      Board L κ → Outcome L ε κ (Except (BoardError ε) α)} (b : Board L κ) (ids : List UInt8)
    (ho : ∀ b, (f (.ok ()) b).Conveys b.link [])
    (he : ∀ e unsent b, (f (.error (e, unsent)) b).Fails b.link e) :
    ((b.removeEventCommands ids).andThen f).Conveys b.link (ids.map .removeEventCommand) := by
  induction ids generalizing b
  case nil => exact ho b
  case cons id ids hi =>
    rw [removeEventCommands_cons, Outcome.andThen_assoc]
    exact b.send_andThen_conveys _ hi fun e b => he e (id :: ids) b

theorem eraseEventCommands_conveys (b : Board L κ) (event : Header) :
    (b.eraseEventCommands event).Conveys b.link (b.commands (.eraseEventCommands event)) := by
  cases hl : b.ledger? event
  case none =>
    rw [commands, eraseEventCommands, eventCommandIds, hl]
    exact .nil
  case some ledger =>
    rw [commands, eraseEventCommands_of_some hl, eventCommandIds, hl]
    exact b.removeEventCommands_andThen_conveys _ (fun _ => .nil) fun _ _ _ => ⟨rfl, rfl, rfl⟩

theorem createProcessor_conveys (b : Board L κ) (source : Signal) (r : Processor.Request) (k : κ) :
    (b.createProcessor source r k).Conveys b.link (b.commands (.createProcessor source r k)) := by
  cases hf : r.filter?.or (b.filters.filter? r.kind)
  case none =>
    rw [commands, createProcessor_of_no_filter hf, hf]
    exact .nil
  case some filter =>
    rw [commands, createProcessor_of_some <| (b.filter?_prepared r).trans hf, hf]
    exact (b.prepared r).send_andThen_conveys _ (fun _ => .nil) fun _ _ => ⟨rfl, rfl, rfl⟩

theorem averageQuaternions_conveys
    (b : Board L κ) (source : Signal) (depth filter : UInt8) (k : κ) :
    (b.averageQuaternions source depth filter k).Conveys b.link
      (b.commands (.averageQuaternions source depth filter k)) := by
  cases hk : (b.filters.allocate Processor.QuaternionAverage.name).1
  case none =>
    rw [commands, averageQuaternions_of_none hk, hk]
    exact .nil
  case some kind =>
    -- The request comes with its filter, so it is never turned down for want of one.
    rw [commands, averageQuaternions_of_some hk, hk]
    exact createProcessor_conveys ..

theorem removeProcessor_conveys (b : Board L κ) (s : Signal) :
    (b.removeProcessor s).Conveys b.link (b.commands (.removeProcessor s)) := by
  cases hi : s.processorId?
  case none =>
    simp only [commands, removeProcessor, hi, Option.toList_none, List.map_nil, ite_self]
    exact .nil
  case some id =>
    by_cases hs : b.lookup? s.header = some s
    case neg =>
      simp only [commands, removeProcessor, hi, if_neg hs]
      exact .nil
    case pos =>
      rw [commands, removeProcessor_of_some hi hs, if_pos hs, hi]
      exact b.send_andThen_conveys _ (fun _ => .nil) fun _ _ => ⟨rfl, rfl, rfl⟩

theorem tearDown_conveys (b : Board L κ) : b.tearDown.Conveys b.link (b.commands .tearDown) := by
  rw [tearDown_eq, commands, ← b.link_cleared]
  apply Outcome.Conveys.andThen_of_quiet (by simp [abortPending])
  exact b.cleared.send_andThen_conveys _ (·.send_conveys _) fun _ _ => ⟨rfl, rfl, rfl⟩

theorem commands_of_isQuiet {op : Operation κ} (h : op.isQuiet) : b.commands op = [] := by
  cases op <;> first | rfl | cases h

theorem linkFault?_perform_of_isQuiet {op : Operation κ} (h : op.isQuiet) :
    (b.perform op).result.linkFault? = none := by
  cases op <;> first | rfl | cases h

-- Whatever the operation, its own commands are all that the link is given.
theorem perform_deliveries (b : Board L κ) (op : Operation κ) :
    Link.Deliveries b.link (b.commands op) (writes (b.perform op).events)
      (b.perform op).result.linkFault? (b.perform op).board.link := by
  cases hq : op.isQuiet
  case true =>
    rw [commands_of_isQuiet hq, writes_perform_of_isQuiet hq, linkFault?_perform_of_isQuiet hq,
      perform_preserves_link hq]
    exact .nil
  case false =>
    cases op with
    | send | read | stopAdvertising => exact b.send_conveys _
    | createProcessor               => exact b.createProcessor_conveys ..
    | averageQuaternions            => exact b.averageQuaternions_conveys ..
    | removeProcessor               => exact b.removeProcessor_conveys _
    | eraseEventCommands            => exact b.eraseEventCommands_conveys _
    | tearDown                      => exact b.tearDown_conveys
    | _                             => cases hq

-- The link is given the commands of the operation and nothing else. It accepts them in order and each
-- of them once, and if it does not accept all of them, then the fault is reported.
structure Delivers (b : Board L κ) (op : Operation κ) : Prop where
  attempts : Link.Deliveries b.link (b.commands op) (writes (b.perform op).events)
    (b.perform op).result.linkFault? (b.perform op).board.link
  accepted : ∃ done rest, b.commands op = done ++ rest ∧
    accepted (b.perform op).events = done.map Command.bytes ∧
    (rest = [] ↔ (b.perform op).result.linkFault? = none)

theorem perform_delivers (b : Board L κ) (op : Operation κ) : b.Delivers op where
  attempts := b.perform_deliveries op
  accepted := by
    rw [accepted_eq_taken]
    exact (b.perform_deliveries op).taken_eq

end Board

end SensorBoard
