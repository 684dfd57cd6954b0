import SensorBoard.Board.Session

namespace SensorBoard

-- Whether firmware takes the bytes for a request to create a processor. Reads on the same register
-- are too short for that.
def Command.isCreation (bytes : List UInt8) : Bool :=
  [Module.processor, Register.addProcessor].isPrefixOf bytes && Wire.createOverhead ≤ bytes.length

def Command.creates : Command → Bool
  | createProcessor .. => true
  | _                  => false

theorem Command.isCreation_bytes (c : Command) : isCreation c.bytes = c.creates := by
  cases c
  case createProcessor source filter config =>
    simp [isCreation, creates, bytes, Header.wire, Wire.createOverhead]
  case read header =>
    cases h : header.channel <;> simp [isCreation, creates, bytes, h, Wire.createOverhead]
  all_goals simp [isCreation, creates, bytes, Wire.createOverhead]

-- The id in a command that removes an event command.
def Command.removedId? : List UInt8 → Option UInt8
  | [m, r, id] => if m = Module.event ∧ r = Register.removeEventCommand then some id else none
  | _          => none

-- The commands that remove the event commands with the given ids.
def Command.removals (ids : List UInt8) : List (List UInt8) :=
  ids.map fun id => (removeEventCommand id).bytes

theorem Command.removedId?_eq_some_iff {bs : List UInt8} {id : UInt8} :
    removedId? bs = some id ↔ bs = (removeEventCommand id).bytes := by
  unfold removedId? bytes
  grind

theorem Command.filterMap_removals (ids : List UInt8) : (removals ids).filterMap removedId? = ids := by
  have h : (removedId? ∘ fun id => (removeEventCommand id).bytes) = some :=
    funext fun _ => removedId?_eq_some_iff.mpr rfl
  rw [removals, List.filterMap_map, h, List.filterMap_some]

def Notice.isUnregistered : Notice → Bool
  | unregistered _ => true
  | _              => false

namespace Event

-- Commands and reports. The report of a route without signal is set apart, since boards turn out
-- not to make it.
def isPlain : Event ε κ → Bool
  | write ..                                       => true
  | notice n                                       => !n.isUnregistered
  | sample .. | custom .. | created .. | failed .. => false

-- The callback that is run, if it is the callback of a creation.
def completion? : Event ε κ → Option κ
  | created k _ | failed k _                    => some k
  | write .. | sample .. | custom .. | notice _ => none

-- The bytes that the link is given, if it accepts them.
def accepted? : Event ε κ → Option (List UInt8)
  | write bytes .accepted => some bytes
  | _                     => none

-- What the link was given, and its answer.
def write? : Event ε κ → Option (List UInt8 × Attempt ε)
  | write bytes answer                                        => some (bytes, answer)
  | sample .. | custom .. | created .. | failed .. | notice _ => none

-- The link accepts a request to create a processor.
def isCreation : Event ε κ → Bool
  | write bytes .accepted => Command.isCreation bytes
  | _                     => false

-- An attempt that the link was too busy for.
def isBusy : Event ε κ → Bool
  | write _ .busy => true
  | _             => false

@[simp]
theorem isPlain_write : (write bytes answer : Event ε κ).isPlain :=
  rfl

@[simp]
theorem isPlain_notice : (notice n : Event ε κ).isPlain = !n.isUnregistered :=
  rfl

end Event

-- The callbacks of creations that are run, in order.
def completions (es : List (Event ε κ)) : List κ :=
  es.filterMap Event.completion?

-- The commands that the link accepts, in order.
def accepted (es : List (Event ε κ)) : List (List UInt8) :=
  es.filterMap Event.accepted?

-- The attempts to write, in order.
def writes (es : List (Event ε κ)) : List (List UInt8 × Attempt ε) :=
  es.filterMap Event.write?

-- What is left if attempts do not count unless the link has come to a verdict.
def settled (es : List (Event ε κ)) : List (Event ε κ) :=
  es.filter (!·.isBusy)

-- How many requests to create a processor the link accepts.
def creations (es : List (Event ε κ)) : Nat :=
  es.countP Event.isCreation

-- Commands and reports only, with `n` requests for a processor that the link accepts.
structure Outbound (n : Nat) (es : List (Event ε κ)) : Prop where
  plain : ∀ e ∈ es, e.isPlain
  creations_eq : creations es = n

section Events

variable {es es₁ es₂ : List (Event ε κ)}

@[simp]
theorem completions_nil : completions ([] : List (Event ε κ)) = [] :=
  rfl

@[simp]
theorem completions_append : completions (es₁ ++ es₂) = completions es₁ ++ completions es₂ :=
  List.filterMap_append

@[simp]
theorem completions_cons :
    completions (e :: es) = (Event.completion? e).toList ++ completions es := by
  cases e <;> rfl

@[simp]
theorem completions_aborted (ps : List (PendingCreation κ)) :
    completions (ps.map fun p => (.failed p.callback .aborted : Event ε κ)) =
      ps.map (·.callback) := by
  simp [completions, List.filterMap_map, Function.comp_def, Event.completion?]

@[simp]
theorem creations_nil : creations ([] : List (Event ε κ)) = 0 :=
  rfl

@[simp]
theorem creations_append : creations (es₁ ++ es₂) = creations es₁ + creations es₂ :=
  List.countP_append

@[simp]
theorem creations_cons :
    creations (e :: es) = creations es + if Event.isCreation e then 1 else 0 :=
  List.countP_cons

@[simp]
theorem creations_aborted (ps : List (PendingCreation κ)) :
    creations (ps.map fun p => (.failed p.callback .aborted : Event ε κ)) = 0 := by
  simp [creations, Event.isCreation]

@[simp]
theorem accepted_nil : accepted ([] : List (Event ε κ)) = [] :=
  rfl

@[simp]
theorem accepted_append : accepted (es₁ ++ es₂) = accepted es₁ ++ accepted es₂ :=
  List.filterMap_append

@[simp]
theorem accepted_notice (n : Notice) : accepted ([.notice n] : List (Event ε κ)) = [] :=
  rfl

-- A delivery that was refused has an answer to each attempt, but none that accepts.
theorem accepted_answers (d : Delivery L ε) (bytes : List UInt8) :
    accepted (d.answers.map (.write bytes) : List (Event ε κ)) =
      if d.verdict.isOk then [bytes] else [] := by
  have hb : accepted ((List.replicate d.busy .busy).map (.write bytes) : List (Event ε κ)) = [] := by
    simp [accepted, Event.accepted?]
  rw [Delivery.answers, List.map_append, accepted_append, hb]
  cases h : d.verdict <;>
    simp [accepted, Event.accepted?, Delivery.answer, h, Except.isOk, Except.toBool]

@[simp]
theorem writes_append : writes (es₁ ++ es₂) = writes es₁ ++ writes es₂ :=
  List.filterMap_append

@[simp]
theorem writes_notice (n : Notice) : writes ([.notice n] : List (Event ε κ)) = [] :=
  rfl

@[simp]
theorem writes_aborted (ps : List (PendingCreation κ)) :
    writes (ps.map fun p => (.failed p.callback .aborted : Event ε κ)) = [] := by
  simp [writes, Event.write?]

theorem writes_answers (answers : List (Attempt ε)) (bytes : List UInt8) :
    writes (answers.map (.write bytes) : List (Event ε κ)) = answers.map (bytes, ·) := by
  simp [writes, Event.write?, List.filterMap_map, Function.comp_def]

@[simp]
theorem settled_append : settled (es₁ ++ es₂) = settled es₁ ++ settled es₂ :=
  List.filter_append ..

theorem settled_answers (d : Delivery L ε) (bytes : List UInt8) :
    settled (d.answers.map (.write bytes) : List (Event ε κ)) = [.write bytes d.answer] := by
  have hb (n : Nat) :
      settled ((List.replicate n .busy).map (.write bytes) : List (Event ε κ)) = [] := by
    simp [settled, Event.isBusy]
  have ha : settled [(.write bytes d.answer : Event ε κ)] = [.write bytes d.answer] := by
    rw [Delivery.answer]
    cases d.verdict <;> rfl
  rw [Delivery.answers, List.map_append, settled_append, hb, List.map_singleton, ha,
    List.nil_append]

theorem creations_eq_countP (es : List (Event ε κ)) :
    creations es = (accepted es).countP Command.isCreation := by
  rw [creations, accepted, List.countP_filterMap]
  refine List.countP_congr fun e _ => ?_
  cases e with
  | write bytes answer => cases answer <;> simp [Event.isCreation, Event.accepted?]
  | _                  => simp [Event.isCreation, Event.accepted?]

namespace Outbound

theorem nil : Outbound 0 ([] : List (Event ε κ)) where
  plain := by simp
  creations_eq := rfl

theorem append (h₁ : Outbound n₁ es₁) (h₂ : Outbound n₂ es₂) :
    Outbound (n₁ + n₂) (es₁ ++ es₂) where
  plain e he := (List.mem_append.mp he).elim (h₁.plain e) (h₂.plain e)
  creations_eq := by rw [creations_append, h₁.creations_eq, h₂.creations_eq]

theorem concat (h : Outbound n es) (hn : n'.isUnregistered = false) :
    Outbound n (es ++ [.notice n']) :=
  h.append (⟨by simp [hn], rfl⟩ : Outbound 0 _)

theorem filterMap_eq {f : Event ε κ → Option α} (h : Outbound n es)
    (hw : ∀ bytes answer, f (.write bytes answer) = none) (hn : ∀ n, f (.notice n) = none) :
    es.filterMap f = [] := by
  apply List.filterMap_eq_nil_iff.mpr
  intro e he
  have := h.plain e he
  cases e
  case write bytes answer => exact hw bytes answer
  case notice n           => exact hn n
  all_goals contradiction

theorem completions_eq (h : Outbound n es) : completions es = [] :=
  h.filterMap_eq (fun _ _ => rfl) fun _ => rfl

theorem unregistered_not_mem (h : Outbound n es) : .notice (.unregistered h') ∉ es := by
  intro hm
  have := h.plain _ hm
  contradiction

end Outbound

end Events

namespace Operation

-- Operations that concern no stream of packets, at least as long as they fail.
def isAside : Operation κ → Bool
  | send _ | read _ | stopAdvertising | removeProcessor _ | recordEventCommand ..
  | eraseEventCommands _ | bind .. | unbind _ | allocate _ => true
  | _                                                       => false

-- The callback that comes with a request for a processor.
def callback? : Operation κ → Option κ
  | createProcessor _ _ k | averageQuaternions _ _ _ k => some k
  | _                                                  => none

-- The signal that is asked for, if its packets are to be routed anew.
def singleton? : Operation κ → Option (Header × Sample.Format)
  | builtIn s                => some (s.header, s.format)
  | singletonSignal h format => some (h, format)
  | _                        => none

end Operation

namespace Action

def isAside : Action L κ → Bool
  | perform op                  => op.isAside
  | setLink _ | setFilters _    => true

def callback? : Action L κ → Option κ
  | perform op               => op.callback?
  | setLink _ | setFilters _ => none

def singleton? : Action L κ → Option (Header × Sample.Format)
  | perform op               => op.singleton?
  | setLink _ | setFilters _ => none

-- A request to create a processor that goes to the link as it is, without an entry in the queue.
def isBareCreation : Action L κ → Bool
  | perform (.send c) => c.creates
  | _                 => false

theorem callback?_of_isAside {a : Action L κ} (h : a.isAside) : a.callback? = none := by
  cases a
  case perform op => cases op <;> first | rfl | cases h
  all_goals rfl

theorem callback?_of_singleton? {a : Action L κ} (h : a.singleton? = some r) :
    a.callback? = none := by
  cases a
  case perform op => cases op <;> first | rfl | cases h
  all_goals rfl

end Action

end SensorBoard
