import SensorBoard.Board.Creation

namespace SensorBoard.Board

-- Packets at the header are no longer attended to.
def detach (b : Board L κ) (h : Header) : Board L κ :=
  { b with
    routes := (b.routes.unregister h).2
    subscribers := b.subscribers.erase h }

def forget (b : Board L κ) (h : Header) : Board L κ :=
  { b with signals := (b.signals.remove h).2 }.detach h

section View

variable {b : Board L κ}

theorem route?_detach : (b.detach h).route? h' = if h = h' then none else b.route? h' :=
  RouteTable.get?_unregister

theorem subscriber?_detach :
    (b.detach h).subscriber? h' = if h = h' then none else b.subscriber? h' := by
  simp [detach, subscriber?, Std.ExtTreeMap.getElem?_erase]

theorem lookup?_forget : (b.forget h).lookup? h' = if h = h' then none else b.lookup? h' :=
  Registry.get?_remove

theorem route?_forget : (b.forget h).route? h' = if h = h' then none else b.route? h' :=
  route?_detach

theorem subscriber?_forget :
    (b.forget h).subscriber? h' = if h = h' then none else b.subscriber? h' :=
  subscriber?_detach

end View

variable [Link L ε]

-- Only the very signal that is on file can be removed. Others may bear an id that the board has
-- given to another processor in the meantime.
def removeProcessor (b : Board L κ) (s : Signal) : Outcome L ε κ (Except (BoardError ε) Unit) :=
  match s.processorId? with
  | none => ⟨.error (.notAProcessor s.header), [], b⟩
  | some id =>
    if b.lookup? s.header = some s then
      let o := b.send (.removeProcessor id)
      match o.result with
      | .error _ => o
      | .ok ()   => { o with
          events := o.events ++ [.notice (.processorRemoved s.header)]
          board := o.board.forget s.header }
    else
      ⟨.error (.notAProcessor s.header), [], b⟩

-- The board without processors, pending creations and ledgers.
def cleared (b : Board L κ) : Board L κ :=
  let (processors, signals) := b.signals.drainWhere (·.isProcessor)
  let b := { b with signals, pending := [], ledgers := ∅ }
  processors.foldl (·.detach ·.header) b

-- The host's side is cleared before the commands go out. So a link failure leaves the host clean,
-- but the board possibly still programmed.
def tearDown (b : Board L κ) : Outcome L ε κ (Except (BoardError ε) Unit) :=
  let processors := (b.signals.drainWhere (·.isProcessor)).1
  let events := b.abortPending.events ++ [.notice (.tearingDown processors.length b.pending.length)]
  let o₁ := b.cleared.send .removeAllProcessors
  match o₁.result with
  | .error _ => { o₁ with events := events ++ o₁.events }
  | .ok ()   =>
    let o₂ := o₁.board.send .removeAllEventCommands
    { o₂ with events := events ++ o₁.events ++ o₂.events }

end SensorBoard.Board
