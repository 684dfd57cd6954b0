import SensorBoard.Wire.Header

namespace SensorBoard

-- What is to be done with a packet. Handlers of the caller's own go by a name from `κ`.
inductive Handler (κ : Type) where
  -- The payload is a sample of the signal at the route's header. The two kinds of sample routes are
  -- mere labels and are treated alike.
  | sampleWithId
  | sampleWithoutId
  -- The board confirms that it created a processor.
  | processorCreated
  | custom (handler : κ)
deriving DecidableEq

def Handler.isSample : Handler κ → Bool
  | sampleWithId | sampleWithoutId => true
  | processorCreated | custom _    => false

-- The header that a packet matched, and where its payload starts.
@[ext]
structure Route where
  header : Header
  offset : Nat
deriving DecidableEq

def Route.payload (r : Route) (packet : List UInt8) : List UInt8 :=
  packet.drop r.offset

@[ext]
structure RouteTable (κ : Type) where
  handlers : Std.ExtTreeMap Header (Handler κ) := ∅
  -- Packets that matched no route. The count stops at its limit.
  unhandled : Nat := 0
deriving DecidableEq

namespace RouteTable

def empty : RouteTable κ :=
  {}

def unhandledLimit : Nat :=
  0xFFFFFFFF

def get? (t : RouteTable κ) (h : Header) : Option (Handler κ) :=
  t.handlers[h]?

def contains (t : RouteTable κ) (h : Header) : Bool :=
  t.handlers.contains h

def size (t : RouteTable κ) : Nat :=
  t.handlers.size

def isEmpty (t : RouteTable κ) : Bool :=
  t.handlers.isEmpty

-- The last registration wins. Tells whether there was one before.
def register (t : RouteTable κ) (h : Header) (handler : Handler κ) : Bool × RouteTable κ :=
  (t.contains h, { t with handlers := t.handlers.insert h handler })

def unregister (t : RouteTable κ) (h : Header) : Option (Handler κ) × RouteTable κ :=
  (t.get? h, { t with handlers := t.handlers.erase h })

-- A packet starts with its module and register. A route without channel takes precedence. Only if
-- there is none, the byte that follows counts as a channel.
def match? (t : RouteTable κ) : List UInt8 → Option Route
  | module :: register :: rest =>
    if t.contains { module, register } then
      some ⟨{ module, register }, 2⟩
    else
      match rest with
      | channel :: _ =>
        if t.contains { module, register, channel } then
          some ⟨{ module, register, channel }, 3⟩
        else
          none
      | [] => none
  | _ => none

-- Matches the packet and counts it if there is no match.
def resolve (t : RouteTable κ) (packet : List UInt8) : Option Route × RouteTable κ :=
  match t.match? packet with
  | some route => (some route, t)
  | none       => (none, { t with unhandled := min (t.unhandled + 1) unhandledLimit })

variable {t : RouteTable κ}

theorem contains_iff : t.contains h ↔ (t.get? h).isSome := by
  simp [contains, get?]

theorem get?_register :
    (t.register h handler).2.get? h' = if h = h' then some handler else t.get? h' := by
  simp [register, get?, Std.ExtTreeMap.getElem?_insert]

theorem get?_unregister : (t.unregister h).2.get? h' = if h = h' then none else t.get? h' := by
  simp [unregister, get?, Std.ExtTreeMap.getElem?_erase]

theorem resolve_fst : (t.resolve packet).1 = t.match? packet := by
  unfold resolve
  split <;> simp_all

theorem resolve_preserves_handlers : (t.resolve packet).2.handlers = t.handlers := by
  unfold resolve
  split <;> rfl

theorem resolve_of_match? (h : t.match? packet = some route) :
    t.resolve packet = (some route, t) := by
  simp [resolve, h]

theorem resolve_unhandled_of_none (h : t.match? packet = none) :
    (t.resolve packet).2.unhandled = min (t.unhandled + 1) unhandledLimit := by
  simp [resolve, h]

theorem contains_of_match? (h : t.match? packet = some route) : t.contains route.header := by
  unfold match? at h
  grind

end RouteTable

end SensorBoard
