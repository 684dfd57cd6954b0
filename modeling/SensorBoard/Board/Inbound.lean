import SensorBoard.Board.Creation
import SensorBoard.Sample.Decode

namespace SensorBoard.Board

-- Gives the samples of a signal to a subscriber. Returns the subscriber that it replaces.
def subscribe (b : Board L κ) (s : Signal) (subscriber : κ) : Option κ × Board L κ :=
  (b.subscriber? s.header, { b with subscribers := b.subscribers.insert s.header subscriber })

def unsubscribe (b : Board L κ) (s : Signal) : Option κ × Board L κ :=
  (b.subscriber? s.header, { b with subscribers := b.subscribers.erase s.header })

-- Gives the packets of a header to a handler of the caller's own.
def onResponse (b : Board L κ) (h : Header) (handler : κ) : Outcome L ε κ Unit where
  result := ()
  events := if b.routes.contains h then [.notice (.routeReplaced h)] else []
  board := b.register h (.custom handler)

-- A payload that does not decode is reported whether or not there is a subscriber.
def deliver (b : Board L κ) (h : Header) (payload : List UInt8) : List (Event ε κ) :=
  match b.lookup? h with
  | none   => [.notice (.unregistered h)]
  | some s =>
    match s.format.decode payload with
    | .error e => [.notice (.undecodable h e)]
    | .ok v    => (b.subscriber? h).elim [] fun subscriber => [.sample subscriber h v]

-- Acts on a payload according to the handler of its route.
def dispatch (b : Board L κ) (h : Header) (payload : List UInt8) : Outcome L ε κ Unit :=
  match b.route? h with
  | some (.custom handler)   => ⟨(), [.custom handler h payload], b⟩
  | some .processorCreated   => b.confirm payload
  | _                        => ⟨(), b.deliver h payload, b⟩

-- A packet without route is dropped and counted.
def receive (b : Board L κ) (packet : List UInt8) : Outcome L ε κ Unit :=
  match b.routes.resolve packet with
  | (none, routes) => ⟨(), [.notice (.dropped packet)], { b with routes }⟩
  | (some route, routes) =>
    let payload := route.payload packet
    let o := { b with routes }.dispatch route.header payload
    { o with events := .notice (.routing route.header payload.length) :: o.events }

variable {b : Board L κ}

theorem subscriber?_subscribe :
    (b.subscribe s k).2.subscriber? h = if s.header = h then some k else b.subscriber? h := by
  simp [subscribe, subscriber?, Std.ExtTreeMap.getElem?_insert]

theorem subscriber?_unsubscribe :
    (b.unsubscribe s).2.subscriber? h = if s.header = h then none else b.subscriber? h := by
  simp [unsubscribe, subscriber?, Std.ExtTreeMap.getElem?_erase]

theorem receive_of_match? (h : b.routes.match? packet = some route) :
    b.receive packet =
      let payload := route.payload packet
      let o : Outcome L ε κ Unit := b.dispatch route.header payload
      { o with events := .notice (.routing route.header payload.length) :: o.events } := by
  simp [receive, RouteTable.resolve_of_match? h]

theorem receive_of_no_match? (h : b.routes.match? packet = none) :
    (b.receive packet : Outcome L ε κ Unit) =
      ⟨(), [.notice (.dropped packet)], { b with routes := (b.routes.resolve packet).2 }⟩ := by
  simp [receive, RouteTable.resolve, h]

end SensorBoard.Board
