import SensorBoard.Text.Inspect
import SensorBoard.Board.Basic

namespace SensorBoard

def byteText (b : UInt8) : String :=
  toString b.toNat

def Header.inspect (h : Header) : String :=
  Text.record "ResponseHeader" [
    ("module_id", byteText h.module),
    ("register_id", byteText h.register),
    ("data_id", Text.optional (h.channel.map byteText))
  ]

def Handler.inspect : Handler κ → String
  | sampleWithId     => "DataWithId"
  | sampleWithoutId  => "DataWithoutId"
  | processorCreated => "ProcessorCreated"
  | custom _         => Text.applied "Custom" ".."

def RouteTable.inspect (t : RouteTable κ) : String :=
  Text.record "DispatchTable" [
    ("routes", Text.map (t.handlers.toList.map fun (h, handler) => (h.inspect, handler.inspect))),
    ("unhandled", toString t.unhandled)
  ]

def Processor.Kind.inspect (k : Processor.Kind) : String :=
  Text.applied "ProcessorType" (byteText k.tag)

def Processor.FilterTable.inspect (t : Processor.FilterTable) : String :=
  Text.record "FilterIdTable" [
    ("ids", Text.map (t.toList.map fun (k, filter) => (k.inspect, byteText filter))),
    ("synthetic", Text.map (t.synthetic.toList.map fun (name, k) => (Text.quoted name, k.inspect))),
    ("next_synthetic", Text.optional (t.nextTag.map byteText))
  ]

def Ledger.inspect (l : Ledger) : String :=
  Text.record "EventLedger" [("command_ids", Text.list (l.ids.map byteText))]

def Board.inspect (b : Board L κ) : String :=
  Text.openRecord "Board" [
    ("signals", toString b.signals.size),
    ("responses", b.routes.inspect),
    ("filter_ids", b.filters.inspect),
    ("pending_creates", toString b.pending.length),
    ("ledgers", Text.map (b.ledgers.toList.map fun (h, l) => (h.inspect, l.inspect))),
    ("subscribers", toString b.subscribers.size)
  ]

end SensorBoard
