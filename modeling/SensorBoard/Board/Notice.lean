import SensorBoard.Signal.Basic
import SensorBoard.Sample.Value

namespace SensorBoard

inductive Level where
  | trace
  | debug
  | warn
deriving DecidableEq

def Level.text : Level → String
  | trace => "trace"
  | debug => "debug"
  | warn  => "warn"

inductive Notice where
  | sent (bytes : List UInt8)
  | dropped (packet : List UInt8)
  | routing (header : Header) (payloadLength : Nat)
  | unregistered (header : Header)
  | idSignalCreated (header : Header)
  | signalCreated (header : Header)
  | routeReplaced (header : Header)
  | requested (kind : Processor.Kind) (source : Header) (filter : UInt8)
  | processorCreated (kind : Processor.Kind) (header : Header)
  | processorRemoved (header : Header)
  | erased (count : Nat) (event : Header)
  | tearingDown (processors creations : Nat)
  | unexpectedConfirmation
  | emptyConfirmation
  | undecodable (header : Header) (e : Sample.TooShort)
deriving DecidableEq

namespace Notice

def level : Notice → Level
  | sent _ | dropped _ | routing .. | unregistered _                      => .trace
  | unexpectedConfirmation | emptyConfirmation | undecodable ..           => .warn
  | idSignalCreated _ | signalCreated _ | routeReplaced _ | requested ..
  | processorCreated .. | processorRemoved _ | erased .. | tearingDown .. => .debug

def text : Notice → String
  | sent bytes                   => "Sent " ++ Text.hexList bytes
  | dropped packet               => "Dropped unrouted packet " ++ Text.hexList packet
  | routing header n             =>
    "Routing " ++ header.text ++ " (" ++ toString n ++ " payload bytes)"
  | unregistered header          => "No signal registered for " ++ header.text
  | idSignalCreated header       => "Created id signal " ++ header.text
  | signalCreated header         => "Created signal " ++ header.text
  | routeReplaced header         => "Replaced response route " ++ header.text
  | requested kind source filter =>
    "Requested " ++ kind.text ++ " processor on " ++ source.text ++
      " (filter 0x" ++ Text.hex filter ++ ")"
  | processorCreated kind header => "Created " ++ kind.text ++ " processor " ++ header.text
  | processorRemoved header      => "Removed processor " ++ header.text
  | erased n event               =>
    "Erased " ++ toString n ++ " commands for event " ++ event.text
  | tearingDown processors creations =>
    "Tearing down: " ++ toString processors ++ " processors dropped, " ++
      toString creations ++ " creates aborted"
  | unexpectedConfirmation       => "Processor confirmation without a pending create"
  | emptyConfirmation            => "Processor confirmation carried no id"
  | undecodable header e         => "Could not decode " ++ header.text ++ ": " ++ e.text

end Notice

end SensorBoard
