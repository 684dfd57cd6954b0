import SensorBoard.Signal.Basic
import SensorBoard.Wire.Command

namespace SensorBoard

inductive BoardError (ε : Type) where
  -- The link refused a command.
  | link (fault : ε)
  | commandTooLong (e : Command.TooLong)
  | configTooLong (e : Processor.Config.TooLong)
  -- The callback of the creation has been given the same error.
  | creation (e : Processor.CreationError)
  -- The header is that of a signal which is not a live processor of the board.
  | notAProcessor (header : Header)
deriving DecidableEq

namespace BoardError

-- The text of a link's own fault is given by `faultText`.
def text (faultText : ε → String) : BoardError ε → String
  | link fault           => "Link error: " ++ faultText fault
  | commandTooLong e     => e.text
  | configTooLong e      => e.text
  | creation e           => "Processor creation failed: " ++ e.text
  | notAProcessor header => "Signal " ++ header.text ++ " is not a created processor"

-- The error beneath this one. Those that are shown as they are have none.
def cause? : BoardError ε → Option Processor.CreationError
  | creation e => some e
  | _          => none

end BoardError

end SensorBoard
