import SensorBoard.Processor.Config
import SensorBoard.Processor.FilterTable
import SensorBoard.Sample.Format
import SensorBoard.Wire.Header

namespace SensorBoard.Processor

structure Request where
  kind : Kind
  config : Config
  -- How the output of the processor is to be read.
  format : Sample.Format
  -- Bound to the kind before the command is written. If absent, the table has to know a filter.
  filter? : Option UInt8 := none
deriving DecidableEq

-- Why a creation came to nothing.
inductive CreationError where
  | unboundKind (kind : Kind)
  | linkFailed
  | aborted
  | malformedConfirmation
  | kindsExhausted
deriving DecidableEq

def CreationError.text : CreationError → String
  | unboundKind kind      => "No firmware filter id bound for processor type " ++ kind.text
  | linkFailed            => "Link rejected the create command"
  | aborted               => "Creation aborted before the board confirmed it"
  | malformedConfirmation => "Creation confirmation carried no processor id"
  | kindsExhausted        => "No synthetic processor types left to allocate"

-- The board confirms creations here.
def confirmation : Header where
  module := Module.processor
  register := Register.addProcessor

-- The processor that the board calls `id` sends its output here.
def output (id : UInt8) : Header where
  module := Module.processor
  register := Register.processorOutput
  channel := some id

namespace QuaternionAverage

-- Stock firmware has no kind for this processor, so it goes by a synthetic one of this name.
def name : String :=
  "quaternion-average"

def legacyFilter : UInt8 := 18

def currentFilter : UInt8 := 26

-- The revision that implemented the processor first numbered the filter differently.
def filterOf (revision : String) : UInt8 :=
  if revision = "1.4.97" then legacyFilter else currentFilter

-- Averages the last `depth` quaternions.
def request (kind : Kind) (depth filter : UInt8) : Request where
  kind := kind
  config := .ofByte depth
  format := .quaternion
  filter? := filter

end QuaternionAverage

end SensorBoard.Processor
