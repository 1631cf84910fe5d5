import Duplex.Resample.Adapter
import Duplex.StreamFormat

/-!
# Errors: why an operation on a session was refused

`Error` is the answer of an operation that could not be done, `ConfigError` the reason for which a
configuration was rejected. Each has a message, and `sources` lists the messages of the causes
behind it, the nearest first.
-/

namespace Duplex

/-- Why a configuration was rejected. -/
inductive ConfigError where
  | streamFormat (e : StreamFormat.Error)
  | frameTooLarge (frames max : Nat)
  | unsupportedBandCount (bands : Nat)
  | ringSize (size : Nat)
  deriving DecidableEq, Repr

namespace ConfigError

def message : ConfigError → String
  | streamFormat e => e.message
  | frameTooLarge frames max => s!"frame of {frames} samples exceeds the maximum of {max}"
  | unsupportedBandCount bands => s!"unsupported band count {bands}; expected 1, 2 or 3"
  | ringSize size => s!"ring buffer size {size} is not a power of two >= 2"

def sources : ConfigError → List String
  | streamFormat e => [e.message]
  | _ => []

end ConfigError

namespace RateAdapter

def Error.sources (e : Error) : List String := e.cause?.toList

end RateAdapter

/-- Why an operation was refused. -/
inductive Error where
  | notInitialized
  | invalidConfiguration (e : ConfigError)
  | insufficientData (available required : Nat)
  | allocation (bytes : Nat)
  | rateAdapter (e : RateAdapter.Error)
  deriving DecidableEq, Repr

namespace Error

def message : Error → String
  | notInitialized => "pipeline context is not initialized"
  | invalidConfiguration e => s!"invalid configuration: {e.message}"
  | insufficientData available required =>
    s!"not enough data for one frame: {available} samples available, {required} required"
  | allocation bytes => s!"failed to allocate {bytes} bytes"
  | rateAdapter e => s!"rate adapter: {e.message}"

def sources : Error → List String
  | invalidConfiguration e => e.message :: e.sources
  | rateAdapter e => e.message :: e.sources
  | _ => []

end Error

end Duplex
