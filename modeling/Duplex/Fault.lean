/-!
# Faults: computations that stop on a broken precondition

A buffer or filter asked for something outside its shape gives no result at all. `Fault` names the
precondition that was broken; `Fault.message` is the text of the ones that are stated as checks.
Anything else, such as a slice past the end of its storage, is `Fault.outOfRange` and has no text.
-/

namespace Duplex

/-- The precondition that a computation without a result has met broken. -/
inductive Fault where
  /-- A buffer was asked for with no bands. -/
  | noBands
  /-- A buffer was asked for with no channels. -/
  | noChannels
  /-- The frames of a buffer do not divide evenly among its bands. -/
  | unevenBands (frames bands : Nat)
  /-- A band view was asked for with bands of no samples. -/
  | emptyBand
  /-- The samples of a band view are no whole number of bands. -/
  | raggedBands (length perBand : Nat)
  /-- Two band views with bands of different sizes were to be copied. -/
  | bandSizeMismatch
  /-- A channel count other than one or two was to be mapped. -/
  | unsupportedRemap (source target : Nat)
  /-- A splitting filter was asked for with a band count other than two or three. -/
  | unsupportedSplit (bands : Nat)
  /-- An index, a length or a divisor left the range in which the operation is defined. -/
  | outOfRange
  deriving DecidableEq, Repr

/-- The text of a stated check; `none` for a fault that no check announces. -/
def Fault.message : Fault → Option String
  | .noBands => some "num_bands must be > 0"
  | .noChannels => some "num_channels must be > 0"
  | .unevenBands frames bands =>
    some s!"num_frames ({frames}) must be divisible by num_bands ({bands})"
  | .emptyBand => some "num_frames_per_band must be > 0"
  | .raggedBands length perBand =>
    some s!"band data ({length}) must be a multiple of the band size ({perBand})"
  | .bandSizeMismatch => some "band size mismatch"
  | .unsupportedRemap source target =>
    some s!"only mono and stereo are supported ({source} -> {target})"
  | .unsupportedSplit bands => some s!"splitting filter supports 2 or 3 bands, got {bands}"
  | .outOfRange => none

/-- A result, or the fault that prevented it. -/
abbrev Checked (α : Type) := Except Fault α

/-- A result or the error for which it was refused, unless a fault prevented both. -/
abbrev Attempt (ε α : Type) := ExceptT ε Checked α

end Duplex
