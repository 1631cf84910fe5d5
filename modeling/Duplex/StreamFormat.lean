import Duplex.Pcm.Layout

/-!
# Stream formats: the sample rate and layout of one direction

A stream is mono or stereo at 8000 to 384000 Hz, in whole frames per 10 ms. The channels are
checked before the rate, and the range of the rate before its divisibility.
-/

namespace Duplex

open Pcm (Layout)

def minSampleRate : Nat := 8000

def maxSampleRate : Nat := 384000

/-- A sample rate and a layout that a stream can have. -/
structure StreamFormat where
  rate : Nat
  layout : Layout
  minSampleRate_le : minSampleRate ≤ rate
  le_maxSampleRate : rate ≤ maxSampleRate
  dvd_rate : 100 ∣ rate

namespace StreamFormat

/-- Why a stream cannot have a format. -/
inductive Error where
  | unsupportedSampleRate (rate : Nat)
  | misalignedSampleRate (rate : Nat)
  | unsupportedChannels (channels : Nat)
  deriving DecidableEq, Repr

def Error.message : Error → String
  | .unsupportedSampleRate rate =>
    s!"unsupported sample rate {rate}; expected {minSampleRate}..={maxSampleRate}"
  | .misalignedSampleRate rate =>
    s!"sample rate {rate} is not aligned to 10ms frames (must be divisible by 100)"
  | .unsupportedChannels channels => s!"unsupported channel count {channels}; expected 1..=2"

/-- The format with the given rate and channels. -/
def create (rate channels : Nat) : Except Error StreamFormat :=
  match Layout.ofChannels? channels with
  | none => .error (.unsupportedChannels channels)
  | some layout =>
    if h : minSampleRate ≤ rate ∧ rate ≤ maxSampleRate then
      if hd : 100 ∣ rate then
        .ok { rate, layout, minSampleRate_le := h.1, le_maxSampleRate := h.2, dvd_rate := hd }
      else .error (.misalignedSampleRate rate)
    else .error (.unsupportedSampleRate rate)

def channels (f : StreamFormat) : Nat := f.layout.channels

/-- The frames in 10 ms. -/
def framesPer10ms (f : StreamFormat) : Nat := f.rate / 100

/-- The bytes in 10 ms. -/
def bytesPer10ms (f : StreamFormat) : Nat := f.framesPer10ms * f.channels * 2

end StreamFormat

end Duplex
