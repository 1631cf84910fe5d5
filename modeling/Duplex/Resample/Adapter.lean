import Duplex.Pcm.Bytes
import Duplex.Pcm.Sample
import Duplex.Resample.Resampling
import Duplex.Signal

/-!
# Rate adapters: resampling an interleaved stream

A `RateAdapter` takes interleaved samples, or bytes, in portions of any length. It stages whole
frames until the resampler has the block it needs, and feeds it block after block, a column for each
channel. `flush` has what is staged resampled as a last block, and like `reset` forgets all history. A
block that the resampler refuses stays staged.
-/

namespace Duplex

open Signal

/-- A stream's way from one sample rate to another. -/
structure RateAdapter (R : Resampling) where
  inputRate : Nat
  outputRate : Nat
  channels : Nat
  /-- The frames in 10 ms of input, for which the resampler was built. -/
  chunk : Nat
  resampler : R.State
  /-- Whole frames short of a block. -/
  staged : List Int16
  /-- Bytes short of a frame. -/
  carry : List UInt8
  channels_pos : 0 < channels

namespace RateAdapter

/-- Why an adapter could not be made, or could not go on. -/
inductive Error where
  | noChannels (channels : Nat)
  /-- There is no resampler between the rates. -/
  | construction (cause : String)
  /-- The resampler refused a block. -/
  | resample (cause : String)
  deriving DecidableEq, Repr

/-- The reason inside an error, if it has one. -/
def Error.cause? : Error → Option String
  | .noChannels _ => none
  | .construction cause | .resample cause => some cause

def Error.message : Error → String
  | .noChannels channels => s!"rate adapter needs at least one channel, got {channels}"
  | .construction cause => "failed to build resampler: " ++ cause
  | .resample cause => "resampling failed: " ++ cause

variable {R : Resampling}

/-- An adapter between two rates for so many channels. -/
def create (inputRate outputRate channels : Nat) : Attempt Error (RateAdapter R) :=
  if h : 0 < channels then do
    let chunk := max (inputRate / 100) 1
    let resampler ← (R.build inputRate outputRate chunk channels).adapt .construction
    return { inputRate, outputRate, channels, chunk, resampler, staged := [], carry := []
             channels_pos := h }
  else throw (.noChannels channels)

/-- How many output frames the filter lags behind. -/
def outputDelay (a : RateAdapter R) : Nat := R.outputDelay a.resampler

/-- The interleaved samples in the next block. -/
def blockSize (a : RateAdapter R) : Nat := R.needed a.resampler * a.channels

theorem blockSize_pos (a : RateAdapter R) : 0 < a.blockSize :=
  Nat.mul_pos (R.needed_pos _) a.channels_pos

/-- The columns of interleaved samples, as the resampler takes them. -/
def columnsOf (a : RateAdapter R) (samples : List Int16) : List (List Float32) :=
  (columns a.channels samples).map (·.map Pcm.widen)

/-- The interleaved samples of columns of output. -/
def render (made : List (List Float32)) : List Int16 := interleave (made.map (·.map Pcm.round))

/-- Forget all staged input and all history. -/
def reset (a : RateAdapter R) : RateAdapter R :=
  { a with resampler := R.reset a.resampler, staged := [], carry := [] }

/-- Feed blocks as long as there is one, and append what they make to `out`. -/
def drain (a : RateAdapter R) (out : List Int16) :
    RateAdapter R × List Int16 × Except Error Unit :=
  if _h : a.blockSize ≤ a.staged.length then
    match R.feed a.resampler (a.columnsOf (a.staged.take a.blockSize)) with
    | (resampler, .error cause) => ({ a with resampler }, out, .error (.resample cause))
    | (resampler, .ok made) =>
      drain { a with resampler, staged := a.staged.drop a.blockSize } (out ++ render made)
  else (a, out, .ok ())
termination_by a.staged.length
decreasing_by
  have hpos := a.blockSize_pos
  show (a.staged.drop a.blockSize).length < a.staged.length
  rw [List.length_drop]
  omega

/-- Resample interleaved samples; an incomplete last frame is dropped. What was made before a failure
comes with it. -/
def process (a : RateAdapter R) (input : List Int16) :
    RateAdapter R × List Int16 × Except Error Unit :=
  { a with staged := a.staged ++ input.take (input.length / a.channels * a.channels) }.drain []

/-- Resample bytes; those of an incomplete last frame wait for the next call. -/
def processBytes (a : RateAdapter R) (input : List UInt8) :
    RateAdapter R × Except Error (List UInt8) :=
  let carry := a.carry ++ input
  let whole := carry.length / (2 * a.channels) * (2 * a.channels)
  let (a, out, result) :=
    { a with carry := carry.drop whole }.process (Pcm.decode (carry.take whole))
  (a, result.map fun () => Pcm.encode out)

/-- Have what is staged resampled as a last block, and reset. After a failure there is no reset. -/
def flush (a : RateAdapter R) : RateAdapter R × Except Error (List Int16) :=
  if a.staged.isEmpty then (a.reset, .ok [])
  else
    match R.finish a.resampler (a.columnsOf a.staged) with
    | (resampler, .error cause) => ({ a with resampler }, .error (.resample cause))
    | (resampler, .ok made) => ({ a with resampler }.reset, .ok (render made))

end RateAdapter

end Duplex
