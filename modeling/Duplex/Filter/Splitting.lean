import Duplex.Buffer.Channel
import Duplex.Filter.ThreeBand
import Duplex.Filter.TwoBand

/-!
# Splitting filters: one two-band or three-band filter for each channel

`SplittingFilter.analysis` splits the frames of a data buffer into the bands of a second buffer and
`SplittingFilter.synthesis` merges them back. Channels are independent of each other. The two-band
filter works on 1 to 160 samples per band, the three-band filter on the first 480 samples of a
frame that has at least as many; any other shape is a fault.
-/

namespace Duplex

open Signal Duplex.Filter

/-- The filters of the channels, all of one kind. -/
inductive SplittingFilter where
  | twoBand (filters : List (TwoBand Float32))
  | threeBand (filters : List ThreeBand)

namespace SplittingFilter

/-- Filters for `channels` channels and `bands` bands, of which there are two or three. -/
def create (channels bands : Nat) : Checked SplittingFilter :=
  match bands with
  | 2 => (filled channels .rest).map .twoBand
  | 3 => (filled channels .rest).map .threeBand
  | n => .error (.unsupportedSplit n)

/-- The number of bands. -/
def bandCount : SplittingFilter → Nat
  | twoBand _ => 2
  | threeBand _ => 3

/-- Split the full-band frame `frame` into two bands, one after the other. -/
def splitTwo (f : TwoBand Float32) (frame : List Float32) :
    Checked (TwoBand Float32 × List Float32) :=
  if TwoBand.Supports (frame.length / 2) then
    let (f, low, high) := f.split frame
    .ok (f, low ++ high)
  else .error .outOfRange

/-- Merge two bands into a full-band frame. -/
def mergeTwo (f : TwoBand Float32) (bands : Bands Float32) :
    Checked (TwoBand Float32 × List Float32) := do
  let low ← bands.band 0
  let high ← bands.band 1
  if TwoBand.Supports low.length then
    return f.merge low high
  else throw .outOfRange

/-- Split the first 480 samples of a full-band frame into three bands, one after the other. What
is left of the frame has no bands and leaves silence. -/
def splitThree (f : ThreeBand) (frame : List Float32) : Checked (ThreeBand × List Float32) :=
  if ThreeBand.frameSize ≤ frame.length then
    let (f, bands) := f.split (frame.take ThreeBand.frameSize)
    .ok (f, fit frame.length 0 bands.flatten)
  else .error .outOfRange

/-- Merge the first 480 samples of three bands, one after the other, into a full-band frame, which
is silent from there on. -/
def mergeThree (f : ThreeBand) (bands : List Float32) : Checked (ThreeBand × List Float32) :=
  if ThreeBand.frameSize ≤ bands.length then
    let (f, frame) := f.merge (blocks ThreeBand.bandSize (bands.take ThreeBand.frameSize))
    .ok (f, fit bands.length 0 frame)
  else .error .outOfRange

/-- Run each filter on its channel, from channel `ch` on, as long as there are both. A filter reads
its channel from one buffer and the result is written to the same channel of the other. -/
def runEach {φ : Type} (run : φ → ChannelBuffer Float32 → Nat → Checked (φ × List Float32))
    (source : ChannelBuffer Float32) :
    List φ → Nat → ChannelBuffer Float32 → Checked (List φ × ChannelBuffer Float32)
  | [], _, target => .ok ([], target)
  | f :: filters, ch, target =>
    if ch < source.channels then do
      let (f, result) ← run f source ch
      let target ← target.writeBands ch 0 result
      let (filters, target) ← runEach run source filters (ch + 1) target
      return (f :: filters, target)
    else .ok (f :: filters, target)

/-- Split each channel of `data` into the bands of `bands`. -/
def analysis (f : SplittingFilter) (data bands : ChannelBuffer Float32) :
    Checked (SplittingFilter × ChannelBuffer Float32) :=
  match f with
  | twoBand filters => do
    let (filters, bands) ←
      runEach (fun f data ch => do splitTwo f (← data.bandsOf ch)) data filters 0 bands
    return (twoBand filters, bands)
  | threeBand filters => do
    let (filters, bands) ←
      runEach (fun f data ch => do splitThree f (← data.bandsOf ch)) data filters 0 bands
    return (threeBand filters, bands)

/-- Merge the bands of each channel of `bands` into `data`. -/
def synthesis (f : SplittingFilter) (bands data : ChannelBuffer Float32) :
    Checked (SplittingFilter × ChannelBuffer Float32) :=
  match f with
  | twoBand filters => do
    let (filters, data) ←
      runEach (fun f bands ch => do mergeTwo f (← bands.view ch)) bands filters 0 data
    return (twoBand filters, data)
  | threeBand filters => do
    let (filters, data) ←
      runEach (fun f bands ch => do mergeThree f (← bands.bandsOf ch)) bands filters 0 data
    return (threeBand filters, data)

end SplittingFilter

end Duplex
