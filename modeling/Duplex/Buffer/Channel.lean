import Duplex.Signal

/-!
# Channel buffers: several channels of several bands in one run of samples

All bands of a channel lie side by side, lowest first, and the channels follow each other, so that
the bands of a channel are also its full-band frame. `ChannelBuffer` owns the samples; `Bands` is
the view of one channel that engines work on. Reading or writing outside the storage is a fault.
-/

namespace Duplex

open Signal

variable {α : Type}

/-- The bands of one channel, all of one size. -/
structure Bands (α : Type) where
  data : List α
  perBand : Nat
  deriving DecidableEq, Repr

namespace Bands

/-- Cut `data` into bands of `perBand` samples. -/
def ofList (data : List α) (perBand : Nat) : Checked (Bands α) :=
  if perBand = 0 then .error .emptyBand
  else if data.length % perBand ≠ 0 then .error (.raggedBands data.length perBand)
  else .ok { data, perBand }

/-- The number of bands. -/
def count (b : Bands α) : Checked Nat :=
  if b.perBand = 0 then .error .outOfRange else .ok (b.data.length / b.perBand)

/-- The samples of band `k`. -/
def band (b : Bands α) (k : Nat) : Checked (List α) := slice b.data (k * b.perBand) b.perBand

/-- The bands in order. -/
def toList (b : Bands α) : Checked (List (List α)) :=
  if b.perBand = 0 then .error .outOfRange else .ok (blocks b.perBand b.data)

/-- Write over band `k` from its sample `start` on; what falls outside the band is dropped. -/
def writeBand (b : Bands α) (k start : Nat) (src : List α) : Checked (Bands α) :=
  (b.band k).map fun old => { b with data := overlay b.data (k * b.perBand) (overlay old start src) }

/-- Replace every band by its image under `f`, which is told the band's number. The bands keep
their size. -/
def mapBands (b : Bands α) (f : Nat → List α → List α) : Checked (Bands α) :=
  b.toList.map fun bands =>
    let changed := bands.mapIdx fun k old => overlay old 0 (f k old)
    { b with data := overlay b.data 0 changed.flatten }

/-- Replace the samples by those of `src`, which has the same bands. -/
def copyFrom (b src : Bands α) : Checked (Bands α) :=
  if b.perBand ≠ src.perBand then .error .bandSizeMismatch
  else if b.data.length ≠ src.data.length then .error .outOfRange
  else .ok { b with data := src.data }

end Bands

/-- Samples of `channels` channels with `frames` samples each, cut into `bands` bands. -/
structure ChannelBuffer (α : Type) where
  frames : Nat
  channels : Nat
  bands : Nat
  data : List α
  bands_pos : 0 < bands
  channels_pos : 0 < channels
  bands_dvd : bands ∣ frames
  length_data : data.length = frames * channels

namespace ChannelBuffer

/-- A silent buffer of any shape that has bands and channels, divides evenly and can be stored. -/
def create [Zero α] (frames channels bands : Nat) : Checked (ChannelBuffer α) :=
  if hb : bands = 0 then .error .noBands
  else if hc : channels = 0 then .error .noChannels
  else if hd : bands ∣ frames then
    if frames * channels < storageLimit then
      .ok { frames, channels, bands, data := List.replicate (frames * channels) 0
            bands_pos := Nat.pos_of_ne_zero hb, channels_pos := Nat.pos_of_ne_zero hc
            bands_dvd := hd, length_data := List.length_replicate }
    else .error .outOfRange
  else .error (.unevenBands frames bands)

/-- The samples in one band of one channel. -/
def perBand (b : ChannelBuffer α) : Nat := b.frames / b.bands

/-- The index at which a band of a channel starts. -/
def offset (b : ChannelBuffer α) (channel band : Nat) : Nat :=
  channel * b.frames + band * b.perBand

/-- Write over the samples from index `start` on; what falls past the end is dropped. -/
def writeData (b : ChannelBuffer α) (start : Nat) (src : List α) : ChannelBuffer α :=
  { b with data := overlay b.data start src, length_data := by simp [b.length_data] }

/-- The samples of one band of one channel. -/
def channel (b : ChannelBuffer α) (band channel : Nat) : Checked (List α) :=
  slice b.data (b.offset channel band) b.perBand

/-- Write over one band of one channel from its sample `start` on; what falls outside the band is
dropped. -/
def writeChannel (b : ChannelBuffer α) (band channel start : Nat) (src : List α) :
    Checked (ChannelBuffer α) :=
  (b.channel band channel).map fun old =>
    b.writeData (b.offset channel band) (overlay old start src)

/-- All bands of one channel, one after another. -/
def bandsOf (b : ChannelBuffer α) (channel : Nat) : Checked (List α) :=
  slice b.data (channel * b.frames) b.frames

/-- Write over the bands of one channel from sample `start` on; what falls outside the channel is
dropped. -/
def writeBands (b : ChannelBuffer α) (channel start : Nat) (src : List α) :
    Checked (ChannelBuffer α) :=
  (b.bandsOf channel).map fun old => b.writeData (channel * b.frames) (overlay old start src)

/-- The view of one channel. -/
def view (b : ChannelBuffer α) (channel : Nat) : Checked (Bands α) :=
  (b.bandsOf channel).map fun data => { data, perBand := b.perBand }

/-- Change one channel through its view. -/
def modifyView (b : ChannelBuffer α) (channel : Nat) (f : Bands α → Checked (Bands α)) :
    Checked (ChannelBuffer α) := do
  let changed ← f (← b.view channel)
  b.writeBands channel 0 changed.data

end ChannelBuffer

end Duplex
