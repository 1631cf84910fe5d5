import Duplex.Buffer.Dual
import Duplex.Error
import Duplex.Filter.Splitting

/-!
# Subband frames: one channel of one frame, whole and in bands

With two or three bands a `SubbandFrame` holds the full-band frame and the bands apart, and a
splitting filter that goes between them; with one band both are the same storage. `fill` loads a
frame and splits it. `readInto` merges the bands and copies the frame out, so that what was written
to the bands in between is heard.
-/

namespace Duplex

open Signal

/-- How many bands a frame at the given rate is cut into: one up to 8 kHz, then one for each
16 kHz. -/
def bandCountForRate (rate : Nat) : Nat := if rate ≤ 8000 then 1 else rate / 16000

/-- Bands apart from the full-band frame, and the filter between them. -/
structure SplitBands where
  bands : DualBuffer
  filter : SplittingFilter

structure SubbandFrame where
  full : DualBuffer
  split : Option SplitBands

namespace SubbandFrame

/-- A silent frame; there are one to three bands, of equal size. -/
def create (frames bands : Nat) : Attempt ConfigError SubbandFrame := do
  if ¬ ((1 ≤ bands ∧ bands ≤ 3) ∧ bands ∣ frames) then
    throw (.unsupportedBandCount bands)
  let full ← DualBuffer.create frames 1 1
  if bands = 1 then
    return { full, split := none }
  let storage ← DualBuffer.create frames 1 bands
  let filter ← SplittingFilter.create 1 bands
  return { full, split := some { bands := storage, filter } }

/-- The samples in the full-band frame. -/
def frames (f : SubbandFrame) : Nat := f.full.intCopy.frames

/-- The number of bands. -/
def bandCount (f : SubbandFrame) : Nat :=
  match f.split with
  | some s => s.bands.intCopy.bands
  | none => 1

/-- Split the full-band frame into the bands. -/
def analysis (f : SubbandFrame) : Checked SubbandFrame :=
  match f.split with
  | none => .ok f
  | some s => do
    let full := f.full.syncFloats
    let bands := s.bands.claimFloats
    let (filter, floatCopy) ← s.filter.analysis full.floatCopy bands.floatCopy
    return { full, split := some { bands := { bands with floatCopy }, filter } }

/-- Merge the bands into the full-band frame. -/
def synthesis (f : SubbandFrame) : Checked SubbandFrame :=
  match f.split with
  | none => .ok f
  | some s => do
    let bands := s.bands.syncFloats
    let full := f.full.claimFloats
    let (filter, floatCopy) ← s.filter.synthesis bands.floatCopy full.floatCopy
    return { full := { full with floatCopy }, split := some { bands, filter } }

/-- Load a full-band frame, cut or padded with silence to size, and split it. -/
def fill (f : SubbandFrame) (samples : List Int16) : Checked SubbandFrame :=
  { f with full := f.full.write 0 (fit f.frames 0 samples) }.analysis

/-- Merge the bands and copy the full-band frame to the start of `dest`. -/
def readInto (f : SubbandFrame) (dest : List Int16) :
    Checked (SubbandFrame × Nat × List Int16) := do
  let f ← f.synthesis
  let f := { f with full := f.full.syncInts }
  let samples := f.full.ints.data
  return (f, min samples.length dest.length, overlay dest 0 samples)

/-- The storage of the bands. -/
def storage (f : SubbandFrame) : DualBuffer :=
  match f.split with
  | some s => s.bands
  | none => f.full

/-- The frame with the bands in another storage. -/
def withStorage (f : SubbandFrame) (b : DualBuffer) : SubbandFrame :=
  match f.split with
  | some s => { f with split := some { s with bands := b } }
  | none => { f with full := b }

/-- Freshen the bands' copy in the given form. -/
def sync (S : Type) [Sample S] (f : SubbandFrame) : SubbandFrame :=
  f.withStorage (Sample.sync S f.storage)

/-- The bands in the given form. -/
def view (S : Type) [Sample S] (f : SubbandFrame) : Bands S :=
  let b : ChannelBuffer S := Sample.read f.storage
  { data := b.data, perBand := b.perBand }

/-- The lowest band in the given form. -/
def lowest (S : Type) [Sample S] (f : SubbandFrame) : List S :=
  (f.view S).data.take (f.view S).perBand

/-- Claim the bands in the given form and write over them from the first sample on. -/
def put {S : Type} [Sample S] (f : SubbandFrame) (src : List S) : SubbandFrame :=
  f.withStorage (f.storage.write 0 src)

/-- Claim the bands in the given form and change them. -/
def modify {S : Type} [Sample S] (f : SubbandFrame) (change : Bands S → Checked (Bands S)) :
    Checked SubbandFrame :=
  (f.storage.modify fun b => b.modifyView 0 change).map f.withStorage

end SubbandFrame

end Duplex
