import Duplex.Resample.Plan
import Duplex.Signal

/-!
# Tracks: the resampled stream of one channel

A track collects the samples it is fed until it has whole blocks. Each block becomes a wave, whose
first half, added to the second half of the wave before, is the next block of output.
-/

namespace Duplex.Resample

open Signal

/-- The samples short of a block, and the part of the last wave that is still to come. -/
structure Track where
  store : List Float
  overlap : List Float

namespace Track

/-- The state before the first sample. -/
def rest (plan : Plan) : Track := ⟨[], List.replicate plan.blockOut 0⟩

/-- Turn whole blocks into output. -/
def emit (plan : Plan) : List (List Float) → List Float → List Float → List Float × List Float
  | [], overlap, out => (overlap, out)
  | block :: blocks, overlap, out =>
    let wave := plan.wave block
    emit plan blocks (wave.drop plan.blockOut)
      (out ++ List.zipWith (· + ·) (wave.take plan.blockOut) overlap)

/-- Feed samples and collect the output they complete. -/
def feed (plan : Plan) (t : Track) (samples : List Float) : Track × List Float :=
  let store := t.store ++ samples
  let (overlap, out) := emit plan (blocks plan.blockIn store) t.overlap []
  (⟨store.drop (store.length / plan.blockIn * plan.blockIn), overlap⟩, out)

end Track

end Duplex.Resample
