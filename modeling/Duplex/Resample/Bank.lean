import Duplex.Resample.Resampling
import Duplex.Resample.Track

/-!
# Banks: resamplers that work on the spectrum

A `Bank` resamples each channel on a track of its own, by one plan. `spectral` is the resampling of
banks: it takes blocks of the chunk that the bank was built for, which no plan refuses, and a reset
lays all tracks to rest. Samples are filtered in double precision.
-/

namespace Duplex.Resample

open Signal

/-- A track for each channel. -/
structure Bank where
  plan : Plan
  channels : Nat
  /-- The frames in a block. -/
  chunk : Nat
  tracks : List Track
  chunk_pos : 0 < chunk

namespace Bank

/-- The tracks of so many channels before the first sample. -/
def rest (b : Bank) : Bank := { b with tracks := List.replicate b.channels (.rest b.plan) }

/-- Feed each track its column. -/
def feed (b : Bank) (columns : List (List Float32)) : Bank × List (List Float32) :=
  let fed := List.zipWith (fun track column => track.feed b.plan (column.map (·.toFloat)))
    b.tracks columns
  ({ b with tracks := fed.map (·.1) }, fed.map fun f => f.2.map (·.toFloat32))

/-- The text of a rate that is zero. -/
def zeroRate (inputRate outputRate : Nat) : String :=
  "Input and output sample rates must both be > 0. " ++
    s!"Provided input: {inputRate}, provided output: {outputRate}"

/-- A bank between two rates. -/
def build (inputRate outputRate chunk channels : Nat) : Attempt String Bank := do
  if inputRate = 0 ∨ outputRate = 0 then
    throw (zeroRate inputRate outputRate)
  if h : 0 < chunk then
    let plan ← Plan.create inputRate outputRate chunk
    let tracks ← filled channels (Track.rest plan)
    return { plan, channels, chunk, tracks, chunk_pos := h }
  else (Except.error .outOfRange : Checked Bank)

/-- Half a chunk of 10 ms of a stream is a whole frame, so that there is a plan. -/
theorem build_answers {inputRate outputRate chunk channels : Nat} (hi : minSampleRate ≤ inputRate)
    (hchunk : inputRate / 100 ≤ chunk) (hchannels : channels ≤ 2) :
    ∃ made, (build inputRate outputRate chunk channels).run = .ok made := by
  have hi' : 8000 ≤ inputRate := hi
  have hlimit : channels < storageLimit := Nat.lt_of_le_of_lt hchannels (by decide)
  have hunit : 0 < inputRate / inputRate.gcd outputRate :=
    Nat.div_pos (Nat.gcd_le_left _ (by omega)) (Nat.gcd_pos_of_pos_left _ (by omega))
  have hblock : 0 < blockScale inputRate outputRate chunk *
      (inputRate / inputRate.gcd outputRate) :=
    Nat.mul_pos (Nat.div_pos (by omega) hunit) hunit
  by_cases ho : outputRate = 0
  · exact ⟨.error (zeroRate inputRate outputRate), by rw [build, if_pos (.inr ho)]; rfl⟩
  · have hzero : ¬ (inputRate = 0 ∨ outputRate = 0) := by omega
    have hpos : 0 < chunk := by omega
    rw [build, if_neg hzero, dif_pos hpos, Plan.create, dif_pos hblock]
    simp only [filled, if_pos hlimit]
    exact ⟨_, rfl⟩

end Bank

/-- The resampling of banks. -/
def spectral : Resampling where
  State := Bank
  build := Bank.build
  needed b := b.chunk
  room b := (b.chunk / b.plan.blockIn + 1) * b.plan.blockOut
  outputDelay b := b.plan.blockOut / 2
  feed b columns := let (b, made) := b.feed columns; (b, .ok made)
  finish b columns := let (b, made) := b.feed (columns.map (fit b.chunk 0)); (b, .ok made)
  reset b := b.rest
  needed_pos b := b.chunk_pos
  build_answers hi hchunk hchannels := Bank.build_answers hi hchunk hchannels

end Duplex.Resample
