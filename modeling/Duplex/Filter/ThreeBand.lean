import Duplex.Signal

/-!
# The three-band filter: sparse polyphase filters with cosine modulation

A frame of 480 samples becomes three bands of 160. The twelve polyphase branches are the pairs of
a phase (of three) and a shift (of four); two of them are all zero and left out. In analysis each
branch filters one sample in three of the frame and adds the result, scaled, to every band. In
synthesis each branch filters a scaled sum of the bands and adds three times the result to one
sample in three of the frame. A branch remembers the last fifteen samples that it filtered, and the
two directions share no state.
-/

namespace Duplex.Filter

open Signal

namespace ThreeBand

def bandCount : Nat := 3

def frameSize : Nat := 480

def bandSize : Nat := 160

/-- The distance between the taps of a filter. -/
def stride : Nat := 4

/-- How many past samples a branch needs. -/
def memorySize : Nat := 15

private def sqrt3 : Float32 := 1.7320508

/-- The taps of the filters, in the order of `filterIndex`. -/
def taps : List (List Float32) :=
  [[-0.00047749, -0.00496888, 0.16547118, 0.00425496],
   [-0.00173287, -0.01585778, 0.14989004, 0.00994113],
   [-0.00304815, -0.02536082, 0.12154542, 0.01157993],
   [-0.00346946, -0.02587886, 0.04760441, 0.00607594],
   [-0.00154717, -0.01136076, 0.01387458, 0.00186353],
   [0.00186353, 0.01387458, -0.01136076, -0.00154717],
   [0.00607594, 0.04760441, -0.02587886, -0.00346946],
   [0.00983212, 0.08543175, -0.02982767, -0.00383509],
   [0.00994113, 0.14989004, -0.01585778, -0.00173287],
   [0.00425496, 0.16547118, -0.00496888, -0.00047749]]

/-- What each filter adds to each band, in the order of `filterIndex`. -/
def modulation : List (List Float32) :=
  [[2, 2, 2],
   [sqrt3, 0, -sqrt3],
   [1, -2, 1],
   [-1, 2, -1],
   [-sqrt3, 0, sqrt3],
   [-2, -2, -2],
   [-sqrt3, 0, sqrt3],
   [-1, 2, -1],
   [1, -2, 1],
   [sqrt3, 0, -sqrt3]]

/-- The number of the filter at a polyphase index; the filters at 3 and 9 are all zero and have
none. -/
def filterIndex (i : Nat) : Option Nat :=
  if i = 3 ∨ i = 9 then none
  else if i < 3 then some i
  else if i < 9 then some (i - 1)
  else some (i - 2)

/-- One polyphase branch. -/
structure Branch where
  phase : Nat
  shift : Nat
  taps : List Float32
  gains : List Float32

/-- The branches that are not zero, phase by phase and by growing shift. -/
def branches : List Branch :=
  (List.range bandCount).flatMap fun phase =>
    (List.range stride).filterMap fun shift =>
      (filterIndex (phase + bandCount * shift)).map fun i =>
        { phase, shift, taps := taps.getD i [], gains := modulation.getD i [] }

/-- Filter a signal that follows `history`: output `k` is the sum, in the order of the taps and
from zero, of tap `i` times the sample `shift + 4 * i` places before sample `k`. -/
def fir (taps : List Float32) (shift : Nat) (history signal : List Float32) : List Float32 :=
  let line := history ++ signal
  taps.zipIdx.foldl
    (fun sums (tap, i) =>
      List.zipWith (fun sum x => sum + x * tap) sums
        (line.drop (history.length - shift - stride * i)))
    (List.replicate signal.length 0)

/-- The last samples of a signal that follows `history`, as many as `history` has. -/
def recent (history signal : List Float32) : List Float32 := (history ++ signal).drop signal.length

/-- Add a scaled signal to each band. -/
def addScaled (gains : List Float32) (signal : List Float32) (bands : List (List Float32)) :
    List (List Float32) :=
  List.zipWith (fun gain band => List.zipWith (fun b x => b + gain * x) band signal) gains bands

/-- The sum, from zero, of the bands scaled. -/
def scaledSum (gains : List Float32) (bands : List (List Float32)) : List Float32 :=
  (gains.zip bands).foldl
    (fun sums (gain, band) => List.zipWith (fun sum b => sum + gain * b) sums band)
    (List.replicate bandSize 0)

/-- Split a frame, given as its three phases, into the three bands. -/
def analyse (phases : List (List Float32)) :
    List Branch → List (List Float32) → List (List Float32) →
      List (List Float32) × List (List Float32)
  | branch :: branches, history :: histories, bands =>
    let signal := phases.getD (bandCount - 1 - branch.phase) []
    let filtered := fir branch.taps branch.shift history signal
    let (rest, bands) := analyse phases branches histories (addScaled branch.gains filtered bands)
    (recent history signal :: rest, bands)
  | _, histories, bands => (histories, bands)

/-- Merge the bands into the three phases of a frame. -/
def synthesise (bands : List (List Float32)) :
    List Branch → List (List Float32) → List (List Float32) →
      List (List Float32) × List (List Float32)
  | branch :: branches, history :: histories, phases =>
    let signal := scaledSum branch.gains bands
    let filtered := fir branch.taps branch.shift history signal
    let phases := phases.modify branch.phase
      (List.zipWith (fun y x => y + 3 * x) · filtered)
    let (rest, phases) := synthesise bands branches histories phases
    (recent history signal :: rest, phases)
  | _, histories, phases => (histories, phases)

end ThreeBand

/-- The past samples of every branch in either direction. -/
structure ThreeBand where
  analysis : List (List Float32)
  synthesis : List (List Float32)
  deriving DecidableEq

namespace ThreeBand

private def silence : List (List Float32) :=
  List.replicate branches.length (List.replicate memorySize 0)

/-- The state before the first frame. -/
def rest : ThreeBand := ⟨silence, silence⟩

/-- Split a frame of 480 samples into three bands. -/
def split (f : ThreeBand) (frame : List Float32) : ThreeBand × List (List Float32) :=
  let silent := List.replicate bandCount (List.replicate bandSize 0)
  let (analysis, bands) := analyse (columns bandCount frame) branches f.analysis silent
  ({ f with analysis }, bands)

/-- Merge three bands of 160 samples into a frame. -/
def merge (f : ThreeBand) (bands : List (List Float32)) : ThreeBand × List Float32 :=
  let silent := List.replicate bandCount (List.replicate bandSize 0)
  let (synthesis, phases) := synthesise bands branches f.synthesis silent
  ({ f with synthesis }, interleave phases)

end ThreeBand

end Duplex.Filter
