import Duplex.Stage

/-!
# Statistics: the counters of one session
-/

namespace Duplex

/-- Running counters, cleared when a session begins or ends. They count without a bound: the fastest of
them goes through the bytes of a stereo stream at 48 kHz, and would need three million years to run out
of 64 bits. -/
structure Stats where
  /-- Frames that were processed. -/
  frames : Nat := 0
  /-- Frames that were processed with echo cancellation. -/
  echoFrames : Nat := 0
  /-- Farend bytes filled with silence because the farend ring ran short. -/
  farendUnderrun : Nat := 0
  /-- Farend bytes dropped because the ring was full. -/
  droppedFarend : Nat := 0
  /-- Nearend bytes dropped because the ring was full. -/
  droppedNearend : Nat := 0
  /-- How often the engine of each stage failed on a channel of a frame, which then passed it
  unchanged. -/
  failures : PerStage Nat := .const 0
  deriving DecidableEq, Repr

namespace Stats

/-- Count a failure of a stage. -/
def fail (s : Stats) (stage : Stage) : Stats :=
  { s with failures := s.failures.set (s.failures.get stage + 1) stage }

end Stats

end Duplex
