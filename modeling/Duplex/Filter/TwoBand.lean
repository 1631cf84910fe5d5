import Duplex.Filter.Allpass
import Duplex.Signal

/-!
# The two-band filter: an allpass pair

Analysis sends the odd samples of a frame through the first cascade and the even samples through
the second; half the sum of the results is the low band and half the difference the high band.
Synthesis sends the sum of the bands through the second cascade and the difference through the
first, and interleaves the results with the difference in front, limited to the 16-bit range. The
two directions share no state.
-/

namespace Duplex.Filter

open Signal

variable {α : Type} [Scalar α]

/-- The states of the four cascades. -/
structure TwoBand (α : Type) where
  odd : Cascade α
  even : Cascade α
  sum : Cascade α
  difference : Cascade α
  deriving DecidableEq

namespace TwoBand

/-- The state before the first frame. -/
def rest : TwoBand α := ⟨.rest, .rest, .rest, .rest⟩

/-- A half. -/
def half : α := Scalar.fraction 32768

/-- Split a frame into its low and its high band; an unpaired last sample is dropped. -/
def split (f : TwoBand α) (frame : List α) : TwoBand α × List α × List α :=
  let (odd, o) := f.odd.run .first ((pairs frame).map (·.2))
  let (even, e) := f.even.run .second ((pairs frame).map (·.1))
  let h : α := half
  ({ f with odd, even },
    List.zipWith (fun x y => (x + y) * h) o e, List.zipWith (fun x y => (x - y) * h) o e)

/-- Merge the bands into a frame that is not yet limited. -/
def mergeExact (f : TwoBand α) (low high : List α) : TwoBand α × List α :=
  let (sum, s) := f.sum.run .second (List.zipWith (· + ·) low high)
  let (difference, d) := f.difference.run .first (List.zipWith (· - ·) low high)
  ({ f with sum, difference }, unpairs (d.zip s))

/-- Limit to the range of the 16-bit integers. -/
def limit (x : α) : α :=
  let x := if x < Scalar.fraction (-32768 * 65536) then Scalar.fraction (-32768 * 65536) else x
  if Scalar.fraction (32767 * 65536) < x then Scalar.fraction (32767 * 65536) else x

/-- Merge the bands into a frame. -/
def merge (f : TwoBand α) (low high : List α) : TwoBand α × List α :=
  let (f, frame) := f.mergeExact low high
  (f, frame.map limit)

/-- The most samples that a band may have. -/
def maxPerBand : Nat := 160

/-- Whether bands of `n` samples can be split off or merged. -/
def Supports (n : Nat) : Prop := 0 < n ∧ n ≤ maxPerBand

instance (n : Nat) : Decidable (Supports n) := inferInstanceAs (Decidable (_ ∧ _))

end TwoBand

end Duplex.Filter
