/-!
# Fourier transforms of any length

`Fourier.transform` takes `n` complex numbers to their frequencies: frequency `k` is the sum of the
numbers, the one at `j` turned back by `j * k` steps of a whole turn in `n`. Short sequences are
summed as this says. For long ones that takes too long, and there is a detour over a length that
is a power of two, which can be halved again and again: a turn by `j * k` steps is one by half of
`j * j`, by half of `k * k`, and back by half of the square of `k - j`, so that the sums become a
circular product of two sequences, which is a plain product of their frequencies.
-/

namespace Duplex.Resample

/-- Pi. -/
def pi : Float := 3.141592653589793

/-- The number at an index, or zero past the end. -/
@[inline] def entry (a : FloatArray) (i : Nat) : Float := if h : i < a.size then a[i] else 0

/-- The first `n` values of a function. -/
@[inline] def tabulate (n : Nat) (f : Nat → Float) : FloatArray :=
  n.fold (fun i _ table => table.push (f i)) (FloatArray.emptyWithCapacity n)

/-- A sequence of complex numbers, which is zero past its end. -/
structure Spectrum where
  re : FloatArray
  im : FloatArray

namespace Spectrum

def size (s : Spectrum) : Nat := s.re.size

/-- The first `n` values of a function. -/
@[inline] def ofFn (n : Nat) (re im : Nat → Float) : Spectrum := ⟨tabulate n re, tabulate n im⟩

/-- A sequence of real numbers. -/
def ofReal (a : FloatArray) : Spectrum := ⟨a, .empty⟩

/-- The first `n` products of two sequences. -/
def product (n : Nat) (s t : Spectrum) : Spectrum :=
  ofFn n (fun k => entry s.re k * entry t.re k - entry s.im k * entry t.im k)
    (fun k => entry s.re k * entry t.im k + entry s.im k * entry t.re k)

/-- The conjugates of a sequence. -/
def conjugate (s : Spectrum) : Spectrum := ofFn s.size (entry s.re) (fun k => -entry s.im k)

/-- Every second number, from the one at `start` on. -/
def everySecond (s : Spectrum) (start : Nat) : Spectrum :=
  ofFn (s.size / 2) (fun k => entry s.re (2 * k + start)) (fun k => entry s.im (2 * k + start))

end Spectrum

/-- The cosines and sines of a whole turn in `steps` steps. -/
structure Turn where
  steps : Nat
  cosines : FloatArray
  sines : FloatArray

namespace Turn

/-- The table of a turn in `n` steps. -/
def ofSteps (n : Nat) : Turn :=
  let angle i := 2 * pi * Float.ofNat i / Float.ofNat n
  { steps := n
    cosines := tabulate n fun i => (angle i).cos
    sines := tabulate n fun i => (angle i).sin }

/-- Add the `left` numbers from `j` on to frequency `k`, the first of them turned by `phase`. -/
def sumFrom (turn : Turn) (s : Spectrum) (k : Nat) :
    (left j phase : Nat) → (re im : Float) → Float × Float
  | 0, _, _, re, im => (re, im)
  | left + 1, j, phase, re, im =>
    let c := entry turn.cosines phase
    let d := entry turn.sines phase
    turn.sumFrom s k left (j + 1) ((phase + k) % turn.steps)
      (re + (entry s.re j * c + entry s.im j * d)) (im + (entry s.im j * c - entry s.re j * d))

/-- The first `count` frequencies of a sequence of at most `steps` numbers, each summed. -/
def frequencies (turn : Turn) (count : Nat) (s : Spectrum) : Spectrum :=
  count.fold
    (fun k _ out =>
      let (re, im) := turn.sumFrom s k s.size 0 0 0 0
      ⟨out.re.push re, out.im.push im⟩)
    ⟨.emptyWithCapacity count, .emptyWithCapacity count⟩

/-- All frequencies of a sequence that can be halved `levels` times down to one number, whose size
divides `steps`. The numbers at even and at odd places have their frequencies taken apart; the odd
ones then lag behind by a place. -/
def frequenciesByHalves (turn : Turn) : (levels : Nat) → Spectrum → Spectrum
  | 0, s => s
  | levels + 1, s =>
    let even := turn.frequenciesByHalves levels (s.everySecond 0)
    let odd := turn.frequenciesByHalves levels (s.everySecond 1)
    let half := s.size / 2
    let stride := turn.steps / s.size
    .ofFn s.size
      (fun k => entry even.re (k % half) +
        (entry turn.cosines (k * stride) * entry odd.re (k % half) +
          entry turn.sines (k * stride) * entry odd.im (k % half)))
      (fun k => entry even.im (k % half) +
        (entry turn.cosines (k * stride) * entry odd.im (k % half) -
          entry turn.sines (k * stride) * entry odd.re (k % half)))

end Turn

/-- The tables for the detour of a sequence over a circle with the length of a power of two. -/
structure Detour where
  /-- How often the circle can be halved; it is more than twice as long as the sequence. -/
  levels : Nat
  /-- A turn in as many steps as the circle is long. -/
  turn : Turn
  /-- The turns back by half of `j * j` steps, for each place `j` of the sequence. -/
  chirp : Spectrum
  /-- The frequencies of the turns forward by as much, around the circle in both directions. -/
  kernel : Spectrum

namespace Detour

/-- The tables for sequences of `n` numbers. -/
def ofLength (n : Nat) : Detour :=
  let levels := (2 * n).log2 + 1
  let circle := 1 <<< levels
  let turn := Turn.ofSteps circle
  let angle j := 2 * pi * Float.ofNat (j * j % (2 * n)) / Float.ofNat (2 * n)
  let chirp := Spectrum.ofFn n (fun j => (angle j).cos) (fun j => -(angle j).sin)
  let around := Spectrum.ofFn circle (fun j => entry chirp.re (min j (circle - j)))
    (fun j => -entry chirp.im (min j (circle - j)))
  { levels, turn, chirp, kernel := turn.frequenciesByHalves levels around }

/-- The first `count` frequencies. -/
def frequencies (d : Detour) (count : Nat) (s : Spectrum) : Spectrum :=
  let circle := d.turn.steps
  let there := d.turn.frequenciesByHalves d.levels (.product circle s d.chirp)
  let back := d.turn.frequenciesByHalves d.levels (Spectrum.product circle there d.kernel).conjugate
  let scaled := Spectrum.ofFn count (fun k => entry back.re k / Float.ofNat circle)
    (fun k => -entry back.im k / Float.ofNat circle)
  .product count scaled d.chirp

end Detour

/-- The transform of sequences of one length. -/
inductive Fourier where
  | direct (turn : Turn)
  | detour (tables : Detour)

namespace Fourier

/-- The transform of `n` numbers. -/
def ofLength (n : Nat) : Fourier :=
  if n ≤ 4096 then .direct (.ofSteps n) else .detour (.ofLength n)

/-- The first `count` frequencies of a sequence, of which there are as many as numbers. -/
def transform : Fourier → (count : Nat) → Spectrum → Spectrum
  | direct turn => turn.frequencies
  | detour tables => tables.frequencies

end Fourier

end Duplex.Resample
