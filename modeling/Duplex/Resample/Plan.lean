import Duplex.Fault
import Duplex.Resample.Fourier

/-!
# Resampling plans: block sizes and the low-pass response

A rate change works on blocks: so many input frames become so many output frames, in the exact
ratio of the rates, with a block as near above half a chunk as that allows; where half a chunk is
no whole frame, there is no plan. `Plan` holds the block sizes and the spectrum of the low-pass
filter, which is a cardinal sine cut off below both rates under the square of a four-term
Blackman-Harris window. `Plan.wave` filters one block: it takes the block's spectrum times the
filter's, as far as both rates have it, to a wave of twice the output block, of which the second
half overlaps the next block.
-/

namespace Duplex.Resample

/-! ### The low-pass filter -/

/-- The relative cutoff at which a window of `n` points keeps its transition below the band edge,
in single precision. -/
def cutoff (n : Nat) : Float32 :=
  let n := Float32.ofNat n
  1 / (13.745202940783823 / n + 121.73532586374934 / (n * n) + 5964.163279612051 / (n * n * n) + 1)

/-- The cutoff for blocks of the given sizes, below both band edges. -/
def blockCutoff (blockIn blockOut : Nat) : Float32 :=
  if blockOut < blockIn then
    cutoff blockOut * Float32.ofNat blockOut / Float32.ofNat blockIn
  else cutoff blockIn

/-- The squared Blackman-Harris window at point `x` of `n`. -/
def window (n x : Nat) : Float :=
  let t := 2 * pi * Float.ofNat x / Float.ofNat n
  let b := 0.35875 - 0.48829 * t.cos + 0.14128 * (2 * t).cos - 0.01168 * (3 * t).cos
  b * b

/-- The cardinal sine. -/
def sinc (z : Float) : Float := if z == 0 then 1 else (pi * z).sin / (pi * z)

/-- The impulse response of the low-pass filter, of unit sum over `2 * blockIn`. -/
def impulse (blockIn blockOut : Nat) : FloatArray :=
  let c := (blockCutoff blockIn blockOut).toFloat
  let y := tabulate blockIn fun x =>
    window blockIn x * sinc ((Float.ofNat x - Float.ofNat (blockIn / 2)) * c)
  let sum := y.foldl (· + ·) 0
  tabulate blockIn fun x => entry y x / sum / Float.ofNat (2 * blockIn)

/-! ### Plans -/

/-- The spectrum of the low-pass filter, and the transforms of its input and output. -/
structure LowPass where
  forward : Fourier
  backward : Fourier
  /-- As many frequencies as both rates have. -/
  response : Spectrum

/-- The filter for blocks of the given sizes. -/
def LowPass.create (blockIn blockOut : Nat) : LowPass :=
  let forward := Fourier.ofLength (2 * blockIn)
  let bins := if blockIn < blockOut then blockIn + 1 else blockOut
  { forward, backward := .ofLength (2 * blockOut)
    response := forward.transform bins (.ofReal (impulse blockIn blockOut)) }

/-- The block sizes of a rate change and its filter, which is worked out when the first block is
filtered. -/
structure Plan where
  blockIn : Nat
  blockOut : Nat
  filter : Thunk LowPass
  blockIn_pos : 0 < blockIn

/-- How many times the smallest exact block makes half a chunk, rounded up. -/
def blockScale (inputRate outputRate chunk : Nat) : Nat :=
  let unit := inputRate / inputRate.gcd outputRate
  (chunk / 2 + unit - 1) / unit

/-- The plan for feeding chunks of the given size. -/
def Plan.create (inputRate outputRate chunk : Nat) : Checked Plan :=
  let scale := blockScale inputRate outputRate chunk
  let blockIn := scale * (inputRate / inputRate.gcd outputRate)
  let blockOut := scale * (outputRate / inputRate.gcd outputRate)
  if h : 0 < blockIn then
    .ok { blockIn, blockOut, filter := .mk fun _ => .create blockIn blockOut, blockIn_pos := h }
  else .error .outOfRange

/-- The filtered wave of one input block, twice as long as an output block. The frequencies above
zero stand for their mirror images as well. -/
def Plan.wave (plan : Plan) (block : List Float) : List Float :=
  let f := plan.filter.get
  let bins := f.response.size
  let filtered := Spectrum.product bins (f.forward.transform bins (.ofReal ⟨block.toArray⟩))
    f.response
  let weight k := if k = 0 then 1 else 2
  let wave := f.backward.transform (2 * plan.blockOut)
    (.ofFn bins (fun k => weight k * entry filtered.re k)
      (fun k => -(weight k * entry filtered.im k)))
  (List.range (2 * plan.blockOut)).map (entry wave.re)

@[simp] theorem Plan.length_wave (plan : Plan) (block : List Float) :
    (plan.wave block).length = 2 * plan.blockOut := by
  simp [Plan.wave]

end Duplex.Resample
