import Duplex.Buffer.Channel
import Duplex.Resample.Resampling
import Duplex.Settings
import Duplex.Stage

/-!
# Engines: what a session asks of echo cancellers, noise suppressors and gain controllers

The session computes no echo, noise or gain estimate itself. It hands bands to engines, which are
state machines: each call takes the engine's state and answers with its next state and an outcome.
`Family` names the state types of one kind of engines and of the factory that makes them, with the
resampling that goes with them, and `Engines` holds the calls of the engines. `S` is the form of the
samples that echo cancellers and noise suppressors work on; gain controllers always work on integers.
-/

namespace Duplex

namespace Engine

/-- Why an engine refused a call. -/
inductive Error where
  /-- The factory could not make the engine. -/
  | unavailable
  /-- The engine could not be set up. -/
  | setUp (code : Int)
  /-- The engine rejected its settings. -/
  | settings (code : Int)
  /-- A frame could not be processed. -/
  | process (code : Int)
  deriving DecidableEq, Repr

def Error.message : Error → String
  | .unavailable => "engine unavailable"
  | .setUp code => s!"engine init failed ({code})"
  | .settings code => s!"engine rejected configuration ({code})"
  | .process code => s!"engine processing failed ({code})"

/-- An engine after a call, and the outcome of the call. -/
structure Reply (σ ρ : Type) where
  engine : σ
  result : Except Error ρ

/-- An engine after a frame, what it left in the output bands, and the outcome. -/
structure FrameReply (σ S ρ : Type) where
  engine : σ
  out : List S
  result : Except Error ρ

/-- What a gain controller says about a frame. -/
structure GainOutcome where
  /-- The mic level to carry into the next frame. -/
  micLevel : Int32
  /-- Whether the input was saturated. -/
  saturated : Bool
  deriving DecidableEq, Repr

/-- The calls of an echo canceller. -/
structure EchoCalls (S σ : Type) where
  setUp : σ → (rate : Nat) → Reply σ Unit
  configure : σ → EchoSettings → Reply σ Unit
  /-- Queue the lowest band of a farend frame. -/
  bufferFarend : σ → List S → Reply σ Unit
  /-- Cancel the echo in the nearend bands, given the output bands as they stand and the delay of
  the echo path in milliseconds. -/
  process : σ → (nearend out : Bands S) → (delay : Nat) → FrameReply σ S Unit

/-- The calls of a noise suppressor. -/
structure NoiseCalls (S σ : Type) where
  setUp : σ → (rate : Nat) → Reply σ Unit
  configure : σ → NoiseLevel → Reply σ Unit
  /-- Learn from the lowest band of a nearend frame. -/
  analyze : σ → List S → Reply σ Unit
  process : σ → (nearend out : Bands S) → FrameReply σ S Unit

/-- The calls of a gain controller. -/
structure GainCalls (σ : Type) where
  setUp : σ → (minLevel maxLevel : Int32) → GainMode → (rate : Nat) → Reply σ Unit
  configure : σ → GainSettings → Reply σ Unit
  /-- Learn from the unprocessed nearend bands. -/
  addMic : σ → Bands Int16 → Reply σ Unit
  process : σ → (nearend out : Bands Int16) → (micLevel : Int32) → (hasEcho : Bool) →
    FrameReply σ Int16 GainOutcome

/-- What a session is built on: the state types of the engines of one kind and of their factory, and
the resampling of its rate adapters. -/
structure Family where
  Factory : Type
  Echo : Type
  Noise : Type
  Gain : Type
  resampling : Resampling

end Engine

open Engine in
/-- The engines of one kind. A factory is told the number of the engine it is to make, counted for
each stage from zero. -/
structure Engines (S : Type) (F : Family) where
  /-- The highest processing rate that the engines support. -/
  maxRate : Nat
  makeEcho : F.Factory → Nat → F.Factory × Except Engine.Error F.Echo
  makeNoise : F.Factory → Nat → F.Factory × Except Engine.Error F.Noise
  makeGain : F.Factory → Nat → F.Factory × Except Engine.Error F.Gain
  echo : EchoCalls S F.Echo
  noise : NoiseCalls S F.Noise
  gain : GainCalls F.Gain

/-- The processing rate that engines support unless they say otherwise. -/
def Engines.defaultMaxRate : Nat := 48000

end Duplex
