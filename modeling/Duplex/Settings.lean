/-!
# Settings: what a session is asked to do

A stage is requested by giving its settings; all three are requested by default. The processing
rate has an upper bound, and each direction queues its input in a ring of a given size.
-/

namespace Duplex

/-- The highest rate at which a session may process. -/
inductive RateLimit where
  | rate16k
  | rate32k
  | rate48k
  deriving DecidableEq, Repr

/-- The rate in Hz. -/
def RateLimit.hertz : RateLimit → Nat
  | .rate16k => 16000
  | .rate32k => 32000
  | .rate48k => 48000

/-- How hard the echo canceller suppresses residual echo. -/
inductive NonlinearMode where
  | conservative
  | moderate
  | aggressive
  deriving DecidableEq, Repr

/-- Where the loudspeaker of a mobile device is. -/
inductive EchoRouting where
  | quietEarpieceOrHeadset
  | earpiece
  | loudEarpiece
  | speakerphone
  | loudSpeakerphone
  deriving DecidableEq, Repr

structure EchoSettings where
  nonlinear : NonlinearMode := .moderate
  skew : Bool := false
  metrics : Bool := false
  delayLogging : Bool := false
  delayAgnostic : Bool := true
  routing : EchoRouting := .loudEarpiece
  comfortNoise : Bool := true
  deriving DecidableEq, Repr

/-- How much noise is suppressed. -/
inductive NoiseLevel where
  | low
  | moderate
  | high
  | veryHigh
  deriving DecidableEq, Repr

/-- The level as a number from 0 to 3. -/
def NoiseLevel.policy : NoiseLevel → Nat
  | .low => 0
  | .moderate => 1
  | .high => 2
  | .veryHigh => 3

structure NoiseSettings where
  level : NoiseLevel := .veryHigh
  deriving DecidableEq, Repr

inductive GainMode where
  | adaptiveAnalog
  | adaptiveDigital
  | fixedDigital
  deriving DecidableEq, Repr

structure GainSettings where
  mode : GainMode := .adaptiveAnalog
  minLevel : Int32 := 0
  maxLevel : Int32 := 255
  /-- The mic level carried into the first frame after a reset. -/
  initialMicLevel : Int32 := 128
  /-- The target peak level in dB below full scale. -/
  targetLevel : Nat := 3
  /-- The compression gain in dB. -/
  compressionGain : Nat := 9
  limiter : Bool := true
  deriving DecidableEq, Repr

/-- The default size of each ring, 8 MiB. -/
def defaultRingSize : Nat := 8 * 1024 * 1024

structure Settings where
  maxRate : RateLimit := .rate48k
  ringSize : Nat := defaultRingSize
  echo : Option EchoSettings := some {}
  noise : Option NoiseSettings := some {}
  gain : Option GainSettings := some {}
  deriving DecidableEq, Repr

end Duplex
