import Duplex.Buffer.Subband
import Duplex.Stats
import Duplex.Workshop

/-!
# Lanes: one channel's engines and its frames in bands

A lane runs each frame through gain control, noise suppression and echo cancellation, as far as
they are switched on and have an engine. Each stage reads the nearend bands and writes the output
bands; a stage that succeeds becomes the nearend of the next one, a stage that fails leaves no
trace but a count and a notice. What is heard is the output of the echo canceller if it succeeded,
and the nearend bands if it did not.
-/

namespace Duplex

open Engine

/-- The frames of a lane. -/
structure Buffers where
  farend : SubbandFrame
  nearend : SubbandFrame
  output : SubbandFrame

/-- Silent frames of the given shape. -/
def Buffers.create (frames bands : Nat) : Attempt ConfigError Buffers := do
  let f ← SubbandFrame.create frames bands
  return { farend := f, nearend := f, output := f }

structure Lane (F : Family) where
  channel : Nat
  echo : Option (Numbered F.Echo)
  noise : Option (Numbered F.Noise)
  gain : Option (Numbered F.Gain)
  /-- Made for the first frame. -/
  buffers : Option Buffers

/-- What runs on a frame. -/
structure FrameSettings where
  frames : Nat
  bands : Nat
  gain : Bool
  noise : Bool
  echo : Bool
  /-- Whether there is a farend frame, be echo cancelled or not. -/
  farend : Bool
  delay : Nat
  deriving DecidableEq, Repr

namespace Lane

variable {S : Type} {F : Family}

/-- A lane without engines. -/
def new (channel : Nat) : Lane F := ⟨channel, none, none, none, none⟩

/-- The number of engines in the lane. -/
def engineCount (l : Lane F) : Nat :=
  l.echo.toList.length + l.noise.toList.length + l.gain.toList.length

/-! ### Engines -/

section SetUp

variable (engines : Engines S F) (rate : Nat)

/-- Bring the echo canceller up, or leave the lane without one. -/
def resetEcho (settings : EchoSettings) (w : Workshop S F) (l : Lane F) :
    Workshop S F × Lane F × Except Engine.Error Unit :=
  let (w, result) := w.refit .echo engines.makeEcho l.echo
    [(.echoSetUp rate, fun e => engines.echo.setUp e rate),
     (.echoConfigure settings, fun e => engines.echo.configure e settings)]
  (w, { l with echo := result.toOption }, result.map fun _ => ())

/-- Bring the noise suppressor up, or leave the lane without one. -/
def resetNoise (level : NoiseLevel) (w : Workshop S F) (l : Lane F) :
    Workshop S F × Lane F × Except Engine.Error Unit :=
  let (w, result) := w.refit .noise engines.makeNoise l.noise
    [(.noiseSetUp rate, fun e => engines.noise.setUp e rate),
     (.noiseConfigure level, fun e => engines.noise.configure e level)]
  (w, { l with noise := result.toOption }, result.map fun _ => ())

/-- Bring the gain controller up, or leave the lane without one. -/
def resetGain (settings : GainSettings) (w : Workshop S F) (l : Lane F) :
    Workshop S F × Lane F × Except Engine.Error Unit :=
  let (w, result) := w.refit .gain engines.makeGain l.gain
    [(.gainSetUp settings.minLevel settings.maxLevel settings.mode rate,
        fun e => engines.gain.setUp e settings.minLevel settings.maxLevel settings.mode rate),
     (.gainConfigure settings, fun e => engines.gain.configure e settings)]
  (w, { l with gain := result.toOption }, result.map fun _ => ())

end SetUp

/-- Give a living echo canceller new settings; one that rejects them is released. -/
def reconfigureEcho (engines : Engines S F) (settings : EchoSettings) (w : Workshop S F)
    (l : Lane F) : Workshop S F × Lane F × Except Engine.Error Unit :=
  match l.echo with
  | none => (w, l, .ok ())
  | some e =>
    let (w, result) := w.setUp .echo e
      [(.echoConfigure settings, fun e => engines.echo.configure e settings)]
    (w, { l with echo := result.toOption }, result.map fun _ => ())

/-- What the journal says when the lane's engines are given up. -/
def releases (l : Lane F) : Journal S :=
  l.echo.toList.map (.released .echo ·.number) ++ l.noise.toList.map (.released .noise ·.number) ++
    l.gain.toList.map (.released .gain ·.number)

/-! ### Frames -/

/-- What a frame changes as it passes through the stages of a lane. -/
structure Passage (S : Type) (F : Family) where
  lane : Lane F
  buffers : Buffers
  micLevel : Int32
  stats : Stats
  journal : Journal S

namespace Passage

/-- Write events into the journal. -/
def log (p : Passage S F) (events : Journal S) : Passage S F :=
  { p with journal := p.journal ++ events }

/-- Make the output bands the nearend bands of the next stage. -/
def accept [Sample S] {T : Type} (p : Passage T F) : Passage T F :=
  let output := p.buffers.output.sync S
  let nearend := p.buffers.nearend.put (output.view S).data
  { p with buffers := { p.buffers with nearend, output } }

/-- Count and report a failure of a stage. -/
def fail (p : Passage S F) (stage : Stage) (error : Engine.Error) : Passage S F :=
  { p with stats := p.stats.fail stage }.log
    [.noticed (.stageFailed stage p.lane.channel error)]

/-- Run a frame through the gain controller. -/
def runGain (engines : Engines S F) (p : Passage S F) (e : Numbered F.Gain) : Passage S F :=
  let nearend := p.buffers.nearend.sync Int16
  let bands := nearend.view Int16
  let learnt := engines.gain.addMic e.engine bands
  let p := p.log [.called e.number (.gainAddMic bands) (succeeded learnt.result)]
  let p := match learnt.result with
    | .ok () => p
    | .error error => p.log [.noticed (.addMicFailed p.lane.channel error)]
  let reply := engines.gain.process learnt.engine bands (p.buffers.output.view Int16) p.micLevel
    false
  let output := p.buffers.output.put reply.out
  let p := { p with
    lane := { p.lane with gain := some { e with engine := reply.engine } }
    buffers := { p.buffers with nearend, output } }.log
      [.called e.number (.gainProcess bands p.micLevel false) (succeeded reply.result)]
  match reply.result with
  | .ok outcome =>
    let p := { p.accept (S := Int16) with micLevel := outcome.micLevel }
    if outcome.saturated then p.log [.noticed (.saturation p.lane.channel)] else p
  | .error error => p.fail .gain error

variable [Sample S]

/-- Run a frame through the noise suppressor. -/
def runNoise (engines : Engines S F) (p : Passage S F) (e : Numbered F.Noise) : Passage S F :=
  let nearend := p.buffers.nearend.sync S
  let p := { p with buffers := { p.buffers with nearend } }
  let learnt := engines.noise.analyze e.engine (nearend.lowest S)
  let p := { p with lane := { p.lane with noise := some { e with engine := learnt.engine } } }.log
    [.called e.number (.noiseAnalyze (nearend.lowest S)) (succeeded learnt.result)]
  match learnt.result with
  | .error error => p.fail .noise error
  | .ok () =>
    let bands := nearend.view S
    let reply := engines.noise.process learnt.engine bands (p.buffers.output.view S)
    let output := p.buffers.output.put reply.out
    let p := { p with
      lane := { p.lane with noise := some { e with engine := reply.engine } }
      buffers := { p.buffers with output } }.log
        [.called e.number (.noiseProcess bands) (succeeded reply.result)]
    match reply.result with
    | .ok () => p.accept (S := S)
    | .error error => p.fail .noise error

/-- Run a frame through the echo canceller; the second result tells whether it succeeded. -/
def runEcho (engines : Engines S F) (delay : Nat) (p : Passage S F) (e : Numbered F.Echo) :
    Passage S F × Bool :=
  let farend := p.buffers.farend.sync S
  let p := { p with buffers := { p.buffers with farend } }
  let queued := engines.echo.bufferFarend e.engine (farend.lowest S)
  let p := { p with lane := { p.lane with echo := some { e with engine := queued.engine } } }.log
    [.called e.number (.echoFarend (farend.lowest S)) (succeeded queued.result)]
  match queued.result with
  | .error error => (p.fail .echo error, false)
  | .ok () =>
    let nearend := p.buffers.nearend.sync S
    let bands := nearend.view S
    let reply := engines.echo.process queued.engine bands (p.buffers.output.view S) delay
    let output := p.buffers.output.put reply.out
    let p := { p with
      lane := { p.lane with echo := some { e with engine := reply.engine } }
      buffers := { p.buffers with nearend, output } }.log
        [.called e.number (.echoProcess bands delay) (succeeded reply.result)]
    match reply.result with
    | .ok () => (p, true)
    | .error error => (p.fail .echo error, false)

/-- Run a frame through the stages that are switched on and have an engine. -/
def runStages (engines : Engines S F) (settings : FrameSettings) (p : Passage S F) :
    Passage S F × Bool :=
  let p := match settings.gain, p.lane.gain with
    | true, some e => p.runGain engines e
    | _, _ => p
  let p := match settings.noise, p.lane.noise with
    | true, some e => p.runNoise engines e
    | _, _ => p
  match settings.echo, p.lane.echo with
  | true, some e => p.runEcho engines settings.delay e
  | _, _ => (p, false)

end Passage

variable [Sample S]

/-- The lane with its frames, which are made if there are none yet. -/
def prepare (settings : FrameSettings) (l : Lane F) : Attempt ConfigError Buffers :=
  match l.buffers with
  | some b => pure b
  | none => Buffers.create settings.frames settings.bands

/-- Load the frames of the lane, run the stages and read out what is heard, `frames` samples of
it. -/
def process (engines : Engines S F) (settings : FrameSettings) (farend nearend : List Int16)
    (p : Passage S F) : Checked (Passage S F × List Int16) := do
  let near ← p.buffers.nearend.fill nearend
  let far ← if settings.farend then p.buffers.farend.fill farend else pure p.buffers.farend
  let p := { p with buffers := { p.buffers with nearend := near, farend := far } }
  let (p, cancelled) := p.runStages engines settings
  let silence := List.replicate settings.frames 0
  if cancelled then
    let (output, _, samples) ← p.buffers.output.readInto silence
    return ({ p with buffers := { p.buffers with output } }, samples)
  else
    let (nearend, _, samples) ← p.buffers.nearend.readInto silence
    return ({ p with buffers := { p.buffers with nearend } }, samples)

end Lane

end Duplex
