import Duplex.Intake
import Duplex.Lane

/-!
# Sessions: everything between initialization and finalization

A `Session` has one processing format, an intake for either direction, a lane for each channel and
a queue of processed bytes. `process` runs whole frames of interleaved samples through the lanes.
`tryProcess` takes frames off the intakes until it can fill its destination or the nearend runs
short; what does not fit waits in the queue. Engines are brought up by `resetEngines`; a stage is
healthy when that worked on every lane.
-/

namespace Duplex

open Signal
open Pcm (Layout)

/-- The largest frame, in samples per channel. -/
def maxFrameSize : Nat := 480

/-- The rates that are processed as they are, if the limits allow them. -/
def nativeRates : List Nat := [8000, 16000, 32000, 48000]

/-- The processing rate for any other nearend rate. -/
def fallbackRate : Nat := 32000

/-- The processing rate for a nearend rate under a limit. -/
def processingRate (nearRate limit : Nat) : Nat :=
  min (if nearRate ∈ nativeRates then nearRate else fallbackRate) limit

/-- The samples of 10 ms at a rate. -/
def frameSizeForRate (rate : Nat) : Nat := 80 * rate / 8000

structure Session (F : Engine.Family) where
  layout : Layout
  /-- The processing rate. -/
  rate : Nat
  /-- The samples of a frame, per channel. -/
  frames : Nat
  bands : Nat
  /-- The delay of the echo path in milliseconds. -/
  delay : Nat
  /-- For each stage, whether its engines came up on every lane. -/
  healthy : PerStage Bool
  micLevel : Int32
  farend : Intake F.resampling
  nearend : Intake F.resampling
  /-- The way from the processing rate back to the nearend rate. -/
  outputAdapter : Option (RateAdapter F.resampling)
  lanes : List (Lane F)
  /-- Processed bytes not yet handed out. -/
  pending : List UInt8
  stats : Stats

/-- An empty ring for one direction. -/
def allocateRing (size : Nat) : Except Error ByteRing :=
  match ByteRing.ofCapacity size with
  | .ok ring => .ok ring
  | .error (.invalidSize size) => .error (.invalidConfiguration (.ringSize size))
  | .error (.allocation size) => .error (.allocation size)

/-- The format of one direction, or the error of the operation that asked for it. -/
def formatOf (rate channels : Nat) : Except Error StreamFormat :=
  (StreamFormat.create rate channels).mapError fun e => .invalidConfiguration (.streamFormat e)

namespace Session

variable {S : Type} {F : Engine.Family}

/-- A session without engines for the given formats. The formats are checked first, then the shape
of the processing frame, then the rings, and last the adapters are made. -/
def create (settings : Settings) (engineLimit channels nearRate farRate delay : Nat) :
    Attempt Error (Session F) := do
  let nearend ← formatOf nearRate channels
  let farend ← formatOf farRate channels
  let rate := processingRate nearRate (min settings.maxRate.hertz engineLimit)
  let frames := frameSizeForRate rate
  if maxFrameSize < frames then
    throw (.invalidConfiguration (.frameTooLarge frames maxFrameSize))
  let bands := bandCountForRate rate
  if ¬ (1 ≤ bands ∧ bands ≤ 3) then
    throw (.invalidConfiguration (.unsupportedBandCount bands))
  let ring ← allocateRing settings.ringSize
  let layout := nearend.layout
  let farIntake ← (Intake.create farend rate layout ring).adapt .rateAdapter
  let nearIntake ← (Intake.create nearend rate layout ring).adapt .rateAdapter
  let outputAdapter ← (adapterBetween rate nearRate layout.channels).adapt .rateAdapter
  return { layout, rate, frames, bands, delay, healthy := .const true, micLevel := 0
           farend := farIntake, nearend := nearIntake, outputAdapter
           lanes := (List.range layout.channels).map Lane.new, pending := [], stats := {} }

/-- The session for another farend format, without buffered farend audio. -/
def changeFarend (s : Session F) (rate channels : Nat) : Attempt Error (Session F) := do
  let format ← formatOf rate channels
  let farend ← (s.farend.setFormat format).adapt .rateAdapter
  return { s with farend }

/-- The session for another nearend format, which output follows, without buffered nearend audio
and pending output. -/
def changeNearend (s : Session F) (rate channels : Nat) : Attempt Error (Session F) := do
  let format ← formatOf rate channels
  let nearend ← (s.nearend.setFormat format).adapt .rateAdapter
  let outputAdapter ← (adapterBetween s.rate rate s.layout.channels).adapt .rateAdapter
  return { s with nearend, outputAdapter, pending := [] }

/-- What is reported of the adapters of a new session. -/
def adapterNotices (s : Session F) : List Notice :=
  Duplex.adapterNotices s.farend.adapter ++ Duplex.adapterNotices s.nearend.adapter ++
    Duplex.adapterNotices s.outputAdapter

/-- The samples of a frame over all channels. -/
def frameLength (s : Session F) : Nat := s.frames * s.layout.channels

/-- The bytes of a frame over all channels. -/
def frameBytes (s : Session F) : Nat := s.frameLength * 2

/-- The number of engines on all lanes. -/
def engineCount (s : Session F) : Nat := s.lanes.foldl (fun n l => n + l.engineCount) 0

/-! ### Engines -/

/-- Report the stages of a lane that did not come up, and mark them as unhealthy. -/
def noteFailures (w : Workshop S F) (healthy : PerStage Bool) :
    List (Stage × Except Engine.Error Unit) → Workshop S F × PerStage Bool
  | [] => (w, healthy)
  | (_, .ok ()) :: rest => noteFailures w healthy rest
  | (stage, .error e) :: rest =>
    noteFailures (w.notice (.setupFailed stage e)) (healthy.set false stage) rest

/-- Bring all engines of a lane up, the echo canceller first. -/
def resetLane (engines : Engines S F) (rate : Nat) (settings : Settings) (w : Workshop S F)
    (healthy : PerStage Bool) (l : Lane F) : Workshop S F × PerStage Bool × Lane F :=
  let (w, l, echo) := l.resetEcho engines rate (settings.echo.getD {}) w
  let (w, l, noise) := l.resetNoise engines rate (settings.noise.getD {}).level w
  let (w, l, gain) := l.resetGain engines rate (settings.gain.getD {}) w
  let (w, healthy) := noteFailures w healthy [(.echo, echo), (.noise, noise), (.gain, gain)]
  (w, healthy, l)

/-- Bring all engines of the lanes up, in the order of the channels. -/
def resetLanes (engines : Engines S F) (rate : Nat) (settings : Settings) (w : Workshop S F)
    (healthy : PerStage Bool) : List (Lane F) → Workshop S F × PerStage Bool × List (Lane F)
  | [] => (w, healthy, [])
  | l :: lanes =>
    let (w, healthy, l) := resetLane engines rate settings w healthy l
    let (w, healthy, lanes) := resetLanes engines rate settings w healthy lanes
    (w, healthy, l :: lanes)

/-- Bring all engines up, and start again from the configured mic level. -/
def resetEngines (engines : Engines S F) (settings : Settings) (w : Workshop S F)
    (s : Session F) : Workshop S F × Session F :=
  let (w, healthy, lanes) := resetLanes engines s.rate settings w (.const true) s.lanes
  (w, { s with healthy, lanes, micLevel := (settings.gain.getD {}).initialMicLevel })

/-- Give living echo cancellers new settings. A lane that rejects them disables the stage. -/
def reconfigureLanes (engines : Engines S F) (settings : EchoSettings) (w : Workshop S F)
    (healthy : Bool) : List (Lane F) → Workshop S F × Bool × List (Lane F)
  | [] => (w, healthy, [])
  | l :: lanes =>
    let (w, l, result) := l.reconfigureEcho engines settings w
    let (w, healthy) := match result with
      | .ok () => (w, healthy)
      | .error e => (w.notice (.settingsRejected e), false)
    let (w, healthy, lanes) := reconfigureLanes engines settings w healthy lanes
    (w, healthy, l :: lanes)

/-- Give the living echo cancellers of all lanes new settings. -/
def reconfigureEcho (engines : Engines S F) (settings : EchoSettings) (w : Workshop S F)
    (s : Session F) : Workshop S F × Session F :=
  let (w, healthy, lanes) := reconfigureLanes engines settings w s.healthy.echo s.lanes
  (w, { s with healthy := { s.healthy with echo := healthy }, lanes })

/-! ### Frames -/

/-- The samples of each channel, cut or padded with silence to a frame. -/
def deinterleave (s : Session F) (samples : List Int16) : List (List Int16) :=
  (s.layout.split samples).map (fit s.frames 0)

/-- The frames of each lane, which are made if there are none yet. -/
def prepareLanes (settings : FrameSettings) :
    List (Lane F) → Attempt ConfigError (List (Lane F × Buffers))
  | [] => pure []
  | l :: lanes => do
    let buffers ← l.prepare settings
    let rest ← prepareLanes settings lanes
    return (l, buffers) :: rest

/-- What one lane hands to the next. -/
structure Carried (S : Type) where
  micLevel : Int32
  stats : Stats
  journal : Journal S

variable [Sample S]

/-- Run each lane on its channel, one after another. -/
def runLanes (engines : Engines S F) (settings : FrameSettings) :
    List (Lane F × Buffers) → (farend nearend : List (List Int16)) → Carried S →
      Checked (List (Lane F) × List (List Int16) × Carried S)
  | (lane, buffers) :: lanes, far :: farend, near :: nearend, c => do
    let (p, samples) ← Lane.process engines settings far near
      { lane, buffers, micLevel := c.micLevel, stats := c.stats, journal := c.journal }
    let lane := { p.lane with buffers := some p.buffers }
    let (lanes, outs, c) ← runLanes engines settings lanes farend nearend
      { micLevel := p.micLevel, stats := p.stats, journal := p.journal }
    return (lane :: lanes, samples :: outs, c)
  | lanes, _, _, c => .ok (lanes.map (·.1), [], c)

/-- Run the lanes on one frame and interleave what is heard. -/
def runFrame (engines : Engines S F) (settings : FrameSettings) (farend : Option (List Int16))
    (nearend : List Int16) (lanes : List (Lane F × Buffers)) (s : Session F) :
    Checked (Session F × Journal S × List Int16) := do
  let (lanes, outs, c) ← runLanes engines settings lanes (s.deinterleave (farend.getD []))
    (s.deinterleave nearend) { micLevel := s.micLevel, stats := s.stats, journal := [] }
  return ({ s with lanes, micLevel := c.micLevel, stats := c.stats }, c.journal, Layout.join outs)

/-- Count a frame. -/
def countFrame (settings : FrameSettings) (s : Session F) : Session F :=
  let stats := { s.stats with
    frames := s.stats.frames + 1
    echoFrames := s.stats.echoFrames + if settings.echo then 1 else 0 }
  { s with stats }

/-- What a run over frames left behind. -/
structure Run (S : Type) (F : Engine.Family) where
  session : Session F
  journal : Journal S
  heard : List Int16
  /-- The error that ended the run early. -/
  error : Option ConfigError

/-- Run frames until there is no room for more samples. A frame of which no sample of every
channel fits ends the run and is not counted. -/
def runFrames (engines : Engines S F) (settings : FrameSettings) :
    List (List Int16) → Option (List Int16) → (room : Nat) → Session F → Checked (Run S F)
  | [], _, _, session => .ok { session, journal := [], heard := [], error := none }
  | near :: frames, farend, room, session =>
    if room = 0 then .ok { session, journal := [], heard := [], error := none }
    else do
      match ← (prepareLanes settings session.lanes).run with
      | .error e => return { session, journal := [], heard := [], error := some e }
      | .ok lanes =>
        let (session, journal, heard) ← session.runFrame engines settings
          (farend.map (·.take near.length)) near lanes
        let channels := session.layout.channels
        let heard := heard.take (room / channels * channels)
        if heard.isEmpty then return { session, journal, heard := [], error := none }
        else
          let rest ← runFrames engines settings frames (farend.map (·.drop near.length))
            (room - heard.length) (session.countFrame settings)
          return { rest with journal := journal ++ rest.journal, heard := heard ++ rest.heard }

/-- Process the whole frames of `nearend`, of which there has to be at least one, with as much of
`farend` as there is, into the start of `out`, and count the samples written. -/
def process (engines : Engines S F) (settings : FrameSettings) (farend : Option (List Int16))
    (nearend out : List Int16) (s : Session F) :
    Checked (Session F × Journal S × List Int16 × Except Error Nat) :=
  if nearend.length < s.frameLength then
    .ok (s, [], out, .error (.insufficientData nearend.length s.frameLength))
  else if s.frameLength = 0 then .error .outOfRange
  else do
    let run ← runFrames engines settings (blocks s.frameLength nearend) farend out.length s
    return (run.session, run.journal, overlay out 0 run.heard,
      match run.error with
      | none => .ok run.heard.length
      | some e => .error (.invalidConfiguration e))

/-! ### Buffered processing -/

/-- Take one frame of either direction off its intake; a short farend frame is filled with
silence. -/
def readFrame (s : Session F) : Session F × Journal S × List Int16 × List Int16 :=
  let (farend, far) := s.farend.read s.frameBytes
  let (nearend, near) := s.nearend.read s.frameBytes
  let missing := s.frameBytes - far.length
  let stats := { s.stats with farendUnderrun := s.stats.farendUnderrun + missing }
  let journal := if 0 < missing then [.noticed (.farendUnderrun missing)] else []
  ({ s with farend, nearend, stats }, journal, Pcm.decode (fit s.frameBytes 0 far), Pcm.decode near)

/-- The bytes of processed samples at the nearend rate, or as many of them as there were before the
resampler failed. -/
def convertOutput (s : Session F) (samples : List Int16) :
    Session F × List UInt8 × Except RateAdapter.Error Unit :=
  match s.outputAdapter with
  | none => (s, Pcm.encode samples, .ok ())
  | some a =>
    let (a, out, result) := a.process samples
    ({ s with outputAdapter := some a }, Pcm.encode out, result)

/-- What processing buffered frames left behind. -/
structure Produced (S : Type) (F : Engine.Family) where
  session : Session F
  journal : Journal S
  bytes : List UInt8
  /-- The error that ended the processing early. -/
  error : Option Error

/-- Process up to `budget` buffered frames, as long as there is a nearend frame and bytes are
missing. -/
def produce (engines : Engines S F) (settings : FrameSettings) :
    (budget missing : Nat) → Session F → Checked (Produced S F)
  | 0, _, session => .ok { session, journal := [], bytes := [], error := none }
  | budget + 1, missing, session =>
    if session.nearend.avail < session.frameBytes ∨ missing = 0 then
      .ok { session, journal := [], bytes := [], error := none }
    else do
      let (session, read, farend, nearend) := session.readFrame
      let (session, run, out, result) ← session.process engines settings (some farend) nearend
        (List.replicate session.frameLength 0)
      match result with
      | .error e => return { session, journal := read ++ run, bytes := [], error := some e }
      | .ok written =>
        let (session, bytes, converted) := session.convertOutput (out.take written)
        match converted with
        | .error e =>
          return { session, journal := read ++ run, bytes := [], error := some (.rateAdapter e) }
        | .ok () =>
          let rest ← produce engines settings budget (missing - bytes.length) session
          return { rest with journal := read ++ run ++ rest.journal, bytes := bytes ++ rest.bytes }

/-- How many buffered frames one call can process: those that the nearend intake holds. A frame of
no bytes is tried once. -/
def frameBudget (s : Session F) : Nat :=
  if s.frameBytes = 0 then 1 else s.nearend.avail / s.frameBytes

/-- Hand out pending bytes to the start of `dest` and count them. -/
def deliver (s : Session F) (dest : List UInt8) : Session F × List UInt8 × Nat :=
  let n := min dest.length s.pending.length
  ({ s with pending := s.pending.drop n }, overlay dest 0 (s.pending.take n), n)

/-- Process buffered frames until `dest` can be filled, and fill it as far as there is output. -/
def tryProcess (engines : Engines S F) (settings : FrameSettings) (dest : List UInt8)
    (s : Session F) : Checked (Session F × Journal S × List UInt8 × Except Error Nat) := do
  let made ← produce engines settings s.frameBudget (dest.length - s.pending.length) s
  let s := { made.session with pending := made.session.pending ++ made.bytes }
  match made.error with
  | some e => return (s, made.journal, dest, .error e)
  | none =>
    let (s, dest, n) := s.deliver dest
    return (s, made.journal, dest, .ok n)

/-- Drop all buffered input, the history of the adapters and all pending output. -/
def flush (s : Session F) : Session F :=
  { s with
    farend := s.farend.flush, nearend := s.nearend.flush
    outputAdapter := s.outputAdapter.map (·.reset), pending := [] }

end Session

end Duplex
