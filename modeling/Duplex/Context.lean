import Duplex.Session

/-!
# Contexts: the life of a session

A `Context` owns the settings, the switches of the stages and a workshop, and at most one session.
`init` begins a session, `fini` ends it, and in between it is counted how many hold a reference;
the last `release` ends the session. Audio is taken only while both directions are ready and echo
cancellation is switched on and healthy.
-/

namespace Duplex

open Signal

structure Context (S : Type) (F : Engine.Family) where
  settings : Settings
  /-- The stages that are switched on. -/
  requested : PerStage Bool
  farendReady : Bool
  nearendReady : Bool
  /-- How many hold the session; a machine word, so it wraps. -/
  references : UInt64
  session : Option (Session F)
  workshop : Workshop S F

/-- What became of a call of `Context.init`. -/
inductive InitStatus where
  | initialized
  /-- There was a session, and nothing changed. -/
  | alreadyInitialized
  deriving DecidableEq, Repr

namespace Context

variable {S : Type} {F : Engine.Family}

/-- A context without a session; the stages with settings are switched on. -/
def new (settings : Settings) (factory : F.Factory) : Context S F :=
  { settings
    requested := ⟨settings.echo.isSome, settings.noise.isSome, settings.gain.isSome⟩
    farendReady := false, nearendReady := false, references := 0, session := none
    workshop := .new factory }

/-- Write notices into the journal. -/
def notice (c : Context S F) (notices : List Notice) : Context S F :=
  { c with workshop := c.workshop.log (notices.map .noticed) }

/-- Take the journal out of the context. -/
def takeJournal (c : Context S F) : Context S F × Journal S :=
  ({ c with workshop := { c.workshop with journal := [] } }, c.workshop.journal)

/-! ### Queries -/

def isInitialized (c : Context S F) : Bool := c.session.isSome

/-- Whether a stage is switched on and its engines are up. -/
def stageEnabled (c : Context S F) (stage : Stage) : Bool :=
  c.requested.get stage && c.session.any (·.healthy.get stage)

/-- Whether audio is taken and echo cancelled. -/
def shouldRunEcho (c : Context S F) : Bool :=
  c.farendReady && c.nearendReady && c.stageEnabled .echo

/-- The bytes of a processing frame, or none without a session. -/
def frameBytes (c : Context S F) : Nat := (c.session.map (·.frameBytes)).getD 0

def processingRate? (c : Context S F) : Option Nat := c.session.map (·.rate)

def bandCount? (c : Context S F) : Option Nat := c.session.map (·.bands)

def channels? (c : Context S F) : Option Nat := c.session.map (·.layout.channels)

/-- The number of living engines. -/
def engineCount (c : Context S F) : Nat := (c.session.map (·.engineCount)).getD 0

/-- The counters of the session. -/
def stats (c : Context S F) : Stats := (c.session.map (·.stats)).getD {}

/-- The mic level, while gain control is on. -/
def micLevel? (c : Context S F) : Option Int32 :=
  if c.stageEnabled .gain then c.session.map (·.micLevel) else none

/-! ### Life cycle -/

section LifeCycle

variable (engines : Engines S F)

/-- Bring all engines of a session up, making those that are missing. -/
def reset (c : Context S F) : Context S F × Except Error Unit :=
  match c.session with
  | none => (c, .error .notInitialized)
  | some s =>
    let (workshop, s) := s.resetEngines engines c.settings c.workshop
    ({ c with workshop, session := some s }.notice [.reset s.healthy], .ok ())

/-- Begin a session for the given channels and rates, unless there is one, and bring its engines
up. -/
def init (c : Context S F) (channels nearRate farRate delay : Nat) :
    Checked (Context S F × Except Error InitStatus) :=
  if c.session.isSome then .ok (c, .ok .alreadyInitialized)
  else do
    match ← (Session.create c.settings engines.maxRate channels nearRate farRate delay).run with
    | .error e => return (c, .error e)
    | .ok s =>
      let c := { c with session := some s, references := 1 }.notice (s.adapterNotices ++
        [Notice.initialized channels nearRate farRate s.rate s.frames s.bands])
      let (c, result) := c.reset engines
      return (c, result.map fun () => .initialized)

/-- End the session, if there is one. -/
def fini (c : Context S F) : Context S F :=
  match c.session with
  | none => { c with references := 0 }
  | some s =>
    { c with
      references := 0, session := none
      workshop := c.workshop.log (.noticed .finalized :: s.lanes.flatMap (·.releases)) }

/-- Take a reference to the session and count them; without a session there are none. -/
def retain (c : Context S F) : Context S F × Nat :=
  if c.session.isNone then (c, 0)
  else ({ c with references := c.references + 1 }, (c.references + 1).toNat)

/-- Give a reference up and count the rest; the last one ends the session. -/
def release (c : Context S F) : Context S F × Nat :=
  if c.references = 0 then (c, 0)
  else if c.references - 1 = 0 then (c.fini, 0)
  else ({ c with references := c.references - 1 }, (c.references - 1).toNat)

/-! ### Switches and formats -/

def setFarendReady (c : Context S F) (ready : Bool) : Context S F :=
  { c with farendReady := ready }.notice
    (if c.farendReady ≠ ready then [.readiness .farend ready] else [])

def setNearendReady (c : Context S F) (ready : Bool) : Context S F :=
  { c with nearendReady := ready }.notice
    (if c.nearendReady ≠ ready then [.readiness .nearend ready] else [])

/-- Switch a stage on or off. -/
def setStageEnabled (c : Context S F) (stage : Stage) (enabled : Bool) : Context S F :=
  { c with requested := c.requested.set enabled stage }.notice [.stageRequested stage enabled]

/-- Change the farend format, which drops buffered farend audio, and reset. -/
def setFarendInfo (c : Context S F) (rate channels : Nat) :
    Checked (Context S F × Except Error Unit) :=
  match c.session with
  | none => .ok (c, .error .notInitialized)
  | some s => do
    match ← (s.changeFarend rate channels).run with
    | .error e => return (c, .error e)
    | .ok s =>
      let c := { c with session := some s }.notice
        (adapterNotices s.farend.adapter ++ [Notice.formatChanged .farend rate channels])
      return c.reset engines

/-- Change the nearend format, which drops buffered nearend audio and pending output, and reset.
Output follows the new rate. -/
def setNearendInfo (c : Context S F) (rate channels : Nat) :
    Checked (Context S F × Except Error Unit) :=
  match c.session with
  | none => .ok (c, .error .notInitialized)
  | some s => do
    match ← (s.changeNearend rate channels).run with
    | .error e => return (c, .error e)
    | .ok s =>
      let c := { c with session := some s }.notice
        (adapterNotices s.nearend.adapter ++ adapterNotices s.outputAdapter ++
          [Notice.formatChanged .nearend rate channels])
      return c.reset engines

/-- Set the delay of the echo path in milliseconds. -/
def setDelay (c : Context S F) (delay : Nat) : Context S F × Except Error Unit :=
  match c.session with
  | none => (c, .error .notInitialized)
  | some s => ({ c with session := some { s with delay } }, .ok ())

/-- Replace the echo canceller's settings and give them to living engines. -/
def setEchoSettings (c : Context S F) (settings : EchoSettings) : Context S F :=
  let c := match c.session with
    | none => c
    | some s =>
      let (workshop, s) := s.reconfigureEcho engines settings c.workshop
      { c with workshop, session := some s }
  { c with settings := { c.settings with echo := some settings } }

/-- Drop all buffered input and pending output. -/
def flush (c : Context S F) : Context S F := { c with session := c.session.map (·.flush) }

end LifeCycle

/-! ### Audio -/

/-- Queue farend bytes and count those taken: all of them, or none while audio is not taken. -/
def pushFarend (c : Context S F) (bytes : List UInt8) : Context S F × Except Error Nat :=
  match c.session with
  | none => (c, .error .notInitialized)
  | some s =>
    if c.shouldRunEcho then
      match s.farend.push bytes with
      | (farend, .error e) => ({ c with session := some { s with farend } }, .error (.rateAdapter e))
      | (farend, .ok dropped) =>
        let stats := { s.stats with droppedFarend := s.stats.droppedFarend + dropped }
        ({ c with session := some { s with farend, stats } }.notice
          (if 0 < dropped then [.audioDropped .farend dropped] else []), .ok bytes.length)
    else (c, .ok 0)

/-- Queue nearend bytes and count those taken: all of them, or none while audio is not taken. -/
def pushNearend (c : Context S F) (bytes : List UInt8) : Context S F × Except Error Nat :=
  match c.session with
  | none => (c, .error .notInitialized)
  | some s =>
    if c.shouldRunEcho then
      match s.nearend.push bytes with
      | (nearend, .error e) => ({ c with session := some { s with nearend } }, .error (.rateAdapter e))
      | (nearend, .ok dropped) =>
        let stats := { s.stats with droppedNearend := s.stats.droppedNearend + dropped }
        ({ c with session := some { s with nearend, stats } }.notice
          (if 0 < dropped then [.audioDropped .nearend dropped] else []), .ok bytes.length)
    else (c, .ok 0)

/-- What runs on a frame of the session now. -/
def frameSettings (c : Context S F) (s : Session F) (farend : Bool) : FrameSettings :=
  { frames := s.frames, bands := s.bands, gain := c.stageEnabled .gain
    noise := c.stageEnabled .noise, echo := farend && c.shouldRunEcho, farend, delay := s.delay }

variable [Sample S] (engines : Engines S F)

/-- Process whole frames of interleaved samples at the processing rate into `out` and count the
samples written. Echo is cancelled only if there is farend; what is missing of it is silent. -/
def process (c : Context S F) (farend : Option (List Int16)) (nearend out : List Int16) :
    Checked (Context S F × List Int16 × Except Error Nat) :=
  match c.session with
  | none => .ok (c, out, .error .notInitialized)
  | some s => do
    let (s, journal, out, result) ←
      s.process engines (c.frameSettings s farend.isSome) farend nearend out
    return ({ c with session := some s, workshop := c.workshop.log journal }, out, result)

/-- Process buffered frames until `dest` can be filled, fill it as far as there is output, at the
nearend rate, and count the bytes written. Output that does not fit is kept. -/
def tryProcess (c : Context S F) (dest : List UInt8) :
    Checked (Context S F × List UInt8 × Except Error Nat) :=
  match c.session with
  | none => .ok (c, dest, .error .notInitialized)
  | some s => do
    let (s, journal, dest, result) ← s.tryProcess engines (c.frameSettings s true) dest
    return ({ c with session := some s, workshop := c.workshop.log journal }, dest, result)

end Context

end Duplex
