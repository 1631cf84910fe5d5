import Duplex.Notice

/-!
# The workshop: where engines are made, set up and accounted for

Engines are numbered for each stage by the order in which they were made. Whatever is asked of an
engine, its making and its release, and every notice, becomes an `Event` of the journal, in order.
`Workshop.refit` is the one way to a working engine: an engine comes out only after it took every
set-up call, and one that refused any is released.
-/

namespace Duplex

open Engine

/-- An engine and its number. -/
structure Numbered (σ : Type) where
  number : Nat
  engine : σ

/-- A call on an engine with what it was given. -/
inductive Request (S : Type) where
  | echoSetUp (rate : Nat)
  | echoConfigure (settings : EchoSettings)
  | echoFarend (band : List S)
  | echoProcess (nearend : Bands S) (delay : Nat)
  | noiseSetUp (rate : Nat)
  | noiseConfigure (level : NoiseLevel)
  | noiseAnalyze (band : List S)
  | noiseProcess (nearend : Bands S)
  | gainSetUp (minLevel maxLevel : Int32) (mode : GainMode) (rate : Nat)
  | gainConfigure (settings : GainSettings)
  | gainAddMic (nearend : Bands Int16)
  | gainProcess (nearend : Bands Int16) (micLevel : Int32) (hasEcho : Bool)
  deriving DecidableEq

/-- The stage whose engines take the call. -/
def Request.stage {S : Type} : Request S → Stage
  | echoSetUp .. | echoConfigure .. | echoFarend .. | echoProcess .. => .echo
  | noiseSetUp .. | noiseConfigure .. | noiseAnalyze .. | noiseProcess .. => .noise
  | gainSetUp .. | gainConfigure .. | gainAddMic .. | gainProcess .. => .gain

/-- Something that happened between a session and its engines, or that it reported. -/
inductive Event (S : Type) where
  /-- The factory was asked for the engine of this number. -/
  | made (stage : Stage) (number : Nat) (ok : Bool)
  /-- An engine was called. -/
  | called (number : Nat) (request : Request S) (ok : Bool)
  /-- An engine was given up. -/
  | released (stage : Stage) (number : Nat)
  | noticed (notice : Notice)

/-- What happened, in order. -/
abbrev Journal (S : Type) := List (Event S)

/-- Whether a call succeeded. -/
def succeeded {ρ : Type} : Except Engine.Error ρ → Bool
  | .ok _ => true
  | .error _ => false

/-- The factory, how many engines of each stage it made, and the journal. -/
structure Workshop (S : Type) (F : Family) where
  factory : F.Factory
  made : PerStage Nat
  journal : Journal S

namespace Workshop

variable {S : Type} {F : Family} {σ : Type}

/-- A workshop that has made nothing yet. -/
def new (factory : F.Factory) : Workshop S F := ⟨factory, .const 0, []⟩

/-- Write events into the journal. -/
def log (w : Workshop S F) (events : Journal S) : Workshop S F :=
  { w with journal := w.journal ++ events }

/-- Write a notice into the journal. -/
def notice (w : Workshop S F) (n : Notice) : Workshop S F := w.log [.noticed n]

/-- The engine in the slot, or a new one. -/
def obtain (w : Workshop S F) (stage : Stage)
    (make : F.Factory → Nat → F.Factory × Except Engine.Error σ) :
    Option (Numbered σ) → Workshop S F × Except Engine.Error (Numbered σ)
  | some e => (w, .ok e)
  | none =>
    let number := w.made.get stage
    let (factory, result) := make w.factory number
    let w := { w with factory }.log [.made stage number (succeeded result)]
    match result with
    | .ok engine => ({ w with made := w.made.set (number + 1) stage }, .ok ⟨number, engine⟩)
    | .error e => (w, .error e)

/-- Make calls on an engine until one fails; an engine that fails is released. -/
def setUp (w : Workshop S F) (stage : Stage) (e : Numbered σ) :
    List (Request S × (σ → Reply σ Unit)) → Workshop S F × Except Engine.Error (Numbered σ)
  | [] => (w, .ok e)
  | (request, call) :: calls =>
    let reply := call e.engine
    let w := w.log [.called e.number request (succeeded reply.result)]
    match reply.result with
    | .ok () => w.setUp stage { e with engine := reply.engine } calls
    | .error error => (w.log [.released stage e.number], .error error)

/-- Take the engine in the slot, or a new one, and set it up. -/
def refit (w : Workshop S F) (stage : Stage)
    (make : F.Factory → Nat → F.Factory × Except Engine.Error σ) (slot : Option (Numbered σ))
    (calls : List (Request S × (σ → Reply σ Unit))) :
    Workshop S F × Except Engine.Error (Numbered σ) :=
  match w.obtain stage make slot with
  | (w, .ok e) => w.setUp stage e calls
  | (w, .error error) => (w, .error error)

end Workshop

end Duplex
