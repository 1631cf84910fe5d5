import Duplex.Engine.Basic
import Duplex.Resample.Bank

/-!
# Scripted engines: test doubles that follow a rule

Each stage has a `Rule` that says which calls fail, and with which code, and what a successful
frame does to the samples. The rule may change between calls; an engine keeps only its number and,
for echo cancellers, the last farend band it was given.
-/

namespace Duplex.Engine.Scripted

open Signal

/-- What a successful frame leaves in the output bands. -/
inductive Mode where
  /-- Nothing: the output stays as it was. -/
  | keep
  /-- The nearend bands. -/
  | copy
  /-- Silence. -/
  | zero
  /-- Half of every sample. -/
  | half
  /-- Every sample negated. -/
  | negate
  /-- Every sample with a number added. -/
  | add
  /-- The lowest band; the others are silent. -/
  | lowest
  /-- In an echo canceller, the farend band taken off the lowest band. -/
  | subtractFarend
  deriving DecidableEq, Repr

/-- How the engines of a stage behave. -/
structure Rule where
  createFails : Bool := false
  setUpError : Option Int := none
  settingsError : Option Int := none
  /-- The error of the calls before a frame is processed. -/
  beforeError : Option Int := none
  processError : Option Int := none
  /-- The number of the one engine that the errors hit; without it they hit all. -/
  only : Option Nat := none
  /-- Whether a failing frame leaves its mark in the output bands. -/
  dirty : Bool := false
  mode : Mode := .copy
  addend : Int := 0
  /-- How much a frame raises the mic level. -/
  level : Int32 := 0
  saturated : Bool := false
  deriving DecidableEq, Repr

/-- The sample arithmetic of scripted engines. -/
class Arithmetic (S : Type) where
  ofInt : Int → S
  half : S → S
  negate : S → S
  add : S → S → S
  subtract : S → S → S

/-- The 16-bit integer nearest to an integer. -/
def saturate (n : Int) : Int16 := Int16.ofInt (max (-32768) (min 32767 n))

instance : Arithmetic Int16 where
  ofInt := saturate
  half x := Int16.ofInt (x.toInt.tdiv 2)
  negate x := saturate (-x.toInt)
  add x y := saturate (x.toInt + y.toInt)
  subtract x y := saturate (x.toInt - y.toInt)

instance : Arithmetic Float32 where
  ofInt := Float32.ofInt
  half x := x * 0.5
  negate x := -x
  add x y := x + y
  subtract x y := x - y

/-- An echo canceller: its number and the farend band it was last given. -/
structure EchoState (S : Type) where
  number : Nat
  farend : List S

/-- The state types of scripted engines; the other stages keep their number only. Rates are changed on
the spectrum. -/
def family (S : Type) : Family := ⟨Unit, EchoState S, Nat, Nat, Resample.spectral⟩

namespace Rule

/-- Whether the errors of the rule hit the engine of the given number. -/
def hits (r : Rule) (number : Nat) : Bool :=
  match r.only with
  | some n => n == number
  | none => true

/-- The error of a code that hits the engine of the given number, if there is one. -/
def outcome (r : Rule) (number : Nat) (error : Int → Error) : Option Int → Except Error Unit
  | some code => if r.hits number then .error (error code) else .ok ()
  | none => .ok ()

variable {S : Type} [Arithmetic S]

/-- What a successful frame leaves in the output bands. -/
def transform (r : Rule) (farend : Option (List S)) (nearend out : Bands S) : List S :=
  let xs := nearend.data
  match r.mode with
  | .keep => out.data
  | .copy => xs
  | .zero => xs.map fun _ => Arithmetic.ofInt 0
  | .half => xs.map Arithmetic.half
  | .negate => xs.map Arithmetic.negate
  | .add => xs.map fun x => Arithmetic.add x (Arithmetic.ofInt r.addend)
  | .lowest => xs.mapIdx fun i x => if i < nearend.perBand then x else Arithmetic.ofInt 0
  | .subtractFarend =>
    match farend with
    | some far =>
      let low := fit nearend.perBand (Arithmetic.ofInt 0) far
      List.zipWith Arithmetic.subtract (xs.take nearend.perBand) low ++ xs.drop nearend.perBand
    | none => xs

/-- What a frame leaves in the output bands, and its outcome. -/
def frame (r : Rule) (number : Nat) (farend : Option (List S)) (nearend out : Bands S) :
    List S × Except Error Unit :=
  match r.outcome number .process r.processError with
  | .ok () => (r.transform farend nearend out, .ok ())
  | .error e => (if r.dirty then out.data.map fun _ => Arithmetic.ofInt 99 else out.data, .error e)

/-- Whether the next engine, of the given number, can be made. -/
def make (r : Rule) (number : Nat) : Except Error Unit :=
  if r.createFails ∧ r.hits number then .error .unavailable else .ok ()

end Rule

variable {S : Type} [Arithmetic S]

/-- Scripted engines that follow the given rules and process at up to `maxRate`. -/
def engines (S : Type) [Arithmetic S] (rules : PerStage Rule) (maxRate : Nat) :
    Engines S (family S) where
  maxRate
  makeEcho _ n := ((), (rules.echo.make n).map fun _ => ⟨n, []⟩)
  makeNoise _ n := ((), (rules.noise.make n).map fun _ => n)
  makeGain _ n := ((), (rules.gain.make n).map fun _ => n)
  echo :=
    let r := rules.echo
    { setUp := fun s _ => ⟨s, r.outcome s.number .setUp r.setUpError⟩
      configure := fun s _ => ⟨s, r.outcome s.number .settings r.settingsError⟩
      bufferFarend := fun s far =>
        ⟨{ s with farend := far }, r.outcome s.number .process r.beforeError⟩
      process := fun s nearend out _ =>
        let (out, result) := r.frame s.number (some s.farend) nearend out
        ⟨s, out, result⟩ }
  noise :=
    let r := rules.noise
    { setUp := fun n _ => ⟨n, r.outcome n .setUp r.setUpError⟩
      configure := fun n _ => ⟨n, r.outcome n .settings r.settingsError⟩
      analyze := fun n _ => ⟨n, r.outcome n .process r.beforeError⟩
      process := fun n nearend out =>
        let (out, result) := r.frame n none nearend out
        ⟨n, out, result⟩ }
  gain :=
    let r := rules.gain
    { setUp := fun n _ _ _ _ => ⟨n, r.outcome n .setUp r.setUpError⟩
      configure := fun n _ => ⟨n, r.outcome n .settings r.settingsError⟩
      addMic := fun n _ => ⟨n, r.outcome n .process r.beforeError⟩
      process := fun n nearend out micLevel _ =>
        let (out, result) := r.frame n none nearend out
        ⟨n, out, result.map fun _ => ⟨micLevel + r.level, r.saturated⟩⟩ }

end Duplex.Engine.Scripted
