/-!
# Stages: echo cancellation, noise suppression and gain control

The three processing stages, and `PerStage`, a value for each of them.
-/

namespace Duplex

/-- One of the three processing stages. -/
inductive Stage where
  | echo
  | noise
  | gain
  deriving DecidableEq, Repr

namespace Stage

def all : List Stage := [echo, noise, gain]

/-- The short name of the stage. -/
def label : Stage → String
  | echo => "aec"
  | noise => "ns"
  | gain => "agc"

end Stage

/-- A value for each stage. -/
structure PerStage (α : Type) where
  echo : α
  noise : α
  gain : α
  deriving DecidableEq, Repr

namespace PerStage

variable {α : Type}

/-- The same value for every stage. -/
def const (a : α) : PerStage α := ⟨a, a, a⟩

def get (p : PerStage α) : Stage → α
  | .echo => p.echo
  | .noise => p.noise
  | .gain => p.gain

def set (p : PerStage α) (a : α) : Stage → PerStage α
  | .echo => { p with echo := a }
  | .noise => { p with noise := a }
  | .gain => { p with gain := a }

@[simp] theorem get_const (a : α) (s : Stage) : (const a).get s = a := by cases s <;> rfl

@[simp] theorem get_set_self (p : PerStage α) (a : α) (s : Stage) : (p.set a s).get s = a := by
  cases s <;> rfl

theorem get_set_of_ne (p : PerStage α) (a : α) {s t : Stage} (h : t ≠ s) :
    (p.set a s).get t = p.get t := by
  cases s <;> cases t <;> first | rfl | exact absurd rfl h

end PerStage

end Duplex
