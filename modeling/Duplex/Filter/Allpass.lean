/-!
# Allpass cascades: the recursive halves of the two-band filter

A first-order allpass section computes `y[n] = x[n-1] + a * (x[n] - y[n-1])`; it remembers its last
input and its last output. A cascade runs a signal through three sections. The arithmetic is that
of any `Scalar`, so that the same definitions run on floats and can be read over exact numbers.
-/

namespace Duplex.Filter

/-- The arithmetic of the two-band filter, in which fractions over `2^16` are exact. -/
class Scalar (α : Type) extends Add α, Sub α, Mul α, LT α where
  /-- The number of 65536ths given. -/
  fraction : Int → α
  decidableLT : DecidableLT α

instance Scalar.instDecidableLT {α : Type} [Scalar α] : DecidableLT α := Scalar.decidableLT

instance : Scalar Float32 where
  fraction n := Float32.ofInt n / 65536
  decidableLT := inferInstance

variable {α : Type} [Scalar α]

/-- The state of a section: its last input and its last output. -/
structure Section (α : Type) where
  input : α
  output : α
  deriving DecidableEq

namespace Section

/-- The state before the first sample. -/
def rest : Section α := ⟨Scalar.fraction 0, Scalar.fraction 0⟩

/-- Take one sample; the new output is the new state's. -/
def step (a : α) (s : Section α) (x : α) : Section α := ⟨x, s.input + a * (x - s.output)⟩

/-- Run a signal through the section. -/
def run (a : α) : Section α → List α → Section α × List α
  | s, [] => (s, [])
  | s, x :: xs =>
    let s := s.step a x
    let (final, ys) := run a s xs
    (final, s.output :: ys)

@[simp] theorem length_run (a : α) (s : Section α) (xs : List α) :
    (run a s xs).2.length = xs.length := by
  induction xs generalizing s with
  | nil => rfl
  | cons x xs ih => simp [run, ih]

theorem run_append (a : α) (s : Section α) (xs ys : List α) :
    run a s (xs ++ ys) =
      ((run a (run a s xs).1 ys).1, (run a s xs).2 ++ (run a (run a s xs).1 ys).2) := by
  induction xs generalizing s with
  | nil => rfl
  | cons x xs ih => simp [run, ih]

end Section

/-- The coefficients of a cascade's three sections. -/
structure Coefficients (α : Type) where
  a : α
  b : α
  c : α

/-- The first coefficient set, in 65536ths 6418, 36982 and 57261. -/
def Coefficients.first : Coefficients α :=
  ⟨Scalar.fraction 6418, Scalar.fraction 36982, Scalar.fraction 57261⟩

/-- The second coefficient set, in 65536ths 21333, 49062 and 63010. -/
def Coefficients.second : Coefficients α :=
  ⟨Scalar.fraction 21333, Scalar.fraction 49062, Scalar.fraction 63010⟩

/-- Three sections, each fed with the output of the one before it. -/
structure Cascade (α : Type) where
  a : Section α
  b : Section α
  c : Section α
  deriving DecidableEq

namespace Cascade

/-- The state before the first sample. -/
def rest : Cascade α := ⟨.rest, .rest, .rest⟩

/-- Run a signal through the three sections. -/
def run (k : Coefficients α) (s : Cascade α) (xs : List α) : Cascade α × List α :=
  let (a, xs) := s.a.run k.a xs
  let (b, xs) := s.b.run k.b xs
  let (c, xs) := s.c.run k.c xs
  (⟨a, b, c⟩, xs)

@[simp] theorem length_run (k : Coefficients α) (s : Cascade α) (xs : List α) :
    (run k s xs).2.length = xs.length := by
  simp [run]

theorem run_append (k : Coefficients α) (s : Cascade α) (xs ys : List α) :
    run k s (xs ++ ys) =
      ((run k (run k s xs).1 ys).1, (run k s xs).2 ++ (run k (run k s xs).1 ys).2) := by
  simp [run, Section.run_append]

end Cascade

end Duplex.Filter
