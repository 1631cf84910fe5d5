import Duplex.Proofs.Transfer
import Mathlib.Algebra.Order.Field.Rat
import Mathlib.Algebra.BigOperators.Group.List.Basic
import Mathlib.Tactic.FieldSimp
import Mathlib.Tactic.Linarith
import Mathlib.Tactic.Positivity

/-!
# Energy in the two-band filter

An allpass section gives back all the energy that it takes, and until then holds it in its state
(`Section.step_held`). Half the sum and half the difference of two signals have half their energy, sum
and difference have twice as much, and the limit only takes away. So a filter that starts at rest makes
bands with at most half the energy of the frames that it splits, and frames with at most twice the
energy of the bands that it merges, over any run (`TwoBand.energy_never_grows`).
-/

namespace Duplex

open Signal

namespace Filter

/-- The sum of the squares. -/
def energy (xs : List ℚ) : ℚ := (xs.map (· ^ 2)).sum

@[simp] theorem energy_nil : energy [] = 0 := rfl

@[simp] theorem energy_cons (x : ℚ) (xs : List ℚ) : energy (x :: xs) = x ^ 2 + energy xs := rfl

@[simp] theorem energy_append (xs ys : List ℚ) : energy (xs ++ ys) = energy xs + energy ys := by
  rw [energy, List.map_append, List.sum_append, energy, energy]

theorem energy_nonneg (xs : List ℚ) : 0 ≤ energy xs := by
  induction xs with
  | nil => exact le_refl 0
  | cons x xs ih =>
    rw [energy_cons]
    positivity

/-! ### Sections -/

namespace Section

/-- What a section holds of the energy that it took. -/
def held (a : ℚ) (s : Section ℚ) : ℚ := (s.input - a * s.output) ^ 2 / (1 - a ^ 2)

variable {a : ℚ} (h : a ^ 2 < 1)

include h

theorem held_nonneg (s : Section ℚ) : 0 ≤ s.held a := by
  have hpos : 0 < 1 - a ^ 2 := by linarith
  rw [held]
  positivity

omit h in
theorem held_rest : (rest : Section ℚ).held a = 0 := by
  simp [held, rest, fraction_rat]

/-- What comes out and what is held then make up what went in and what was held before. -/
theorem step_held (s : Section ℚ) (x : ℚ) :
    (s.step a x).output ^ 2 + (s.step a x).held a = x ^ 2 + s.held a := by
  have hne : 1 - a ^ 2 ≠ 0 := by linarith
  have hstep : s.step a x = ⟨x, s.input + a * (x - s.output)⟩ := rfl
  rw [hstep, held, held]
  field_simp
  ring

theorem run_held (s : Section ℚ) (xs : List ℚ) :
    energy (run a s xs).2 + (run a s xs).1.held a = energy xs + s.held a := by
  induction xs generalizing s with
  | nil => rfl
  | cons x xs ih =>
    have hstep := step_held h s x
    have hrest := ih (s.step a x)
    rw [run, energy_cons, energy_cons]
    linarith

end Section

/-! ### Cascades -/

/-- Coefficients with which the sections hand on what they take. -/
structure Coefficients.Stable (k : Coefficients ℚ) : Prop where
  a : k.a ^ 2 < 1
  b : k.b ^ 2 < 1
  c : k.c ^ 2 < 1

theorem Coefficients.first_stable : (Coefficients.first : Coefficients ℚ).Stable := by
  constructor <;> norm_num [first, fraction_rat]

theorem Coefficients.second_stable : (Coefficients.second : Coefficients ℚ).Stable := by
  constructor <;> norm_num [second, fraction_rat]

namespace Cascade

/-- What the sections of a cascade hold. -/
def held (k : Coefficients ℚ) (s : Cascade ℚ) : ℚ := s.a.held k.a + s.b.held k.b + s.c.held k.c

theorem held_rest (k : Coefficients ℚ) : (rest : Cascade ℚ).held k = 0 := by
  simp only [held, rest, Section.held_rest, add_zero]

variable {k : Coefficients ℚ} (h : k.Stable)

include h

theorem held_nonneg (s : Cascade ℚ) : 0 ≤ s.held k :=
  add_nonneg (add_nonneg (Section.held_nonneg h.a s.a) (Section.held_nonneg h.b s.b))
    (Section.held_nonneg h.c s.c)

theorem run_held (s : Cascade ℚ) (xs : List ℚ) :
    energy (run k s xs).2 + (run k s xs).1.held k = energy xs + s.held k := by
  have ha := Section.run_held h.a s.a xs
  have hb := Section.run_held h.b s.b (s.a.run k.a xs).2
  have hc := Section.run_held h.c s.c (s.b.run k.b (s.a.run k.a xs).2).2
  simp only [run, held]
  linarith

end Cascade

/-! ### The two-band filter -/

theorem energy_pairs_le (xs : List ℚ) :
    energy ((pairs xs).map (·.2)) + energy ((pairs xs).map (·.1)) ≤ energy xs := by
  induction xs using pairs_induction with
  | nil => simp
  | single a => simpa using sq_nonneg a
  | pair a b rest ih =>
    simp only [pairs_cons_cons, List.map_cons, energy_cons]
    linarith

theorem energy_unpairs_zip_le (xs ys : List ℚ) : energy (unpairs (xs.zip ys)) ≤ energy xs + energy ys := by
  induction xs generalizing ys with
  | nil => simpa using energy_nonneg ys
  | cons x xs ih =>
    cases ys with
    | nil => simpa using energy_nonneg (x :: xs)
    | cons y ys =>
      have hrest := ih ys
      simp only [List.zip_cons_cons, unpairs_cons, energy_cons]
      linarith

namespace TwoBand

/-- Half the sum and half the difference have half the energy. -/
theorem energy_halves (xs ys : List ℚ) (h : xs.length = ys.length) :
    energy (List.zipWith (fun x y => (x + y) * half) xs ys) +
      energy (List.zipWith (fun x y => (x - y) * half) xs ys) = (energy xs + energy ys) / 2 := by
  induction xs generalizing ys with
  | nil =>
    obtain rfl := List.length_eq_zero_iff.mp h.symm
    simp
  | cons x xs ih =>
    obtain ⟨y, ys, rfl⟩ := List.exists_cons_of_length_eq_add_one h.symm
    have hrest := ih ys (Nat.succ.inj h)
    have hhalf : ((x + y) * half) ^ 2 + ((x - y) * half) ^ 2 = (x ^ 2 + y ^ 2) / 2 := by
      rw [half, fraction_rat]
      ring
    simp only [List.zipWith_cons_cons, energy_cons]
    linarith

/-- The sum and the difference have twice the energy, as far as both lists reach. -/
theorem energy_sums_le (xs ys : List ℚ) :
    energy (List.zipWith (· + ·) xs ys) + energy (List.zipWith (· - ·) xs ys) ≤
      2 * (energy xs + energy ys) := by
  induction xs generalizing ys with
  | nil =>
    have hys := energy_nonneg ys
    simp only [List.zipWith_nil_left, energy_nil]
    linarith
  | cons x xs ih =>
    cases ys with
    | nil =>
      have hxs := energy_nonneg (x :: xs)
      simp only [List.zipWith_nil_right, energy_nil]
      linarith
    | cons y ys =>
      have hrest := ih ys
      simp only [List.zipWith_cons_cons, energy_cons]
      linarith

/-- The limit brings a sample nearer to silence. -/
theorem limit_sq_le (x : ℚ) : limit x ^ 2 ≤ x ^ 2 := by
  have hlow : (Scalar.fraction (-32768 * 65536) : ℚ) = -32768 := by norm_num [fraction_rat]
  have hhigh : (Scalar.fraction (32767 * 65536) : ℚ) = 32767 := by norm_num [fraction_rat]
  simp only [limit, hlow, hhigh]
  split_ifs <;> nlinarith

theorem energy_map_limit_le (xs : List ℚ) : energy (xs.map limit) ≤ energy xs := by
  induction xs with
  | nil => exact le_refl 0
  | cons x xs ih =>
    rw [List.map_cons, energy_cons, energy_cons]
    exact add_le_add (limit_sq_le x) ih

/-- What the filter holds of the frames that it split. -/
def heldSplitting (f : TwoBand ℚ) : ℚ := f.odd.held .first + f.even.held .second

/-- What the filter holds of the bands that it merged. -/
def heldMerging (f : TwoBand ℚ) : ℚ := f.sum.held .second + f.difference.held .first

/-- Splitting halves the energy; only an unpaired last sample is lost. -/
theorem split_held (f : TwoBand ℚ) (frame : List ℚ) :
    energy (f.split frame).2.1 + energy (f.split frame).2.2 + (f.split frame).1.heldSplitting / 2 ≤
      energy frame / 2 + f.heldSplitting / 2 := by
  have hodd := Cascade.run_held Coefficients.first_stable f.odd ((pairs frame).map (·.2))
  have heven := Cascade.run_held Coefficients.second_stable f.even ((pairs frame).map (·.1))
  have hpairs := energy_pairs_le frame
  have hhalves := energy_halves (f.odd.run .first ((pairs frame).map (·.2))).2
    (f.even.run .second ((pairs frame).map (·.1))).2 (by simp)
  simp only [split, heldSplitting]
  linarith

/-- Merging doubles the energy; what the limit cuts off is lost, and what one band has over the other. -/
theorem merge_held (f : TwoBand ℚ) (low high : List ℚ) :
    energy (f.merge low high).2 + (f.merge low high).1.heldMerging ≤
      2 * energy (low ++ high) + f.heldMerging := by
  have hsum := Cascade.run_held Coefficients.second_stable f.sum (List.zipWith (· + ·) low high)
  have hdifference :=
    Cascade.run_held Coefficients.first_stable f.difference (List.zipWith (· - ·) low high)
  have hsums := energy_sums_le low high
  have hzip := energy_unpairs_zip_le
    (f.difference.run .first (List.zipWith (· - ·) low high)).2
    (f.sum.run .second (List.zipWith (· + ·) low high)).2
  have hlimit := energy_map_limit_le (f.mergeExact low high).2
  simp only [merge, mergeExact, heldMerging, energy_append] at hlimit ⊢
  linarith

/-! ### Runs -/

/-- A call on a two-band filter. -/
inductive Turn (α : Type) where
  | split (frame : List α)
  | merge (low high : List α)

/-- The frame that a call brings. -/
def Turn.frame {α : Type} : Turn α → List α
  | split frame => frame
  | merge _ _ => []

/-- The bands that a call brings. -/
def Turn.bands {α : Type} : Turn α → List α
  | split _ => []
  | merge low high => low ++ high

/-- A call, with the bands and the frame that it makes. -/
def take {α : Type} [Scalar α] (f : TwoBand α) : Turn α → TwoBand α × List α × List α
  | .split frame => ((f.split frame).1, (f.split frame).2.1 ++ (f.split frame).2.2, [])
  | .merge low high => ((f.merge low high).1, [], (f.merge low high).2)

/-- Splitting halves the energy at most, merging doubles it at most, and neither touches what is held
for the other. -/
theorem take_held (f : TwoBand ℚ) (turn : Turn ℚ) :
    energy (f.take turn).2.1 + (f.take turn).1.heldSplitting / 2 ≤
        energy turn.frame / 2 + f.heldSplitting / 2 ∧
      energy (f.take turn).2.2 + (f.take turn).1.heldMerging ≤
        2 * energy turn.bands + f.heldMerging := by
  cases turn with
  | split frame =>
    have hsplit := f.split_held frame
    have hkeep : (f.split frame).1.heldMerging = f.heldMerging := rfl
    constructor
    · simpa only [take, Turn.frame, energy_append] using hsplit
    · simp [take, Turn.bands, hkeep]
  | merge low high =>
    have hkeep : (f.merge low high).1.heldSplitting = f.heldSplitting := rfl
    constructor
    · simp [take, Turn.frame, hkeep]
    · exact f.merge_held low high

theorem runAll_take_held (f : TwoBand ℚ) (turns : List (Turn ℚ)) :
    energy ((runAll take f turns).2.flatMap (·.1)) + (runAll take f turns).1.heldSplitting / 2 ≤
        energy (turns.flatMap Turn.frame) / 2 + f.heldSplitting / 2 ∧
      energy ((runAll take f turns).2.flatMap (·.2)) + (runAll take f turns).1.heldMerging ≤
        2 * energy (turns.flatMap Turn.bands) + f.heldMerging := by
  induction turns generalizing f with
  | nil => simp [runAll]
  | cons turn turns ih =>
    obtain ⟨hsplit, hmerge⟩ := f.take_held turn
    obtain ⟨hsplits, hmerges⟩ := ih (f.take turn).1
    rw [runAll_cons]
    simp only [List.flatMap_cons, energy_append]
    constructor <;> linarith

/-- A fresh two-band filter never amplifies, in exact arithmetic. However many frames it splits and
however many bands, any bands, it merges in between: all the bands that it has made have at most half
the energy of all the frames that it was given, and all the frames that it has made, limited as they
are, have at most twice the energy of all the bands that it was given. -/
theorem energy_never_grows (turns : List (Turn ℚ)) :
    let made := (runAll take rest turns).2
    energy (made.flatMap (·.1)) ≤ energy (turns.flatMap Turn.frame) / 2 ∧
      energy (made.flatMap (·.2)) ≤ 2 * energy (turns.flatMap Turn.bands) := by
  intro made
  obtain ⟨hsplits, hmerges⟩ := runAll_take_held rest turns
  have hrest : (rest : TwoBand ℚ).heldSplitting = 0 ∧ (rest : TwoBand ℚ).heldMerging = 0 := by
    simp [heldSplitting, heldMerging, rest, Cascade.held_rest]
  have hsplitting : 0 ≤ (runAll take rest turns).1.heldSplitting :=
    add_nonneg (Cascade.held_nonneg Coefficients.first_stable _)
      (Cascade.held_nonneg Coefficients.second_stable _)
  have hmerging : 0 ≤ (runAll take rest turns).1.heldMerging :=
    add_nonneg (Cascade.held_nonneg Coefficients.second_stable _)
      (Cascade.held_nonneg Coefficients.first_stable _)
  rw [hrest.1] at hsplits
  rw [hrest.2] at hmerges
  constructor
  · show energy ((runAll take rest turns).2.flatMap (·.1)) ≤ _
    linarith
  · show energy ((runAll take rest turns).2.flatMap (·.2)) ≤ _
    linarith

end TwoBand

end Filter

end Duplex
