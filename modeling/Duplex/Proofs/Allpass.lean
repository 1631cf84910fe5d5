import Duplex.Proofs.Runs
import Duplex.Proofs.Silence
import Duplex.Proofs.Window

/-!
# The two-band filter as a recursion over the stream

An allpass section follows `y n = x (n - 1) + a * (x n - y (n - 1))`, a cascade follows it three times.
Over a whole stream that is all the two-band filter does (`TwoBand.split_window`,
`TwoBand.merge_window`), and frames split on their own are split as the signal they make up
(`TwoBand.runAll_split`). The passes of a cascade may be made in place, to and fro between two buffers
(`Cascade.passes_eq`).
-/

namespace Duplex

open Signal

namespace Filter

variable {α : Type} [Scalar α]

/-! ### Sections -/

namespace Section

/-- The recursion of a section over a stream. Before the first sample stands what the section
remembers. -/
def recursion (a : α) (s : Section α) (x : Nat → α) : Nat → α
  | 0 => s.input + a * (x 0 - s.output)
  | n + 1 => x n + a * (x (n + 1) - recursion a s x n)

/-- What the section remembers after so many samples. -/
def after (a : α) (s : Section α) (x : Nat → α) : Nat → Section α
  | 0 => s
  | n + 1 => ⟨x n, recursion a s x n⟩

variable (a : α) (s : Section α)

theorem step_after (x : Nat → α) (n : Nat) : (after a s x n).step a (x n) = after a s x (n + 1) := by
  cases n with
  | zero => rfl
  | succ n => rfl

theorem run_window (x : Nat → α) (n : Nat) :
    run a s (window x 0 n) = (after a s x n, window (recursion a s x) 0 n) := by
  induction n with
  | zero => rfl
  | succ n ih =>
    have hone : run a (after a s x n) [x n] = (after a s x (n + 1), [recursion a s x n]) := by
      rw [run, step_after]
      rfl
    rw [window_succ, run_append, ih, Nat.zero_add, hone, window_succ, Nat.zero_add]

/-- The output at place `n`, from a source and the outputs before it. -/
def next (a : α) (source : List α) (n : Nat) (target : List α) : Checked α := do
  let before ← item source (n - 1)
  let x ← item source n
  let y ← item target (n - 1)
  return before + a * (x - y)

/-- Pass from one buffer to another, place by place. -/
def pass (a : α) (s : Section α) (source target : List α) : Checked (Section α × List α) := do
  let first ← item source 0
  let target ← setItem target 0 (s.input + a * (first - s.output))
  let target ← fillFrom (next a source) 1 (source.length - 1) target
  let input ← item source (source.length - 1)
  let output ← item target (source.length - 1)
  return (⟨input, output⟩, target)

/-- A pass runs the section and leaves nothing of the target. -/
theorem pass_eq {source target : List α} (hne : source ≠ []) (hl : target.length = source.length) :
    pass a s source target = .ok (run a s source) := by
  obtain ⟨n, hn⟩ : ∃ n, source.length = n + 1 :=
    Nat.exists_eq_succ_of_ne_zero (List.length_pos_iff.mpr hne).ne'
  obtain ⟨x, hx⟩ : ∃ x : Nat → α, source = window x 0 (n + 1) :=
    ⟨_, hn ▸ eq_window_streamOf (Scalar.fraction 0) source⟩
  obtain ⟨y, hy⟩ : ∃ y, recursion a s x = y := ⟨_, rfl⟩
  have hread (i : Nat) (hi : i < n + 1) : item source i = .ok (x i) := by
    rw [hx, item_window x 0 hi, Nat.zero_add]
  obtain ⟨old, rest, rfl⟩ : ∃ old rest, target = old :: rest :=
    List.exists_cons_of_length_pos (by omega)
  have hrest : rest.length = n := by simpa [hn] using hl
  -- What the loop reads of the target is what it wrote there one place before.
  have hnext (i : Nat) (hi : i < n) :
      next a source (1 + i) (window y 0 (1 + i) ++ rest.drop i) = .ok (y (1 + i)) := by
    rw [Nat.add_comm 1 i, next, Nat.add_sub_cancel, hread i (by omega), ok_bind,
      hread (i + 1) (by omega), ok_bind, item_window_append y (Nat.lt_succ_self i), ok_bind, ← hy, recursion]
    rfl
  have hfill : fillFrom (next a source) 1 n (y 0 :: rest) = .ok (window y 0 (n + 1)) := by
    have hloop := fillFrom_window (Nat.le_of_eq hrest.symm) hnext
    rwa [List.drop_eq_nil_of_le (Nat.le_of_eq hrest), List.append_nil, Nat.add_comm 1 n] at hloop
  have hlast : item (window y 0 (n + 1)) n = .ok (y n) := by
    rw [item_window y 0 (Nat.lt_succ_self n), Nat.zero_add]
  have hfirst : s.input + a * (x 0 - s.output) = y 0 := by rw [← hy, recursion]
  rw [pass, hread 0 (Nat.succ_pos n), ok_bind, hfirst, setItem_eq_ok (by simp), ok_bind, hn,
    Nat.add_sub_cancel, List.set_cons_zero, hfill, ok_bind, hread n (Nat.lt_succ_self n), ok_bind,
    hlast, hx, run_window, hy, after, hy]
  rfl

end Section

/-! ### Cascades -/

namespace Cascade

/-- The recursion of a fresh section, three times. -/
def recursion (k : Coefficients α) (x : Nat → α) : Nat → α :=
  Section.recursion k.c .rest (Section.recursion k.b .rest (Section.recursion k.a .rest x))

theorem run_window (k : Coefficients α) (x : Nat → α) (n : Nat) :
    (run k .rest (window x 0 n)).2 = window (recursion k x) 0 n := by
  simp only [run, rest, Section.run_window, recursion]

/-- Three passes, from the data to the scratch buffer, back, and there again. -/
def passes (k : Coefficients α) (s : Cascade α) (data scratch : List α) :
    Checked (Cascade α × List α) := do
  let first ← s.a.pass k.a data scratch
  let second ← s.b.pass k.b first.2 data
  let third ← s.c.pass k.c second.2 first.2
  return (⟨first.1, second.1, third.1⟩, third.2)

theorem passes_eq (k : Coefficients α) (s : Cascade α) {data scratch : List α} (hne : data ≠ [])
    (hl : scratch.length = data.length) : s.passes k data scratch = .ok (s.run k data) := by
  have hfirst : (s.a.run k.a data).2 ≠ [] := by
    rw [← List.length_pos_iff, Section.length_run]
    exact List.length_pos_iff.mpr hne
  have hsecond : (s.b.run k.b (s.a.run k.a data).2).2 ≠ [] := by
    rw [← List.length_pos_iff, Section.length_run]
    exact List.length_pos_iff.mpr hfirst
  rw [passes, Section.pass_eq _ _ hne hl, ok_bind,
    Section.pass_eq _ _ hfirst (Section.length_run _ _ _).symm, ok_bind,
    Section.pass_eq _ _ hsecond (Section.length_run _ _ _).symm]
  rfl

end Cascade

/-! ### The two-band filter -/

namespace TwoBand

/-- The low band of a stream: half the sum of its odd samples through the first cascade and its even
samples through the second. -/
def lowOf (x : Nat → α) (n : Nat) : α :=
  (Cascade.recursion .first (fun i => x (2 * i + 1)) n +
    Cascade.recursion .second (fun i => x (2 * i)) n) * half

/-- The high band: half the difference. -/
def highOf (x : Nat → α) (n : Nat) : α :=
  (Cascade.recursion .first (fun i => x (2 * i + 1)) n -
    Cascade.recursion .second (fun i => x (2 * i)) n) * half

/-- The stream of two bands: their difference through the first cascade at even places, their sum
through the second at odd places, limited. -/
def mergedOf (low high : Nat → α) (n : Nat) : α :=
  if n % 2 = 0 then limit (Cascade.recursion .first (fun i => low i - high i) (n / 2))
  else limit (Cascade.recursion .second (fun i => low i + high i) (n / 2))

theorem split_window (x : Nat → α) (n : Nat) :
    ((rest : TwoBand α).split (window x 0 (2 * n))).2 =
      (window (lowOf x) 0 n, window (highOf x) 0 n) := by
  have hpairs := pairs_window x 0 n
  rw [Nat.mul_zero] at hpairs
  simp only [split, rest, hpairs, map_window, Cascade.run_window, zipWith_window_same]
  rfl

theorem merge_window (low high : Nat → α) (n : Nat) :
    ((rest : TwoBand α).merge (window low 0 n) (window high 0 n)).2 =
      window (mergedOf low high) 0 (2 * n) := by
  obtain ⟨sum, hsum⟩ : ∃ sum, Cascade.recursion Coefficients.second (fun i => low i + high i) = sum :=
    ⟨_, rfl⟩
  obtain ⟨diff, hdiff⟩ :
      ∃ diff, Cascade.recursion Coefficients.first (fun i => low i - high i) = diff := ⟨_, rfl⟩
  have hinterleaved : unpairs ((window diff 0 n).zip (window sum 0 n)) =
      window (fun i => if i % 2 = 0 then diff (i / 2) else sum (i / 2)) 0 (2 * n) := by
    have hunpairs := unpairs_window (fun i => if i % 2 = 0 then diff (i / 2) else sum (i / 2)) 0 n
    rw [Nat.mul_zero] at hunpairs
    rw [← hunpairs, List.zip_eq_zipWith, zipWith_window_same]
    congr 1
    refine window_congr ?_
    intro i _
    have hodd : (2 * i + 1) / 2 = i := by omega
    simp [hodd]
  have hmerged : mergedOf low high =
      fun i => limit (if i % 2 = 0 then diff (i / 2) else sum (i / 2)) := by
    funext i
    rw [mergedOf, hsum, hdiff, apply_ite limit]
  simp only [merge, mergeExact, rest, zipWith_window_same, Cascade.run_window, hsum, hdiff,
    hinterleaved, map_window, hmerged]

/-- Frames are split one after another as the signal they make up. -/
theorem runAll_split (f : TwoBand α) {frames : List (List α)}
    (h : ∀ frame ∈ frames, 2 ∣ frame.length) :
    f.split frames.flatten =
      ((runAll split f frames).1, (runAll split f frames).2.flatMap (·.1),
        (runAll split f frames).2.flatMap (·.2)) := by
  induction frames generalizing f with
  | nil => rfl
  | cons frame frames ih =>
    have hrest := ih (f.split frame).1 fun other hother => h other (List.mem_cons_of_mem frame hother)
    rw [List.flatten_cons, split_append f (h frame List.mem_cons_self), hrest, runAll_cons,
      List.flatMap_cons, List.flatMap_cons]

/-- Merge a piece of either band. -/
def mergePiece (f : TwoBand α) (piece : List α × List α) : TwoBand α × List α :=
  f.merge piece.1 piece.2

/-- Pieces of the bands are merged one after another as the bands they make up. -/
theorem runAll_merge (f : TwoBand α) {pieces : List (List α × List α)}
    (h : ∀ piece ∈ pieces, piece.1.length = piece.2.length) :
    f.merge (pieces.flatMap (·.1)) (pieces.flatMap (·.2)) =
      ((runAll mergePiece f pieces).1, (runAll mergePiece f pieces).2.flatten) := by
  induction pieces generalizing f with
  | nil => rfl
  | cons piece pieces ih =>
    have hrest := ih (f.mergePiece piece).1
      fun other hother => h other (List.mem_cons_of_mem piece hother)
    rw [mergePiece] at hrest
    rw [List.flatMap_cons, List.flatMap_cons, merge_append f (h piece List.mem_cons_self), hrest,
      runAll_cons, List.flatten_cons, mergePiece]

end TwoBand

end Filter

end Duplex
