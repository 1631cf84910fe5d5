import Duplex.Proofs.Allpass
import Mathlib.RingTheory.PowerSeries.NoZeroDivisors

/-!
# The two-band filter as a transfer function

In exact arithmetic a section multiplies the generating series of a stream by `(a + X) / (1 + a * X)`
(`Section.transfers`), and a cascade by three such quotients. Products commute, so it does not matter
which of two cascades a stream passes first (`Cascade.recursion_comm`). On the way through both
directions of the filter, even samples pass the second cascade and then the first, odd samples the first
and then the second. Both come back as if there were one way, and each apart from the other
(`TwoBand.roundTrips_free_of_aliases`).
-/

namespace Duplex

open Signal

open scoped PowerSeries

namespace Filter

/-- Exact arithmetic: a fraction is the quotient that it stands for. -/
instance : Scalar ℚ where
  fraction n := n / 65536
  decidableLT := inferInstance

theorem fraction_rat (n : ℤ) : (Scalar.fraction n : ℚ) = n / 65536 := rfl

/-! ### Operators on streams -/

/-- An operator on streams that multiplies the generating series by a quotient of two others. -/
structure Transfers (F : (ℕ → ℚ) → ℕ → ℚ) (p q : ℚ⟦X⟧) : Prop where
  ne_zero : q ≠ 0
  series : ∀ x, PowerSeries.mk (F x) * q = PowerSeries.mk x * p

/-- A single sample of one, then silence. -/
def pulse (n : ℕ) : ℚ := if n = 0 then 1 else 0

theorem mk_pulse : PowerSeries.mk pulse = 1 := by
  ext n
  rw [PowerSeries.coeff_mk, PowerSeries.coeff_one, pulse]

namespace Transfers

variable {F G : (ℕ → ℚ) → ℕ → ℚ} {p q r s : ℚ⟦X⟧}

theorem comp (hF : Transfers F p q) (hG : Transfers G r s) :
    Transfers (fun x => F (G x)) (r * p) (s * q) := by
  refine ⟨mul_ne_zero hG.ne_zero hF.ne_zero, ?_⟩
  intro x
  calc PowerSeries.mk (F (G x)) * (s * q) = PowerSeries.mk (F (G x)) * q * s := by ring
    _ = PowerSeries.mk (G x) * s * p := by rw [hF.series]; ring
    _ = PowerSeries.mk x * (r * p) := by rw [hG.series]; ring

/-- Two operators with one transfer function are the same. -/
theorem unique (hF : Transfers F p q) (hG : Transfers G p q) (x : ℕ → ℚ) : F x = G x := by
  have hseries : PowerSeries.mk (F x) = PowerSeries.mk (G x) :=
    mul_right_cancel₀ hF.ne_zero (by rw [hF.series, hG.series])
  funext n
  simpa only [PowerSeries.coeff_mk] using congrArg (PowerSeries.coeff n) hseries

theorem comm (hF : Transfers F p q) (hG : Transfers G r s) (x : ℕ → ℚ) : F (G x) = G (F x) := by
  have hFG := hF.comp hG
  rw [mul_comm r, mul_comm s] at hFG
  exact hFG.unique (hG.comp hF) x

/-- The operator is the convolution with what it makes of a pulse. -/
theorem convolution (hF : Transfers F p q) (x : ℕ → ℚ) (n : ℕ) :
    F x n = ∑ i ∈ Finset.range (n + 1), F pulse i * x (n - i) := by
  have hpulse := hF.series pulse
  rw [mk_pulse, one_mul] at hpulse
  have hproduct : PowerSeries.mk (F x) = PowerSeries.mk (F pulse) * PowerSeries.mk x := by
    refine mul_right_cancel₀ hF.ne_zero ?_
    rw [hF.series, ← hpulse]
    ring
  have hcoeff := congrArg (PowerSeries.coeff n) hproduct
  rw [PowerSeries.coeff_mul, Finset.Nat.sum_antidiagonal_eq_sum_range_succ_mk] at hcoeff
  simpa only [PowerSeries.coeff_mk] using hcoeff

end Transfers

/-! ### Sections and cascades -/

namespace Section

theorem recursion_zero (a : ℚ) (x : ℕ → ℚ) : recursion a .rest x 0 = a * x 0 := by
  rw [recursion, rest, fraction_rat, Int.cast_zero, zero_div, sub_zero, zero_add]

theorem recursion_succ (a : ℚ) (s : Section ℚ) (x : ℕ → ℚ) (n : ℕ) :
    recursion a s x (n + 1) = x n + a * (x (n + 1) - recursion a s x n) := rfl

/-- A section multiplies by `(a + X) / (1 + a * X)`. -/
theorem transfers (a : ℚ) :
    Transfers (recursion a .rest) (PowerSeries.C a + PowerSeries.X)
      (1 + PowerSeries.C a * PowerSeries.X) := by
  constructor
  · intro h
    have hconstant := congrArg (PowerSeries.coeff 0) h
    simp at hconstant
  · intro x
    ext n
    cases n with
    | zero => simp [mul_add, recursion_zero, mul_comm]
    | succ n =>
      simp only [mul_add, mul_one, map_add, PowerSeries.coeff_mk, PowerSeries.coeff_mul_C,
        PowerSeries.coeff_succ_mul_X, recursion_succ, ← mul_assoc]
      ring

end Section

namespace Cascade

theorem transfers (k : Coefficients ℚ) : ∃ p q, Transfers (recursion k) p q :=
  ⟨_, _, (Section.transfers k.c).comp ((Section.transfers k.b).comp (Section.transfers k.a))⟩

/-- It does not matter which of two cascades comes first. -/
theorem recursion_comm (k l : Coefficients ℚ) (x : ℕ → ℚ) :
    recursion k (recursion l x) = recursion l (recursion k x) := by
  obtain ⟨p, q, hk⟩ := transfers k
  obtain ⟨r, s, hl⟩ := transfers l
  exact hk.comm hl x

end Cascade

namespace TwoBand

/-! ### There and back -/

section Passes

variable {α : Type} [Scalar α]

/-- Both cascades, one after the other, on a signal of its own. -/
def cascades (xs : List α) : List α := (Cascade.rest.run .second (Cascade.rest.run .first xs).2).2

/-- Split a frame and merge its bands, which are not yet limited. -/
def roundTrip (f : TwoBand α) (frame : List α) : TwoBand α × List α :=
  (f.split frame).1.mergeExact (f.split frame).2.1 (f.split frame).2.2

/-- Split a frame and merge its bands. -/
def limitedRoundTrip (f : TwoBand α) (frame : List α) : TwoBand α × List α :=
  (f.split frame).1.merge (f.split frame).2.1 (f.split frame).2.2

/-- The limit is not heard in later frames. -/
theorem runAll_limitedRoundTrip (f : TwoBand α) (frames : List (List α)) :
    runAll limitedRoundTrip f frames =
      ((runAll roundTrip f frames).1, (runAll roundTrip f frames).2.map (·.map limit)) := by
  induction frames generalizing f with
  | nil => rfl
  | cons frame frames ih =>
    have hone : f.limitedRoundTrip frame =
        ((f.roundTrip frame).1, (f.roundTrip frame).2.map limit) := by
      rw [limitedRoundTrip, merge, roundTrip]
    rw [runAll_cons, runAll_cons, hone, ih, List.map_cons]

theorem roundTrip_append (f : TwoBand α) {xs : List α} (h : 2 ∣ xs.length) (ys : List α) :
    f.roundTrip (xs ++ ys) =
      (((f.roundTrip xs).1.roundTrip ys).1,
        (f.roundTrip xs).2 ++ ((f.roundTrip xs).1.roundTrip ys).2) := by
  simp [roundTrip, mergeExact, split, pairs_append h, Cascade.run_append, List.zipWith_append,
    List.zip_append, unpairs_append]

/-- Frames come back one after another as the signal they make up. -/
theorem runAll_roundTrip (f : TwoBand α) {frames : List (List α)}
    (h : ∀ frame ∈ frames, 2 ∣ frame.length) :
    f.roundTrip frames.flatten =
      ((runAll roundTrip f frames).1, (runAll roundTrip f frames).2.flatten) := by
  induction frames generalizing f with
  | nil => rfl
  | cons frame frames ih =>
    have hrest := ih (f.roundTrip frame).1 fun other hother => h other (List.mem_cons_of_mem frame hother)
    rw [List.flatten_cons, roundTrip_append f (h frame List.mem_cons_self), hrest, runAll_cons,
      List.flatten_cons]

end Passes

theorem length_cascades (xs : List ℚ) : (cascades xs).length = xs.length := by simp [cascades]

theorem cascades_window (x : ℕ → ℚ) (n : ℕ) :
    cascades (window x 0 n) =
      window (Cascade.recursion .second (Cascade.recursion .first x)) 0 n := by
  rw [cascades, Cascade.run_window, Cascade.run_window]

/-- The bands of a stream differ by what the second cascade makes of its even samples. -/
theorem lowOf_sub_highOf (x : ℕ → ℚ) (n : ℕ) :
    lowOf x n - highOf x n = Cascade.recursion .second (fun i => x (2 * i)) n := by
  rw [lowOf, highOf, half, fraction_rat]
  ring

/-- They add up to what the first cascade makes of its odd samples. -/
theorem lowOf_add_highOf (x : ℕ → ℚ) (n : ℕ) :
    lowOf x n + highOf x n = Cascade.recursion .first (fun i => x (2 * i + 1)) n := by
  rw [lowOf, highOf, half, fraction_rat]
  ring

/-- Of a stream, the even samples and the odd ones pass both cascades on their own. -/
theorem roundTrip_window (x : ℕ → ℚ) (n : ℕ) :
    ((rest : TwoBand ℚ).roundTrip (window x 0 (2 * n))).2 =
      unpairs ((cascades (window (fun i => x (2 * i)) 0 n)).zip
        (cascades (window (fun i => x (2 * i + 1)) 0 n))) := by
  have hmerge (low high : List ℚ) : ((rest.split (window x 0 (2 * n))).1.mergeExact low high).2 =
      unpairs (((Cascade.run .first .rest (List.zipWith (· - ·) low high)).2).zip
        (Cascade.run .second .rest (List.zipWith (· + ·) low high)).2) := rfl
  rw [roundTrip, hmerge, split_window, zipWith_window_same, zipWith_window_same]
  simp only [lowOf_sub_highOf, lowOf_add_highOf]
  rw [Cascade.run_window, Cascade.run_window, cascades_window, cascades_window,
    Cascade.recursion_comm .second .first (fun i => x (2 * i))]

/-- What both cascades make of a pulse. -/
def response : ℕ → ℚ := Cascade.recursion .second (Cascade.recursion .first pulse)

theorem cascades_convolution (x : ℕ → ℚ) (n : ℕ) :
    Cascade.recursion .second (Cascade.recursion .first x) n =
      ∑ i ∈ Finset.range (n + 1), response i * x (n - i) := by
  obtain ⟨p, q, hfirst⟩ := Cascade.transfers .first
  obtain ⟨r, s, hsecond⟩ := Cascade.transfers .second
  exact (hsecond.comp hfirst).convolution x n

/-- The round trip of a stream: a sample comes back as a sum over the samples an even number of places
before it. -/
def returned : (ℕ → ℚ) →ₗ[ℚ] ℕ → ℚ where
  toFun x n := ∑ i ∈ Finset.range (n / 2 + 1), response i * x (n - 2 * i)
  map_add' x y := by
    funext n
    simp only [Pi.add_apply, mul_add, Finset.sum_add_distrib]
  map_smul' c x := by
    funext n
    simp only [Pi.smul_apply, smul_eq_mul, Finset.mul_sum, RingHom.id_apply]
    refine Finset.sum_congr rfl ?_
    intro i _
    ring

theorem returned_apply (x : ℕ → ℚ) (n : ℕ) :
    returned x n = ∑ i ∈ Finset.range (n / 2 + 1), response i * x (n - 2 * i) := rfl

/-- The stream `d` places later, after silence. -/
def delayed (d : ℕ) (x : ℕ → ℚ) (n : ℕ) : ℚ := if d ≤ n then x (n - d) else 0

/-- What is sent later comes back later. -/
theorem returned_delayed (d : ℕ) (x : ℕ → ℚ) : returned (delayed d x) = delayed d (returned x) := by
  funext n
  rw [delayed, returned_apply]
  by_cases hd : d ≤ n
  · rw [if_pos hd, returned_apply]
    -- The places before the delay add nothing.
    have hsub : Finset.range ((n - d) / 2 + 1) ⊆ Finset.range (n / 2 + 1) := by
      intro i hi
      rw [Finset.mem_range] at hi ⊢
      omega
    symm
    refine Finset.sum_subset_zero_on_sdiff hsub ?_ ?_
    · intro i hi
      obtain ⟨hi, hlate⟩ := Finset.mem_sdiff.mp hi
      rw [Finset.mem_range] at hi hlate
      rw [delayed, if_neg (by omega), mul_zero]
    · intro i hi
      rw [Finset.mem_range] at hi
      have hplace : n - 2 * i - d = n - d - 2 * i := by omega
      rw [delayed, if_pos (by omega), hplace]
  · rw [if_neg hd]
    refine Finset.sum_eq_zero ?_
    intro i _
    rw [delayed, if_neg (by omega), mul_zero]

/-- Even and odd places of the round trip are the cascades on even and on odd samples. -/
theorem returned_even (x : ℕ → ℚ) (n : ℕ) :
    returned x (2 * n) = Cascade.recursion .second (Cascade.recursion .first fun i => x (2 * i)) n := by
  have hhalf : 2 * n / 2 = n := by omega
  rw [cascades_convolution, returned_apply, hhalf]
  refine Finset.sum_congr rfl ?_
  intro i _
  rw [Nat.mul_sub]

theorem returned_odd (x : ℕ → ℚ) (n : ℕ) :
    returned x (2 * n + 1) =
      Cascade.recursion .second (Cascade.recursion .first fun i => x (2 * i + 1)) n := by
  have hhalf : (2 * n + 1) / 2 = n := by omega
  rw [cascades_convolution, returned_apply, hhalf]
  refine Finset.sum_congr rfl ?_
  intro i hi
  rw [Finset.mem_range] at hi
  have hplace : 2 * n + 1 - 2 * i = 2 * (n - i) + 1 := by omega
  rw [hplace]

theorem roundTrip_returned (x : ℕ → ℚ) (n : ℕ) :
    ((rest : TwoBand ℚ).roundTrip (window x 0 (2 * n))).2 = window (returned x) 0 (2 * n) := by
  have hpairs := unpairs_window (returned x) 0 n
  rw [Nat.mul_zero] at hpairs
  rw [roundTrip_window, cascades_window, cascades_window, List.zip_eq_zipWith, zipWith_window_same,
    ← hpairs]
  simp only [returned_even, returned_odd]

/-- A fresh two-band filter gives a signal back without aliases, in exact arithmetic. Frames of even
sizes, split and merged one after another, come back as the signal that they make up: its even samples
through both cascades, and its odd samples through the same cascades, which are alone with them. So the
round trip is linear, the same at every place, and adds up samples at even distances only. The limit
is laid on at the end. -/
theorem roundTrips_free_of_aliases {frames : List (List ℚ)} (h : ∀ frame ∈ frames, 2 ∣ frame.length) :
    let x := frames.flatten
    let y := (runAll roundTrip rest frames).2.flatten
    ((pairs y).map (·.1) = cascades ((pairs x).map (·.1)) ∧
      (pairs y).map (·.2) = cascades ((pairs x).map (·.2))) ∧
    (y = window (returned (streamOf 0 x)) 0 x.length ∧
      ∀ d z, returned (delayed d z) = delayed d (returned z)) ∧
    (runAll limitedRoundTrip rest frames).2.flatten = y.map limit := by
  intro x y
  have heven : 2 ∣ x.length := by
    show 2 ∣ frames.flatten.length
    rw [List.length_flatten]
    refine List.dvd_sum ?_
    intro size hsize
    obtain ⟨frame, hframe, rfl⟩ := List.mem_map.mp hsize
    exact h frame hframe
  obtain ⟨n, hn⟩ := heven
  have hx : x = window (streamOf 0 x) 0 (2 * n) := hn ▸ eq_window_streamOf 0 x
  have hy : y = (rest.roundTrip x).2 := by rw [runAll_roundTrip rest h]
  have hpairs := pairs_window (streamOf 0 x) 0 n
  rw [Nat.mul_zero, ← hx] at hpairs
  have hcascades : pairs y = (cascades ((pairs x).map (·.1))).zip (cascades ((pairs x).map (·.2))) := by
    rw [hpairs, map_window, map_window, hy]
    conv_lhs => rw [hx, roundTrip_window, pairs_unpairs]
  have hlength : (cascades ((pairs x).map (·.1))).length = (cascades ((pairs x).map (·.2))).length := by
    rw [length_cascades, length_cascades, List.length_map, List.length_map]
  refine ⟨⟨?_, ?_⟩, ⟨?_, returned_delayed⟩, ?_⟩
  · rw [hcascades]
    exact List.map_fst_zip (Nat.le_of_eq hlength)
  · rw [hcascades]
    exact List.map_snd_zip (Nat.le_of_eq hlength.symm)
  · rw [hy, hn]
    conv_lhs => rw [hx, roundTrip_returned]
  · rw [runAll_limitedRoundTrip, List.map_flatten]

/-- Six samples, as frames of two samples and of four. -/
theorem roundTrips_free_of_aliases_two_and_four :
    let y := (runAll roundTrip (rest : TwoBand ℚ) [[1, 2], [3, 4, 5, 6]]).2.flatten
    ((pairs y).map (·.1) = cascades [1, 3, 5] ∧ (pairs y).map (·.2) = cascades [2, 4, 6]) ∧
    (y = window (returned (streamOf 0 [1, 2, 3, 4, 5, 6])) 0 6 ∧
      ∀ d z, returned (delayed d z) = delayed d (returned z)) ∧
    (runAll limitedRoundTrip (rest : TwoBand ℚ) [[1, 2], [3, 4, 5, 6]]).2.flatten = y.map limit := by
  have heven : ∀ frame ∈ ([[1, 2], [3, 4, 5, 6]] : List (List ℚ)), 2 ∣ frame.length := by
    intro frame hframe
    rcases List.mem_pair.mp hframe with rfl | rfl
    · exact ⟨1, rfl⟩
    · exact ⟨2, rfl⟩
  exact roundTrips_free_of_aliases heven

end TwoBand

end Filter

end Duplex
