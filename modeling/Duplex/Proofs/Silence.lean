import Duplex.Pcm.Sample
import Duplex.Proofs.Splitting

/-!
# Silence: a fresh filter rests, and rings after a pulse

A filter that is given nothing but silence stays as it was made and gives silence. A pulse at the
end of a frame, on the other hand, is still heard in the next frame, both through what is remembered
of splitting and through what is remembered of merging: a filter that merges the next frame without
having merged the pulse gives other samples (`rings`).
-/

namespace Duplex

open Signal Duplex.Filter

variable {n b : Nat}

namespace Filter.TwoBand

section Portions

variable {α : Type} [Scalar α] (f : TwoBand α)

/-- A frame in two portions is split as in one. -/
theorem split_append {xs : List α} (h : 2 ∣ xs.length) (ys : List α) :
    f.split (xs ++ ys) =
      (((f.split xs).1.split ys).1, (f.split xs).2.1 ++ ((f.split xs).1.split ys).2.1,
        (f.split xs).2.2 ++ ((f.split xs).1.split ys).2.2) := by
  simp [split, pairs_append h, Cascade.run_append, List.zipWith_append]

/-- Bands in two portions are merged as in one. -/
theorem merge_append {low high : List α} (h : low.length = high.length) (low' high' : List α) :
    f.merge (low ++ low') (high ++ high') =
      (((f.merge low high).1.merge low' high').1,
        (f.merge low high).2 ++ ((f.merge low high).1.merge low' high').2) := by
  have hlen : (f.difference.run .first (List.zipWith (· - ·) low high)).2.length =
      (f.sum.run .second (List.zipWith (· + ·) low high)).2.length := by simp
  simp only [merge, mergeExact, List.zipWith_append h, Cascade.run_append, List.zip_append hlen,
    unpairs_append, List.map_append]

end Portions

theorem split_silence (m : Nat) :
    (rest : TwoBand Float32).split (List.replicate (2 * m) 0) =
      (rest, List.replicate m 0, List.replicate m 0) := by
  induction m with
  | zero => rfl
  | succ m ih =>
    have hpair : (rest : TwoBand Float32).split [0, 0] = (rest, [0], [0]) := by decide +kernel
    have hsplit : List.replicate (2 * (m + 1)) (0 : Float32) = [0, 0] ++ List.replicate (2 * m) 0 := rfl
    rw [hsplit, split_append rest (by simp), hpair, ih]
    rfl

theorem merge_silence (m : Nat) :
    (rest : TwoBand Float32).merge (List.replicate m 0) (List.replicate m 0) =
      (rest, List.replicate (2 * m) 0) := by
  induction m with
  | zero => rfl
  | succ m ih =>
    have hpair : (rest : TwoBand Float32).merge [0] [0] = (rest, [0, 0]) := by decide +kernel
    have hsplit : List.replicate (m + 1) (0 : Float32) = [0] ++ List.replicate m 0 := rfl
    rw [hsplit, merge_append rest rfl, hpair, ih]
    rfl

theorem split_after_silence (k : Nat) (xs : List Float32) :
    (rest : TwoBand Float32).split (List.replicate (2 * k) 0 ++ xs) =
      ((rest.split xs).1, List.replicate k 0 ++ (rest.split xs).2.1,
        List.replicate k 0 ++ (rest.split xs).2.2) := by
  rw [split_append rest (by simp), split_silence]

theorem merge_after_silence (k : Nat) (low high : List Float32) :
    (rest : TwoBand Float32).merge (List.replicate k 0 ++ low) (List.replicate k 0 ++ high) =
      ((rest.merge low high).1, List.replicate (2 * k) 0 ++ (rest.merge low high).2) := by
  rw [merge_append rest (by simp), merge_silence]

/-- The bands of `2 * m` samples have `m` samples each. -/
theorem length_split (f : TwoBand Float32) {frame : List Float32} {m : Nat}
    (hl : frame.length = 2 * m) :
    (f.split frame).2.1.length = m ∧ (f.split frame).2.2.length = m := by
  have hpairs : (pairs frame).length = m := by rw [length_pairs]; omega
  simp [split, hpairs]

theorem length_merge (f : TwoBand Float32) {low high : List Float32} {m : Nat}
    (hlow : low.length = m) (hhigh : high.length = m) : (f.merge low high).2.length = 2 * m := by
  simp [merge, mergeExact, hlow, hhigh]

/-- The silence after a pulse is merged to something else by a filter that merged the pulse than it
is by a fresh one: already its first two samples differ. -/
theorem rings (k : Nat) :
    let first := (rest : TwoBand Float32).split (List.replicate (2 * k) 0 ++ [0, Pcm.widen 20000])
    let next := first.1.split (List.replicate (2 * (k + 1)) 0)
    ((rest.merge first.2.1 first.2.2).1.merge next.2.1 next.2.2).2.map Pcm.round ≠
      ((rest : TwoBand Float32).merge next.2.1 next.2.2).2.map Pcm.round := by
  intro first next
  have hstart : 2 ∣ [(0 : Float32), 0].length := Nat.dvd_refl 2
  have hfirst : first = _ := split_after_silence k [0, Pcm.widen 20000]
  have hnext : next = _ := split_append first.1 hstart (List.replicate (2 * k) 0)
  rw [hnext, hfirst]
  dsimp only
  obtain ⟨p, hp⟩ : ∃ p, (rest : TwoBand Float32).split [0, Pcm.widen 20000] = p := ⟨_, rfl⟩
  obtain ⟨q, hq⟩ : ∃ q, p.1.split [0, 0] = q := ⟨_, rfl⟩
  have hdiffer : ((rest.merge p.2.1 p.2.2).1.merge q.2.1 q.2.2).2.map Pcm.round ≠
      ((rest : TwoBand Float32).merge q.2.1 q.2.2).2.map Pcm.round := by
    rw [← hq, ← hp]
    decide +kernel
  have hone : [(0 : Float32), 0].length = 2 * 1 := rfl
  obtain ⟨hlow, hhigh⟩ := length_split p.1 hone
  rw [hp, hq, merge_after_silence, merge_append _ (by rw [← hq, hlow, hhigh]),
    merge_append _ (by rw [← hq, hlow, hhigh]), List.map_append, List.map_append]
  rw [hq] at hlow hhigh
  intro heq
  refine hdiffer (List.append_inj_left heq ?_)
  rw [List.length_map, List.length_map, length_merge _ hlow hhigh, length_merge _ hlow hhigh]

end Filter.TwoBand

namespace Filter.ThreeBand

/-- Three bands of the size that the filter works on. -/
def InBands (bands : List (List Float32)) : Prop :=
  bands.map List.length = List.replicate bandCount bandSize

instance (bands : List (List Float32)) : Decidable (InBands bands) :=
  inferInstanceAs (Decidable (_ = _))

/-- A frame that is silent up to its last sample. -/
def latePulse : List Float32 := List.replicate 479 0 ++ [Pcm.widen 20000]

theorem length_latePulse : latePulse.length = frameSize := by
  rw [latePulse, List.length_append, List.length_replicate]
  rfl

/-- The silence after a pulse is merged to something else by a filter that merged the pulse than it
is by a fresh one. -/
theorem rings :
    let first := rest.split latePulse
    let next := first.1.split (List.replicate frameSize 0)
    let kept := ((rest.merge first.2).1.merge next.2).2
    let lost := (rest.merge next.2).2
    (InBands first.2 ∧ InBands next.2) ∧ (kept.length = frameSize ∧ lost.length = frameSize) ∧
      (kept.map Pcm.round)[15]? ≠ (lost.map Pcm.round)[15]? := by
  decide +kernel

end Filter.ThreeBand

namespace SplittingFilter

/-! ### Bands side by side -/

section Halves

variable {m : Nat} (h : TwoBand.Supports m) {g g' : TwoBand Float32} {frame low high : List Float32}

include h

theorem splitOne_low_high (hl : frame.length = 2 * m) (hsplit : g.split frame = (g', low, high)) :
    (twoBand [g]).splitOne frame = .ok (twoBand [g'], low ++ high) := by
  have hhalf : frame.length / 2 = m := by omega
  rw [splitOne_twoBand g (hhalf ▸ h), hsplit]

theorem mergeOne_low_high (hlow : low.length = m) (hhigh : high.length = m)
    (hmerge : g.merge low high = (g', frame)) :
    (twoBand [g]).mergeOne (low ++ high) = .ok (twoBand [g'], frame) := by
  have hhalf : (low ++ high).length / 2 = m := by
    rw [List.length_append]
    omega
  rw [mergeOne_twoBand g hhalf h, List.take_left' hlow, List.drop_left' hlow,
    List.take_of_length_le (Nat.le_of_eq hhigh), hmerge]

end Halves

section Start

variable (h : ThreeBand.frameSize ≤ n) {g g' : ThreeBand} {frame : List Float32}
  {bands : List (List Float32)}

include h

/-- The three-band filter splits the start of a frame. -/
theorem splitOne_start (hl : frame.length = ThreeBand.frameSize) (hsplit : g.split frame = (g', bands)) :
    (threeBand [g]).splitOne (frame ++ List.replicate (n - ThreeBand.frameSize) 0) =
      .ok (threeBand [g'], fit n 0 bands.flatten) := by
  have hn : (frame ++ List.replicate (n - ThreeBand.frameSize) 0).length = n := by
    rw [List.length_append, hl, List.length_replicate, Nat.add_sub_cancel' h]
  rw [splitOne_threeBand g (hn.symm ▸ h), List.take_left' hl, hsplit, hn]

/-- The three-band filter merges bands that the frame is filled up behind. -/
theorem mergeOne_start (hbands : ThreeBand.InBands bands) (hmerge : g.merge bands = (g', frame)) :
    (threeBand [g]).mergeOne (fit n 0 bands.flatten) = .ok (threeBand [g'], fit n 0 frame) := by
  have hl : bands.flatten.length = ThreeBand.frameSize := by
    rw [List.length_flatten, hbands]
    rfl
  have hsize : ∀ band ∈ bands, band.length = ThreeBand.bandSize := by
    intro band hband
    have hmem := List.mem_map_of_mem (f := List.length) hband
    rw [hbands] at hmem
    exact List.eq_of_mem_replicate hmem
  have htake : (fit n 0 bands.flatten).take ThreeBand.frameSize = bands.flatten := by
    have hall : bands.flatten.take n = bands.flatten := List.take_of_length_le (by omega)
    rw [fit, hall, List.take_left' hl]
  have hblocks : blocks ThreeBand.bandSize bands.flatten = bands := by
    have hnone : blocks ThreeBand.bandSize ([] : List Float32) = [] :=
      blocks_of_length_lt (by decide)
    have h := blocks_flatten_append (by decide) hsize []
    rwa [List.append_nil, hnone, List.append_nil] at h
  rw [mergeOne_threeBand g (by rw [length_fit]; exact h), length_fit, htake, hblocks, hmerge]

theorem silence_eq : List.replicate n (0 : Float32) =
    List.replicate ThreeBand.frameSize 0 ++ List.replicate (n - ThreeBand.frameSize) 0 := by
  rw [List.replicate_append_replicate, Nat.add_sub_cancel' h]

theorem fit_silence : fit n 0 (List.replicate ThreeBand.frameSize (0 : Float32)) =
    List.replicate n 0 := by
  rw [fit, List.length_replicate, List.take_of_length_le (by simpa using h), ← silence_eq h]

end Start

/-! ### A fresh filter -/

/-- The filter gives silence for silence, and stays as it is. -/
structure Rests (f : SplittingFilter) (n : Nat) : Prop where
  split : f.splitOne (List.replicate n 0) = .ok (f, List.replicate n 0)
  merge : f.mergeOne (List.replicate n 0) = .ok (f, List.replicate n 0)

/-- A frame is heard in the silent frame after it: merged by a filter that has merged the frame
before, the silent frame gives other samples than it does if that filter has not merged anything. -/
def Rings (f : SplittingFilter) (frame : List Float32) : Prop :=
  ∃ f₁ f₂ g₁ g₂ g bands₁ bands₂ first kept lost,
    f.splitOne frame = .ok (f₁, bands₁) ∧
    f₁.splitOne (List.replicate frame.length 0) = .ok (f₂, bands₂) ∧
    f.mergeOne bands₁ = .ok (g₁, first) ∧ g₁.mergeOne bands₂ = .ok (g₂, kept) ∧
    f.mergeOne bands₂ = .ok (g, lost) ∧ kept.map Pcm.round ≠ lost.map Pcm.round

theorem rests_twoBand {m : Nat} (h : TwoBand.Supports m) : (twoBand [.rest]).Rests (2 * m) := by
  have hhalves : List.replicate (2 * m) (0 : Float32) =
      List.replicate m 0 ++ List.replicate m 0 := by
    rw [List.replicate_append_replicate, Nat.two_mul]
  constructor
  · rw [splitOne_low_high h (by simp) (TwoBand.split_silence m), ← hhalves]
  · conv_lhs => rw [hhalves]
    exact mergeOne_low_high h (by simp) (by simp) (TwoBand.merge_silence m)

theorem rests_threeBand (h : ThreeBand.frameSize ≤ n) : (threeBand [.rest]).Rests n := by
  have hsplit : ThreeBand.rest.split (List.replicate ThreeBand.frameSize 0) =
      (.rest, List.replicate ThreeBand.bandCount (List.replicate ThreeBand.bandSize 0)) := by
    decide +kernel
  have hmerge : ThreeBand.rest.merge
      (List.replicate ThreeBand.bandCount (List.replicate ThreeBand.bandSize 0)) =
        (.rest, List.replicate ThreeBand.frameSize 0) := by decide +kernel
  have hflat : (List.replicate ThreeBand.bandCount
      (List.replicate ThreeBand.bandSize (0 : Float32))).flatten =
        List.replicate ThreeBand.frameSize 0 := List.flatten_replicate_replicate
  constructor
  · conv_lhs => rw [silence_eq h]
    rw [splitOne_start h (by simp) hsplit, hflat, fit_silence h]
  · have hbands : ThreeBand.InBands (List.replicate ThreeBand.bandCount
        (List.replicate ThreeBand.bandSize (0 : Float32))) := by simp [ThreeBand.InBands]
    have hone := mergeOne_start h hbands hmerge
    rwa [hflat, fit_silence h] at hone

/-! ### A pulse -/

/-- The last sample of a frame in two bands rings. -/
theorem rings_twoBand {k : Nat} (h : TwoBand.Supports (k + 1)) :
    (twoBand [.rest]).Rings ((List.replicate (2 * k) (0 : Int16) ++ [0, 20000]).map Pcm.widen) := by
  have hpulse : ([0, 20000] : List Int16).map Pcm.widen = [0, Pcm.widen 20000] := by decide +kernel
  have hzero : Pcm.widen 0 = 0 := by decide +kernel
  rw [List.map_append, List.map_replicate, hpulse, hzero]
  have hframe : (List.replicate (2 * k) 0 ++ [0, Pcm.widen 20000]).length = 2 * (k + 1) := by
    simp [Nat.mul_add]
  have hsilence : (List.replicate (2 * (k + 1)) (0 : Float32)).length = 2 * (k + 1) := by simp
  have hrings := TwoBand.rings k
  obtain ⟨f₁, low₁, high₁, hsplit₁⟩ : ∃ f low high, TwoBand.rest.split
      (List.replicate (2 * k) 0 ++ [0, Pcm.widen 20000]) = (f, low, high) := ⟨_, _, _, rfl⟩
  obtain ⟨f₂, low₂, high₂, hsplit₂⟩ : ∃ f low high,
      f₁.split (List.replicate (2 * (k + 1)) 0) = (f, low, high) := ⟨_, _, _, rfl⟩
  simp only [hsplit₁, hsplit₂] at hrings
  obtain ⟨hlow₁, hhigh₁⟩ := hsplit₁ ▸ TwoBand.length_split .rest hframe
  obtain ⟨hlow₂, hhigh₂⟩ := hsplit₂ ▸ TwoBand.length_split f₁ hsilence
  rw [Rings, hframe]
  exact ⟨_, _, _, _, _, _, _, _, _, _, splitOne_low_high h hframe hsplit₁,
    splitOne_low_high h hsilence hsplit₂, mergeOne_low_high h hlow₁ hhigh₁ rfl,
    mergeOne_low_high h hlow₂ hhigh₂ rfl, mergeOne_low_high h hlow₂ hhigh₂ rfl, hrings⟩

/-- The last sample that is split into three bands rings. -/
theorem rings_threeBand (h : ThreeBand.frameSize ≤ n) :
    (threeBand [.rest]).Rings ((List.replicate 479 (0 : Int16) ++ [20000] ++
      List.replicate (n - ThreeBand.frameSize) 0).map Pcm.widen) := by
  have hzero : Pcm.widen 0 = 0 := by decide +kernel
  have hpulse : (List.replicate 479 (0 : Int16) ++ [20000]).map Pcm.widen = ThreeBand.latePulse := by
    rw [List.map_append, List.map_replicate, hzero]
    rfl
  obtain ⟨f₁, bands₁, hsplit₁⟩ : ∃ f bands, ThreeBand.rest.split ThreeBand.latePulse = (f, bands) :=
    ⟨_, _, rfl⟩
  obtain ⟨f₂, bands₂, hsplit₂⟩ : ∃ f bands,
      f₁.split (List.replicate ThreeBand.frameSize 0) = (f, bands) := ⟨_, _, rfl⟩
  obtain ⟨g₁, first, hmerge⟩ : ∃ g frame, ThreeBand.rest.merge bands₁ = (g, frame) := ⟨_, _, rfl⟩
  obtain ⟨g₂, kept, hkeep⟩ : ∃ g frame, g₁.merge bands₂ = (g, frame) := ⟨_, _, rfl⟩
  obtain ⟨g, lost, hlose⟩ : ∃ g frame, ThreeBand.rest.merge bands₂ = (g, frame) := ⟨_, _, rfl⟩
  have hrings := ThreeBand.rings
  simp only [hsplit₁, hsplit₂, hmerge, hkeep, hlose] at hrings
  obtain ⟨⟨hbands₁, hbands₂⟩, ⟨hkept, hlost⟩, hdiffer⟩ := hrings
  have hlate := ThreeBand.length_latePulse
  have hlength : (ThreeBand.latePulse ++ List.replicate (n - ThreeBand.frameSize) 0).length = n := by
    rw [List.length_append, hlate, List.length_replicate, Nat.add_sub_cancel' h]
  have hsecond := splitOne_start h (by simp) hsplit₂
  rw [← silence_eq h] at hsecond
  rw [List.map_append, hpulse, List.map_replicate, hzero, Rings, hlength]
  refine ⟨_, _, _, _, _, _, _, _, _, _, splitOne_start h hlate hsplit₁, hsecond,
    mergeOne_start h hbands₁ hmerge, mergeOne_start h hbands₂ hkeep, mergeOne_start h hbands₂ hlose, ?_⟩
  intro heq
  -- Both are filled up behind the samples that the filter gave.
  have hall (xs : List Float32) (hxs : xs.length = ThreeBand.frameSize) : xs.take n = xs :=
    List.take_of_length_le (hxs ▸ h)
  rw [fit, fit, hall _ hkept, hall _ hlost, List.map_append, List.map_append] at heq
  have hsame := List.append_inj_left heq (by rw [List.length_map, List.length_map, hkept, hlost])
  exact hdiffer (congrArg (·[15]?) hsame)

/-- A fresh filter of a workable shape rests, and some frame rings in it. -/
theorem create_rings (hw : Workable n b) (hd : b ∣ n) (hb : b ≠ 1) :
    ∃ (f : SplittingFilter) (pulse : List Int16), create 1 b = .ok f ∧ f.Rests n ∧
      pulse.length = n ∧ f.Rings (pulse.map Pcm.widen) := by
  rcases hw with h | ⟨rfl, h⟩ | ⟨rfl, h⟩
  · exact absurd h hb
  · obtain ⟨k, hk⟩ : ∃ k, n / 2 = k + 1 := ⟨n / 2 - 1, by have := h.1; omega⟩
    obtain rfl : n = 2 * (k + 1) := by omega
    rw [hk] at h
    exact ⟨_, _, rfl, rests_twoBand h, by simp [Nat.mul_add], rings_twoBand h⟩
  · refine ⟨_, _, rfl, rests_threeBand h, ?_, rings_threeBand h⟩
    have hn : 480 ≤ n := h
    simp only [List.length_append, List.length_replicate, ThreeBand.frameSize, List.length_singleton]
    omega

end SplittingFilter

end Duplex
