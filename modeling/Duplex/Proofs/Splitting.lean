import Duplex.Filter.Splitting
import Duplex.Proofs.Buffer

/-!
# The splitting filter of one channel

A lane's frames have one channel, and their filter is a single two-band or three-band filter.
`splitOne` and `mergeOne` run it on the samples alone, and the buffer operations are those
(`analysis_eq`, `synthesis_eq`). They give a result on every shape that is `Workable`, and splitting
does on no other. Splitting reads and changes only the analysis history, merging only the synthesis
history.
-/

namespace Duplex

open Signal Duplex.Filter

variable {n b : Nat}

/-- A frame of so many samples can be split into so many bands: into two of at most 160 samples, or
into three if it has at least 480 samples. -/
def Workable (n b : Nat) : Prop :=
  b = 1 ∨ b = 2 ∧ TwoBand.Supports (n / 2) ∨ b = 3 ∧ ThreeBand.frameSize ≤ n

namespace SplittingFilter

/-- A single filter with the given number of bands. -/
def Serves : SplittingFilter → Nat → Prop
  | twoBand filters, b => b = 2 ∧ filters.length = 1
  | threeBand filters, b => b = 3 ∧ filters.length = 1

theorem create_serves (hb : b = 2 ∨ b = 3) : Returns (create 1 b) (·.Serves b) := by
  have hfilled {φ : Type} (f : φ) : filled 1 f = .ok [f] := rfl
  rcases hb with rfl | rfl
  · rw [create, hfilled]
    exact returns_ok ⟨rfl, rfl⟩
  · rw [create, hfilled]
    exact returns_ok ⟨rfl, rfl⟩

/-- A filter that serves is one filter, alone. -/
theorem Serves.cases {f : SplittingFilter} (h : f.Serves b) :
    (∃ g, f = twoBand [g] ∧ b = 2) ∨ ∃ g, f = threeBand [g] ∧ b = 3 := by
  cases f with
  | twoBand filters =>
    obtain ⟨hb, hl⟩ := h
    obtain ⟨g, rfl⟩ := List.length_eq_one_iff.mp hl
    exact .inl ⟨g, rfl, hb⟩
  | threeBand filters =>
    obtain ⟨hb, hl⟩ := h
    obtain ⟨g, rfl⟩ := List.length_eq_one_iff.mp hl
    exact .inr ⟨g, rfl, hb⟩

/-! ### On the samples alone -/

/-- Split a full-band frame with the filter of the only channel. -/
def splitOne : SplittingFilter → List Float32 → Checked (SplittingFilter × List Float32)
  | twoBand [f], frame => (splitTwo f frame).map fun (f, bands) => (twoBand [f], bands)
  | threeBand [f], frame => (splitThree f frame).map fun (f, bands) => (threeBand [f], bands)
  | _, _ => .error .outOfRange

/-- Merge the bands of the only channel. -/
def mergeOne : SplittingFilter → List Float32 → Checked (SplittingFilter × List Float32)
  | twoBand [f], bands =>
    (mergeTwo f { data := bands, perBand := bands.length / 2 }).map fun (f, frame) =>
      (twoBand [f], frame)
  | threeBand [f], bands => (mergeThree f bands).map fun (f, frame) => (threeBand [f], frame)
  | _, _ => .error .outOfRange

/-- One channel is one run of its filter. -/
theorem runEach_single {φ : Type}
    {run : φ → ChannelBuffer Float32 → Nat → Checked (φ × List Float32)}
    {source target : ChannelBuffer Float32} (f : φ) (hs : source.channels = 1)
    (ht : target.HasShape n b) :
    runEach run source [f] 0 target =
      (run f source 0).map fun (f, result) => ([f], target.writeData 0 result) := by
  have hch : 0 < source.channels := by omega
  rw [runEach, if_pos hch]
  cases run f source 0 with
  | error e => rfl
  | ok r =>
    simp only [ok_bind, ht.writeBands]
    rfl

theorem analysis_eq {f : SplittingFilter} {m : Nat} {data bands : ChannelBuffer Float32}
    (hf : f.Serves b) (hd : data.HasShape n m) (hb : bands.HasShape n b) :
    f.analysis data bands =
      (f.splitOne data.data).map fun (f, out) => (f, bands.writeData 0 out) := by
  obtain ⟨g, rfl, rfl⟩ | ⟨g, rfl, rfl⟩ := hf.cases
  · simp only [analysis, runEach_single g hd.channels hb, hd.bandsOf, ok_bind, splitOne]
    cases splitTwo g data.data <;> rfl
  · simp only [analysis, runEach_single g hd.channels hb, hd.bandsOf, ok_bind, splitOne]
    cases splitThree g data.data <;> rfl

theorem synthesis_eq {f : SplittingFilter} {m : Nat} {bands data : ChannelBuffer Float32}
    (hf : f.Serves b) (hb : bands.HasShape n b) (hd : data.HasShape n m) :
    f.synthesis bands data =
      (f.mergeOne bands.data).map fun (f, out) => (f, data.writeData 0 out) := by
  obtain ⟨g, rfl, rfl⟩ | ⟨g, rfl, rfl⟩ := hf.cases
  · simp only [synthesis, runEach_single g hb.channels hd, hb.view, ok_bind, mergeOne, hb.length]
    cases mergeTwo g _ <;> rfl
  · simp only [synthesis, runEach_single g hb.channels hd, hb.bandsOf, ok_bind, mergeOne]
    cases mergeThree g bands.data <;> rfl

/-! ### Results -/

theorem splitOne_twoBand (g : TwoBand Float32) {frame : List Float32}
    (h : TwoBand.Supports (frame.length / 2)) :
    (twoBand [g]).splitOne frame =
      .ok (twoBand [(g.split frame).1], (g.split frame).2.1 ++ (g.split frame).2.2) := by
  rw [splitOne, splitTwo, if_pos h]
  rfl

theorem splitOne_threeBand (g : ThreeBand) {frame : List Float32}
    (h : ThreeBand.frameSize ≤ frame.length) :
    (threeBand [g]).splitOne frame =
      .ok (threeBand [(g.split (frame.take ThreeBand.frameSize)).1],
        fit frame.length 0 (g.split (frame.take ThreeBand.frameSize)).2.flatten) := by
  rw [splitOne, splitThree, if_pos h]
  rfl

theorem mergeOne_twoBand (g : TwoBand Float32) {bands : List Float32} {m : Nat}
    (hl : bands.length / 2 = m) (h : TwoBand.Supports m) :
    (twoBand [g]).mergeOne bands =
      .ok (twoBand [(g.merge (bands.take m) ((bands.drop m).take m)).1],
        (g.merge (bands.take m) ((bands.drop m).take m)).2) := by
  have hlow : slice bands (0 * m) m = .ok (bands.take m) := by
    rw [slice_eq_ok (by omega), Nat.zero_mul, List.drop_zero]
  have hhigh : slice bands (1 * m) m = .ok ((bands.drop m).take m) := by
    rw [slice_eq_ok (by omega), Nat.one_mul]
  have hlen : (bands.take m).length = m := by simp; omega
  simp only [mergeOne, mergeTwo, Bands.band, hl, hlow, hhigh, ok_bind, hlen, if_pos h]
  rfl

theorem mergeOne_threeBand (g : ThreeBand) {bands : List Float32}
    (h : ThreeBand.frameSize ≤ bands.length) :
    (threeBand [g]).mergeOne bands =
      .ok (threeBand [(g.merge (blocks ThreeBand.bandSize (bands.take ThreeBand.frameSize))).1],
        fit bands.length 0
          (g.merge (blocks ThreeBand.bandSize (bands.take ThreeBand.frameSize))).2) := by
  rw [mergeOne, mergeThree, if_pos h]
  rfl

theorem splitOne_returns {f : SplittingFilter} {frame : List Float32} (hf : f.Serves b)
    (hw : Workable n b) (hl : frame.length = n) :
    Returns (f.splitOne frame) fun r => r.1.Serves b := by
  obtain ⟨g, rfl, rfl⟩ | ⟨g, rfl, rfl⟩ := hf.cases
  · have h : TwoBand.Supports (n / 2) := by simpa [Workable] using hw
    rw [splitOne_twoBand g (hl ▸ h)]
    exact returns_ok ⟨rfl, rfl⟩
  · have h : ThreeBand.frameSize ≤ n := by simpa [Workable] using hw
    rw [splitOne_threeBand g (hl ▸ h)]
    exact returns_ok ⟨rfl, rfl⟩

/-- Only workable shapes can be split. -/
theorem splitOne_fault {f : SplittingFilter} {frame : List Float32} (hf : f.Serves b)
    (hw : ¬ Workable n b) (hl : frame.length = n) : f.splitOne frame = .error .outOfRange := by
  obtain ⟨g, rfl, rfl⟩ | ⟨g, rfl, rfl⟩ := hf.cases
  · have h : ¬ TwoBand.Supports (n / 2) := by simpa [Workable] using hw
    rw [splitOne, splitTwo, hl, if_neg h]
    rfl
  · have h : ¬ ThreeBand.frameSize ≤ n := by simpa [Workable] using hw
    rw [splitOne, splitThree, hl, if_neg h]
    rfl

theorem mergeOne_returns {f : SplittingFilter} {bands : List Float32} (hf : f.Serves b)
    (hw : Workable n b) (hl : bands.length = n) :
    Returns (f.mergeOne bands) fun r => r.1.Serves b := by
  obtain ⟨g, rfl, rfl⟩ | ⟨g, rfl, rfl⟩ := hf.cases
  · have h : TwoBand.Supports (n / 2) := by simpa [Workable] using hw
    rw [mergeOne_twoBand g (hl ▸ rfl) h]
    exact returns_ok ⟨rfl, rfl⟩
  · have h : ThreeBand.frameSize ≤ n := by simpa [Workable] using hw
    rw [mergeOne_threeBand g (hl ▸ h)]
    exact returns_ok ⟨rfl, rfl⟩

/-! ### The two directions -/

/-- A two-band filter that remembers splitting only. -/
def splittingOf (f : TwoBand Float32) : TwoBand Float32 := { f with sum := .rest, difference := .rest }

/-- A two-band filter that remembers merging only. -/
def mergingOf (f : TwoBand Float32) : TwoBand Float32 := { f with odd := .rest, even := .rest }

theorem splitTwo_forget (f : TwoBand Float32) (frame : List Float32) :
    splitTwo (splittingOf f) frame = (splitTwo f frame).map fun r => (splittingOf r.1, r.2) := by
  unfold splitTwo
  split <;> rfl

theorem splitThree_forget (f : ThreeBand) (frame : List Float32) :
    splitThree { f with synthesis := [] } frame =
      (splitThree f frame).map fun r => ({ r.1 with synthesis := [] }, r.2) := by
  unfold splitThree
  split <;> rfl

theorem mergeTwo_forget (f : TwoBand Float32) (bands : Bands Float32) :
    mergeTwo (mergingOf f) bands = (mergeTwo f bands).map fun r => (mergingOf r.1, r.2) := by
  unfold mergeTwo
  cases bands.band 0 with
  | error e => rfl
  | ok low =>
    cases bands.band 1 with
    | error e => rfl
    | ok high =>
      simp only [ok_bind]
      split <;> rfl

theorem mergeThree_forget (f : ThreeBand) (bands : List Float32) :
    mergeThree { f with analysis := [] } bands =
      (mergeThree f bands).map fun r => ({ r.1 with analysis := [] }, r.2) := by
  unfold mergeThree
  split <;> rfl

/-- The filter without what it remembers of merging. -/
def forgetMerge : SplittingFilter → SplittingFilter
  | twoBand filters => twoBand (filters.map fun f => { f with sum := .rest, difference := .rest })
  | threeBand filters => threeBand (filters.map fun f => { f with synthesis := [] })

/-- The filter without what it remembers of splitting. -/
def forgetSplit : SplittingFilter → SplittingFilter
  | twoBand filters => twoBand (filters.map fun f => { f with odd := .rest, even := .rest })
  | threeBand filters => threeBand (filters.map fun f => { f with analysis := [] })

/-- Splitting does not look at the merging history. -/
theorem splitOne_forgetMerge (f : SplittingFilter) (frame : List Float32) :
    f.forgetMerge.splitOne frame = (f.splitOne frame).map fun r => (r.1.forgetMerge, r.2) := by
  rcases f with (_ | ⟨f, _ | _⟩) | (_ | ⟨f, _ | _⟩)
  · rfl
  · show (splitTwo (splittingOf f) frame).map _ = ((splitTwo f frame).map _).map _
    rw [splitTwo_forget]
    cases splitTwo f frame <;> rfl
  · rfl
  · rfl
  · show (splitThree { f with synthesis := [] } frame).map _ = ((splitThree f frame).map _).map _
    rw [splitThree_forget]
    cases splitThree f frame <;> rfl
  · rfl

/-- Merging does not look at the splitting history. -/
theorem mergeOne_forgetSplit (f : SplittingFilter) (bands : List Float32) :
    f.forgetSplit.mergeOne bands = (f.mergeOne bands).map fun r => (r.1.forgetSplit, r.2) := by
  rcases f with (_ | ⟨f, _ | _⟩) | (_ | ⟨f, _ | _⟩)
  · rfl
  · show (mergeTwo (mergingOf f) { data := bands, perBand := bands.length / 2 }).map _ =
      ((mergeTwo f { data := bands, perBand := bands.length / 2 }).map _).map _
    rw [mergeTwo_forget]
    cases mergeTwo f _ <;> rfl
  · rfl
  · rfl
  · show (mergeThree { f with analysis := [] } bands).map _ = ((mergeThree f bands).map _).map _
    rw [mergeThree_forget]
    cases mergeThree f bands <;> rfl
  · rfl

/-- Filters that differ in their merging history split alike. -/
theorem splitOne_congr {f g f' : SplittingFilter} {frame bands : List Float32}
    (h : f.forgetMerge = g.forgetMerge) (hf : f.splitOne frame = .ok (f', bands)) :
    ∃ g', g.splitOne frame = .ok (g', bands) ∧ f'.forgetMerge = g'.forgetMerge := by
  have hboth := splitOne_forgetMerge f frame
  rw [h, splitOne_forgetMerge, hf] at hboth
  obtain ⟨⟨g', _⟩, hg, heq⟩ := map_eq_ok.mp hboth
  obtain ⟨hg', rfl⟩ := Prod.mk.inj heq
  exact ⟨g', hg, hg'.symm⟩

/-- Filters that differ in their splitting history merge alike. -/
theorem mergeOne_congr {f g f' : SplittingFilter} {bands frame : List Float32}
    (h : f.forgetSplit = g.forgetSplit) (hf : f.mergeOne bands = .ok (f', frame)) :
    ∃ g', g.mergeOne bands = .ok (g', frame) ∧ f'.forgetSplit = g'.forgetSplit := by
  have hboth := mergeOne_forgetSplit f bands
  rw [h, mergeOne_forgetSplit, hf] at hboth
  obtain ⟨⟨g', _⟩, hg, heq⟩ := map_eq_ok.mp hboth
  obtain ⟨hg', rfl⟩ := Prod.mk.inj heq
  exact ⟨g', hg, hg'.symm⟩

/-- Splitting makes as many samples as it takes and leaves the merging history alone. -/
theorem splitOne_keeps {f : SplittingFilter} {frame : List Float32} (hf : f.Serves b)
    (hw : Workable n b) (hd : b ∣ n) (hl : frame.length = n) :
    Returns (f.splitOne frame) fun r => r.2.length = n ∧ r.1.forgetSplit = f.forgetSplit := by
  obtain ⟨g, rfl, rfl⟩ | ⟨g, rfl, rfl⟩ := hf.cases
  · have h : TwoBand.Supports (n / 2) := by simpa [Workable] using hw
    rw [splitOne_twoBand g (hl ▸ h)]
    refine returns_ok ⟨?_, rfl⟩
    simp only [List.length_append, TwoBand.split, List.length_zipWith, Cascade.length_run,
      List.length_map, length_pairs]
    omega
  · have h : ThreeBand.frameSize ≤ n := by simpa [Workable] using hw
    rw [splitOne_threeBand g (hl ▸ h)]
    exact returns_ok ⟨by rw [length_fit, hl], rfl⟩

/-- Merging makes as many samples as it takes and leaves the splitting history alone. -/
theorem mergeOne_keeps {f : SplittingFilter} {bands : List Float32} (hf : f.Serves b)
    (hw : Workable n b) (hd : b ∣ n) (hl : bands.length = n) :
    Returns (f.mergeOne bands) fun r => r.2.length = n ∧ r.1.forgetMerge = f.forgetMerge := by
  obtain ⟨g, rfl, rfl⟩ | ⟨g, rfl, rfl⟩ := hf.cases
  · have h : TwoBand.Supports (n / 2) := by simpa [Workable] using hw
    rw [mergeOne_twoBand g (hl ▸ rfl) h]
    refine returns_ok ⟨?_, rfl⟩
    simp only [TwoBand.merge, TwoBand.mergeExact, List.length_map, length_unpairs, List.length_zip,
      Cascade.length_run, List.length_zipWith, List.length_take, List.length_drop]
    omega
  · have h : ThreeBand.frameSize ≤ n := by simpa [Workable] using hw
    rw [mergeOne_threeBand g (hl ▸ h)]
    exact returns_ok ⟨by rw [length_fit, hl], rfl⟩

end SplittingFilter

end Duplex
