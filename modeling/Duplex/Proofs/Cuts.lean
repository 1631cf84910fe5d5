import Duplex.Proofs.Allpass
import Duplex.Proofs.Splitting
import Mathlib.Algebra.BigOperators.Ring.List

/-!
# Cuts of a signal into frames

A splitting filter takes a signal frame by frame, in buffers that may have several channels. Writing
one channel leaves the others alone, so each filter works on its channel as if it were the only one
(`SplittingFilter.runEach_channels`), and the frames of a channel give what the stream that they make
up gives, however it was cut (`SplittingFilter.runs_follow_recursion`).
-/

namespace Duplex

open Signal

/-! ### Channels of a buffer -/

namespace ChannelBuffer

variable {α : Type} (x : ChannelBuffer α) {c : Nat}

/-- The samples of one channel. -/
def samplesOf (c : Nat) : List α := (x.data.drop (c * x.frames)).take x.frames

/-- The samples of one band of one channel. -/
def bandSamples (band c : Nat) : List α := ((x.samplesOf c).drop (band * x.perBand)).take x.perBand

variable {x}

theorem room (hc : c < x.channels) : c * x.frames + x.frames ≤ x.data.length := by
  rw [x.length_data, Nat.mul_comm x.frames]
  exact block_room hc

theorem length_samplesOf (hc : c < x.channels) : (x.samplesOf c).length = x.frames := by
  have hroom := room hc
  rw [samplesOf, List.length_take, List.length_drop]
  omega

theorem bandsOf_eq (hc : c < x.channels) : x.bandsOf c = .ok (x.samplesOf c) := by
  rw [bandsOf, slice_eq_ok (room hc), samplesOf]

theorem view_eq (hc : c < x.channels) :
    x.view c = .ok { data := x.samplesOf c, perBand := x.perBand } := by
  rw [view, bandsOf_eq hc]
  rfl

/-- A band lies within its channel. -/
theorem band_room {band : Nat} (hband : band < x.bands) : band * x.perBand + x.perBand ≤ x.frames :=
  (block_room hband).trans (Nat.mul_div_le x.frames x.bands)

theorem length_bandSamples {band : Nat} (hband : band < x.bands) (hc : c < x.channels) :
    (x.bandSamples band c).length = x.perBand := by
  have hroom := band_room hband
  rw [bandSamples, List.length_take, List.length_drop, length_samplesOf hc]
  omega

theorem slice_samplesOf {band : Nat} (hband : band < x.bands) (hc : c < x.channels) :
    slice (x.samplesOf c) (band * x.perBand) x.perBand = .ok (x.bandSamples band c) := by
  rw [slice_eq_ok (by rw [length_samplesOf hc]; exact band_room hband), bandSamples]

theorem channel_eq {band : Nat} (hband : band < x.bands) (hc : c < x.channels) :
    x.channel band c = .ok (x.bandSamples band c) := by
  have hband_room := band_room hband
  have hroom := room hc
  have hleast : min x.perBand (x.frames - band * x.perBand) = x.perBand := by omega
  rw [channel, offset, slice_eq_ok (by omega), bandSamples, samplesOf, List.drop_take, List.drop_drop,
    List.take_take, hleast]

/-- Writing as many samples as a channel has replaces the channel. -/
theorem writeBands_eq {src : List α} (hc : c < x.channels) (hsrc : src.length = x.frames) :
    x.writeBands c 0 src = .ok (x.writeData (c * x.frames) src) := by
  rw [writeBands, bandsOf_eq hc, Except.map, overlay_all (by rw [hsrc, length_samplesOf hc])]

theorem samplesOf_writeData_self {src : List α} (hc : c < x.channels) (hsrc : src.length = x.frames) :
    (x.writeData (c * x.frames) src).samplesOf c = src := by
  have hroom := room hc
  show ((overlay x.data (c * x.frames) src).drop (c * x.frames)).take x.frames = src
  rw [overlay_of_le (by omega), List.drop_left' (by rw [List.length_take]; omega), List.take_left' hsrc]

/-- Writing a channel leaves the others alone. -/
theorem samplesOf_writeData_other {d : Nat} {src : List α} (hc : c < x.channels) (hne : d ≠ c)
    (hsrc : src.length = x.frames) : (x.writeData (c * x.frames) src).samplesOf d = x.samplesOf d := by
  have hroom := room hc
  show ((overlay x.data (c * x.frames) src).drop (d * x.frames)).take x.frames = _
  rw [overlay_of_le (by omega), samplesOf]
  rcases Nat.lt_or_gt_of_ne hne with h | h
  · have hle : d * x.frames + x.frames ≤ c * x.frames := block_room h
    rw [List.drop_append_of_le_length (by rw [List.length_take]; omega),
      List.take_append_of_le_length (by rw [List.length_drop, List.length_take]; omega), List.drop_take,
      List.take_take]
    congr 1
    omega
  · obtain ⟨rest, hrest⟩ : ∃ rest, d * x.frames = c * x.frames + x.frames + rest :=
      Nat.exists_eq_add_of_le (block_room h)
    have hfront : (x.data.take (c * x.frames) ++ src).length = c * x.frames + x.frames := by
      rw [List.length_append, List.length_take]
      omega
    rw [hrest, hsrc, ← List.append_assoc, ← hfront, List.drop_length_add_append, List.drop_drop]

end ChannelBuffer

namespace SplittingFilter

open Duplex.Filter

/-! ### Each filter on its channel -/

/-- If the filters give frames of the size of a channel, each of them is run once, on its channel,
and what it gives is in its channel afterwards. -/
theorem runEach_channels {φ : Type} (run : φ → ChannelBuffer Float32 → Nat → Checked (φ × List Float32))
    (result : φ → Nat → φ × List Float32) {source target : ChannelBuffer Float32} {filters : List φ}
    {first : Nat} (hsource : first + filters.length = source.channels)
    (htarget : target.channels = source.channels)
    (hrun : ∀ f c, c < source.channels → run f source c = .ok (result f c))
    (hlength : ∀ f c, c < source.channels → (result f c).2.length = target.frames) :
    ∃ filters' target', runEach run source filters first target = .ok (filters', target') ∧
      (filters'.length = filters.length ∧ target'.dims = target.dims) ∧
      (∀ c < first, target'.samplesOf c = target.samplesOf c) ∧
      ∀ i f, filters[i]? = some f → filters'[i]? = some (result f (first + i)).1 ∧
        target'.samplesOf (first + i) = (result f (first + i)).2 := by
  induction filters generalizing first target with
  | nil =>
    refine ⟨[], target, rfl, ⟨rfl, rfl⟩, fun c _ => rfl, ?_⟩
    intro i f hf
    exact absurd hf (by simp)
  | cons f filters ih =>
    rw [List.length_cons] at hsource
    have hfirst : first < source.channels := by omega
    have hsize := hlength f first hfirst
    have hroom : first < target.channels := htarget ▸ hfirst
    have hleft : first + 1 + filters.length = source.channels := by omega
    have hwritten : (target.writeData (first * target.frames) (result f first).2).channels =
        source.channels := htarget
    obtain ⟨filters', target', hrest, ⟨hl, hdims⟩, hbefore, hafter⟩ := ih hleft hwritten hlength
    refine ⟨(result f first).1 :: filters', target', ?_, ⟨by simp [hl], hdims⟩, ?_, ?_⟩
    · rw [runEach, if_pos hfirst, hrun f first hfirst, ok_bind]
      dsimp only
      rw [ChannelBuffer.writeBands_eq hroom hsize, ok_bind, hrest]
      rfl
    · intro c hc
      rw [hbefore c (by omega), ChannelBuffer.samplesOf_writeData_other hroom (by omega) hsize]
    · intro i g hg
      cases i with
      | zero =>
        obtain rfl : f = g := by simpa using hg
        refine ⟨rfl, ?_⟩
        rw [Nat.add_zero, hbefore first (by omega), ChannelBuffer.samplesOf_writeData_self hroom hsize]
      | succ i =>
        have hplace : first + (i + 1) = first + 1 + i := by omega
        rw [List.getElem?_cons_succ] at hg
        rw [List.getElem?_cons_succ, hplace]
        exact hafter i g hg

/-- Buffers for a frame of each of so many channels and for their two bands, of 1 to 160 samples
each. -/
structure Pair (k : Nat) (data bands : ChannelBuffer Float32) : Prop where
  channels : data.channels = k
  dims : bands.dims = (data.frames, k, 2)
  least : 2 ≤ data.frames
  most : data.frames ≤ 320

/-- Split a frame into a band buffer and look at the two bands of one channel. -/
def splitFrame (c : Nat) (f : SplittingFilter) (call : ChannelBuffer Float32 × ChannelBuffer Float32) :
    Checked (SplittingFilter × List Float32 × List Float32) := do
  let split ← f.analysis call.1 call.2
  let low ← split.2.channel 0 c
  let high ← split.2.channel 1 c
  return (split.1, low, high)

/-- Merge the bands of a band buffer into a frame and look at one channel. -/
def mergeFrame (c : Nat) (f : SplittingFilter) (call : ChannelBuffer Float32 × ChannelBuffer Float32) :
    Checked (SplittingFilter × List Float32) := do
  let merged ← f.synthesis call.1 call.2
  let frame ← merged.2.bandsOf c
  return (merged.1, frame)

/-- Two-band filters for so many channels, of which one is the given one. -/
def Filters (channels c : Nat) (f : SplittingFilter) (g : TwoBand Float32) : Prop :=
  ∃ filters, f = twoBand filters ∧ filters.length = channels ∧ filters[c]? = some g

variable {channels c : Nat} {f : SplittingFilter} {g : TwoBand Float32}
  {data bands : ChannelBuffer Float32}

namespace Pair

variable (h : Pair channels data bands)

include h

theorem frames : bands.frames = data.frames := (Prod.mk.inj h.dims).1

theorem bands_channels : bands.channels = channels := (Prod.mk.inj (Prod.mk.inj h.dims).2).1

theorem bands_bands : bands.bands = 2 := (Prod.mk.inj (Prod.mk.inj h.dims).2).2

theorem even : 2 * bands.perBand = data.frames := by
  have hdvd := bands.bands_dvd
  rw [h.bands_bands, h.frames] at hdvd
  rw [ChannelBuffer.perBand, h.bands_bands, h.frames, Nat.mul_div_cancel' hdvd]

theorem supports : TwoBand.Supports bands.perBand := by
  have heven := h.even
  have hleast := h.least
  have hmost := h.most
  constructor
  · omega
  · show bands.perBand ≤ 160
    omega

theorem length_bandSamples {band : Nat} (hband : band < 2) (hc : c < channels) :
    (bands.bandSamples band c).length = bands.perBand :=
  ChannelBuffer.length_bandSamples (h.bands_bands ▸ hband) (h.bands_channels ▸ hc)

theorem length_split (f : TwoBand Float32) (hc : c < channels) :
    (f.split (data.samplesOf c)).2.1.length = bands.perBand ∧
      (f.split (data.samplesOf c)).2.2.length = bands.perBand := by
  refine TwoBand.length_split f ?_
  rw [ChannelBuffer.length_samplesOf (h.channels ▸ hc), h.even]

/-- Each filter splits its channel. -/
theorem analysis {filters : List (TwoBand Float32)} (hfilters : filters.length = channels)
    (hc : filters[c]? = some g) :
    ∃ filters' bands', (twoBand filters).analysis data bands = .ok (twoBand filters', bands') ∧
      (filters'.length = channels ∧ bands'.dims = bands.dims) ∧
      filters'[c]? = some (g.split (data.samplesOf c)).1 ∧
      bands'.samplesOf c = (g.split (data.samplesOf c)).2.1 ++ (g.split (data.samplesOf c)).2.2 := by
  have hrun (f : TwoBand Float32) (d : Nat) (hd : d < data.channels) :
      (do splitTwo f (← data.bandsOf d)) = .ok ((f.split (data.samplesOf d)).1,
        (f.split (data.samplesOf d)).2.1 ++ (f.split (data.samplesOf d)).2.2) := by
    have hsupports : TwoBand.Supports ((data.samplesOf d).length / 2) := by
      rw [ChannelBuffer.length_samplesOf hd, ← h.even, Nat.mul_div_cancel_left _ Nat.zero_lt_two]
      exact h.supports
    rw [ChannelBuffer.bandsOf_eq hd, ok_bind, splitTwo, if_pos hsupports]
  have hlength (f : TwoBand Float32) (d : Nat) (hd : d < data.channels) :
      ((f.split (data.samplesOf d)).2.1 ++ (f.split (data.samplesOf d)).2.2).length = bands.frames := by
    obtain ⟨hlow, hhigh⟩ := h.length_split f (h.channels ▸ hd)
    rw [List.length_append, hlow, hhigh, h.frames, ← h.even, Nat.two_mul]
  obtain ⟨filters', bands', hall, ⟨hl, hdims⟩, -, hafter⟩ := runEach_channels
    (fun f data d => do splitTwo f (← data.bandsOf d))
    (fun f d => ((f.split (data.samplesOf d)).1,
      (f.split (data.samplesOf d)).2.1 ++ (f.split (data.samplesOf d)).2.2))
    (by rw [Nat.zero_add, hfilters, h.channels]) (h.bands_channels.trans h.channels.symm) hrun hlength
  have hchannel := hafter c g hc
  rw [Nat.zero_add] at hchannel
  refine ⟨filters', bands', ?_, ⟨hl.trans hfilters, hdims⟩, hchannel⟩
  rw [SplittingFilter.analysis, hall]
  rfl

/-- Each filter merges the bands of its channel. -/
theorem synthesis {filters : List (TwoBand Float32)} (hfilters : filters.length = channels)
    (hc : filters[c]? = some g) :
    ∃ filters' data', (twoBand filters).synthesis bands data = .ok (twoBand filters', data') ∧
      (filters'.length = channels ∧ data'.dims = data.dims) ∧
      filters'[c]? = some (g.merge (bands.bandSamples 0 c) (bands.bandSamples 1 c)).1 ∧
      data'.samplesOf c = (g.merge (bands.bandSamples 0 c) (bands.bandSamples 1 c)).2 := by
  have hrun (f : TwoBand Float32) (d : Nat) (hd : d < bands.channels) :
      (do mergeTwo f (← bands.view d)) =
        .ok (f.merge (bands.bandSamples 0 d) (bands.bandSamples 1 d)) := by
    have hlow : (bands.bandSamples 0 d).length = bands.perBand :=
      h.length_bandSamples Nat.zero_lt_two (h.bands_channels ▸ hd)
    rw [ChannelBuffer.view_eq hd, ok_bind, mergeTwo]
    simp only [Bands.band, ChannelBuffer.slice_samplesOf (h.bands_bands ▸ Nat.zero_lt_two) hd,
      ChannelBuffer.slice_samplesOf (h.bands_bands ▸ Nat.one_lt_two) hd, ok_bind, hlow,
      if_pos h.supports]
    rfl
  have hlength (f : TwoBand Float32) (d : Nat) (hd : d < bands.channels) :
      (f.merge (bands.bandSamples 0 d) (bands.bandSamples 1 d)).2.length = data.frames := by
    rw [TwoBand.length_merge f (h.length_bandSamples Nat.zero_lt_two (h.bands_channels ▸ hd))
      (h.length_bandSamples Nat.one_lt_two (h.bands_channels ▸ hd)), h.even]
  obtain ⟨filters', data', hall, ⟨hl, hdims⟩, -, hafter⟩ := runEach_channels
    (fun f bands d => do mergeTwo f (← bands.view d))
    (fun f d => f.merge (bands.bandSamples 0 d) (bands.bandSamples 1 d))
    (by rw [Nat.zero_add, hfilters, h.bands_channels]) (h.channels.trans h.bands_channels.symm) hrun
    hlength
  have hchannel := hafter c g hc
  rw [Nat.zero_add] at hchannel
  refine ⟨filters', data', ?_, ⟨hl.trans hfilters, hdims⟩, hchannel⟩
  rw [SplittingFilter.synthesis, hall]
  rfl

theorem splitFrame (hc : c < channels) (hf : Filters channels c f g) :
    ∃ f', splitFrame c f (data, bands) = .ok (f', (g.split (data.samplesOf c)).2) ∧
      Filters channels c f' (g.split (data.samplesOf c)).1 := by
  obtain ⟨filters, rfl, hfilters, hg⟩ := hf
  obtain ⟨filters', bands', hanalysis, ⟨hl, hdims⟩, hnext, hsamples⟩ := h.analysis hfilters hg
  obtain ⟨hlow, hhigh⟩ := h.length_split g hc
  have hafter : Pair channels data bands' := ⟨h.channels, hdims.trans h.dims, h.least, h.most⟩
  have hperBand : bands'.perBand = bands.perBand := by
    have heven := h.even
    have hsame := hafter.even
    omega
  have hchannel {band : Nat} (hband : band < 2) :
      bands'.channel band c = .ok (bands'.bandSamples band c) :=
    ChannelBuffer.channel_eq (hafter.bands_bands ▸ hband) (hafter.bands_channels ▸ hc)
  refine ⟨twoBand filters', ?_, filters', rfl, hl, hnext⟩
  rw [SplittingFilter.splitFrame, hanalysis, ok_bind]
  dsimp only
  rw [hchannel Nat.zero_lt_two, ok_bind, hchannel Nat.one_lt_two, ok_bind, ChannelBuffer.bandSamples,
    ChannelBuffer.bandSamples, hsamples, hperBand, Nat.zero_mul, List.drop_zero, List.take_left' hlow,
    Nat.one_mul, List.drop_left' hlow, List.take_of_length_le (Nat.le_of_eq hhigh)]
  rfl

theorem mergeFrame (hc : c < channels) (hf : Filters channels c f g) :
    ∃ f', mergeFrame c f (bands, data) =
        .ok (f', (g.mergePiece (bands.bandSamples 0 c, bands.bandSamples 1 c)).2) ∧
      Filters channels c f' (g.mergePiece (bands.bandSamples 0 c, bands.bandSamples 1 c)).1 := by
  obtain ⟨filters, rfl, hfilters, hg⟩ := hf
  obtain ⟨filters', data', hsynthesis, ⟨hl, hdims⟩, hnext, hsamples⟩ := h.synthesis hfilters hg
  have hchannels : data'.channels = data.channels := (Prod.mk.inj (Prod.mk.inj hdims).2).1
  refine ⟨twoBand filters', ?_, filters', rfl, hl, hnext⟩
  rw [SplittingFilter.mergeFrame, hsynthesis, ok_bind]
  dsimp only
  rw [ChannelBuffer.bandsOf_eq (by rw [hchannels, h.channels]; exact hc), ok_bind, hsamples]
  rfl

end Pair

/-! ### Runs -/

/-- Frames are split without a fault, and give the bands of the signal that they make up. -/
theorem splitFrames_eq (hc : c < channels) (hf : Filters channels c f g)
    {frames : List (ChannelBuffer Float32 × ChannelBuffer Float32)}
    (h : ∀ call ∈ frames, Pair channels call.1 call.2) :
    ∃ f' bands, runChecked (splitFrame c) f frames = .ok (f', bands) ∧
      (bands.flatMap (·.1), bands.flatMap (·.2)) = (g.split (frames.flatMap (·.1.samplesOf c))).2 := by
  have hstep (f : SplittingFilter) (g : TwoBand Float32)
      (call : ChannelBuffer Float32 × ChannelBuffer Float32) (hf : Filters channels c f g)
      (hcall : Pair channels call.1 call.2) :
      ∃ f', splitFrame c f call = .ok (f', (g.split (call.1.samplesOf c)).2) ∧
        Filters channels c f' (g.split (call.1.samplesOf c)).1 := hcall.splitFrame hc hf
  obtain ⟨f', hrun, -⟩ := runChecked_simulates hstep hf h
  have heven : ∀ frame ∈ frames.map (·.1.samplesOf c), 2 ∣ frame.length := by
    intro frame hframe
    obtain ⟨call, hcall, rfl⟩ := List.mem_map.mp hframe
    rw [ChannelBuffer.length_samplesOf ((h call hcall).channels ▸ hc), ← (h call hcall).even]
    exact Nat.dvd_mul_right 2 _
  have hall := TwoBand.runAll_split g heven
  rw [← List.flatMap_def] at hall
  exact ⟨f', _, hrun, by rw [hall]⟩

/-- Pieces are merged without a fault, and give the stream of the bands that they make up. -/
theorem mergeFrames_eq (hc : c < channels) (hf : Filters channels c f g)
    {pieces : List (ChannelBuffer Float32 × ChannelBuffer Float32)}
    (h : ∀ call ∈ pieces, Pair channels call.2 call.1) :
    ∃ f' frames, runChecked (mergeFrame c) f pieces = .ok (f', frames) ∧
      frames.flatten = (g.merge (pieces.flatMap (·.1.bandSamples 0 c))
        (pieces.flatMap (·.1.bandSamples 1 c))).2 := by
  have hstep (f : SplittingFilter) (g : TwoBand Float32)
      (call : ChannelBuffer Float32 × ChannelBuffer Float32) (hf : Filters channels c f g)
      (hcall : Pair channels call.2 call.1) :
      ∃ f', mergeFrame c f call =
          .ok (f', (g.mergePiece (call.1.bandSamples 0 c, call.1.bandSamples 1 c)).2) ∧
        Filters channels c f' (g.mergePiece (call.1.bandSamples 0 c, call.1.bandSamples 1 c)).1 :=
    hcall.mergeFrame hc hf
  obtain ⟨f', hrun, -⟩ := runChecked_simulates hstep hf h
  have hsizes : ∀ piece ∈ pieces.map (fun call => (call.1.bandSamples 0 c, call.1.bandSamples 1 c)),
      piece.1.length = piece.2.length := by
    intro piece hpiece
    obtain ⟨call, hcall, rfl⟩ := List.mem_map.mp hpiece
    rw [(h call hcall).length_bandSamples Nat.zero_lt_two hc,
      (h call hcall).length_bandSamples Nat.one_lt_two hc]
  have hall := TwoBand.runAll_merge g hsizes
  rw [List.flatMap_map, List.flatMap_map] at hall
  exact ⟨f', _, hrun, by rw [hall]⟩

theorem even_frames (hc : c < channels) {frames : List (ChannelBuffer Float32 × ChannelBuffer Float32)}
    (h : ∀ call ∈ frames, Pair channels call.1 call.2) :
    2 ∣ (frames.flatMap (·.1.samplesOf c)).length := by
  rw [List.length_flatMap]
  refine List.dvd_sum ?_
  intro size hsize
  obtain ⟨call, hcall, rfl⟩ := List.mem_map.mp hsize
  rw [ChannelBuffer.length_samplesOf ((h call hcall).channels ▸ hc), ← (h call hcall).even]
  exact Nat.dvd_mul_right 2 _

/-- The bands of pieces are of one length. -/
theorem length_bands_eq (hc : c < channels)
    {pieces : List (ChannelBuffer Float32 × ChannelBuffer Float32)}
    (h : ∀ call ∈ pieces, Pair channels call.2 call.1) :
    (pieces.flatMap (·.1.bandSamples 0 c)).length = (pieces.flatMap (·.1.bandSamples 1 c)).length := by
  rw [List.length_flatMap, List.length_flatMap]
  congr 1
  refine List.map_congr_left ?_
  intro call hcall
  rw [(h call hcall).length_bandSamples Nat.zero_lt_two hc,
    (h call hcall).length_bandSamples Nat.one_lt_two hc]

/-- Fresh filters are at rest, each of them. -/
theorem create_filters (h : create channels 2 = .ok f) (hc : c < channels) :
    Filters channels c f .rest := by
  rw [create, filled] at h
  split at h
  · refine ⟨List.replicate channels .rest, (Except.ok.inj h).symm, List.length_replicate, ?_⟩
    rw [List.getElem?_replicate, if_pos hc]
  · cases h

/-- Fresh two-band filters do not notice how a signal is cut. On any channel, frames of even sizes from
2 to 320 give, one after another, the two bands that the recursion of the sections gives for the whole
stream from rest, three times over, and pieces of 1 to 160 samples of two bands give the stream that it
gives for them. The passes of a cascade may be made in place between two buffers of any length. -/
theorem runs_follow_recursion (h : create channels 2 = .ok f) (hc : c < channels) :
    (∀ (x : List Float32) (frames : List (ChannelBuffer Float32 × ChannelBuffer Float32)),
      (∀ call ∈ frames, Pair channels call.1 call.2) → frames.flatMap (·.1.samplesOf c) = x →
      ∃ f' bands, runChecked (splitFrame c) f frames = .ok (f', bands) ∧
        bands.flatMap (·.1) = window (TwoBand.lowOf (streamOf 0 x)) 0 (x.length / 2) ∧
        bands.flatMap (·.2) = window (TwoBand.highOf (streamOf 0 x)) 0 (x.length / 2)) ∧
    (∀ (low high : List Float32) (pieces : List (ChannelBuffer Float32 × ChannelBuffer Float32)),
      (∀ call ∈ pieces, Pair channels call.2 call.1) →
      pieces.flatMap (·.1.bandSamples 0 c) = low → pieces.flatMap (·.1.bandSamples 1 c) = high →
      ∃ f' frames, runChecked (mergeFrame c) f pieces = .ok (f', frames) ∧
        frames.flatten =
          window (TwoBand.mergedOf (streamOf 0 low) (streamOf 0 high)) 0 (2 * low.length)) ∧
    ∀ (k : Coefficients Float32) (s : Cascade Float32) (data scratch : List Float32), data ≠ [] →
      scratch.length = data.length → s.passes k data scratch = .ok (s.run k data) := by
  have hf := create_filters h hc
  refine ⟨?_, ?_, fun k s data scratch => s.passes_eq k⟩
  · intro x frames hframes hx
    obtain ⟨f', bands, hrun, hbands⟩ := splitFrames_eq hc hf hframes
    have heven := even_frames hc hframes
    rw [hx] at hbands heven
    have hstream : x = window (streamOf 0 x) 0 (2 * (x.length / 2)) := by
      rw [Nat.mul_div_cancel' heven]
      exact eq_window_streamOf 0 x
    have hsplit : (TwoBand.split .rest x).2 =
        (window (TwoBand.lowOf (streamOf 0 x)) 0 (x.length / 2),
          window (TwoBand.highOf (streamOf 0 x)) 0 (x.length / 2)) := by
      conv_lhs => rw [hstream]
      rw [TwoBand.split_window]
    exact ⟨f', bands, hrun, Prod.mk.inj (hbands.trans hsplit)⟩
  · intro low high pieces hpieces hlow hhigh
    obtain ⟨f', frames, hrun, hframes⟩ := mergeFrames_eq hc hf hpieces
    have hlength := length_bands_eq hc hpieces
    rw [hlow, hhigh] at hframes hlength
    refine ⟨f', frames, hrun, ?_⟩
    rw [hframes, ← TwoBand.merge_window, ← eq_window_streamOf, hlength, ← eq_window_streamOf]

/-- Six samples on the second of two channels, as frames of two samples and of four, and back in
pieces of one sample and of two. -/
theorem runs_follow_recursion_two_and_four :
    ∃ (f : SplittingFilter) (two four twoBands fourBands : ChannelBuffer Float32),
      create 2 2 = .ok f ∧
      ChannelBuffer.create 2 2 1 = .ok two ∧ ChannelBuffer.create 4 2 1 = .ok four ∧
      ChannelBuffer.create 2 2 2 = .ok twoBands ∧ ChannelBuffer.create 4 2 2 = .ok fourBands ∧
      (∃ f' bands, runChecked (splitFrame 1) f
          [(two.writeData 2 [1, 2], twoBands), (four.writeData 4 [3, 4, 5, 6], fourBands)] =
            .ok (f', bands) ∧
        bands.flatMap (·.1) = window (TwoBand.lowOf (streamOf 0 [1, 2, 3, 4, 5, 6])) 0 3 ∧
        bands.flatMap (·.2) = window (TwoBand.highOf (streamOf 0 [1, 2, 3, 4, 5, 6])) 0 3) ∧
      (∃ f' frames, runChecked (mergeFrame 1) f
          [(twoBands.writeData 2 [1, 4], two), (fourBands.writeData 4 [2, 3, 5, 6], four)] =
            .ok (f', frames) ∧
        frames.flatten = window (TwoBand.mergedOf (streamOf 0 [1, 2, 3]) (streamOf 0 [4, 5, 6])) 0 6) ∧
      (Cascade.rest : Cascade Float32).passes .first [1, 2] [0, 0] =
        .ok (Cascade.rest.run .first [1, 2]) := by
  obtain ⟨two, htwo⟩ : ∃ x, (ChannelBuffer.create 2 2 1 : Checked (ChannelBuffer Float32)) = .ok x :=
    ⟨_, rfl⟩
  obtain ⟨four, hfour⟩ : ∃ x, (ChannelBuffer.create 4 2 1 : Checked (ChannelBuffer Float32)) = .ok x :=
    ⟨_, rfl⟩
  obtain ⟨twoBands, htwoBands⟩ :
      ∃ x, (ChannelBuffer.create 2 2 2 : Checked (ChannelBuffer Float32)) = .ok x := ⟨_, rfl⟩
  obtain ⟨fourBands, hfourBands⟩ :
      ∃ x, (ChannelBuffer.create 4 2 2 : Checked (ChannelBuffer Float32)) = .ok x := ⟨_, rfl⟩
  obtain ⟨f, hf⟩ : ∃ f, create 2 2 = .ok f := ⟨_, rfl⟩
  obtain ⟨hsplit, hmerge, hpasses⟩ := runs_follow_recursion hf Nat.one_lt_two
  refine ⟨f, two, four, twoBands, fourBands, hf, htwo, hfour, htwoBands, hfourBands, ?_, ?_,
    hpasses .first .rest [1, 2] [0, 0] (by simp) rfl⟩
  all_goals
    obtain rfl := Except.ok.inj htwo
    obtain rfl := Except.ok.inj hfour
    obtain rfl := Except.ok.inj htwoBands
    obtain rfl := Except.ok.inj hfourBands
  · refine hsplit [1, 2, 3, 4, 5, 6] _ ?_ rfl
    intro call hcall
    rcases List.mem_pair.mp hcall with rfl | rfl
    · exact ⟨rfl, rfl, by decide, by decide⟩
    · exact ⟨rfl, rfl, by decide, by decide⟩
  · refine hmerge [1, 2, 3] [4, 5, 6] _ ?_ rfl rfl
    intro call hcall
    rcases List.mem_pair.mp hcall with rfl | rfl
    · exact ⟨rfl, rfl, by decide, by decide⟩
    · exact ⟨rfl, rfl, by decide, by decide⟩

end SplittingFilter

end Duplex
