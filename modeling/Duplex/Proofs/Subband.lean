import Duplex.Buffer.Subband
import Duplex.Proofs.Splitting

/-!
# Subband frames: what filling and reading do

A `SubbandFrame` is `Shaped` when its full-band frame and its bands have the same size and its
filter serves as many bands as there are. Freshening, writing and storing bands keep the shape;
`fill` and `readInto` keep it too and give a result on every workable shape. With one band, bands
and full-band frame are the same storage and nothing is computed; otherwise `fill_of_split` and
`readInto_of_split` say what the filter makes of the samples.
-/

namespace Duplex

open Signal

variable {n b : Nat}

namespace SubbandFrame

/-- The full-band frame and the bands have the given size, and the filter fits. -/
structure Shaped (f : SubbandFrame) (n b : Nat) : Prop where
  full : f.full.Shaped n 1
  whole : f.split = none → b = 1
  bands : ∀ s, f.split = some s → s.bands.Shaped n b ∧ s.filter.Serves b

/-- The filter of a frame in several bands. -/
def filter (f : SubbandFrame) : Option SplittingFilter := f.split.map (·.filter)

/-- Frames of one to three bands of equal size can be made, each with a filter that was just made. -/
theorem create_returns (hb : 1 ≤ b ∧ b ≤ 3) (hd : b ∣ n) (hn : n < storageLimit) :
    ∃ f : SubbandFrame, (create n b).run = .ok (.ok f) ∧ f.Shaped n b ∧
      (b ≠ 1 → ∃ g, SplittingFilter.create 1 b = .ok g ∧ f.filter = some g) := by
  obtain ⟨full, hfull, hshape⟩ :=
    DualBuffer.create_shaped (n := n) (b := 1) Nat.one_pos (one_dvd n) hn
  rw [create, if_neg (by simp [hb, hd]), run_lift_bind, hfull, ok_bind]
  by_cases h1 : b = 1
  · rw [if_pos h1]
    exact ⟨⟨full, none⟩, rfl, ⟨hshape, fun _ => h1, by simp⟩, fun h => absurd h1 h⟩
  · obtain ⟨bands, hbands, hbshape⟩ := DualBuffer.create_shaped (b := b) (by omega) hd hn
    obtain ⟨filter, hfilter, hserves⟩ := SplittingFilter.create_serves (b := b) (by omega)
    rw [if_neg h1, run_lift_bind, hbands, ok_bind, run_lift_bind, hfilter, ok_bind]
    refine ⟨⟨full, some ⟨bands, filter⟩⟩, rfl, ⟨hshape, by simp, ?_⟩, fun _ => ⟨filter, rfl, rfl⟩⟩
    rintro s ⟨⟩
    exact ⟨hbshape, hserves⟩

/-- Frames of any other number of bands are refused. -/
theorem create_refuses (h : ¬ ((1 ≤ b ∧ b ≤ 3) ∧ b ∣ n)) :
    (create n b).run = .ok (.error (.unsupportedBandCount b)) := by
  rw [create, if_pos h]
  rfl

variable {f : SubbandFrame}

@[simp] theorem storage_withStorage (f : SubbandFrame) (d : DualBuffer) :
    (f.withStorage d).storage = d := by
  obtain ⟨full, split⟩ := f
  cases split <;> rfl

namespace Shaped

variable (h : f.Shaped n b)

include h

theorem frames : f.frames = n := h.full.ints.frames

theorem storage : f.storage.Shaped n b := by
  obtain ⟨full, split⟩ := f
  cases split with
  | none =>
    obtain rfl : b = 1 := h.whole rfl
    exact h.full
  | some s => exact (h.bands s rfl).1

theorem withStorage {d : DualBuffer} (hd : d.Shaped n b) : (f.withStorage d).Shaped n b := by
  obtain ⟨full, split⟩ := f
  cases split with
  | none =>
    obtain rfl : b = 1 := h.whole rfl
    exact ⟨hd, fun _ => rfl, by simp [SubbandFrame.withStorage]⟩
  | some s =>
    refine ⟨h.full, by simp [SubbandFrame.withStorage], ?_⟩
    rintro s ⟨⟩
    exact ⟨hd, (h.bands _ rfl).2⟩

variable {S : Type} [Sample S] [Sample.Lawful S]

theorem sync : (f.sync S).Shaped n b := h.withStorage (Sample.Lawful.sync_shaped h.storage)

theorem put (src : List S) : (f.put src).Shaped n b := h.withStorage (h.storage.write 0 src)

theorem length_view : (f.view S).data.length = n := (Sample.Lawful.read_hasShape h.storage).length

end Shaped

/-! ### With one band -/

theorem fill_of_whole (h : f.Shaped n b) (hs : f.split = none) (samples : List Int16) :
    f.fill samples = .ok { f with full := f.full.write 0 (fit n 0 samples) } := by
  obtain ⟨full, split⟩ := f
  subst hs
  rw [fill, h.frames]
  rfl

theorem readInto_of_whole (hs : f.split = none) (dest : List Int16) :
    f.readInto dest = .ok ({ f with full := f.full.syncInts },
      min f.full.ints.data.length dest.length, overlay dest 0 f.full.ints.data) := by
  obtain ⟨full, split⟩ := f
  subst hs
  rw [readInto]
  simp only [synthesis, ok_bind, DualBuffer.ints_syncInts]
  rfl

/-! ### With several bands -/

/-- Filling splits the samples, cut or padded to a frame, into the bands. -/
theorem fill_of_split {s : SplitBands} (h : f.Shaped n b) (hs : f.split = some s)
    (samples : List Int16) :
    f.fill samples = (s.filter.splitOne ((fit n 0 samples).map Pcm.widen)).map fun (filter, out) =>
      { full := (f.full.write 0 (fit n 0 samples)).syncFloats
        split := some
          { bands := { s.bands.claimFloats with
                        floatCopy := s.bands.claimFloats.floatCopy.writeData 0 out }
            filter } } := by
  obtain ⟨hbands, hserves⟩ := h.bands s hs
  have hfull : (f.full.write 0 (fit n 0 samples)).Shaped n 1 := h.full.write 0 _
  have hfloats : (f.full.write 0 (fit n 0 samples)).syncFloats.floatCopy.data =
      (fit n 0 samples).map Pcm.widen := by
    rw [DualBuffer.floatCopy_syncFloats]
    have hholds : (f.full.write 0 (fit n 0 samples)).Holds (fit n 0 samples) := by
      have := h.full.write_holds (S := Int16) (length_fit n 0 samples)
      rwa [map_embed_int16] at this
    exact hholds.floats
  rw [fill, h.frames]
  simp only [analysis, hs]
  rw [SplittingFilter.analysis_eq hserves hfull.syncFloats.floats hbands.claimFloats.floats,
    hfloats]
  cases s.filter.splitOne _ <;> rfl

/-- Reading merges the bands into the full-band frame and rounds it. -/
theorem readInto_of_split {s : SplitBands} (h : f.Shaped n b) (hs : f.split = some s)
    {dest : List Int16} (hdest : dest.length = n) :
    f.readInto dest = (s.filter.mergeOne s.bands.floats.data).map fun (filter, out) =>
      ({ full := ({ f.full.claimFloats with
                    floatCopy := f.full.claimFloats.floatCopy.writeData 0 out }).syncInts
         split := some { bands := s.bands.syncFloats, filter } },
        n, (f.full.claimFloats.floatCopy.writeData 0 out).data.map Pcm.round) := by
  obtain ⟨hbands, hserves⟩ := h.bands s hs
  have hfull : f.full.claimFloats.floatCopy.HasShape n 1 := h.full.claimFloats.floats
  have hints (x : ChannelBuffer Float32) (hx : x.HasShape n 1) :
      ({ f.full.claimFloats with floatCopy := x } : DualBuffer).ints.data =
        x.data.map Pcm.round := by
    refine h.full.claimFloats.ints.writeData_all ?_
    rw [List.length_map, hx.length]
  rw [readInto]
  simp only [synthesis, hs]
  rw [SplittingFilter.synthesis_eq hserves hbands.syncFloats.floats hfull,
    DualBuffer.floatCopy_syncFloats]
  cases s.filter.mergeOne s.bands.floats.data with
  | error e => rfl
  | ok r =>
    have hsamples := hints _ (hfull.writeData 0 r.2)
    have hlen : ((f.full.claimFloats.floatCopy.writeData 0 r.2).data.map Pcm.round).length = n := by
      rw [List.length_map, (hfull.writeData 0 r.2).length]
    simp only [Except.map, ok_bind, pure_bind, DualBuffer.ints_syncInts]
    rw [hsamples, hlen, hdest, Nat.min_self, overlay_all (hlen.trans hdest.symm)]
    rfl

/-! ### Results -/

/-- Filling a frame of a workable shape gives a frame of the same shape. -/
theorem fill_returns (h : f.Shaped n b) (hw : Workable n b) (samples : List Int16) :
    Returns (f.fill samples) (·.Shaped n b) := by
  have hfull : (f.full.write 0 (fit n 0 samples)).Shaped n 1 := h.full.write 0 _
  cases hs : f.split with
  | none =>
    rw [fill_of_whole h hs]
    exact returns_ok ⟨hfull, fun _ => h.whole hs, by simp [hs]⟩
  | some s =>
    obtain ⟨hbands, hserves⟩ := h.bands s hs
    rw [fill_of_split h hs]
    refine (SplittingFilter.splitOne_returns hserves hw (by simp)).map fun r hr => ?_
    refine ⟨hfull.syncFloats, by simp, ?_⟩
    rintro s ⟨⟩
    exact ⟨⟨hbands.claimFloats.ints, hbands.claimFloats.floats.writeData _ _⟩, hr⟩

/-- A frame that cannot be split cannot be filled. -/
theorem fill_fault (h : f.Shaped n b) (hw : ¬ Workable n b) (samples : List Int16) :
    f.fill samples = .error .outOfRange := by
  cases hs : f.split with
  | none => exact absurd (.inl (h.whole hs)) hw
  | some s =>
    obtain ⟨hbands, hserves⟩ := h.bands s hs
    rw [fill_of_split h hs, SplittingFilter.splitOne_fault hserves hw (by simp)]
    rfl

/-- Reading a frame of a workable shape gives a frame of the same shape and all its samples. -/
theorem readInto_returns (h : f.Shaped n b) (hw : Workable n b) {dest : List Int16}
    (hdest : dest.length = n) :
    Returns (f.readInto dest) fun r => r.1.Shaped n b ∧ r.2.2.length = n := by
  cases hs : f.split with
  | none =>
    rw [readInto_of_whole hs]
    exact returns_ok ⟨⟨h.full.syncInts, fun _ => h.whole hs, by simp [hs]⟩, by simp [hdest]⟩
  | some s =>
    obtain ⟨hbands, hserves⟩ := h.bands s hs
    rw [readInto_of_split h hs hdest]
    have hlen : s.bands.floats.data.length = n := hbands.floats_hasShape.length
    refine (SplittingFilter.mergeOne_returns hserves hw hlen).map fun r hr => ?_
    have hout : (f.full.claimFloats.floatCopy.writeData 0 r.2).HasShape n 1 :=
      h.full.claimFloats.floats.writeData 0 r.2
    have hmerged : ({ f.full.claimFloats with
        floatCopy := f.full.claimFloats.floatCopy.writeData 0 r.2 } : DualBuffer).Shaped n 1 :=
      ⟨h.full.claimFloats.ints, hout⟩
    refine ⟨⟨hmerged.syncInts, by simp, ?_⟩, ?_⟩
    · rintro s ⟨⟩
      exact ⟨hbands.syncFloats, hr⟩
    · rw [List.length_map, hout.length]

end SubbandFrame

end Duplex
