import Duplex.Proofs.Histories

/-!
# Content: what the bands of a frame read as, in either form

The bands of a frame can be read as integers and as floats, and both readings are its `Content`,
whichever copies happen to be fresh. Freshening a copy keeps the content; writing replaces it by the
samples and their conversion. What loading and hearing a frame do depends on its content and its
filter only (`fill_loads`, `readInto_hears`).
-/

namespace Duplex

open Signal

variable {n b : Nat}

/-- Bands, read as integers and as floats. -/
@[ext] structure Content where
  ints : List Int16
  floats : List Float32

namespace Content

/-- Bands that were written as integers. -/
def ofInts (xs : List Int16) : Content := ⟨xs, xs.map Pcm.widen⟩

/-- Bands that were written as floats. -/
def ofFloats (xs : List Float32) : Content := ⟨xs.map Pcm.round, xs⟩

end Content

/-- The content, whichever copy is fresh. -/
def DualBuffer.content (d : DualBuffer) : Content := ⟨d.ints.data, d.floats.data⟩

/-- A form that reads its side of the content and, when it is written in, settles the other side. -/
class Sample.Faithful (S : Type) [Sample S] extends Sample.Lawful S where
  /-- The side of the content that this form reads. -/
  pick : Content → List S
  /-- The content after samples of this form were written. -/
  content : List S → Content
  pick_content (xs : List S) : pick (content xs) = xs
  read_eq_pick (d : DualBuffer) : (Sample.read d : ChannelBuffer S).data = pick d.content
  content_sync (d : DualBuffer) : (Sample.sync S d).content = d.content
  content_store {d : DualBuffer} {n b : Nat} {x : ChannelBuffer S} :
    d.Shaped n b → x.HasShape n b → (Sample.store (Sample.claim S d) x).content = content x.data

instance : Sample.Faithful Int16 where
  pick := Content.ints
  content := Content.ofInts
  pick_content _ := rfl
  read_eq_pick _ := rfl
  content_sync d := by
    obtain ⟨i, f, fresh⟩ := d
    cases fresh <;> rfl
  content_store {d n b x} h hx := by
    have hlen : (x.data.map Pcm.widen).length = n := by rw [List.length_map, hx.length]
    refine Content.ext rfl ?_
    show (d.claimInts.floatCopy.writeData 0 (x.data.map Pcm.widen)).data = _
    rw [h.claimInts.floats.writeData_all hlen]
    rfl

instance : Sample.Faithful Float32 where
  pick := Content.floats
  content := Content.ofFloats
  pick_content _ := rfl
  read_eq_pick _ := rfl
  content_sync d := by
    obtain ⟨i, f, fresh⟩ := d
    cases fresh <;> rfl
  content_store {d n b x} h hx := by
    have hlen : (x.data.map Pcm.round).length = n := by rw [List.length_map, hx.length]
    refine Content.ext ?_ rfl
    show (d.claimFloats.intCopy.writeData 0 (x.data.map Pcm.round)).data = _
    rw [h.claimFloats.ints.writeData_all hlen]
    rfl

namespace SubbandFrame

/-- What the bands of the frame read as. -/
def content (f : SubbandFrame) : Content := f.storage.content

section Form

variable {S : Type} [Sample S] [Sample.Faithful S] {f : SubbandFrame}

/-- The view of the bands is one side of the content. -/
theorem view_eq (h : f.Shaped n b) : f.view S = ⟨Sample.Faithful.pick f.content, n / b⟩ := by
  have hread : (Sample.read f.storage : ChannelBuffer S).HasShape n b :=
    Sample.Lawful.read_hasShape h.storage
  unfold view
  dsimp only
  rw [Sample.Faithful.read_eq_pick, hread.perBand]
  rfl

theorem lowest_eq (h : f.Shaped n b) :
    f.lowest S = (Sample.Faithful.pick f.content).take (n / b) := by
  rw [lowest, view_eq h]

theorem lowest_sync {T : Type} [Sample T] [Sample.Lawful T] (f : SubbandFrame) :
    (f.sync T).lowest T = f.lowest T := by
  rw [lowest, view_sync, ← lowest]

theorem content_sync (f : SubbandFrame) : (f.sync S).content = f.content := by
  rw [content, sync, storage_withStorage]
  exact Sample.Faithful.content_sync _

theorem content_put (h : f.Shaped n b) {out : List S} (hout : out.length = n) :
    (f.put out).content = Sample.Faithful.content out := by
  have hread : (Sample.read (Sample.claim S f.storage) : ChannelBuffer S).HasShape n b :=
    Sample.Lawful.read_hasShape (Sample.Lawful.claim_shaped h.storage)
  rw [content, put, storage_withStorage, DualBuffer.write]
  rw [Sample.Faithful.content_store h.storage (hread.writeData 0 out), hread.writeData_all hout]

end Form

/-! ### Loading and hearing -/

/-- The filter and the bands after a frame of samples was loaded. -/
def loadBands (n : Nat) (samples : List Int16) :
    Option SplittingFilter → Checked (Option SplittingFilter × Content)
  | none => .ok (none, .ofInts (fit n 0 samples))
  | some g => (g.splitOne ((fit n 0 samples).map Pcm.widen)).map fun (g, bands) =>
      (some g, .ofFloats bands)

/-- The filter and the samples that are heard after the bands were merged. -/
def hearBands (c : Content) : Option SplittingFilter → Checked (Option SplittingFilter × List Int16)
  | none => .ok (none, c.ints)
  | some g => (g.mergeOne c.floats).map fun (g, frame) => (some g, frame.map Pcm.round)

variable {f : SubbandFrame} (h : f.Shaped n b) (hw : Workable n b) (hd : b ∣ n)

include h hw hd

/-- Filling depends on the filter and the samples only. -/
theorem fill_loads (samples : List Int16) :
    Returns (f.fill samples) fun r =>
      r.Shaped n b ∧ loadBands n samples f.filter = .ok (r.filter, r.content) := by
  obtain ⟨r, hr, hshape⟩ := fill_returns h hw samples
  refine ⟨r, hr, hshape, ?_⟩
  cases hs : f.split with
  | none =>
    have hnone : f.filter = none := by rw [filter, hs]; rfl
    -- With one band, the full-band frame is the storage of the bands.
    have hwrite : { f with full := f.full.write 0 (fit n 0 samples) } = f.put (fit n 0 samples) := by
      unfold put withStorage storage
      simp only [hs]
    rw [fill_of_whole h hs, hwrite] at hr
    obtain rfl : _ = r := Except.ok.inj hr
    rw [hnone, loadBands, filter_put, hnone, content_put h (length_fit n 0 samples)]
    rfl
  | some s =>
    obtain ⟨hbands, hserves⟩ := h.bands s hs
    obtain ⟨⟨g, out⟩, hsplit, hlen, -⟩ :=
      SplittingFilter.splitOne_keeps hserves hw hd
        (show ((fit n 0 samples).map Pcm.widen).length = n by simp)
    have hsome : f.filter = some s.filter := by rw [filter, hs]; rfl
    rw [fill_of_split h hs, hsplit] at hr
    obtain rfl : _ = r := Except.ok.inj hr
    have hclaim : (Sample.claim Float32 s.bands).Shaped n b := Sample.Lawful.claim_shaped hbands
    have hdata := hbands.claimFloats.floats.writeData_all hlen
    have hcontent := Sample.Faithful.content_store hbands (hclaim.floats.writeData 0 out)
    rw [hsome, loadBands, hsplit]
    refine congrArg (fun c => Except.ok (some g, c)) ?_
    exact (hcontent.trans (congrArg Content.ofFloats hdata)).symm

/-- Reading depends on the filter and the content only. -/
theorem readInto_hears {dest : List Int16} (hdest : dest.length = n) :
    Returns (f.readInto dest) fun r =>
      r.1.Shaped n b ∧ hearBands f.content f.filter = .ok (r.1.filter, r.2.2) := by
  obtain ⟨r, hr, hshape, -⟩ := readInto_returns h hw hdest
  refine ⟨r, hr, hshape, ?_⟩
  cases hs : f.split with
  | none =>
    have hnone : f.filter = none := by rw [filter, hs]; rfl
    have hlen : f.full.ints.data.length = dest.length := by
      rw [hdest]
      exact h.full.ints_hasShape.length
    rw [readInto_of_whole hs] at hr
    obtain rfl : _ = r := Except.ok.inj hr
    rw [hnone, hearBands, content, storage, hs]
    dsimp only
    rw [overlay_all hlen]
    rfl
  | some s =>
    obtain ⟨hbands, hserves⟩ := h.bands s hs
    have hsome : f.filter = some s.filter := by rw [filter, hs]; rfl
    have hfloats : f.content.floats = s.bands.floats.data := by
      rw [content, storage, hs]
      rfl
    obtain ⟨⟨g, out⟩, hmerge, hlen, -⟩ :=
      SplittingFilter.mergeOne_keeps hserves hw hd hbands.floats_hasShape.length
    rw [readInto_of_split h hs hdest, hmerge] at hr
    obtain rfl : _ = r := Except.ok.inj hr
    have hdata := h.full.claimFloats.floats.writeData_all hlen
    rw [hsome, hearBands, hfloats, hmerge]
    refine congrArg (fun x : List Float32 => Except.ok (some g, x.map Pcm.round)) ?_
    exact hdata.symm

end SubbandFrame

end Duplex
