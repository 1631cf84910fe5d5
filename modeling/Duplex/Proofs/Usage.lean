import Duplex.Proofs.Runs
import Duplex.Proofs.Subband

/-!
# Usage: which frames can be used

A `SubbandFrame` can be made in more shapes than its filter works on. `Use` is one thing that is done
with a frame: fill it, split or merge it, read it, look at its bands or write to them. A frame of a
`Usable` shape keeps its shape whatever is done with it, so that nothing ever faults; of any other
shape, filling it does, or counting its bands (`SubbandFrame.uses_return_iff_usable`).
-/

namespace Duplex

open Signal Duplex.Filter

variable {n b : Nat} {S : Type}

/-! ### Views -/

namespace Bands

/-- The samples of a frame of the given size, cut into so many bands. -/
structure Fits (v : Bands S) (n b : Nat) : Prop where
  length : v.data.length = n
  perBand : v.perBand = n / b

/-- Something that is asked of a view. -/
inductive Query where
  | count
  | all
  | band (k : Nat)

/-- Something that is done with a view that may be written to. -/
inductive Action (S : Type) where
  | ask (query : Query)
  | write (k start : Nat) (src : List S)
  | writeAll (start : Nat) (src : List S)
  | mapEach (f : Nat → List S → List S)

/-- Ask a view, and forget the answer. -/
def ask (v : Bands S) : Query → Checked Unit
  | .count => v.count.map fun _ => ()
  | .all => v.toList.map fun _ => ()
  | .band k => (v.band k).map fun _ => ()

def act (v : Bands S) : Action S → Checked (Bands S)
  | .ask query => (v.ask query).map fun _ => v
  | .write k start src => v.writeBand k start src
  | .writeAll start src => .ok { v with data := overlay v.data start src }
  | .mapEach f => v.mapBands f

/-- A band that is asked for is one of those that there are. -/
def Query.InRange (b : Nat) : Query → Prop
  | .band k => k < b
  | _ => True

def Action.InRange (b : Nat) : Action S → Prop
  | .ask query => query.InRange b
  | .write k _ _ => k < b
  | _ => True

variable {v : Bands S}

namespace Fits

variable (h : v.Fits n b) (hsize : 0 < n / b)

include h

theorem band_returns {k : Nat} (hk : k < b) : Returns (v.band k) fun _ => True := by
  have hroom : k * (n / b) + n / b ≤ n := (block_room hk).trans (Nat.mul_div_le n b)
  rw [Bands.band, slice_eq_ok (by rw [h.perBand, h.length]; exact hroom)]
  exact returns_ok trivial

include hsize

theorem toList_returns : Returns v.toList fun _ => True := by
  have hpos : v.perBand ≠ 0 := by rw [h.perBand]; omega
  rw [toList, if_neg hpos]
  exact returns_ok trivial

theorem ask_returns {query : Query} (hq : query.InRange b) : Returns (v.ask query) fun _ => True := by
  cases query with
  | count =>
    have hpos : v.perBand ≠ 0 := by rw [h.perBand]; omega
    rw [ask, count, if_neg hpos]
    exact returns_ok trivial
  | all => exact (h.toList_returns hsize).map fun _ _ => trivial
  | band k => exact (h.band_returns hq).map fun _ _ => trivial

theorem act_returns {action : Action S} (ha : action.InRange b) :
    Returns (v.act action) (·.Fits n b) := by
  have hwritten (start : Nat) (src : List S) :
      Fits { v with data := overlay v.data start src } n b :=
    ⟨(length_overlay _ _ _).trans h.length, h.perBand⟩
  cases action with
  | ask query => exact (h.ask_returns hsize ha).map fun _ _ => h
  | write k start src => exact (h.band_returns ha).map fun _ _ => hwritten _ _
  | writeAll start src => exact returns_ok (hwritten start src)
  | mapEach f => exact (h.toList_returns hsize).map fun _ _ => hwritten _ _

end Fits

end Bands

namespace SubbandFrame

open Bands (Query Action)

/-! ### Uses -/

/-- Something that is done with a frame. -/
inductive Use where
  | fill (samples : List Int16)
  | analysis
  | synthesis
  | read (dest : List Int16)
  | lookInts (queries : List Query)
  | lookFloats (queries : List Query)
  | editInts (actions : List (Action Int16))
  | editFloats (actions : List (Action Float32))

/-- Ask the view of the bands in one form, one query after another. -/
def look (S : Type) [Sample S] (f : SubbandFrame) (queries : List Query) : Checked SubbandFrame := do
  let f := f.sync S
  queries.forM (f.view S).ask
  return f

/-- Claim the bands in one form, and act on their view. -/
def edit [Sample S] (f : SubbandFrame) (actions : List (Action S)) : Checked SubbandFrame :=
  f.modify fun v => actions.foldlM Bands.act v

def use (f : SubbandFrame) : Use → Checked SubbandFrame
  | .fill samples => f.fill samples
  | .analysis => f.analysis
  | .synthesis => f.synthesis
  | .read dest => (f.readInto dest).map (·.1)
  | .lookInts queries => f.look Int16 queries
  | .lookFloats queries => f.look Float32 queries
  | .editInts actions => f.edit actions
  | .editFloats actions => f.edit actions

/-- The bands that are named are among those that there are. -/
def Use.InRange (b : Nat) : Use → Prop
  | .lookInts queries => ∀ query ∈ queries, query.InRange b
  | .lookFloats queries => ∀ query ∈ queries, query.InRange b
  | .editInts actions => ∀ action ∈ actions, action.InRange b
  | .editFloats actions => ∀ action ∈ actions, action.InRange b
  | _ => True

/-- Frames that are not empty, have at most 320 samples if they are in two bands, and at least 480 if
they are in three. -/
structure Usable (n b : Nat) : Prop where
  nonempty : 0 < n
  two : b = 2 → n ≤ 320
  three : b = 3 → 480 ≤ n

/-- The usable shapes are those that are not empty and that the filter works on. -/
theorem usable_iff (hb : 1 ≤ b ∧ b ≤ 3) (hd : b ∣ n) : Usable n b ↔ 0 < n ∧ Workable n b := by
  have htwo : TwoBand.Supports (n / 2) ↔ 0 < n / 2 ∧ n / 2 ≤ 160 := Iff.rfl
  have hthree : ThreeBand.frameSize ≤ n ↔ 480 ≤ n := Iff.rfl
  rw [Workable, htwo, hthree]
  have hcases : Usable n b ↔ 0 < n ∧ (b = 2 → n ≤ 320) ∧ (b = 3 → 480 ≤ n) :=
    ⟨fun h => ⟨h.nonempty, h.two, h.three⟩, fun h => ⟨h.1, h.2.1, h.2.2⟩⟩
  rw [hcases]
  obtain rfl | rfl | rfl : b = 1 ∨ b = 2 ∨ b = 3 := by omega
  all_goals omega

variable {f : SubbandFrame}

namespace Shaped

variable (h : f.Shaped n b)

include h

theorem analysis_returns (hw : Workable n b) : Returns f.analysis (·.Shaped n b) := by
  obtain ⟨full, split⟩ := f
  cases split with
  | none => exact returns_ok h
  | some s =>
    obtain ⟨hbands, hserves⟩ := h.bands s rfl
    have hfull : full.syncFloats.Shaped n 1 := h.full.syncFloats
    have hclaimed := hbands.claimFloats
    obtain ⟨r, hr, hfilter⟩ := SplittingFilter.splitOne_returns hserves hw hfull.floats.length
    simp only [analysis]
    rw [SplittingFilter.analysis_eq hserves hfull.floats hclaimed.floats, hr]
    refine returns_ok ⟨hfull, by simp, ?_⟩
    rintro s ⟨⟩
    exact ⟨⟨hclaimed.ints, hclaimed.floats.writeData _ _⟩, hfilter⟩

theorem synthesis_returns (hw : Workable n b) : Returns f.synthesis (·.Shaped n b) := by
  obtain ⟨full, split⟩ := f
  cases split with
  | none => exact returns_ok h
  | some s =>
    obtain ⟨hbands, hserves⟩ := h.bands s rfl
    have hfresh := hbands.syncFloats
    have hclaimed : full.claimFloats.Shaped n 1 := h.full.claimFloats
    obtain ⟨r, hr, hfilter⟩ := SplittingFilter.mergeOne_returns hserves hw hfresh.floats.length
    simp only [synthesis]
    rw [SplittingFilter.synthesis_eq hserves hfresh.floats hclaimed.floats, hr]
    refine returns_ok ⟨⟨hclaimed.ints, hclaimed.floats.writeData _ _⟩, by simp, ?_⟩
    rintro s ⟨⟩
    exact ⟨hfresh, hfilter⟩

/-- The samples that a frame is filled with, cut or padded to size, are what it holds, in both forms. -/
theorem fill_holds (hw : Workable n b) (samples : List Int16) :
    Returns (f.fill samples) (·.full.Holds (fit n 0 samples)) := by
  have hholds : (f.full.write 0 (fit n 0 samples)).Holds (fit n 0 samples) := by
    have hwrite := h.full.write_holds (S := Int16) (length_fit n 0 samples)
    rwa [map_embed_int16] at hwrite
  cases hs : f.split with
  | none =>
    rw [fill_of_whole h hs]
    exact returns_ok hholds
  | some s =>
    rw [fill_of_split h hs]
    refine (SplittingFilter.splitOne_returns (h.bands s hs).2 hw (by simp)).map fun r _ => ?_
    exact Sample.Exact.sync_holds (S := Float32) hholds

/-- A frame is read into any room that there is, with as many samples as fit. -/
theorem readInto_copies (hw : Workable n b) (dest : List Int16) :
    Returns (f.readInto dest) fun r => r.1.Shaped n b ∧ r.2.1 = min n dest.length ∧
      r.2.2 = overlay dest 0 r.1.full.ints.data := by
  refine (h.synthesis_returns hw).bind fun f hf => ?_
  refine returns_ok ⟨⟨hf.full.syncInts, hf.whole, hf.bands⟩, ?_, rfl⟩
  show min f.full.syncInts.ints.data.length dest.length = _
  rw [hf.full.syncInts.ints_hasShape.length]

variable [Sample S] [Sample.Lawful S]

theorem view_fits : (f.view S).Fits n b :=
  ⟨h.length_view, (Sample.Lawful.read_hasShape h.storage).perBand⟩

theorem look_returns (hsize : 0 < n / b) {queries : List Query} (hq : ∀ query ∈ queries, query.InRange b) :
    Returns (f.look S queries) (·.Shaped n b) := by
  have hasked : Returns (queries.forM ((f.sync S).view S).ask) fun _ => True :=
    forM_returns fun query hquery => h.sync.view_fits.ask_returns hsize (hq query hquery)
  exact hasked.bind fun _ _ => returns_ok h.sync

theorem edit_returns (hsize : 0 < n / b) {actions : List (Action S)}
    (ha : ∀ action ∈ actions, action.InRange b) : Returns (f.edit actions) (·.Shaped n b) := by
  have hclaimed : (Sample.claim S f.storage).Shaped n b := Sample.Lawful.claim_shaped h.storage
  have hread : (Sample.read (Sample.claim S f.storage) : ChannelBuffer S).HasShape n b :=
    Sample.Lawful.read_hasShape hclaimed
  have hview : Bands.Fits { data := (Sample.read (Sample.claim S f.storage) : ChannelBuffer S).data
                            perBand := n / b } n b := ⟨hread.length, rfl⟩
  have hact (v : Bands S) (hv : v.Fits n b) (action : Action S) (haction : action ∈ actions) :
      Returns (v.act action) (·.Fits n b) := hv.act_returns hsize (ha action haction)
  obtain ⟨v, hv, -⟩ := foldlM_returns hact hview
  rw [edit, modify, DualBuffer.modify]
  simp only [ChannelBuffer.modifyView, hread.view, ok_bind, hv, hread.writeBands]
  exact returns_ok (h.withStorage (Sample.Lawful.store_shaped hclaimed (hread.writeData 0 _)))

end Shaped

/-- Whatever is done with a frame of a usable shape gives a frame of the same shape. -/
theorem use_returns (h : f.Shaped n b) (hsize : 0 < n / b) (hw : Workable n b) {u : Use}
    (hu : u.InRange b) : Returns (f.use u) (·.Shaped n b) := by
  cases u with
  | fill samples => exact fill_returns h hw samples
  | analysis => exact h.analysis_returns hw
  | synthesis => exact h.synthesis_returns hw
  | read dest => exact (h.readInto_copies hw dest).map fun _ hr => hr.1
  | lookInts queries => exact h.look_returns hsize hu
  | lookFloats queries => exact h.look_returns hsize hu
  | editInts actions => exact h.edit_returns hsize hu
  | editFloats actions => exact h.edit_returns hsize hu

/-- The bands of an empty frame cannot be counted. -/
theorem count_fault (h : f.Shaped 0 b) : f.use (.lookInts [.count]) = .error .outOfRange := by
  have hview : ((f.sync Int16).view Int16).Fits 0 b := h.sync.view_fits
  have hempty : ((f.sync Int16).view Int16).perBand = 0 := hview.perBand.trans (Nat.zero_div b)
  show ((((f.sync Int16).view Int16).count.map fun _ => ()) >>= _) >>= _ = _
  rw [Bands.count, if_pos hempty]
  rfl

/-- Only frames of one to three bands of equal size can be made. -/
theorem create_shaped (h : (create n b).run = .ok (.ok f)) :
    ((1 ≤ b ∧ b ≤ 3) ∧ b ∣ n) ∧ f.Shaped n b := by
  by_cases hshape : (1 ≤ b ∧ b ≤ 3) ∧ b ∣ n
  · refine ⟨hshape, ?_⟩
    by_cases hn : n < storageLimit
    · obtain ⟨g, hg, hshaped, -⟩ := create_returns hshape.1 hshape.2 hn
      cases h.symm.trans hg
      exact hshaped
    · rw [create, if_neg (not_not_intro hshape), run_lift_bind] at h
      obtain ⟨full, hfull, -⟩ := bind_eq_ok.mp h
      obtain ⟨ints, hints, -⟩ := bind_eq_ok.mp hfull
      have hroom : ¬ n * 1 < storageLimit := by omega
      rw [ChannelBuffer.create, dif_neg Nat.one_ne_zero, dif_neg Nat.one_ne_zero, dif_pos (one_dvd n),
        if_neg hroom] at hints
      cases hints
  · rw [create_refuses hshape] at h
    cases h

/-- A frame that can be made can be used, however and as often as one likes, if and only if its shape
is usable. Then, at any time, filling it leaves the samples, cut or padded with silence to size, as its
content, and reading it copies as many samples as there are and as there is room for. -/
theorem uses_return_iff_usable (h : (create n b).run = .ok (.ok f)) :
    ((∀ uses : List Use, (∀ u ∈ uses, u.InRange b) → Returns (uses.foldlM use f) fun _ => True) ↔
      Usable n b) ∧
    (Usable n b → ∀ uses : List Use, (∀ u ∈ uses, u.InRange b) → Returns (uses.foldlM use f) fun f =>
      (∀ samples, Returns (f.fill samples) (·.full.Holds (fit n 0 samples))) ∧
      ∀ dest, Returns (f.readInto dest) fun r => r.2.1 = min n dest.length ∧
        r.2.2 = overlay dest 0 r.1.full.ints.data) := by
  obtain ⟨⟨hb, hd⟩, hshaped⟩ := create_shaped h
  have hkeeps (husable : Usable n b) (uses : List Use) (huses : ∀ u ∈ uses, u.InRange b) :
      Returns (uses.foldlM use f) (·.Shaped n b) := by
    obtain ⟨hsome, hw⟩ := (usable_iff hb hd).mp husable
    have hsize : 0 < n / b := Nat.div_pos (Nat.le_of_dvd hsome hd) hb.1
    exact foldlM_returns (fun f hf u hu => use_returns hf hsize hw (huses u hu)) hshaped
  refine ⟨⟨?_, fun husable uses huses => (hkeeps husable uses huses).mono fun _ _ => trivial⟩, ?_⟩
  · intro hall
    by_contra hnot
    rw [usable_iff hb hd] at hnot
    -- An empty frame in one band can be filled, and then its bands cannot be counted.
    by_cases hw : Workable n b
    · have hempty : ¬ 0 < n := fun hsome => hnot ⟨hsome, hw⟩
      obtain rfl : n = 0 := by omega
      obtain ⟨f', hf', -⟩ := hall [.lookInts [.count]] (by simp [Use.InRange, Query.InRange])
      rw [List.foldlM_cons, count_fault hshaped] at hf'
      cases hf'
    · obtain ⟨f', hf', -⟩ := hall [.fill []] (by simp [Use.InRange])
      rw [List.foldlM_cons, use, fill_fault hshaped hw] at hf'
      cases hf'
  · intro husable uses huses
    have hw := ((usable_iff hb hd).mp husable).2
    refine (hkeeps husable uses huses).mono fun f hf => ⟨fun samples => hf.fill_holds hw samples, ?_⟩
    exact fun dest => (hf.readInto_copies hw dest).mono fun _ hr => hr.2

/-- A frame of 320 samples in two bands is filled, written to and read. -/
theorem uses_return_iff_usable_320 : ∃ f : SubbandFrame, (create 320 2).run = .ok (.ok f) ∧
    ((∀ uses : List Use, (∀ u ∈ uses, u.InRange 2) → Returns (uses.foldlM use f) fun _ => True) ↔
      Usable 320 2) ∧
    Returns ([.fill [1, 2, 3], .editFloats [.write 1 0 [4]], .read [0, 0]].foldlM use f) fun f =>
      (∀ samples, Returns (f.fill samples) (·.full.Holds (fit 320 0 samples))) ∧
      ∀ dest, Returns (f.readInto dest) fun r => r.2.1 = min 320 dest.length ∧
        r.2.2 = overlay dest 0 r.1.full.ints.data := by
  obtain ⟨f, hf, -⟩ := create_returns (n := 320) (b := 2) (by decide) (by decide) (by decide)
  obtain ⟨hiff, husable⟩ := uses_return_iff_usable hf
  refine ⟨f, hf, hiff, husable ⟨by decide, by decide, by decide⟩ _ ?_⟩
  simp [Use.InRange, Action.InRange]

/-- A frame of 640 samples in two bands can be made, but not filled. -/
theorem fill_faults_at_640 : ∃ f : SubbandFrame,
    (create 640 2).run = .ok (.ok f) ∧ f.use (.fill []) = .error .outOfRange := by
  obtain ⟨f, hf, hshaped, -⟩ := create_returns (n := 640) (b := 2) (by decide) (by decide) (by decide)
  have hnot : ¬ Workable 640 2 := by
    rintro (h | ⟨-, h⟩ | ⟨h, -⟩)
    · cases h
    · exact absurd h (by decide)
    · cases h
  exact ⟨f, hf, fill_fault hshaped hnot []⟩

end SubbandFrame

end Duplex
