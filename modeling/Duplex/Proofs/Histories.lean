import Duplex.Proofs.Copying

/-!
# Histories: what a filter remembers of the frames before

A frame in several bands is split by the filter of the frame that it is loaded into and merged by
the filter of the frame that it is read from, and what either of them remembers of the frames before
is heard in it. `Histories` are three filters, of which one splits, one merges nearend frames and one
merges output frames; only the memory of what each of them does matters. Loading and reading a single
frame again and again (`relay`) is one history of merging (`relay_eq`).
-/

namespace Duplex

open Signal

variable {n b : Nat}

namespace SubbandFrame

@[simp] theorem filter_withStorage (f : SubbandFrame) (d : DualBuffer) :
    (f.withStorage d).filter = f.filter := by
  obtain ⟨full, split⟩ := f
  cases split <;> rfl

@[simp] theorem filter_sync (S : Type) [Sample S] (f : SubbandFrame) :
    (f.sync S).filter = f.filter := filter_withStorage _ _

@[simp] theorem filter_put {S : Type} [Sample S] (f : SubbandFrame) (src : List S) :
    (f.put src).filter = f.filter := filter_withStorage _ _

variable {f : SubbandFrame} {g : SplittingFilter}

theorem filter_eq_some : f.filter = some g ↔ ∃ s, f.split = some s ∧ s.filter = g :=
  Option.map_eq_some_iff

/-- Filling makes the bands of the samples that the filter makes of them. -/
theorem fill_bands (h : f.Shaped n b) (hw : Workable n b) (hd : b ∣ n) (hg : f.filter = some g)
    (samples : List Int16) :
    Returns (f.fill samples) fun r => r.Shaped n b ∧ ∃ g',
      g.splitOne ((fit n 0 samples).map Pcm.widen) = .ok (g', (r.view Float32).data) ∧
        r.filter = some g' ∧ g'.forgetSplit = g.forgetSplit := by
  obtain ⟨r, hr, hshape⟩ := fill_returns h hw samples
  refine ⟨r, hr, hshape, ?_⟩
  obtain ⟨s, hs, rfl⟩ := filter_eq_some.mp hg
  obtain ⟨hbands, hserves⟩ := h.bands s hs
  obtain ⟨⟨g', out⟩, hsplit, hlen, hkeeps⟩ :=
    SplittingFilter.splitOne_keeps hserves hw hd
      (show ((fit n 0 samples).map Pcm.widen).length = n by simp)
  rw [fill_of_split h hs, hsplit] at hr
  obtain rfl : _ = r := Except.ok.inj hr
  refine ⟨g', ?_, rfl, hkeeps⟩
  have hdata : (s.bands.claimFloats.floatCopy.writeData 0 out).data = out :=
    hbands.claimFloats.floats.writeData_all hlen
  rw [hsplit]
  exact congrArg (fun bands => Except.ok (g', bands)) hdata.symm

/-- Reading gives what the filter makes of the bands. -/
theorem readInto_bands (h : f.Shaped n b) (hw : Workable n b) (hd : b ∣ n) (hg : f.filter = some g)
    {dest : List Int16} (hdest : dest.length = n) :
    Returns (f.readInto dest) fun r => r.1.Shaped n b ∧ ∃ g' out,
      g.mergeOne (f.view Float32).data = .ok (g', out) ∧ r.1.filter = some g' ∧
        g'.forgetMerge = g.forgetMerge ∧ r.2.2 = out.map Pcm.round := by
  obtain ⟨r, hr, hshape, -⟩ := readInto_returns h hw hdest
  refine ⟨r, hr, hshape, ?_⟩
  obtain ⟨s, hs, rfl⟩ := filter_eq_some.mp hg
  obtain ⟨hbands, hserves⟩ := h.bands s hs
  have hview : (f.view Float32).data = s.bands.floats.data := by
    rw [view, storage, hs]
    rfl
  obtain ⟨⟨g', out⟩, hmerge, hlen, hkeeps⟩ :=
    SplittingFilter.mergeOne_keeps hserves hw hd hbands.floats_hasShape.length
  rw [readInto_of_split h hs hdest, hmerge] at hr
  obtain rfl : _ = r := Except.ok.inj hr
  refine ⟨g', out, by rw [hview, hmerge], rfl, hkeeps, ?_⟩
  exact congrArg (List.map Pcm.round) (h.full.claimFloats.floats.writeData_all hlen)

/-- Fill the frame and read it again, with one run of samples after another. -/
def relay : List (List Int16) → SubbandFrame → Checked (List (List Int16))
  | [], _ => .ok []
  | samples :: rest, f =>
    f.fill samples >>= fun f =>
      f.readInto (List.replicate f.frames 0) >>= fun r => (relay rest r.1).map (r.2.2 :: ·)

end SubbandFrame

/-! ### Three filters -/

/-- A filter that splits, one that merges nearend frames and one that merges output frames. -/
structure Histories where
  splitting : SplittingFilter
  nearend : SplittingFilter
  output : SplittingFilter

namespace Histories

/-- The filter that merges a frame: the third one if it is marked. -/
def merger (h : Histories) (marked : Bool) : SplittingFilter := if marked then h.output else h.nearend

/-- The histories after a frame was split and merged. -/
def remember (h : Histories) (marked : Bool) (splitting merging : SplittingFilter) : Histories :=
  if marked then { h with splitting, output := merging } else { h with splitting, nearend := merging }

@[simp] theorem splitting_remember (h : Histories) (marked : Bool)
    (splitting merging : SplittingFilter) :
    (h.remember marked splitting merging).splitting = splitting := by
  cases marked <;> rfl

/-- Only the filter that merged has changed. -/
theorem merger_remember (h : Histories) (marked next : Bool) (splitting merging : SplittingFilter) :
    (h.remember marked splitting merging).merger next =
      if next = marked then merging else h.merger next := by
  cases marked <;> cases next <;> rfl

theorem merger_splitting (h : Histories) (marked : Bool) (splitting : SplittingFilter) :
    { h with splitting }.merger marked = h.merger marked := by
  cases marked <;> rfl

theorem remember_splitting (h : Histories) (marked : Bool) (splitting merging : SplittingFilter) :
    { h with splitting }.remember marked splitting merging = h.remember marked splitting merging := by
  cases marked <;> rfl

/-- Split a frame and merge it. -/
def step (h : Histories) (marked : Bool) (samples : List Int16) :
    Checked (Histories × List Int16) :=
  h.splitting.splitOne (samples.map Pcm.widen) >>= fun (splitting, bands) =>
    ((h.merger marked).mergeOne bands).map fun (merging, out) =>
      (h.remember marked splitting merging, out.map Pcm.round)

theorem step_eq {h : Histories} {marked : Bool} {samples : List Int16}
    {splitting merging : SplittingFilter} {bands frame : List Float32}
    (hsplit : h.splitting.splitOne (samples.map Pcm.widen) = .ok (splitting, bands))
    (hmerge : (h.merger marked).mergeOne bands = .ok (merging, frame)) :
    h.step marked samples = .ok (h.remember marked splitting merging, frame.map Pcm.round) := by
  rw [step, hsplit, ok_bind]
  dsimp only
  rw [hmerge]
  rfl

/-- Split and merge one frame after another. -/
def play : List (Bool × List Int16) → Histories → Checked (List (List Int16))
  | [], _ => .ok []
  | (marked, samples) :: rest, h =>
    h.step marked samples >>= fun r => (play rest r.1).map (r.2 :: ·)

theorem play_cons_eq_ok {h : Histories} {marked : Bool} {samples : List Int16}
    {frames : List (Bool × List Int16)} {outs : List (List Int16)} :
    h.play ((marked, samples) :: frames) = .ok outs ↔
      ∃ h' out rest, h.step marked samples = .ok (h', out) ∧ h'.play frames = .ok rest ∧
        outs = out :: rest := by
  rw [play, bind_eq_ok]
  constructor
  · rintro ⟨⟨h', out⟩, hstep, hrest⟩
    obtain ⟨rest, hplay, rfl⟩ := map_eq_ok.mp hrest
    exact ⟨h', out, rest, hstep, hplay, rfl⟩
  · rintro ⟨h', out, rest, hstep, hrest, rfl⟩
    exact ⟨(h', out), hstep, map_eq_ok.mpr ⟨rest, hrest, rfl⟩⟩

/-- The first filter splits and merges like the first two, and the second one merges like the
third. -/
structure Of (h : Histories) (near out : SplittingFilter) : Prop where
  splitting : near.forgetMerge = h.splitting.forgetMerge
  nearend : near.forgetSplit = h.nearend.forgetSplit
  output : out.forgetSplit = h.output.forgetSplit

variable {h : Histories} {near out near' out' : SplittingFilter} {bands frame : List Float32}

/-- The first filter splits a frame. -/
theorem Of.split (hof : h.Of near out) (hnear : near.splitOne frame = .ok (near', bands))
    (hkeeps : near'.forgetSplit = near.forgetSplit) :
    ∃ splitting, h.splitting.splitOne frame = .ok (splitting, bands) ∧
      { h with splitting }.Of near' out := by
  obtain ⟨splitting, hsplit, hforget⟩ := SplittingFilter.splitOne_congr hof.splitting hnear
  exact ⟨splitting, hsplit, hforget, hkeeps.trans hof.nearend, hof.output⟩

/-- The first filter merges bands. -/
theorem Of.mergeNearend (hof : h.Of near out) (hnear : near.mergeOne bands = .ok (near', frame))
    (hkeeps : near'.forgetMerge = near.forgetMerge) :
    ∃ nearend, h.nearend.mergeOne bands = .ok (nearend, frame) ∧
      { h with nearend }.Of near' out := by
  obtain ⟨nearend, hmerge, hforget⟩ := SplittingFilter.mergeOne_congr hof.nearend hnear
  exact ⟨nearend, hmerge, hkeeps.trans hof.splitting, hforget, hof.output⟩

/-- The second filter merges bands. -/
theorem Of.mergeOutput (hof : h.Of near out) (hout : out.mergeOne bands = .ok (out', frame)) :
    ∃ output, h.output.mergeOne bands = .ok (output, frame) ∧ { h with output }.Of near out' := by
  obtain ⟨output, hmerge, hforget⟩ := SplittingFilter.mergeOne_congr hof.output hout
  exact ⟨output, hmerge, hof.splitting, hof.nearend, hforget⟩

/-- If all frames are marked, the second merging filter does what the first one does if none is. -/
theorem play_swap (frames : List (List Int16)) (h : Histories) :
    h.play (frames.map (true, ·)) =
      { h with nearend := h.output, output := h.nearend }.play (frames.map (false, ·)) := by
  induction frames generalizing h with
  | nil => rfl
  | cons samples frames ih =>
    simp only [List.map_cons, play, step, merger, remember]
    cases h.splitting.splitOne (samples.map Pcm.widen) with
    | error e => rfl
    | ok r =>
      obtain ⟨splitting, bands⟩ := r
      simp only [ok_bind, if_true, Bool.false_eq_true, if_false]
      cases h.output.mergeOne bands with
      | error e => rfl
      | ok q => simp only [Except.map, ok_bind, ih]

/-- Relaying a frame merges all that it is given with one filter. -/
theorem relay_plays {f : SubbandFrame} {g : SplittingFilter} (hs : f.Shaped n b) (hw : Workable n b)
    (hd : b ∣ n) (hg : f.filter = some g) (hof : h.Of g out) (frames : List (List Int16)) :
    Returns (f.relay frames) fun outs =>
      h.play (frames.map fun x => (false, fit n 0 x)) = .ok outs := by
  induction frames generalizing f g h with
  | nil => exact returns_ok rfl
  | cons samples frames ih =>
    rw [SubbandFrame.relay]
    obtain ⟨r, hr, hshape, g', hsplit, hg', hkeeps⟩ := SubbandFrame.fill_bands hs hw hd hg samples
    obtain ⟨splitting, hstep, hof⟩ := hof.split hsplit hkeeps
    have hlength : (List.replicate r.frames (0 : Int16)).length = n := by
      rw [List.length_replicate, hshape.frames]
    obtain ⟨q, hq, hshape', g'', frame, hmerge, hg'', hkeeps, hheard⟩ :=
      SubbandFrame.readInto_bands hshape hw hd hg' hlength
    obtain ⟨nearend, hstep', hof⟩ := hof.mergeNearend hmerge hkeeps
    rw [hr, ok_bind, hq, ok_bind]
    refine (ih hshape' hg'' hof).map fun outs houts => ?_
    rw [List.map_cons, play_cons_eq_ok]
    exact ⟨_, _, outs, step_eq hstep hstep', houts, by rw [hheard]⟩

end Histories

end Duplex
