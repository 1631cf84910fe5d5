import Duplex.Proofs.Histories

/-!
# Switching: what is heard when echo cancellation comes and goes

In a lane with several bands and engines that copy, the bands that are heard are those of the
nearend frame, whichever stages run, pass or fail (`runStages_view`). But they are merged by the
filter of the output frame if echo cancellation succeeded, and by that of the nearend frame if it did
not, and each of the two remembers only the frames that it merged itself (`play_plays`).
-/

namespace Duplex

open Signal Engine

variable {n b : Nat}

/-! ### Bands on their way through the stages -/

namespace Buffers

variable {T : Type} [Sample T] {good : List T → Prop} {bufs bufs' : Buffers}
  {cancelled : Bool}

/-- The filters of the nearend and of the output frame are the same. -/
def SameFilters (bufs bufs' : Buffers) : Prop :=
  bufs'.nearend.filter = bufs.nearend.filter ∧ bufs'.output.filter = bufs.output.filter

theorem SameFilters.trans {bufs₁ bufs₂ bufs₃ : Buffers} (h : bufs₁.SameFilters bufs₂)
    (h' : bufs₂.SameFilters bufs₃) : bufs₁.SameFilters bufs₃ :=
  ⟨h'.1.trans h.1, h'.2.trans h.2⟩

theorem Step.sameFilters (h : Step good bufs bufs') : bufs.SameFilters bufs' := by
  cases h with
  | refused => exact ⟨SubbandFrame.filter_sync T _, rfl⟩
  | failed out => exact ⟨SubbandFrame.filter_sync T _, SubbandFrame.filter_put _ _⟩
  | passed out hout => exact ⟨by simp, by simp⟩

theorem EchoStep.sameFilters (h : EchoStep good bufs bufs' cancelled) : bufs.SameFilters bufs' := by
  cases h with
  | refused => exact ⟨rfl, rfl⟩
  | failed out => exact ⟨SubbandFrame.filter_sync T _, SubbandFrame.filter_put _ _⟩
  | passed out hout => exact ⟨SubbandFrame.filter_sync T _, SubbandFrame.filter_put _ _⟩

variable [Sample.Lawful T]

/-- If a stage that passed has written what it was given, the nearend bands are what they were. -/
theorem Step.view (h : Step good bufs bufs') (hs : bufs.Shaped n b)
    (hgood : ∀ out, good out → out = ((bufs.nearend.sync T).view T).data) :
    (bufs'.nearend.view T).data = (bufs.nearend.view T).data := by
  have hsync := SubbandFrame.view_sync (T := T) bufs.nearend
  cases h with
  | refused => rw [hsync]
  | failed out => rw [hsync]
  | passed out hout =>
    have hlen : out.length = n := by rw [hgood out hout, hsync]; exact hs.nearend.length_view
    dsimp only
    rw [SubbandFrame.view_sync_put hs.output hlen, SubbandFrame.view_put hs.nearend.sync hlen,
      hgood out hout, hsync]

/-- If echo cancellation succeeded the output bands are what it was given, and otherwise the nearend
bands still are. -/
theorem EchoStep.view (h : EchoStep good bufs bufs' cancelled) (hs : bufs.Shaped n b)
    (hgood : ∀ out, good out → out = ((bufs.nearend.sync T).view T).data) :
    ((if cancelled then bufs'.output else bufs'.nearend).view T).data =
      (bufs.nearend.view T).data := by
  have hsync := SubbandFrame.view_sync (T := T) bufs.nearend
  cases h with
  | refused => rfl
  | failed out => exact congrArg Bands.data hsync
  | passed out hout =>
    have hlen : out.length = n := by rw [hgood out hout, hsync]; exact hs.nearend.length_view
    exact (SubbandFrame.view_put hs.output hlen).trans ((hgood out hout).trans (congrArg _ hsync))

/-- The frames have the given shape, and their filters remember what the histories do. -/
structure Recalls (bufs : Buffers) (n b : Nat) (h : Histories) : Prop where
  shaped : bufs.Shaped n b
  filters : ∃ near out, bufs.nearend.filter = some near ∧ bufs.output.filter = some out ∧ h.Of near out

end Buffers

namespace Lane

variable {S : Type} {F : Family}

/-- Without gain control, the bands that are heard are those of the nearend frame. -/
theorem Passage.runStages_view [Sample S] [Sample.Lawful S] {engines : Engines S F}
    (hcopies : engines.Copies) {settings : FrameSettings} (hgain : settings.gain = false)
    (p : Passage S F) (hs : p.buffers.Shaped n b) :
    ((heardFrame (p.runStages engines settings)).view S).data = (p.buffers.nearend.view S).data ∧
      p.buffers.SameFilters (p.runStages engines settings).1.buffers := by
  unfold runStages
  extract_lets p₁ p₂
  have h₁ : p₁ = p := by
    simp only [p₁]
    split
    · rename_i htrue _
      rw [hgain] at htrue
      exact absurd htrue Bool.false_ne_true
    · rfl
  have h₂ : p₂.buffers.Shaped n b ∧ p.buffers.SameFilters p₂.buffers ∧
      (p₂.buffers.nearend.view S).data = (p.buffers.nearend.view S).data := by
    simp only [p₂, h₁]
    split
    · obtain ⟨hstep, -⟩ := runNoise_step engines p _
      refine ⟨hstep.shaped hs, hstep.sameFilters, hstep.view hs ?_⟩
      rintro out ⟨_, _, rfl, hok⟩
      exact hcopies.noise _ _ _ hok
    · exact ⟨hs, ⟨rfl, rfl⟩, rfl⟩
  obtain ⟨hs₂, hfilters, hview⟩ := h₂
  split
  · obtain ⟨hstep, -⟩ := runEcho_step engines p₂ settings.delay _
    refine ⟨Eq.trans (hstep.view hs₂ ?_) hview, hfilters.trans hstep.sameFilters⟩
    rintro out ⟨_, _, rfl, hok⟩
    exact hcopies.echo _ _ _ _ hok
  · exact ⟨hview, hfilters⟩

/-! ### Frame after frame -/

/-- A frame for a lane: what runs on it, and the samples of either direction. -/
structure Input where
  settings : FrameSettings
  farend : List Int16
  nearend : List Int16

section Play

variable [Sample S] (engines : Engines S F)

/-- Whether echo cancellation succeeds on a frame. -/
def cancels (i : Input) (p : Passage S F) : Checked Bool :=
  (p.load i.settings i.farend i.nearend).map fun q => (q.runStages engines i.settings).2

/-- Process one frame after another, and tell of each whether echo cancellation succeeded and what
is heard. -/
def play : List Input → Passage S F → Checked (List (Bool × List Int16))
  | [], _ => .ok []
  | i :: rest, p =>
    cancels engines i p >>= fun cancelled =>
      process engines i.settings i.farend i.nearend p >>= fun r =>
        (play rest r.1).map ((cancelled, r.2) :: ·)

end Play

/-! ### Two memories -/

variable {p : Passage S F} {h : Histories}

/-- Loading a frame splits it. -/
theorem load_recalls (hrecalls : p.buffers.Recalls n b h) (hw : Workable n b) (hd : b ∣ n)
    (settings : FrameSettings) (farend nearend : List Int16) :
    Returns (p.load settings farend nearend) fun q => ∃ splitting,
      h.splitting.splitOne ((fit n 0 nearend).map Pcm.widen) =
          .ok (splitting, (q.buffers.nearend.view Float32).data) ∧
        q.buffers.Recalls n b { h with splitting } := by
  obtain ⟨hs, near, out, hnear, hout, hof⟩ := hrecalls
  unfold Passage.load
  refine (SubbandFrame.fill_bands hs.nearend hw hd hnear nearend).bind
    fun r ⟨hr, near', hsplit, hnear', hkeeps⟩ => ?_
  obtain ⟨splitting, hstep, hof⟩ := hof.split hsplit hkeeps
  split
  · exact (SubbandFrame.fill_returns hs.farend hw farend).map fun far hfar =>
      ⟨splitting, hstep, ⟨hfar, hr, hs.output⟩, near', out, hnear', hout, hof⟩
  · exact returns_ok ⟨splitting, hstep, ⟨hs.farend, hr, hs.output⟩, near', out, hnear', hout, hof⟩

/-- Reading a frame merges its bands: by the memory of the output frame if echo cancellation
succeeded, and by that of the nearend frame if it did not. -/
theorem hear_recalls {q : Passage S F} {cancelled : Bool} (hrecalls : q.buffers.Recalls n b h)
    (hw : Workable n b) (hd : b ∣ n) {settings : FrameSettings} (hn : settings.frames = n) :
    Returns (Passage.hear settings (q, cancelled)) fun r => ∃ merging frame,
      (h.merger cancelled).mergeOne ((Passage.heardFrame (q, cancelled)).view Float32).data =
          .ok (merging, frame) ∧
        r.1.buffers.Recalls n b (h.remember cancelled h.splitting merging) ∧
        r.2 = frame.map Pcm.round := by
  obtain ⟨hs, near, out, hnear, hout, hof⟩ := hrecalls
  have hsilence : (List.replicate settings.frames (0 : Int16)).length = n := by simp [hn]
  cases cancelled with
  | true =>
    refine (SubbandFrame.readInto_bands hs.output hw hd hout hsilence).map
      fun r ⟨hr, out', frame, hmerge, hout', _, hheard⟩ => ?_
    obtain ⟨output, hstep, hof⟩ := hof.mergeOutput hmerge
    exact ⟨output, frame, hstep, ⟨⟨hs.farend, hs.nearend, hr⟩, near, out', hnear, hout', hof⟩, hheard⟩
  | false =>
    refine (SubbandFrame.readInto_bands hs.nearend hw hd hnear hsilence).map
      fun r ⟨hr, near', frame, hmerge, hnear', hkeeps, hheard⟩ => ?_
    obtain ⟨nearend, hstep, hof⟩ := hof.mergeNearend hmerge hkeeps
    exact ⟨nearend, frame, hstep, ⟨⟨hs.farend, hr, hs.output⟩, near', out, hnear', hout, hof⟩, hheard⟩

section Several

variable {p : Passage Float32 F} {engines : Engines Float32 F} (hcopies : engines.Copies)
  (hw : Workable n b) (hd : b ∣ n)

include hcopies hw hd

/-- A frame is heard as the histories of the lane tell. -/
theorem process_recalls (hrecalls : p.buffers.Recalls n b h) {i : Input}
    (hn : i.settings.frames = n) (hgain : i.settings.gain = false) :
    Returns (cancels engines i p) fun cancelled =>
      Returns (process engines i.settings i.farend i.nearend p) fun r => ∃ h',
        h.step cancelled (fit n 0 i.nearend) = .ok (h', r.2) ∧ r.1.buffers.Recalls n b h' := by
  obtain ⟨q, hq, splitting, hsplit, hrecalls'⟩ :=
    load_recalls hrecalls hw hd i.settings i.farend i.nearend
  obtain ⟨hview, hfilters⟩ := Passage.runStages_view hcopies hgain q hrecalls'.shaped
  have hstages := (Passage.runStages_shaped engines q i.settings hrecalls'.shaped).1
  have hafter : (q.runStages engines i.settings).1.buffers.Recalls n b { h with splitting } := by
    obtain ⟨near, out, hnear, hout, hof⟩ := hrecalls'.filters
    exact ⟨hstages, near, out, hfilters.1.trans hnear, hfilters.2.trans hout, hof⟩
  rw [cancels, hq, process_eq, hq]
  refine returns_ok ?_
  rw [ok_bind]
  dsimp only
  generalize q.runStages engines i.settings = staged at hview hafter ⊢
  obtain ⟨t, cancelled⟩ := staged
  refine (hear_recalls hafter hw hd hn).mono fun r ⟨merging, frame, hmerge, hr, hheard⟩ => ?_
  rw [hview, Histories.merger_splitting] at hmerge
  rw [Histories.remember_splitting] at hr
  exact ⟨_, hheard ▸ Histories.step_eq hsplit hmerge, hr⟩

/-- All frames are heard as the histories of the lane tell. -/
theorem play_plays (hrecalls : p.buffers.Recalls n b h) {inputs : List Input}
    (hinputs : ∀ i ∈ inputs, i.settings.frames = n ∧ i.settings.gain = false) :
    Returns (play engines inputs p) fun outs =>
      h.play ((outs.map (·.1)).zip (inputs.map fun i => fit n 0 i.nearend)) =
          .ok (outs.map (·.2)) ∧ outs.length = inputs.length := by
  induction inputs generalizing p h with
  | nil => exact returns_ok ⟨rfl, rfl⟩
  | cons i inputs ih =>
    obtain ⟨hn, hgain⟩ := hinputs i List.mem_cons_self
    obtain ⟨cancelled, hcancels, r, hr, h', hstep, hrecalls'⟩ :=
      process_recalls hcopies hw hd hrecalls hn hgain
    rw [play, hcancels, ok_bind, hr, ok_bind]
    refine (ih hrecalls' fun i' hi' => hinputs i' (List.mem_cons_of_mem i hi')).map
      fun outs ⟨houts, hlen⟩ => ⟨?_, by simp [hlen]⟩
    rw [List.map_cons, List.map_cons, List.zip_cons_cons, Histories.play_cons_eq_ok]
    exact ⟨h', r.2, _, hstep, houts, rfl⟩

end Several

end Lane

end Duplex
