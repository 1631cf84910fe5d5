import Duplex.Engine.Bypass
import Duplex.Proofs.Lane

/-!
# Copying engines: lanes of one band hear the nearend

An engine `Copies` if a call that succeeds leaves its input bands in its output bands; a call that
fails may leave anything there. In a lane of one band such engines change nothing: whichever stages
run, pass or fail, what is heard is the nearend frame (`process_passes`).
-/

namespace Duplex

open Signal Engine

variable {S : Type} {F : Family} {n b : Nat}

/-- The engines copy their input bands to their output bands whenever they succeed. -/
structure Engines.Copies (engines : Engines S F) : Prop where
  echo (e : F.Echo) (nearend out : Bands S) (delay : Nat) :
    (engines.echo.process e nearend out delay).result = .ok () →
      (engines.echo.process e nearend out delay).out = nearend.data
  noise (e : F.Noise) (nearend out : Bands S) :
    (engines.noise.process e nearend out).result = .ok () →
      (engines.noise.process e nearend out).out = nearend.data
  gain (e : F.Gain) (nearend out : Bands Int16) (micLevel : Int32) (hasEcho : Bool)
    (outcome : GainOutcome) :
    (engines.gain.process e nearend out micLevel hasEcho).result = .ok outcome →
      (engines.gain.process e nearend out micLevel hasEcho).out = nearend.data

theorem Engine.Bypass.engines_copies (S : Type) (maxRate : Nat) {R : Resampling} :
    (Bypass.engines S maxRate : Engines S (Bypass.family R)).Copies :=
  ⟨fun _ _ _ _ _ => rfl, fun _ _ _ _ => rfl, fun _ _ _ _ _ _ _ => rfl⟩

/-! ### Bands that hold samples -/

namespace SubbandFrame

variable {f : SubbandFrame} {T : Type} [Sample T] {xs : List Int16}

theorem view_of_holds [Sample.Exact T] (h : f.storage.Holds xs) :
    (f.view T).data = xs.map Sample.Exact.embed := Sample.Exact.read_of_holds h

theorem holds_sync [Sample.Exact T] (h : f.storage.Holds xs) : (f.sync T).storage.Holds xs := by
  rw [sync, storage_withStorage]
  exact Sample.Exact.sync_holds h

theorem holds_put [Sample.Exact T] (hs : f.Shaped n b) (hxs : xs.length = n) :
    (f.put (xs.map (Sample.Exact.embed (S := T)))).storage.Holds xs := by
  rw [put, storage_withStorage]
  exact hs.storage.write_holds hxs

/-- Freshening changes nothing that is read. -/
theorem view_sync [Sample.Lawful T] (f : SubbandFrame) : (f.sync T).view T = f.view T := by
  rw [view, sync, storage_withStorage]
  simp only [Sample.Lawful.read_sync]
  rfl

/-- The bands read as they were written. -/
theorem view_put [Sample.Lawful T] (hs : f.Shaped n b) {out : List T} (hout : out.length = n) :
    ((f.put out).view T).data = out := by
  rw [view, put, storage_withStorage]
  dsimp only
  rw [DualBuffer.read_write]
  exact (Sample.Lawful.read_hasShape hs.storage).writeData_all hout

theorem view_sync_put [Sample.Lawful T] (hs : f.Shaped n b) {out : List T} (hout : out.length = n) :
    (((f.put out).sync T).view T).data = out := by
  rw [view_sync, view_put hs hout]

/-- With one band, what the storage holds is what is read. -/
theorem readInto_of_holds (hs : f.split = none) (h : f.storage.Holds xs) {dest : List Int16}
    (hdest : dest.length = xs.length) :
    f.readInto dest = .ok ({ f with full := f.full.syncInts }, xs.length, xs) := by
  have hfull : f.full.Holds xs := by
    rw [storage, hs] at h
    exact h
  rw [readInto_of_whole hs, hfull.ints, hdest, Nat.min_self, overlay_all hdest.symm]

theorem Shaped.split_eq_none (hs : f.Shaped n 1) : f.split = none := by
  cases hsplit : f.split with
  | none => rfl
  | some s =>
    obtain ⟨_, _, hb⟩ | ⟨_, _, hb⟩ := (hs.bands s hsplit).2.cases
    · omega
    · omega

end SubbandFrame

namespace Buffers

variable {T : Type} [Sample T] [Sample.Exact T] {good : List T → Prop} {bufs bufs' : Buffers}
  {cancelled : Bool} {xs : List Int16}

/-- If a stage that passed has written what it was given, the nearend bands still hold it. -/
theorem Step.holds (h : Step good bufs bufs') (hs : bufs.Shaped n b)
    (hgood : ∀ out, good out → out = ((bufs.nearend.sync T).view T).data) (hxs : xs.length = n)
    (hnear : bufs.nearend.storage.Holds xs) : bufs'.nearend.storage.Holds xs := by
  have hsync := SubbandFrame.holds_sync (T := T) hnear
  cases h with
  | refused => exact hsync
  | failed out => exact hsync
  | passed out hout =>
    have hview : out = xs.map Sample.Exact.embed :=
      (hgood out hout).trans (SubbandFrame.view_of_holds hsync)
    dsimp only
    rw [SubbandFrame.view_sync_put hs.output (by rw [hview, List.length_map, hxs]), hview]
    exact SubbandFrame.holds_put hs.nearend.sync hxs

/-- If echo cancellation succeeded the output bands hold what it was given, and otherwise the
nearend bands still do. -/
theorem EchoStep.holds (h : EchoStep good bufs bufs' cancelled) (hs : bufs.Shaped n b)
    (hgood : ∀ out, good out → out = ((bufs.nearend.sync T).view T).data) (hxs : xs.length = n)
    (hnear : bufs.nearend.storage.Holds xs) :
    (if cancelled then bufs'.output else bufs'.nearend).storage.Holds xs := by
  have hsync := SubbandFrame.holds_sync (T := T) hnear
  cases h with
  | refused => exact hnear
  | failed out => exact hsync
  | passed out hout =>
    have hview : out = xs.map Sample.Exact.embed :=
      (hgood out hout).trans (SubbandFrame.view_of_holds hsync)
    rw [hview]
    exact SubbandFrame.holds_put hs.output hxs

end Buffers

namespace Lane

namespace Passage

/-- The frame that is heard after the stages. -/
def heardFrame (r : Passage S F × Bool) : SubbandFrame :=
  if r.2 then r.1.buffers.output else r.1.buffers.nearend

variable [Sample S] [Sample.Exact S] {engines : Engines S F} {p : Passage S F} {xs : List Int16}

/-- The frame that is heard after all stages holds the samples of the nearend frame. -/
theorem runStages_holds (hcopies : engines.Copies) (settings : FrameSettings)
    (hs : p.buffers.Shaped n b) (hxs : xs.length = n) (hnear : p.buffers.nearend.storage.Holds xs) :
    (heardFrame (p.runStages engines settings)).storage.Holds xs := by
  unfold runStages
  extract_lets p₁ p₂
  have h₁ : p₁.buffers.Shaped n b ∧ p₁.buffers.nearend.storage.Holds xs := by
    simp only [p₁]
    split
    · obtain ⟨hstep, -⟩ := runGain_step engines p _
      refine ⟨hstep.shaped hs, hstep.holds hs ?_ hxs hnear⟩
      rintro out ⟨_, _, _, _, rfl, hok⟩
      exact hcopies.gain _ _ _ _ _ _ hok
    · exact ⟨hs, hnear⟩
  have h₂ : p₂.buffers.Shaped n b ∧ p₂.buffers.nearend.storage.Holds xs := by
    simp only [p₂]
    split
    · obtain ⟨hstep, -⟩ := runNoise_step engines p₁ _
      refine ⟨hstep.shaped h₁.1, hstep.holds h₁.1 ?_ hxs h₁.2⟩
      rintro out ⟨_, _, rfl, hok⟩
      exact hcopies.noise _ _ _ hok
    · exact h₁
  split
  · obtain ⟨hstep, -⟩ := runEcho_step engines p₂ settings.delay _
    refine hstep.holds h₂.1 ?_ hxs h₂.2
    rintro out ⟨_, _, rfl, hok⟩
    exact hcopies.echo _ _ _ _ hok
  · exact h₂.2

end Passage

variable {settings : FrameSettings} {p : Passage S F}

/-- The frames that are loaded hold the samples. -/
theorem load_holds (hs : p.buffers.Shaped n 1) (farend nearend : List Int16) :
    Returns (p.load settings farend nearend) fun q =>
      q.buffers.Shaped n 1 ∧ q.stats = p.stats ∧
        q.buffers.nearend.storage.Holds (fit n 0 nearend) := by
  obtain ⟨q, hq, hshape, hstats⟩ := load_returns hs (.inl rfl) farend nearend
  refine ⟨q, hq, hshape, hstats, ?_⟩
  rw [Passage.load, SubbandFrame.fill_of_whole hs.nearend hs.nearend.split_eq_none, ok_bind] at hq
  obtain ⟨far, -, rfl⟩ := map_eq_ok.mp hq
  have hholds := hs.nearend.full.write_holds (S := Int16) (length_fit n 0 nearend)
  rw [map_embed_int16] at hholds
  rw [SubbandFrame.storage, hs.nearend.split_eq_none]
  exact hholds

/-- Of a frame of one band that holds samples, these are heard. -/
theorem hear_of_holds {r : Passage S F × Bool} {xs : List Int16} (hs : r.1.buffers.Shaped n 1)
    (hn : settings.frames = n) (hxs : xs.length = n)
    (h : (Passage.heardFrame r).storage.Holds xs) :
    Returns (Passage.hear settings r) fun q =>
      q.1.buffers.Shaped n 1 ∧ q.1.stats = r.1.stats ∧ q.2 = xs := by
  obtain ⟨q, hq, hshape, hstats, -⟩ := hear_returns hs (.inl rfl) hn
  refine ⟨q, hq, hshape, hstats, ?_⟩
  have hsilence : (List.replicate settings.frames (0 : Int16)).length = xs.length := by simp [hn, hxs]
  obtain ⟨p, cancelled⟩ := r
  cases cancelled with
  | true =>
    rw [Passage.hear, SubbandFrame.readInto_of_holds hs.output.split_eq_none h hsilence] at hq
    rw [← Except.ok.inj hq]
  | false =>
    rw [Passage.hear, SubbandFrame.readInto_of_holds hs.nearend.split_eq_none h hsilence] at hq
    rw [← Except.ok.inj hq]

variable [Sample S] [Sample.Exact S] {engines : Engines S F}

/-- A lane of one band hears the nearend frame, whatever its engines do when they fail. -/
theorem process_passes (hcopies : engines.Copies) (hs : p.buffers.Shaped n 1)
    (hn : settings.frames = n) (farend nearend : List Int16) :
    Returns (process engines settings farend nearend p) fun r =>
      r.1.buffers.Shaped n 1 ∧ p.stats.FailuresOnly r.1.stats ∧ r.2 = fit n 0 nearend := by
  rw [process_eq]
  refine (load_holds hs farend nearend).bind fun q ⟨hq, hstats, hholds⟩ => ?_
  obtain ⟨hrun, hfailures⟩ := Passage.runStages_shaped engines q settings hq
  have hheard := Passage.runStages_holds hcopies settings hq (length_fit n 0 nearend) hholds
  refine (hear_of_holds hrun hn (length_fit n 0 nearend) hheard).mono
    fun r ⟨hr, hrstats, hout⟩ => ⟨hr, ?_, hout⟩
  rw [hrstats, ← hstats]
  exact hfailures

end Lane

end Duplex
