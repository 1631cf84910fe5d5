import Duplex.Proofs.Sparing

/-!
# Farend: what an echo canceller hears does not depend on what it does

The farend frame of a lane is filled and split on every frame that comes with farend, be echo
cancelled or not, and no stage does more to it than freshen one of its copies (`Heeds`). So the band
that an echo canceller is given on a frame is the lowest band of the farend frames up to that one,
split by one filter without a gap (`lowestBands`). The nearend, the settings of the stages, the
answers of the engines and the mic level have no influence on it (`farend_bands_agree`).
-/

namespace Duplex

open Signal Engine

variable {S : Type} {F F' : Family} {n b : Nat}

/-- The lowest band of each frame, where one filter splits them one after another. -/
def lowestBands (S : Type) [Sample S] [Sample.Faithful S] (n b : Nat) :
    List (List Int16) → Option SplittingFilter → Checked (List (List S))
  | [], _ => .ok []
  | frame :: frames, filter =>
    SubbandFrame.loadBands n frame filter >>= fun r =>
      (lowestBands S n b frames r.1).map ((Sample.Faithful.pick r.2).take (n / b) :: ·)

namespace Journal

/-- The farend bands that echo cancellers were given, in order. -/
def farendBands (journal : Journal S) : List (List S) :=
  journal.filterMap fun
    | .called _ (.echoFarend band) _ => some band
    | _ => none

theorem farendBands_append (j k : Journal S) :
    farendBands (j ++ k) = farendBands j ++ farendBands k :=
  List.filterMap_append ..

end Journal

/-- Gain controllers are given no farend. -/
theorem GainTurn.farendBands {slot : Option Nat} {turn : Journal S} (h : GainTurn slot turn) :
    turn.farendBands = [] := by
  cases h <;> rfl

/-- Nor are noise suppressors. -/
theorem NoiseTurn.farendBands {slot : Option Nat} {turn : Journal S} (h : NoiseTurn slot turn) :
    turn.farendBands = [] := by
  cases h <;> rfl

/-! ### Stages -/

namespace Buffers

variable {T : Type} [Sample T] {good : List T → Prop} {bufs bufs' : Buffers} {cancelled : Bool}

theorem Step.farend (h : Step good bufs bufs') : bufs'.farend = bufs.farend := by
  cases h <;> rfl

theorem EchoStep.farend (h : EchoStep good bufs bufs' cancelled) :
    bufs'.farend = bufs.farend.sync T := by
  cases h <;> rfl

end Buffers

namespace Lane.Passage

variable [Sample S] [Sample.Faithful S]

/-- The farend frame reads as before and goes on with the same filter, and whatever of it engines
were given is its lowest band. -/
structure Heeds (n b : Nat) (p p' : Passage S F) : Prop where
  filter : p'.buffers.farend.filter = p.buffers.farend.filter
  content : p'.buffers.farend.content = p.buffers.farend.content
  calls : ∃ calls, Journal.Adds calls p.journal p'.journal ∧
    ∀ band ∈ calls.farendBands,
      band = (Sample.Faithful.pick p.buffers.farend.content).take (n / b)

theorem Heeds.refl (p : Passage S F) : Heeds n b p p :=
  ⟨rfl, rfl, [], .refl _, nofun⟩

theorem Heeds.trans {p p' q : Passage S F} (h : Heeds n b p p') (h' : Heeds n b p' q) :
    Heeds n b p q := by
  obtain ⟨calls, hadds, hbands⟩ := h.calls
  obtain ⟨calls', hadds', hbands'⟩ := h'.calls
  rw [h.content] at hbands'
  refine ⟨h'.filter.trans h.filter, h'.content.trans h.content, _, hadds.trans hadds', ?_⟩
  rw [Journal.farendBands_append]
  exact List.forall_mem_append.mpr ⟨hbands, hbands'⟩

/-- A stage that takes no farend leaves the farend frame alone. -/
theorem Takes.heeds {turn : Journal S → Prop} {p p' : Passage S F} (h : p.Takes turn p')
    (hfarend : p'.buffers.farend = p.buffers.farend)
    (hturn : ∀ calls, turn calls → calls.farendBands = []) : Heeds n b p p' := by
  obtain ⟨-, calls, hadds, hcalls⟩ := h
  refine ⟨by rw [hfarend], by rw [hfarend], calls, hadds, ?_⟩
  rw [hturn calls hcalls]
  exact nofun

variable (engines : Engines S F) (p : Passage S F)

theorem runGain_heeds {e : Numbered F.Gain} (he : p.lane.gain = some e) :
    Heeds n b p (p.runGain engines e) :=
  (runGain_takes engines p he).heeds (runGain_step engines p e).1.farend
    fun _ hcalls => hcalls.farendBands

theorem runNoise_heeds {e : Numbered F.Noise} (he : p.lane.noise = some e) :
    Heeds n b p (p.runNoise engines e) :=
  (runNoise_takes engines p he).heeds (runNoise_step engines p e).1.farend
    fun _ hcalls => hcalls.farendBands

/-- Whether the echo canceller takes the farend, fails or succeeds, it is given the lowest band once. -/
theorem runEcho_farendBands (delay : Nat) (e : Numbered F.Echo) :
    ∃ calls, Journal.Adds calls p.journal (p.runEcho engines delay e).1.journal ∧
      calls.farendBands = [p.buffers.farend.lowest S] := by
  rw [← SubbandFrame.lowest_sync (T := S) p.buffers.farend]
  unfold runEcho
  extract_lets farend bufs p₁ queued lane p₂ nearend bands reply output lane₂ bufs₂ p₃
  have hqueued : Journal.Adds [.called e.number (.echoFarend (farend.lowest S))
      (succeeded queued.result)] p.journal p₂.journal := .call ..
  cases queued.result with
  | error error => exact ⟨_, hqueued.trans (.notice ..), rfl⟩
  | ok _ =>
    have hpassed : Journal.Adds
        [.called e.number (.echoProcess bands delay) (succeeded reply.result)]
        p₂.journal p₃.journal := .call ..
    have hcalls := hqueued.trans hpassed
    cases reply.result with
    | error error => exact ⟨_, hcalls.trans (.notice ..), rfl⟩
    | ok _ => exact ⟨_, hcalls, rfl⟩

variable {p}

theorem runEcho_heeds (hs : p.buffers.Shaped n b) (delay : Nat) (e : Numbered F.Echo) :
    Heeds n b p (p.runEcho engines delay e).1 := by
  have hfarend := (runEcho_step engines p delay e).1.farend
  obtain ⟨calls, hadds, hcalls⟩ := runEcho_farendBands engines p delay e
  refine ⟨?_, ?_, calls, hadds, ?_⟩
  · rw [hfarend, SubbandFrame.filter_sync]
  · rw [hfarend, SubbandFrame.content_sync]
  · rw [hcalls, ← SubbandFrame.lowest_eq hs.farend]
    exact fun _ => List.mem_singleton.mp

/-- So it is with all stages, be they on or off. -/
theorem runStages_heeds (settings : FrameSettings) (hs : p.buffers.Shaped n b) :
    Heeds n b p (p.runStages engines settings).1 := by
  unfold runStages
  extract_lets p₁ p₂
  have h₁ : p₁.buffers.Shaped n b ∧ Heeds n b p p₁ := by
    simp only [p₁]
    split
    · rename_i e _ he
      exact ⟨(runGain_step engines p e).1.shaped hs, runGain_heeds engines p he⟩
    · exact ⟨hs, .refl p⟩
  have h₂ : p₂.buffers.Shaped n b ∧ Heeds n b p p₂ := by
    simp only [p₂]
    split
    · rename_i e _ he
      exact ⟨(runNoise_step engines p₁ e).1.shaped h₁.1, h₁.2.trans (runNoise_heeds engines p₁ he)⟩
    · exact h₁
  split
  · exact h₂.2.trans (runEcho_heeds engines h₂.1 settings.delay _)
  · exact h₂.2

end Lane.Passage

/-! ### Frames -/

/-- Whatever farend band engines were given on the frame, it is this one. -/
def Report.Heard (report : Report S) (band : List S) : Prop :=
  ∀ given ∈ report.calls.farendBands, given = band

/-- Of each frame, the given farend bands are copies of the one band. -/
theorem Report.farendBands_of_heard {reports : List (Report S)} {bands : List (List S)}
    (h : List.Forall₂ Report.Heard reports bands) :
    reports.map (·.calls.farendBands) =
      List.zipWith List.replicate (reports.map (·.calls.farendBands.length)) bands := by
  induction h with
  | nil => rfl
  | cons hband _ ih =>
    rw [List.map_cons, List.map_cons, List.zipWith_cons_cons, ← ih,
      ← List.eq_replicate_of_mem hband]

namespace Lane

/-- Reading out what is heard touches neither the farend frame nor the journal. -/
theorem hear_farend {settings : FrameSettings} {r : Passage S F × Bool}
    {t : Passage S F × List Int16} (h : Passage.hear settings r = .ok t) :
    t.1.buffers.farend = r.1.buffers.farend ∧ t.1.journal = r.1.journal := by
  obtain ⟨p, cancelled⟩ := r
  cases cancelled with
  | true =>
    obtain ⟨_, -, rfl⟩ := map_eq_ok.mp h
    exact ⟨rfl, rfl⟩
  | false =>
    obtain ⟨_, -, rfl⟩ := map_eq_ok.mp h
    exact ⟨rfl, rfl⟩

/-- Loading a frame that comes with farend splits the farend frame. -/
theorem load_farend (hw : Workable n b) (hd : b ∣ n) {p : Passage S F}
    (hs : p.buffers.Shaped n b) {i : Input} (hfarend : i.settings.farend = true) :
    Returns (p.load i.settings i.farend i.nearend) fun q =>
      q.buffers.Shaped n b ∧ q.journal = p.journal ∧
        SubbandFrame.loadBands n i.farend p.buffers.farend.filter =
          .ok (q.buffers.farend.filter, q.buffers.farend.content) := by
  refine (load_remembers hw hd hs i).mono ?_
  rintro q ⟨hqs, -, hjournal, hload⟩
  obtain ⟨⟨filter, bands⟩, -, hload⟩ := bind_eq_ok.mp hload
  dsimp only at hload
  rw [if_pos hfarend] at hload
  obtain ⟨⟨farendFilter, farend⟩, hfar, hq⟩ := map_eq_ok.mp hload
  obtain ⟨hmemory, -⟩ := Prod.mk.inj hq
  obtain ⟨rfl, rfl⟩ : farendFilter = q.buffers.farend.filter ∧ farend = q.buffers.farend.content :=
    ⟨congrArg Memory.farendFilter hmemory, congrArg Memory.farend hmemory⟩
  exact ⟨hqs, hjournal, hfar⟩

variable [Sample S] [Sample.Faithful S] (engines : Engines S F) (engines' : Engines S F')

/-- On a frame that comes with farend, the farend filter goes on by that frame, and what engines are
given of it is the lowest band. -/
theorem frame_farend (hw : Workable n b) {p : Passage S F} (hs : p.buffers.Shaped n b) {i : Input}
    (hn : i.settings.frames = n) (hfarend : i.settings.farend = true) :
    Returns (frame engines i p) fun r => r.1.buffers.Shaped n b ∧
      ∃ farend, SubbandFrame.loadBands n i.farend p.buffers.farend.filter =
          .ok (r.1.buffers.farend.filter, farend) ∧
        r.2.Heard ((Sample.Faithful.pick farend).take (n / b)) := by
  have hd : b ∣ n := hs.nearend.storage.ints.bands_dvd
  obtain ⟨q, hq, hqs, hjournal, hload⟩ := load_farend hw hd hs hfarend
  obtain ⟨hrun, -⟩ := Passage.runStages_shaped engines q i.settings hqs
  have hheeds := Passage.runStages_heeds engines i.settings hqs
  obtain ⟨calls, hadds, hcalls⟩ := hheeds.calls
  obtain ⟨t, ht, hts, -⟩ := hear_returns hrun hw hn
  obtain ⟨hkept, hsame⟩ := hear_farend ht
  have hreport : (p.report t).calls = calls := by
    show t.1.journal.calls.drop p.journal.calls.length = calls
    rw [hsame, hadds.calls, hjournal, List.drop_left]
  rw [frame, process_eq, hq, ok_bind, ht]
  refine returns_ok ⟨hts, q.buffers.farend.content, ?_, ?_⟩
  · rw [hload, hkept, hheeds.filter]
  · intro given hgiven
    rw [hreport] at hgiven
    exact hcalls given hgiven

/-! ### Frame after frame -/

/-- On any frames that come with farend, the farend bands that engines are given are those of the
continuous split. -/
theorem perform_farend (hw : Workable n b) {p : Passage S F} (hs : p.buffers.Shaped n b)
    {cues : List (Cue F)}
    (hcues : ∀ c ∈ cues, c.input.settings.frames = n ∧ c.input.settings.farend = true) :
    Returns (perform engines cues p) fun reports =>
      ∃ bands, lowestBands S n b (cues.map (·.input.farend)) p.buffers.farend.filter = .ok bands ∧
        List.Forall₂ Report.Heard reports bands := by
  induction cues generalizing p with
  | nil => exact returns_ok ⟨[], rfl, .nil⟩
  | cons c cues ih =>
    obtain ⟨hn, hfarend⟩ := hcues c List.mem_cons_self
    obtain ⟨r, hr, hrs, farend, hload, hheard⟩ := frame_farend engines hw hs hn hfarend
    rw [perform, hr, ok_bind]
    refine (ih (p := r.1.withRig (c.between r.1.rig)) hrs
      fun c' hc' => hcues c' (List.mem_cons_of_mem c hc')).map ?_
    rintro reports ⟨bands, hbands, hall⟩
    refine ⟨_, ?_, .cons hheard hall⟩
    rw [List.map_cons, lowestBands, hload, ok_bind]
    show (lowestBands S n b _ (r.1.withRig (c.between r.1.rig)).buffers.farend.filter).map _ = _
    rw [hbands]
    rfl

/-- On two lanes that start with the same farend filter, two performances that are given the same
farend frames, whatever else they are given, whichever stages are on and whatever the engines
answer: wherever echo cancellers are given farend, it is the same in both, the lowest band of the
continuous split of the farend frames. -/
theorem farend_bands_agree (hw : Workable n b) {p : Passage S F} {p' : Passage S F'}
    (hs : p.buffers.Shaped n b) (hs' : p'.buffers.Shaped n b)
    (hfilter : p'.buffers.farend.filter = p.buffers.farend.filter)
    {cues : List (Cue F)} {cues' : List (Cue F')}
    (hcues : ∀ c ∈ cues, c.input.settings.frames = n ∧ c.input.settings.farend = true)
    (hcues' : ∀ c ∈ cues', c.input.settings.frames = n ∧ c.input.settings.farend = true)
    (hsame : cues'.map (·.input.farend) = cues.map (·.input.farend)) :
    ∃ reports reports' bands, perform engines cues p = .ok reports ∧
      perform engines' cues' p' = .ok reports' ∧
      lowestBands S n b (cues.map (·.input.farend)) p.buffers.farend.filter = .ok bands ∧
      List.Forall₂ Report.Heard reports bands ∧ List.Forall₂ Report.Heard reports' bands := by
  obtain ⟨reports, hperform, bands, hbands, hall⟩ := perform_farend engines hw hs hcues
  obtain ⟨reports', hperform', bands', hbands', hall'⟩ := perform_farend engines' hw hs' hcues'
  rw [hsame, hfilter, hbands] at hbands'
  obtain rfl : bands = bands' := Except.ok.inj hbands'
  exact ⟨reports, reports', bands, hperform, hperform', hbands, hall, hall'⟩

/-- Two frames of two bands. Echo cancellation is off on the first one of one performance, and fails
on both of the other, where nearend and mic level are others; on the second frame both echo
cancellers are given the same band. -/
theorem farend_bands_agree_faltering :
    ∃ (p p' : Passage Float32 (Scripted.family Float32))
      (cues cues' : List (Cue (Scripted.family Float32))) (reports reports' : List (Report Float32))
      (first second : List Float32),
      p.buffers.Shaped 4 2 ∧ p.micLevel ≠ p'.micLevel ∧
      cues.map (·.input.nearend) ≠ cues'.map (·.input.nearend) ∧
      lowestBands Float32 4 2 [[100, -50, 300, 7], [5, 6, 7, 800]] p.buffers.farend.filter =
        .ok [first, second] ∧
      perform (Scripted.engines Float32 faltering 48000) cues p = .ok reports ∧
      perform (Scripted.engines Float32 { faltering with echo := { processError := some 1 } } 48000)
        cues' p' = .ok reports' ∧
      reports.map (·.calls.farendBands) = [[], [second]] ∧
      reports'.map (·.calls.farendBands) = [[first], [second]] := by
  let lane : Lane (Scripted.family Float32) :=
    ⟨0, some ⟨0, ⟨0, []⟩⟩, some ⟨0, (0 : Nat)⟩, some ⟨0, (0 : Nat)⟩, none⟩
  let cue (echo : Bool) (farend nearend : List Int16) : Cue (Scripted.family Float32) :=
    ⟨⟨⟨4, 2, true, true, echo, true, 0⟩, farend, nearend⟩, fun _ => false, id⟩
  let cues := [cue false [100, -50, 300, 7] [1, 2, 3, 4], cue true [5, 6, 7, 800] [5, 6, 7, 8]]
  let cues' := [cue true [100, -50, 300, 7] [9, 0, 0, 9], cue true [5, 6, 7, 800] [0, 9, 9, 0]]
  obtain ⟨bufs, hcreate, hs⟩ : ∃ bufs : Buffers, (Buffers.create 4 2).run = .ok (.ok bufs) ∧
      bufs.Shaped 4 2 := Buffers.create_returns (by decide) (by decide) (by decide)
  let p : Passage Float32 (Scripted.family Float32) := ⟨lane, bufs, 0, {}, []⟩
  let p' : Passage Float32 (Scripted.family Float32) := ⟨lane, bufs, 50, {}, []⟩
  have hs' : p'.buffers.Shaped 4 2 := hs
  have hcues : ∀ c ∈ cues, c.input.settings.frames = 4 ∧ c.input.settings.farend = true := by
    simp [cues, cue]
  have hcues' : ∀ c ∈ cues', c.input.settings.frames = 4 ∧ c.input.settings.farend = true := by
    simp [cues', cue]
  have hcounts : ((Buffers.create 4 2).run >>= fun made => match made with
      | .ok bufs => do
        let reports ← perform (Scripted.engines Float32 faltering 48000) cues
          ⟨lane, bufs, 0, {}, []⟩
        let reports' ← perform (Scripted.engines Float32
          { faltering with echo := { processError := some 1 } } 48000) cues' ⟨lane, bufs, 50, {}, []⟩
        return (reports.map (·.calls.farendBands.length), reports'.map (·.calls.farendBands.length))
      | .error _ => .ok ([], [])) = .ok ([0, 1], [1, 1]) := by
    decide +kernel
  obtain ⟨reports, reports', bands, hperform, hperform', hbands, hall, hall'⟩ :=
    farend_bands_agree (Scripted.engines Float32 faltering 48000)
      (Scripted.engines Float32 { faltering with echo := { processError := some 1 } } 48000)
      (n := 4) (b := 2) (p := p) (.inr (.inl ⟨rfl, by decide, by decide⟩)) hs hs' rfl hcues hcues' rfl
  rw [hcreate, ok_bind] at hcounts
  dsimp only at hcounts
  rw [hperform, ok_bind, hperform', ok_bind] at hcounts
  obtain ⟨hcount, hcount'⟩ := Prod.mk.inj (Except.ok.inj hcounts)
  have hframes : bands.length = 2 := by
    rw [← hall.length_eq, ← List.length_map (f := fun r : Report Float32 => r.calls.farendBands.length),
      hcount]
    rfl
  obtain ⟨first, second, rfl⟩ := List.length_eq_two.mp hframes
  refine ⟨p, p', cues, cues', reports, reports', first, second, hs,
    (by decide : (0 : Int32) ≠ 50), by decide, hbands, hperform, hperform', ?_, ?_⟩
  · rw [Report.farendBands_of_heard hall, hcount]
    rfl
  · rw [Report.farendBands_of_heard hall', hcount']
    rfl

end Lane

end Duplex
