import Duplex.Lane
import Duplex.Proofs.Subband

/-!
# Lanes: what a frame may change on its way through the stages

`Buffers.Step` and `Buffers.EchoStep` tell what a stage leaves in the frames, whatever its engine
answers: they keep their shape, and no counter moves but that of the failures. So does a run through
all stages; hence a lane gives a result on every workable shape (`process_returns`) and faults on
every other (`process_fault`).
-/

namespace Duplex

open Signal Engine

variable {n b : Nat}

namespace Stats

/-- The counters differ at most in the failures of the stages. -/
def FailuresOnly (s t : Stats) : Prop := ∃ failures, t = { s with failures }

theorem FailuresOnly.refl (s : Stats) : s.FailuresOnly s := ⟨s.failures, rfl⟩

theorem FailuresOnly.trans {s t u : Stats} (h₁ : s.FailuresOnly t) (h₂ : t.FailuresOnly u) :
    s.FailuresOnly u := by
  obtain ⟨_, rfl⟩ := h₁
  obtain ⟨failures, rfl⟩ := h₂
  exact ⟨failures, rfl⟩

theorem failuresOnly_fail (s : Stats) (stage : Stage) : s.FailuresOnly (s.fail stage) := ⟨_, rfl⟩

end Stats

/-- All frames of the buffers have the given shape. -/
structure Buffers.Shaped (bufs : Buffers) (n b : Nat) : Prop where
  farend : bufs.farend.Shaped n b
  nearend : bufs.nearend.Shaped n b
  output : bufs.output.Shaped n b

theorem Buffers.create_returns (hb : 1 ≤ b ∧ b ≤ 3) (hd : b ∣ n) (hn : n < storageLimit) :
    ∃ bufs : Buffers, (Buffers.create n b).run = .ok (.ok bufs) ∧ bufs.Shaped n b := by
  obtain ⟨f, hf, hshape, -⟩ := SubbandFrame.create_returns hb hd hn
  refine ⟨⟨f, f, f⟩, ?_, hshape, hshape, hshape⟩
  exact attempt_bind_eq_ok.mpr ⟨f, hf, rfl⟩

theorem Buffers.create_refuses (h : ¬ ((1 ≤ b ∧ b ≤ 3) ∧ b ∣ n)) :
    (Buffers.create n b).run = .ok (.error (.unsupportedBandCount b)) := by
  have hf := SubbandFrame.create_refuses h
  rw [Buffers.create, ExceptT.run_bind, hf]
  rfl

namespace Lane

variable {S : Type} {F : Family}

namespace Passage

@[simp] theorem log_buffers (p : Passage S F) (events : Journal S) :
    (p.log events).buffers = p.buffers := rfl

@[simp] theorem log_stats (p : Passage S F) (events : Journal S) :
    (p.log events).stats = p.stats := rfl

@[simp] theorem fail_buffers (p : Passage S F) (stage : Stage) (e : Engine.Error) :
    (p.fail stage e).buffers = p.buffers := rfl

@[simp] theorem fail_stats (p : Passage S F) (stage : Stage) (e : Engine.Error) :
    (p.fail stage e).stats = p.stats.fail stage := rfl

end Passage

end Lane

/-! ### What a stage leaves behind -/

namespace Buffers

variable {T : Type} [Sample T]

/-- What a stage that works on bands of one form leaves in the frames: it freshened the nearend
bands; it may have written to the output bands; and if it passed, these became the nearend bands.
`good` holds of what a stage that passed has written. -/
inductive Step (good : List T → Prop) (bufs : Buffers) : Buffers → Prop where
  | refused : Step good bufs { bufs with nearend := bufs.nearend.sync T }
  | failed (out : List T) :
    Step good bufs { bufs with nearend := bufs.nearend.sync T, output := bufs.output.put out }
  | passed (out : List T) (h : good out) :
    Step good bufs
      { bufs with
        nearend := (bufs.nearend.sync T).put (((bufs.output.put out).sync T).view T).data
        output := (bufs.output.put out).sync T }

/-- What echo cancellation leaves in the frames, and whether it succeeded: it freshened the farend
bands and, unless the engine refused these, the nearend bands, and wrote to the output bands. -/
inductive EchoStep (good : List T → Prop) (bufs : Buffers) : Buffers → Bool → Prop where
  | refused : EchoStep good bufs { bufs with farend := bufs.farend.sync T } false
  | failed (out : List T) :
    EchoStep good bufs
      { farend := bufs.farend.sync T, nearend := bufs.nearend.sync T, output := bufs.output.put out }
      false
  | passed (out : List T) (h : good out) :
    EchoStep good bufs
      { farend := bufs.farend.sync T, nearend := bufs.nearend.sync T, output := bufs.output.put out }
      true

variable [Sample.Lawful T] {good : List T → Prop} {bufs bufs' : Buffers} {cancelled : Bool}

theorem Step.shaped (h : Step good bufs bufs') (hs : bufs.Shaped n b) : bufs'.Shaped n b := by
  cases h with
  | refused => exact ⟨hs.farend, hs.nearend.sync, hs.output⟩
  | failed out => exact ⟨hs.farend, hs.nearend.sync, hs.output.put out⟩
  | passed out => exact ⟨hs.farend, hs.nearend.sync.put _, (hs.output.put out).sync⟩

theorem EchoStep.shaped (h : EchoStep good bufs bufs' cancelled) (hs : bufs.Shaped n b) :
    bufs'.Shaped n b := by
  cases h with
  | refused => exact ⟨hs.farend.sync, hs.nearend, hs.output⟩
  | failed out => exact ⟨hs.farend.sync, hs.nearend.sync, hs.output.put out⟩
  | passed out => exact ⟨hs.farend.sync, hs.nearend.sync, hs.output.put out⟩

end Buffers

namespace Lane.Passage

variable {S : Type} {F : Family} (engines : Engines S F) (p : Passage S F)

/-- What a gain controller can have written when it passed the nearend bands. -/
def GainWrote (out : List Int16) : Prop :=
  ∃ e dest level outcome,
    (engines.gain.process e ((p.buffers.nearend.sync Int16).view Int16) dest level false).out = out ∧
    (engines.gain.process e ((p.buffers.nearend.sync Int16).view Int16) dest level false).result =
      .ok outcome

theorem runGain_step (e : Numbered F.Gain) :
    Buffers.Step (GainWrote engines p) p.buffers (p.runGain engines e).buffers ∧
      p.stats.FailuresOnly (p.runGain engines e).stats := by
  unfold runGain
  extract_lets nearend bands learnt p₁ p₂ reply output lane bufs p₃ accepted
  have hbuffers : p₂.buffers = p.buffers := by
    simp only [p₂]
    split <;> rfl
  have hwritten : p₃.buffers =
      { p.buffers with nearend, output := p.buffers.output.put reply.out } := by
    simp only [p₃, bufs, output, log_buffers, hbuffers]
  have hstats : p₃.stats = p.stats := by
    simp only [p₃, p₂, log_stats]
    split <;> rfl
  cases hr : reply.result with
  | error error =>
    show Buffers.Step _ _ p₃.buffers ∧ p.stats.FailuresOnly (p₃.stats.fail .gain)
    rw [hwritten, hstats]
    exact ⟨.failed _, Stats.failuresOnly_fail _ _⟩
  | ok outcome =>
    have hgood : GainWrote engines p reply.out := ⟨_, _, _, _, rfl, hr⟩
    have haccepted : Buffers.Step (GainWrote engines p) p.buffers accepted.buffers ∧
        p.stats.FailuresOnly accepted.stats := by
      show Buffers.Step _ _
        { p₃.buffers with
          nearend := p₃.buffers.nearend.put ((p₃.buffers.output.sync Int16).view Int16).data
          output := p₃.buffers.output.sync Int16 } ∧ p.stats.FailuresOnly p₃.stats
      rw [hwritten, hstats]
      exact ⟨.passed _ hgood, .refl _⟩
    dsimp only
    split
    · exact haccepted
    · exact haccepted

variable [Sample S]

/-- What a noise suppressor can have written when it passed the nearend bands. -/
def NoiseWrote (out : List S) : Prop :=
  ∃ e dest, (engines.noise.process e ((p.buffers.nearend.sync S).view S) dest).out = out ∧
    (engines.noise.process e ((p.buffers.nearend.sync S).view S) dest).result = .ok ()

theorem runNoise_step (e : Numbered F.Noise) :
    Buffers.Step (NoiseWrote engines p) p.buffers (p.runNoise engines e).buffers ∧
      p.stats.FailuresOnly (p.runNoise engines e).stats := by
  unfold runNoise
  extract_lets nearend bufs p₁ learnt lane p₂ bands reply output lane₂ bufs₂ p₃
  cases learnt.result with
  | error error => exact ⟨.refused, Stats.failuresOnly_fail _ _⟩
  | ok _ =>
    cases hr : reply.result with
    | error error => exact ⟨.failed _, Stats.failuresOnly_fail _ _⟩
    | ok _ => exact ⟨.passed _ ⟨_, _, rfl, hr⟩, .refl _⟩

/-- What an echo canceller can have written when it succeeded. -/
def EchoWrote (delay : Nat) (out : List S) : Prop :=
  ∃ e dest, (engines.echo.process e ((p.buffers.nearend.sync S).view S) dest delay).out = out ∧
    (engines.echo.process e ((p.buffers.nearend.sync S).view S) dest delay).result = .ok ()

theorem runEcho_step (delay : Nat) (e : Numbered F.Echo) :
    Buffers.EchoStep (EchoWrote engines p delay) p.buffers (p.runEcho engines delay e).1.buffers
        (p.runEcho engines delay e).2 ∧
      p.stats.FailuresOnly (p.runEcho engines delay e).1.stats := by
  unfold runEcho
  extract_lets farend bufs p₁ queued lane p₂ nearend bands reply output lane₂ bufs₂ p₃
  cases queued.result with
  | error error => exact ⟨.refused, Stats.failuresOnly_fail _ _⟩
  | ok _ =>
    cases hr : reply.result with
    | error error => exact ⟨.failed _, Stats.failuresOnly_fail _ _⟩
    | ok _ => exact ⟨.passed _ ⟨_, _, rfl, hr⟩, .refl _⟩

/-! ### All stages -/

variable [Sample.Lawful S]

/-- Whatever the engines answer, the frames keep their shape, and no counter moves but that of the
failures. -/
theorem runStages_shaped (settings : FrameSettings) (hs : p.buffers.Shaped n b) :
    (p.runStages engines settings).1.buffers.Shaped n b ∧
      p.stats.FailuresOnly (p.runStages engines settings).1.stats := by
  unfold runStages
  extract_lets p₁ p₂
  have h₁ : p₁.buffers.Shaped n b ∧ p.stats.FailuresOnly p₁.stats := by
    simp only [p₁]
    split
    · obtain ⟨hstep, hstats⟩ := runGain_step engines p _
      exact ⟨hstep.shaped hs, hstats⟩
    · exact ⟨hs, .refl _⟩
  have h₂ : p₂.buffers.Shaped n b ∧ p.stats.FailuresOnly p₂.stats := by
    simp only [p₂]
    split
    · obtain ⟨hstep, hstats⟩ := runNoise_step engines p₁ _
      exact ⟨hstep.shaped h₁.1, h₁.2.trans hstats⟩
    · exact h₁
  split
  · obtain ⟨hstep, hstats⟩ := runEcho_step engines p₂ settings.delay _
    exact ⟨hstep.shaped h₂.1, h₂.2.trans hstats⟩
  · exact h₂

end Lane.Passage

/-! ### A whole frame -/

namespace Lane

variable {S : Type} {F : Family}

namespace Passage

/-- Load the nearend frame and, if there is one, the farend frame. -/
def load (settings : FrameSettings) (farend nearend : List Int16) (p : Passage S F) :
    Checked (Passage S F) :=
  p.buffers.nearend.fill nearend >>= fun near =>
    (if settings.farend then p.buffers.farend.fill farend else .ok p.buffers.farend).map fun far =>
      { p with buffers := { p.buffers with nearend := near, farend := far } }

/-- Read out what is heard: the output if echo cancellation succeeded, and the nearend if not. -/
def hear (settings : FrameSettings) : Passage S F × Bool → Checked (Passage S F × List Int16)
  | (p, true) =>
    (p.buffers.output.readInto (List.replicate settings.frames 0)).map fun (output, _, samples) =>
      ({ p with buffers := { p.buffers with output } }, samples)
  | (p, false) =>
    (p.buffers.nearend.readInto (List.replicate settings.frames 0)).map fun (nearend, _, samples) =>
      ({ p with buffers := { p.buffers with nearend } }, samples)

end Passage

variable {settings : FrameSettings} {p : Passage S F}

theorem load_returns (hs : p.buffers.Shaped n b) (hw : Workable n b) (farend nearend : List Int16) :
    Returns (p.load settings farend nearend) fun q =>
      q.buffers.Shaped n b ∧ q.stats = p.stats := by
  unfold Passage.load
  refine (SubbandFrame.fill_returns hs.nearend hw nearend).bind fun near hnear => ?_
  split
  · exact (SubbandFrame.fill_returns hs.farend hw farend).map fun far hfar =>
      ⟨⟨hfar, hnear, hs.output⟩, rfl⟩
  · exact returns_ok ⟨⟨hs.farend, hnear, hs.output⟩, rfl⟩

theorem hear_returns {r : Passage S F × Bool} (hs : r.1.buffers.Shaped n b) (hw : Workable n b)
    (hn : settings.frames = n) :
    Returns (Passage.hear settings r) fun q =>
      q.1.buffers.Shaped n b ∧ q.1.stats = r.1.stats ∧ q.2.length = n := by
  have hsilence : (List.replicate settings.frames (0 : Int16)).length = n := by simp [hn]
  obtain ⟨p, cancelled⟩ := r
  cases cancelled with
  | true =>
    exact (SubbandFrame.readInto_returns hs.output hw hsilence).map fun _ h =>
      ⟨⟨hs.farend, hs.nearend, h.1⟩, rfl, h.2⟩
  | false =>
    exact (SubbandFrame.readInto_returns hs.nearend hw hsilence).map fun _ h =>
      ⟨⟨hs.farend, h.1, hs.output⟩, rfl, h.2⟩

variable [Sample S] (engines : Engines S F)

/-- A frame is loaded, goes through the stages and is heard. -/
theorem process_eq (settings : FrameSettings) (farend nearend : List Int16) (p : Passage S F) :
    process engines settings farend nearend p =
      p.load settings farend nearend >>= fun p => Passage.hear settings (p.runStages engines settings) := by
  have hhear (r : Passage S F × Bool) :
      (if r.2 then
        r.1.buffers.output.readInto (List.replicate settings.frames 0) >>= fun t =>
          pure ({ r.1 with buffers := { r.1.buffers with output := t.1 } }, t.2.2)
      else
        r.1.buffers.nearend.readInto (List.replicate settings.frames 0) >>= fun t =>
          pure ({ r.1 with buffers := { r.1.buffers with nearend := t.1 } }, t.2.2)) =
        Passage.hear settings r := by
    obtain ⟨q, cancelled⟩ := r
    cases cancelled with
    | true =>
      simp only [Passage.hear, if_true]
      cases q.buffers.output.readInto _ <;> rfl
    | false =>
      simp only [Passage.hear, Bool.false_eq_true, if_false]
      cases q.buffers.nearend.readInto _ <;> rfl
  unfold process Passage.load
  cases p.buffers.nearend.fill nearend with
  | error e => rfl
  | ok near =>
    split
    · cases p.buffers.farend.fill farend with
      | error e => rfl
      | ok far => exact hhear _
    · exact hhear _

/-- Loading and hearing a frame touches the buffers only. -/
theorem process_stages {farend nearend : List Int16} {r : Passage S F × List Int16}
    (h : process engines settings farend nearend p = .ok r) :
    ∃ loaded heard : Buffers, r.1 =
      { (Passage.runStages engines settings { p with buffers := loaded }).1 with
        buffers := heard } := by
  rw [process_eq] at h
  obtain ⟨q, hload, hhear⟩ := bind_eq_ok.mp h
  obtain ⟨near, -, hload⟩ := bind_eq_ok.mp hload
  obtain ⟨far, -, rfl⟩ := map_eq_ok.mp hload
  refine ⟨{ p.buffers with nearend := near, farend := far }, ?_⟩
  generalize Passage.runStages engines settings _ = staged at hhear ⊢
  obtain ⟨q, cancelled⟩ := staged
  cases cancelled with
  | true =>
    obtain ⟨_, -, rfl⟩ := map_eq_ok.mp hhear
    exact ⟨_, rfl⟩
  | false =>
    obtain ⟨_, -, rfl⟩ := map_eq_ok.mp hhear
    exact ⟨_, rfl⟩

/-- On any other shape a lane does not get past loading the nearend frame. -/
theorem process_fault (hs : p.buffers.Shaped n b) (hw : ¬ Workable n b)
    (farend nearend : List Int16) :
    process engines settings farend nearend p = .error .outOfRange := by
  rw [process_eq, Passage.load, SubbandFrame.fill_fault hs.nearend hw]
  rfl

variable [Sample.Lawful S]

/-- A lane makes a frame of samples on every workable shape, whatever its engines answer. -/
theorem process_returns (hs : p.buffers.Shaped n b) (hw : Workable n b)
    (hn : settings.frames = n) (farend nearend : List Int16) :
    Returns (process engines settings farend nearend p) fun r =>
      r.1.buffers.Shaped n b ∧ p.stats.FailuresOnly r.1.stats ∧ r.2.length = n := by
  rw [process_eq]
  refine (load_returns hs hw farend nearend).bind fun q ⟨hq, hstats⟩ => ?_
  obtain ⟨hrun, hfailures⟩ := Passage.runStages_shaped engines q settings hq
  refine (hear_returns hrun hw hn).mono fun r ⟨hr, hrstats, hlen⟩ => ⟨hr, ?_, hlen⟩
  rw [hrstats, ← hstats]
  exact hfailures

end Lane

end Duplex
