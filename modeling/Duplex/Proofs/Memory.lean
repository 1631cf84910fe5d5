import Duplex.Proofs.Composition

/-!
# Memory: what a lane keeps from frame to frame

Of all that a lane holds, only its `Memory` can ever be told from what it does: the engines, the mic
level, the farend bands and the filters. What the nearend and the output frame hold, which copies of
it are fresh, the counters and the journal are forgotten. A frame processed on the memory alone
(`Memory.process`) composes the stages between loading and hearing the bands, and a lane does the
same (`frame_remembers`).
-/

namespace Duplex

open Signal Engine

variable {S : Type} {F : Family} {n b : Nat}

/-- The engines of a lane, stage by stage, and the mic level. -/
structure Rig (F : Family) where
  slots : (stage : Stage) → Option (Numbered (F.state stage))
  micLevel : Int32

/-- What a lane keeps from one frame to the next. -/
structure Memory (F : Family) where
  rig : Rig F
  farend : Content
  farendFilter : Option SplittingFilter
  nearendFilter : Option SplittingFilter
  outputFilter : Option SplittingFilter

/-- What can be told of a frame: what is heard, the mic level to carry on, the calls on the engines
with what these were given, and the stages that failed. -/
structure Report (S : Type) where
  samples : List Int16
  micLevel : Int32
  calls : Journal S
  failed : List Stage

/-- What can be told when a frame stands after all stages and its samples are heard. -/
def Stand.report (s : Stand S F) (samples : List Int16) : Report S where
  samples
  micLevel := s.micLevel
  calls := s.calls
  failed := Stage.all.filter fun stage => stage ∈ s.failed

/-! ### Frames on the memory alone -/

namespace Memory

/-- Load the bands of a frame; without a farend frame the farend bands are still those of the last
one. -/
def load (n : Nat) (i : Lane.Input) (m : Memory F) : Checked (Memory F × Content) :=
  SubbandFrame.loadBands n i.nearend m.nearendFilter >>= fun (nearendFilter, bands) =>
    (if i.settings.farend then SubbandFrame.loadBands n i.farend m.farendFilter
      else .ok (m.farendFilter, m.farend)).map fun (farendFilter, farend) =>
        ({ m with nearendFilter, farendFilter, farend }, bands)

/-- Where a frame stands before all stages. -/
def stand (m : Memory F) (bands : Content) : Stand S F :=
  { slots := m.rig.slots, micLevel := m.rig.micLevel, farend := m.farend, bands
    passed := [], failed := [], calls := [] }

/-- The engines, the mic level and the farend bands after all stages. -/
def keep (m : Memory F) (s : Stand S F) : Memory F :=
  { m with rig := ⟨s.slots, s.micLevel⟩, farend := s.farend }

/-- Merge the bands that the stages ended with, by the filter of the output if echo cancellation
passed, and by that of the nearend otherwise. -/
def hear (m : Memory F) (s : Stand S F) : Checked (Memory F × Report S) :=
  if s.cancelled then
    (SubbandFrame.hearBands s.bands (m.keep s).outputFilter).map fun (outputFilter, samples) =>
      ({ m.keep s with outputFilter }, s.report samples)
  else
    (SubbandFrame.hearBands s.bands (m.keep s).nearendFilter).map fun (nearendFilter, samples) =>
      ({ m.keep s with nearendFilter }, s.report samples)

/-- Load a frame, compose the stages and hear what they end with. -/
def process [Sample S] [Sample.Faithful S] (engines : Engines S F) (n b : Nat) (i : Lane.Input)
    (m : Memory F) : Checked (Memory F × Report S) :=
  m.load n i >>= fun (m, bands) => m.hear ((m.stand bands).run engines (n / b) i.settings)

end Memory

/-! ### Frames in a lane -/

namespace Stats

/-- Each stage is counted as often as it failed. -/
theorem get_failures_foldl (s : Stats) (failed : List Stage) (stage : Stage) :
    (failed.foldl fail s).failures.get stage = s.failures.get stage + failed.count stage := by
  induction failed generalizing s with
  | nil => simp
  | cons x failed ih =>
    rw [List.foldl_cons, ih, List.count_cons, fail]
    dsimp only
    by_cases h : stage = x
    · subst h
      rw [PerStage.get_set_self, beq_self_eq_true, if_pos rfl]
      omega
    · rw [PerStage.get_set_of_ne _ _ h, if_neg]
      · rfl
      · simpa using fun h' => h h'.symm

end Stats

namespace Lane

namespace Passage

def rig (p : Passage S F) : Rig F := ⟨p.lane.slots, p.micLevel⟩

def memory (p : Passage S F) : Memory F where
  rig := p.rig
  farend := p.buffers.farend.content
  farendFilter := p.buffers.farend.filter
  nearendFilter := p.buffers.nearend.filter
  outputFilter := p.buffers.output.filter

/-- What can be told of a frame that took a lane from one passage to another. -/
def report (p : Passage S F) (r : Passage S F × List Int16) : Report S where
  samples := r.2
  micLevel := r.1.micLevel
  calls := r.1.journal.calls.drop p.journal.calls.length
  failed := Stage.all.filter fun stage =>
    p.stats.failures.get stage < r.1.stats.failures.get stage

end Passage

/-- Process a frame and tell of it. -/
def frame [Sample S] (engines : Engines S F) (i : Input) (p : Passage S F) :
    Checked (Passage S F × Report S) :=
  (process engines i.settings i.farend i.nearend p).map fun r => (r.1, p.report r)

/-- The counters and the journal tell the calls and the failures of a frame. -/
theorem Passage.Shows.report {q : Passage S F} {r : Passage S F × Bool} {s : Stand S F}
    (h : Passage.Shows n b q r s) (samples : List Int16) :
    q.report (r.1, samples) = s.report samples := by
  unfold Passage.report Stand.report
  rw [h.micLevel, h.calls, List.drop_left]
  congr 1
  refine List.filter_congr fun stage _ => ?_
  rw [h.stats, Stats.get_failures_foldl]
  simp [List.count_pos_iff]

/-- The lane keeps the engines and the farend bands of the frame; its filters are as before the
stages. -/
theorem Passage.Shows.memory {q : Passage S F} {r : Passage S F × Bool} {s : Stand S F}
    (h : Passage.Shows n b q r s) :
    q.memory.keep s = r.1.memory := by
  obtain ⟨hfar, hnear, hout⟩ := h.filters
  unfold Memory.keep Passage.memory Passage.rig
  rw [hfar, hnear, hout, h.slots, h.micLevel, h.farend]

variable {p : Passage S F} (hw : Workable n b) (hd : b ∣ n)

include hw hd

/-- Loading a frame depends on the memory only. -/
theorem load_remembers (hs : p.buffers.Shaped n b) (i : Input) :
    Returns (p.load i.settings i.farend i.nearend) fun q =>
      q.buffers.Shaped n b ∧ q.stats = p.stats ∧ q.journal = p.journal ∧
        p.memory.load n i = .ok (q.memory, q.buffers.nearend.content) := by
  obtain ⟨near, hnear, hnears, hbands⟩ := SubbandFrame.fill_loads hs.nearend hw hd i.nearend
  have hload (m : Memory F) (hm : m.nearendFilter = p.buffers.nearend.filter) :
      m.load n i = ((if i.settings.farend then SubbandFrame.loadBands n i.farend m.farendFilter
        else .ok (m.farendFilter, m.farend)).map fun far =>
          ({ m with nearendFilter := near.filter, farendFilter := far.1, farend := far.2 },
            near.content)) := by
    rw [Memory.load, hm, hbands]
    rfl
  rw [Passage.load, hnear, ok_bind, hload p.memory rfl]
  by_cases hf : i.settings.farend = true
  · obtain ⟨far, hfar, hfars, hfarend⟩ := SubbandFrame.fill_loads hs.farend hw hd i.farend
    rw [if_pos hf, if_pos hf, hfar]
    refine returns_ok ⟨⟨hfars, hnears, hs.output⟩, rfl, rfl, ?_⟩
    rw [show p.memory.farendFilter = p.buffers.farend.filter from rfl, hfarend]
    rfl
  · rw [if_neg hf, if_neg hf]
    exact returns_ok ⟨⟨hs.farend, hnears, hs.output⟩, rfl, rfl, rfl⟩

/-- So does hearing what the stages ended with. -/
theorem hear_remembers {q : Passage S F} {r : Passage S F × Bool} {s : Stand S F}
    {settings : FrameSettings} (hn : settings.frames = n) (h : Passage.Shows n b q r s) :
    Returns (Passage.hear settings r) fun t =>
      t.1.buffers.Shaped n b ∧ q.memory.hear s = .ok (t.1.memory, q.report t) := by
  have hsilence : (List.replicate settings.frames (0 : Int16)).length = n := by simp [hn]
  have hreport := h.report
  have hs := h.shaped
  unfold Memory.hear
  rw [h.memory, ← h.cancelled, ← h.bands]
  obtain ⟨p, cancelled⟩ := r
  cases cancelled with
  | true =>
    obtain ⟨t, ht, hts, hheard⟩ := SubbandFrame.readInto_hears hs.output hw hd hsilence
    rw [Passage.hear, ht]
    refine returns_ok ⟨⟨hs.farend, hs.nearend, hts⟩, ?_⟩
    rw [if_pos rfl, show p.memory.outputFilter = p.buffers.output.filter from rfl]
    rw [show SubbandFrame.hearBands (Passage.heardFrame (p, true)).content _ = _ from hheard]
    exact congrArg (fun report => Except.ok (_, report)) (hreport _).symm
  | false =>
    obtain ⟨t, ht, hts, hheard⟩ := SubbandFrame.readInto_hears hs.nearend hw hd hsilence
    rw [Passage.hear, ht]
    refine returns_ok ⟨⟨hs.farend, hts, hs.output⟩, ?_⟩
    rw [if_neg Bool.false_ne_true, show p.memory.nearendFilter = p.buffers.nearend.filter from rfl]
    rw [show SubbandFrame.hearBands (Passage.heardFrame (p, false)).content _ = _ from hheard]
    exact congrArg (fun report => Except.ok (_, report)) (hreport _).symm

variable [Sample S] [Sample.Faithful S] {engines : Engines S F}

/-- What a lane does with a frame, and what it keeps, depends on its memory only: the stages are
composed between loading and hearing the bands. -/
theorem frame_remembers (hover : engines.Overwrites) (hs : p.buffers.Shaped n b) {i : Input}
    (hn : i.settings.frames = n) :
    Returns (frame engines i p) fun r =>
      r.1.buffers.Shaped n b ∧ p.memory.process engines n b i = .ok (r.1.memory, r.2) := by
  obtain ⟨q, hq, hqs, hstats, hjournal, hload⟩ := load_remembers hw hd hs i
  have hset : Passage.Shows n b q (q, false) (q.memory.stand q.buffers.nearend.content) :=
    ⟨hqs, .refl _, rfl, rfl, rfl, rfl, rfl, rfl, (List.append_nil _).symm⟩
  have hshows := Passage.runStages_shows hover i.settings hset
  unfold frame Memory.process
  rw [process_eq, hq, ok_bind, hload, ok_bind]
  refine (hear_remembers hw hd hn hshows).map fun t ⟨hts, hheard⟩ => ⟨hts, ?_⟩
  unfold Passage.report
  rw [← hstats, ← hjournal]
  exact hheard

end Lane

end Duplex
