import Duplex.Proofs.Memory

/-!
# Sparing: a stage that fails might as well be off

If stages that fail on a frame are switched off on that frame instead, the frame is heard the same,
the mic level is the same, and the other stages are given the same bands (`Memory.process_sparing`).
Nor does it show on any later frame, whatever happens to the engines in between: only the memory of
the failing engine itself knows (`perform_composes`).
-/

namespace Duplex

open Signal Engine

variable {S : Type} {F : Family} {n b : Nat}

/-- The settings with some stages off. -/
def FrameSettings.without (settings : FrameSettings) (off : List Stage) : FrameSettings :=
  { settings with
    gain := settings.gain && .gain ∉ off
    noise := settings.noise && .noise ∉ off
    echo := settings.echo && .echo ∉ off }

theorem FrameSettings.runs_without (settings : FrameSettings) (off : List Stage) (stage : Stage) :
    (settings.without off).runs stage = (settings.runs stage && stage ∉ off) := by
  cases stage <;> rfl

/-- Whether an event is a call on an engine of one of the stages. -/
def Event.isFor (stages : List Stage) : Event S → Bool
  | .called _ request _ => request.stage ∈ stages
  | _ => false

/-- The journal without the calls on engines of some stages. -/
def Journal.without (off : List Stage) (journal : Journal S) : Journal S :=
  journal.filter fun e => ! e.isFor off

/-- What can be told of a frame if the spared stages that failed are off instead. -/
def Report.sparing (spared : Stage → Bool) (r : Report S) : Report S :=
  { r with
    calls := r.calls.without (r.failed.filter spared)
    failed := r.failed.filter fun stage => ! spared stage }

namespace Stand

/-! ### Failing is as good as being off -/

/-- The second stand is the first one without what some failing stages did. -/
structure Spares (off : List Stage) (s t : Stand S F) : Prop where
  slots : ∀ stage, stage ∉ off → t.slots stage = s.slots stage
  micLevel : t.micLevel = s.micLevel
  farend : t.farend = s.farend
  bands : t.bands = s.bands
  passed : t.passed = s.passed
  failed : t.failed = s.failed.filter (· ∉ off)
  calls : t.calls = s.calls.without off

variable {off : List Stage} {s t : Stand S F} {stage : Stage}

theorem mem_failed_settle {d : Delivery S (F.state stage)} {x : Stage} :
    x ∈ (s.settle stage d).failed ↔ x ∈ s.failed ∨ (x = stage ∧ d.carry = none) := by
  unfold settle
  cases hd : d.carry with
  | none => simp
  | some carry => simp

/-- A stage that is not spared does the same in both. -/
theorem Spares.settle (h : Spares off s t) (hstage : stage ∉ off) {d : Delivery S (F.state stage)}
    (hcalls : d.calls.without off = d.calls) :
    Spares off (s.settle stage d) (t.settle stage d) := by
  have hslots (x : Stage) (hx : x ∉ off) : Function.update t.slots stage (some d.engine) x =
      Function.update s.slots stage (some d.engine) x := by
    by_cases hxs : x = stage
    · subst hxs
      rw [Function.update_self, Function.update_self]
    · rw [Function.update_of_ne hxs, Function.update_of_ne hxs]
      exact h.slots x hx
  have hcalled : t.calls ++ d.calls = Journal.without off (s.calls ++ d.calls) := by
    rw [Journal.without, List.filter_append, ← Journal.without, ← Journal.without, h.calls, hcalls]
  unfold Stand.settle
  cases d.carry with
  | none =>
    refine ⟨hslots, h.micLevel, h.farend, h.bands, h.passed, ?_, hcalled⟩
    rw [List.filter_append, h.failed]
    simp [hstage]
  | some carry =>
    refine ⟨hslots, rfl, h.farend, rfl, ?_, h.failed, hcalled⟩
    rw [h.passed]

/-- A stage that fails leaves the bands and the mic level alone. -/
theorem Spares.failed_settle (h : Spares off s t) (hstage : stage ∈ off)
    {d : Delivery S (F.state stage)} (hd : d.carry = none)
    (hcalls : d.calls.without off = []) : Spares off (s.settle stage d) t := by
  unfold Stand.settle
  rw [hd]
  refine ⟨?_, h.micLevel, h.farend, h.bands, h.passed, ?_, ?_⟩
  · intro x hx
    have hne : x ≠ stage := fun hxs => hx (hxs ▸ hstage)
    exact (h.slots x hx).trans (Function.update_of_ne hne _ _).symm
  · rw [List.filter_append, h.failed]
    simp [hstage]
  · show t.calls = Journal.without off (s.calls ++ d.calls)
    rw [Journal.without, List.filter_append, ← Journal.without, ← Journal.without, h.calls, hcalls,
      List.append_nil]

variable [Sample S] [Sample.Faithful S] {engines : Engines S F} {perBand : Nat}
  {settings : FrameSettings}

/-- The calls of a stage are made on its own engine. -/
theorem isFor_deliver {delay : Nat} {e : Numbered (F.state stage)} (off : List Stage) :
    ∀ event ∈ (s.deliver engines perBand delay stage e).calls,
      event.isFor off = decide (stage ∈ off) := by
  unfold deliver
  cases stage with
  | gain => exact List.forall_mem_cons.mpr ⟨rfl, List.forall_mem_singleton.mpr rfl⟩
  | noise =>
    dsimp only [Delivery.noise]
    split
    · exact List.forall_mem_singleton.mpr rfl
    · exact List.forall_mem_cons.mpr ⟨rfl, List.forall_mem_singleton.mpr rfl⟩
  | echo =>
    dsimp only [Delivery.echo]
    split
    · exact List.forall_mem_singleton.mpr rfl
    · exact List.forall_mem_cons.mpr ⟨rfl, List.forall_mem_singleton.mpr rfl⟩

theorem mem_failed_step {x : Stage} (h : x ∈ (s.step engines perBand settings stage).failed) :
    x ∈ s.failed ∨ x = stage := by
  unfold step at h
  split at h
  · exact (mem_failed_settle.mp h).imp_right And.left
  · exact .inl h

theorem mem_failed_foldl {x : Stage} {stages : List Stage}
    (h : x ∈ (stages.foldl (step engines perBand settings) s).failed) :
    x ∈ s.failed ∨ x ∈ stages := by
  induction stages generalizing s with
  | nil => exact .inl h
  | cons stage stages ih =>
    rw [List.mem_cons]
    obtain h | h := ih h
    · exact (mem_failed_step h).imp_right .inl
    · exact .inr (.inr h)

/-- A stage is spared or does the same, provided that the spared stages fail. -/
theorem Spares.step (h : Spares off s t) (hnew : stage ∉ s.failed)
    (hfails : stage ∈ off → stage ∈ (s.step engines perBand settings stage).failed) :
    Spares off (s.step engines perBand settings stage)
      (t.step engines perBand (settings.without off) stage) := by
  by_cases hstage : stage ∈ off
  · have hfailed := hfails hstage
    have hoff : t.step engines perBand (settings.without off) stage = t := by
      unfold Stand.step
      rw [FrameSettings.runs_without]
      simp [hstage]
    rw [hoff]
    unfold Stand.step at hfailed ⊢
    split at hfailed
    · rename_i e hon he
      obtain hold | ⟨-, hcarry⟩ := mem_failed_settle.mp hfailed
      · exact (hnew hold).elim
      · refine h.failed_settle hstage hcarry (List.filter_eq_nil_iff.mpr fun event hevent => ?_)
        simp [isFor_deliver off event hevent, hstage]
    · exact (hnew hfailed).elim
  · have hruns : (settings.without off).runs stage = settings.runs stage := by
      rw [FrameSettings.runs_without]
      simp [hstage]
    have hdeliver (e : Numbered (F.state stage)) :
        t.deliver engines perBand (settings.without off).delay stage e =
          s.deliver engines perBand settings.delay stage e := by
      cases stage <;> simp only [deliver, FrameSettings.without, h.bands, h.farend, h.micLevel]
    unfold Stand.step
    rw [hruns, h.slots stage hstage]
    split
    · rw [hdeliver]
      refine h.settle hstage (List.filter_eq_self.mpr fun event hevent => ?_)
      simp [isFor_deliver off event hevent, hstage]
    · exact h

/-- So do several stages, one after another. -/
theorem Spares.foldl {stages : List Stage} (hnodup : stages.Nodup) (h : Spares off s t)
    (hnew : ∀ stage ∈ stages, stage ∉ s.failed)
    (hoff : ∀ stage ∈ off, stage ∈ (stages.foldl (Stand.step engines perBand settings) s).failed) :
    Spares off (stages.foldl (Stand.step engines perBand settings) s)
      (stages.foldl (Stand.step engines perBand (settings.without off)) t) := by
  induction stages generalizing s t with
  | nil => exact h
  | cons stage stages ih =>
    obtain ⟨hstage, hnodup⟩ := List.nodup_cons.mp hnodup
    have hnow : Spares off (s.step engines perBand settings stage)
        (t.step engines perBand (settings.without off) stage) := by
      refine h.step (hnew stage List.mem_cons_self) fun hmem => ?_
      have hlast : stage ∈ (stages.foldl (Stand.step engines perBand settings)
          (s.step engines perBand settings stage)).failed := hoff stage hmem
      -- No later stage can be the one that failed.
      exact (mem_failed_foldl hlast).resolve_right hstage
    refine ih hnodup hnow (fun x hx hfailed => ?_) hoff
    obtain hold | rfl := mem_failed_step hfailed
    · exact hnew x (List.mem_cons_of_mem stage hx) hold
    · exact hstage hx

end Stand

/-! ### A frame -/

/-- The engines of some stages taken over from another lane. -/
def Rig.adopt (rig : Rig F) (stages : List Stage) (other : Rig F) : Rig F :=
  { rig with
    slots := fun stage => if stage ∈ stages then other.slots stage else rig.slots stage }

/-- The memory with other engines and another mic level. -/
def Memory.withRig (m : Memory F) (rig : Rig F) : Memory F := { m with rig }

@[simp] theorem Memory.nearendFilter_withRig (m : Memory F) (rig : Rig F) :
    (m.withRig rig).nearendFilter = m.nearendFilter := rfl

@[simp] theorem Memory.outputFilter_withRig (m : Memory F) (rig : Rig F) :
    (m.withRig rig).outputFilter = m.outputFilter := rfl

namespace Stand.Spares

variable {off : List Stage} {s t : Stand S F} (h : Spares off s t)

include h

theorem adopt : Rig.adopt ⟨t.slots, t.micLevel⟩ off ⟨s.slots, s.micLevel⟩ =
    ⟨s.slots, s.micLevel⟩ := by
  unfold Rig.adopt
  rw [h.micLevel]
  refine congrArg (Rig.mk · s.micLevel) (funext fun stage => ?_)
  by_cases hstage : stage ∈ off
  · exact if_pos hstage
  · rw [if_neg hstage]
    exact h.slots stage hstage

/-- Of the stages that failed, those that are not spared are reported. -/
theorem report {spared : Stage → Bool} {samples : List Int16}
    (hoff : off = (s.report samples).failed.filter spared) :
    t.report samples = (s.report samples).sparing spared := by
  have hfailed : (t.report samples).failed =
      (s.report samples).failed.filter fun stage => ! spared stage := by
    unfold Stand.report
    rw [List.filter_filter]
    refine List.filter_congr fun stage hall => ?_
    have hmem : stage ∈ off ↔ stage ∈ s.failed ∧ spared stage = true := by
      rw [hoff, Stand.report, List.mem_filter, List.mem_filter]
      simp [hall]
    rw [h.failed]
    by_cases hs : stage ∈ s.failed
    · simp [List.mem_filter, hs, hmem]
    · simp [List.mem_filter, hs]
  have hcalls : t.calls = s.calls.without ((s.report samples).failed.filter spared) := hoff ▸ h.calls
  unfold Report.sparing
  rw [← hfailed]
  unfold Stand.report at hcalls ⊢
  rw [h.micLevel, hcalls]

end Stand.Spares

namespace Memory

variable {m m' : Memory F} {report : Report S}

/-- If what failed is spared, what is heard is the same. -/
theorem hear_spares {off : List Stage} {s t : Stand S F} (h : s.Spares off t)
    {spared : Stage → Bool} (hheard : m.hear s = .ok (m', report))
    (hoff : off = (s.report []).failed.filter spared) :
    ∃ rig, m.hear t = .ok (m'.withRig rig, report.sparing spared) ∧
      rig.adopt off m'.rig = m'.rig := by
  have hcancelled : t.cancelled = s.cancelled := by
    rw [Stand.cancelled, Stand.cancelled, h.passed]
  have hkeep : m.keep t = (m.keep s).withRig ⟨t.slots, t.micLevel⟩ := by
    rw [keep, keep, h.farend]
    rfl
  refine ⟨⟨t.slots, t.micLevel⟩, ?_⟩
  unfold hear at hheard ⊢
  rw [hcancelled, h.bands, hkeep]
  split at hheard
  · rename_i hpassed
    obtain ⟨⟨filter, samples⟩, hmerge, heq⟩ := map_eq_ok.mp hheard
    cases heq
    rw [if_pos hpassed, outputFilter_withRig, hmerge]
    exact ⟨congrArg (fun report => Except.ok (_, report)) (h.report hoff), h.adopt⟩
  · rename_i hpassed
    obtain ⟨⟨filter, samples⟩, hmerge, heq⟩ := map_eq_ok.mp hheard
    cases heq
    rw [if_neg hpassed, nearendFilter_withRig, hmerge]
    exact ⟨congrArg (fun report => Except.ok (_, report)) (h.report hoff), h.adopt⟩

theorem hear_report {s : Stand S F} (hheard : m.hear s = .ok (m', report)) :
    ∃ samples, report = s.report samples := by
  unfold hear at hheard
  split at hheard
  · obtain ⟨⟨filter, samples⟩, -, heq⟩ := map_eq_ok.mp hheard
    cases heq
    exact ⟨samples, rfl⟩
  · obtain ⟨⟨filter, samples⟩, -, heq⟩ := map_eq_ok.mp hheard
    cases heq
    exact ⟨samples, rfl⟩

variable [Sample S] [Sample.Faithful S] {engines : Engines S F}

/-- If stages that fail on a frame are off instead, the frame is the same but for their calls, and
so is what is kept but for their engines. -/
theorem process_sparing {i : Lane.Input} (hprocess : m.process engines n b i = .ok (m', report))
    (spared : Stage → Bool) {off : List Stage} (hoff : off = report.failed.filter spared) :
    ∃ rig, m.process engines n b { i with settings := i.settings.without off } =
        .ok (m'.withRig rig, report.sparing spared) ∧ rig.adopt off m'.rig = m'.rig := by
  obtain ⟨⟨q, bands⟩, hload, hheard⟩ := bind_eq_ok.mp hprocess
  obtain ⟨samples, hreport⟩ := hear_report hheard
  have hstart : (q.stand bands : Stand S F).Spares off (q.stand bands) :=
    ⟨fun _ _ => rfl, rfl, rfl, rfl, rfl, rfl, rfl⟩
  have hspares : ((q.stand bands).run engines (n / b) i.settings).Spares off
      ((q.stand bands).run engines (n / b) (i.settings.without off)) := by
    refine hstart.foldl (by decide) (by simp [stand]) fun stage hstage => ?_
    rw [hoff, hreport, List.mem_filter, Stand.report, List.mem_filter] at hstage
    exact of_decide_eq_true hstage.1.2
  have hsame : m.load n { i with settings := i.settings.without off } = .ok (q, bands) := hload
  rw [process, hsame, ok_bind]
  exact hear_spares hspares hheard (by rw [hoff, hreport]; rfl)

end Memory

/-! ### Frame after frame -/

namespace Lane

/-- The lane with other engines and another mic level. -/
def Passage.withRig (p : Passage S F) (rig : Rig F) : Passage S F :=
  { p with
    lane := { p.lane with echo := rig.slots .echo, noise := rig.slots .noise, gain := rig.slots .gain }
    micLevel := rig.micLevel }

theorem Passage.memory_withRig (p : Passage S F) (rig : Rig F) :
    (p.withRig rig).memory = p.memory.withRig rig := by
  have hslots : (p.withRig rig).lane.slots = rig.slots := by
    funext stage
    cases stage <;> rfl
  unfold memory Passage.rig
  rw [hslots]
  rfl

/-- A frame for a lane, the stages that are spared on it, and what happens to the engines and to the
mic level before the next one: engines are set up and given up, other lanes move the mic level. -/
structure Cue (F : Family) where
  input : Input
  spared : Stage → Bool
  between : Rig F → Rig F

variable [Sample S] (engines : Engines S F)

/-- Process one frame after another and tell of each. -/
def perform : List (Cue F) → Passage S F → Checked (List (Report S))
  | [], _ => .ok []
  | c :: cues, p =>
    frame engines c.input p >>= fun r =>
      (perform cues (r.1.withRig (c.between r.1.rig))).map (r.2 :: ·)

/-- Process a frame with those of the spared stages off that would fail on it. Their engines are left
as they are after failing, since their memory is their own affair. -/
def frameSparing (spared : Stage → Bool) (i : Input) (p : Passage S F) :
    Checked (Passage S F × Report S) :=
  frame engines i p >>= fun trial =>
    let off := trial.2.failed.filter spared
    (frame engines { i with settings := i.settings.without off } p).map fun r =>
      (r.1.withRig (r.1.rig.adopt off trial.1.rig), r.2)

/-- The same frames with the spared stages off wherever they would fail. -/
def performSparing : List (Cue F) → Passage S F → Checked (List (Report S))
  | [], _ => .ok []
  | c :: cues, p =>
    frameSparing engines c.spared c.input p >>= fun r =>
      (performSparing cues (r.1.withRig (c.between r.1.rig))).map (r.2 :: ·)

end Lane

/-- The same frames on the memory alone. -/
def Memory.perform [Sample S] [Sample.Faithful S] (engines : Engines S F) (n b : Nat) :
    List (Lane.Cue F) → Memory F → Checked (List (Report S))
  | [], _ => .ok []
  | c :: cues, m =>
    m.process engines n b c.input >>= fun r =>
      (Memory.perform engines n b cues (r.1.withRig (c.between r.1.rig))).map (r.2 :: ·)

namespace Lane

section Perform

variable [Sample S] [Sample.Faithful S] {engines : Engines S F} (hover : engines.Overwrites)
  (hw : Workable n b) (hd : b ∣ n)

include hover hw hd

/-- What is spared on a frame shows neither in what is told of it nor in what the lane keeps. -/
theorem frameSparing_remembers {p : Passage S F} (hs : p.buffers.Shaped n b) {i : Input}
    (hn : i.settings.frames = n) {m' : Memory F} {report : Report S}
    (hprocess : p.memory.process engines n b i = .ok (m', report)) (spared : Stage → Bool) :
    Returns (frameSparing engines spared i p) fun r =>
      r.1.buffers.Shaped n b ∧ r.1.memory = m' ∧ r.2 = report.sparing spared := by
  obtain ⟨⟨q, told⟩, htrial, -, hsame⟩ := frame_remembers hw hd hover hs hn
  cases hprocess.symm.trans hsame
  obtain ⟨rig, hspared, hadopt⟩ := Memory.process_sparing hprocess spared rfl
  unfold frameSparing
  rw [htrial, ok_bind]
  let i' : Input := { i with settings := i.settings.without (told.failed.filter spared) }
  have hn' : i'.settings.frames = n := hn
  refine (frame_remembers hw hd hover hs hn').map fun r ⟨hrs, hr⟩ => ⟨hrs, ?_, ?_⟩
  · have hmemory : r.1.memory = q.memory.withRig rig :=
      (congrArg Prod.fst (Except.ok.inj (hspared.symm.trans hr))).symm
    have hrig : r.1.rig = rig := congrArg Memory.rig hmemory
    rw [Passage.memory_withRig, hmemory, hrig]
    exact congrArg q.memory.withRig hadopt
  · exact (congrArg Prod.snd (Except.ok.inj (hspared.symm.trans hr))).symm

/-- Lanes with one memory perform the same, be stages spared in one of them or not. -/
theorem perform_remembers {p p' : Passage S F} (hs : p.buffers.Shaped n b)
    (hs' : p'.buffers.Shaped n b) (hmem : p'.memory = p.memory) {cues : List (Cue F)}
    (hn : ∀ c ∈ cues, c.input.settings.frames = n) :
    Returns (perform engines cues p) fun reports =>
      p.memory.perform engines n b cues = .ok reports ∧
        performSparing engines cues p' =
          .ok (List.zipWith Report.sparing (cues.map (·.spared)) reports) := by
  induction cues generalizing p p' with
  | nil => exact returns_ok ⟨rfl, rfl⟩
  | cons c cues ih =>
    have hnow := hn c List.mem_cons_self
    obtain ⟨r, hr, hrs, hprocess⟩ := frame_remembers hw hd hover hs hnow
    obtain ⟨r', hr', hrs', hmem', hreport⟩ :=
      frameSparing_remembers hover hw hd hs' hnow (hmem ▸ hprocess) c.spared
    have hrig : r'.1.rig = r.1.rig := congrArg Memory.rig hmem'
    have hnext : (r'.1.withRig (c.between r'.1.rig)).memory =
        (r.1.withRig (c.between r.1.rig)).memory := by
      rw [Passage.memory_withRig, Passage.memory_withRig, hmem', hrig]
    rw [perform, performSparing, Memory.perform, hr, hr', hprocess]
    simp only [ok_bind]
    have hshaped : (r.1.withRig (c.between r.1.rig)).buffers.Shaped n b := hrs
    have hshaped' : (r'.1.withRig (c.between r'.1.rig)).buffers.Shaped n b := hrs'
    refine (ih hshaped hshaped' hnext fun c' hc' => hn c' (List.mem_cons_of_mem c hc')).map
      fun reports ⟨hmemory, hsparing⟩ => ⟨?_, ?_⟩
    · rw [Passage.memory_withRig] at hmemory
      exact congrArg (Except.map (r.2 :: ·)) hmemory
    · rw [hsparing, hreport]
      rfl

/-- On every lane and for any frames, whatever the engines do when they fail and whatever happens to
them between frames: the stages that succeed are composed, in order, and a stage that fails might as
well have been off, for this frame and for all later ones. -/
theorem perform_composes {p : Passage S F} (hs : p.buffers.Shaped n b) {cues : List (Cue F)}
    (hn : ∀ c ∈ cues, c.input.settings.frames = n) :
    Returns (perform engines cues p) fun reports =>
      p.memory.perform engines n b cues = .ok reports ∧
        performSparing engines cues p =
          .ok (List.zipWith Report.sparing (cues.map (·.spared)) reports) :=
  perform_remembers hover hw hd hs hs rfl hn

end Perform

/-- Gain control halves the samples and raises the mic level, noise suppression fails and leaves its
mark in the output bands, and echo cancellation negates what it is given. -/
def faltering : PerStage Scripted.Rule where
  gain := { mode := .half, level := 3 }
  noise := { processError := some 7, dirty := true }
  echo := { mode := .negate }

/-- A frame of one band. Echo cancellation is given what gain control delivered. -/
theorem perform_composes_faltering :
    ∃ (p : Passage Int16 (Scripted.family Int16)) (cues : List (Cue (Scripted.family Int16)))
      (report : Report Int16),
      (Scripted.engines Int16 faltering 48000).Overwrites ∧ p.buffers.Shaped 80 1 ∧
        perform (Scripted.engines Int16 faltering 48000) cues p = .ok [report] ∧
        report.samples = List.replicate 80 (-50) ∧ report.micLevel = 3 ∧ report.failed = [.noise] ∧
        p.memory.perform (Scripted.engines Int16 faltering 48000) 80 1 cues = .ok [report] ∧
        performSparing (Scripted.engines Int16 faltering 48000) cues p =
          .ok [report.sparing fun _ => true] := by
  have hover : (Scripted.engines Int16 faltering 48000).Overwrites :=
    Scripted.engines_overwrites (fun stage => by cases stage <;> decide) 48000
  let lane : Lane (Scripted.family Int16) :=
    ⟨0, some ⟨0, ⟨0, []⟩⟩, some ⟨0, (0 : Nat)⟩, some ⟨0, (0 : Nat)⟩, none⟩
  let cues : List (Cue (Scripted.family Int16)) :=
    [⟨⟨⟨80, 1, true, true, true, true, 0⟩, List.replicate 80 0, List.replicate 80 100⟩,
      fun _ => true, id⟩]
  obtain ⟨bufs, hcreate, hs⟩ : ∃ bufs : Buffers, (Buffers.create 80 1).run = .ok (.ok bufs) ∧
      bufs.Shaped 80 1 := Buffers.create_returns (by decide) (by decide) (by decide)
  obtain ⟨reports, hperform, hcomposed, hspared⟩ :=
    perform_composes hover (.inl rfl) (one_dvd 80) (p := ⟨lane, bufs, 0, {}, []⟩) hs
      (show ∀ c ∈ cues, c.input.settings.frames = 80 by simp [cues])
  have hheard : ((Buffers.create 80 1).run >>= fun made => match made with
      | .ok bufs => (perform (Scripted.engines Int16 faltering 48000) cues
          ⟨lane, bufs, 0, {}, []⟩).map (·.map fun r => (r.samples, r.micLevel, r.failed))
      | .error _ => .ok []) = .ok [(List.replicate 80 (-50), 3, [.noise])] := by
    decide +kernel
  rw [hcreate, ok_bind] at hheard
  dsimp only at hheard
  rw [hperform] at hheard
  obtain ⟨report, rfl, htold⟩ := List.map_eq_singleton_iff.mp (Except.ok.inj hheard)
  obtain ⟨hsamples, hlevel, hfailed⟩ : report.samples = List.replicate 80 (-50) ∧
      report.micLevel = 3 ∧ report.failed = [.noise] := by simpa using htold
  exact ⟨_, cues, report, hover, hs, hperform, hsamples, hlevel, hfailed, hcomposed, hspared⟩

end Lane

end Duplex
