import Duplex.Engine.Scripted
import Duplex.Proofs.Rounds

/-!
# Failures: what the counters of failed stages count

A stage fails on a channel of a frame if the call that decides it fails (`Request.decides`). It is
counted for each channel, so the counter of a stage is the number of frames on which it failed, and
once more the number of those on which it failed on both channels (`failures_counted_per_channel`).
-/

namespace Duplex

open Engine

variable {S : Type} {F : Family}

/-- Whether a call decides if its stage succeeds on a frame. A gain controller that does not learn
from the microphone may still succeed. -/
def Request.decides : Request S → Bool
  | echoFarend .. | echoProcess .. | noiseAnalyze .. | noiseProcess .. | gainProcess .. => true
  | _ => false

/-- Whether a stage failed on a channel of a frame by this event. -/
def Event.failsStage (stage : Stage) : Event S → Bool
  | called _ request ok => !ok && request.decides && request.stage == stage
  | _ => false

/-- On how many channels a stage failed, counted over all frames of a journal. -/
def Journal.failures (journal : Journal S) (stage : Stage) : Nat :=
  journal.countP (Event.failsStage stage)

/-- On how many channels of the frame a stage failed. -/
def Round.failures (r : Round S F) (stage : Stage) : Nat := r.journal.failures stage

namespace Journal

variable {stage : Stage}

theorem failures_append (j k : Journal S) (stage : Stage) :
    (j ++ k).failures stage = j.failures stage + k.failures stage := List.countP_append

@[simp] theorem failures_notice (n : Notice) :
    failures ([.noticed n] : Journal S) stage = 0 := rfl

theorem failures_failed (number : Nat) {request : Request S} (h : request.decides = true) :
    failures [.called number request false] stage = if request.stage = stage then 1 else 0 := by
  simp [failures, Event.failsStage, h]

/-- Only calls are failures. -/
theorem failures_calls (j : Journal S) (stage : Stage) :
    j.calls.failures stage = j.failures stage := by
  rw [failures, calls, List.countP_filter]
  refine List.countP_congr ?_
  intro e _
  cases e with
  | called => simp [Event.isCall]
  | _ => simp [Event.failsStage]

end Journal

/-! ### A stage fails at most once on a channel -/

section Turns

variable {slot : Option Nat} {turn : Journal S} {settings : FrameSettings} (stage : Stage)

theorem GainTurn.failures_le (h : GainTurn slot turn) :
    turn.failures stage ≤ if Stage.gain = stage then 1 else 0 := by
  cases h with
  | off => exact Nat.zero_le _
  | taken learnt passed =>
    cases passed <;> simp [Journal.failures, Event.failsStage, Request.decides, Request.stage]

theorem NoiseTurn.failures_le (h : NoiseTurn slot turn) :
    turn.failures stage ≤ if Stage.noise = stage then 1 else 0 := by
  cases h with
  | off => exact Nat.zero_le _
  | refused => simp [Journal.failures, Event.failsStage, Request.decides, Request.stage]
  | taken passed =>
    cases passed <;> simp [Journal.failures, Event.failsStage, Request.decides, Request.stage]

theorem EchoTurn.failures_le (h : EchoTurn slot turn) :
    turn.failures stage ≤ if Stage.echo = stage then 1 else 0 := by
  cases h with
  | off => exact Nat.zero_le _
  | refused => simp [Journal.failures, Event.failsStage, Request.decides, Request.stage]
  | taken passed =>
    cases passed <;> simp [Journal.failures, Event.failsStage, Request.decides, Request.stage]

theorem LaneTurn.failures_le {numbers : PerStage (Option Nat)} (h : LaneTurn settings numbers turn) :
    turn.failures stage ≤ 1 := by
  obtain ⟨hgain, hnoise, hecho⟩ := h
  have hgain := hgain.failures_le stage
  have hnoise := hnoise.failures_le stage
  have hecho := hecho.failures_le stage
  rw [Journal.failures_append, Journal.failures_append]
  cases stage with
  | echo | noise | gain =>
    simp only [reduceCtorEq, if_true, if_false] at hgain hnoise hecho
    omega

theorem FrameTurn.failures_le {crews : List (Nat × PerStage (Option Nat))}
    (h : FrameTurn settings crews turn) : turn.failures stage ≤ crews.length := by
  induction h with
  | nil => exact Nat.le_refl 0
  | cons h _ ih =>
    have hone := h.failures_le stage
    rw [Journal.failures_append, List.length_cons]
    omega

end Turns

/-! ### What is counted is in the journal -/

/-- The failures that are counted from one moment to another are those that the journal gets, and
no frame is counted. -/
structure Tallied (stats : Stats) (j : Journal S) (stats' : Stats) (k : Journal S) : Prop where
  frames : stats'.frames = stats.frames
  failures (stage : Stage) : stats'.failures.get stage + j.failures stage =
    stats.failures.get stage + k.failures stage

namespace Tallied

variable {stats stats' stats'' : Stats} {j k m : Journal S}

theorem refl (stats : Stats) (j : Journal S) : Tallied stats j stats j := ⟨rfl, fun _ => rfl⟩

theorem trans (h : Tallied stats j stats' k) (h' : Tallied stats' k stats'' m) :
    Tallied stats j stats'' m where
  frames := h'.frames.trans h.frames
  failures stage := by
    have h := h.failures stage
    have h' := h'.failures stage
    omega

/-- Events that are no failures. -/
theorem log (stats : Stats) (j : Journal S) {events : Journal S}
    (h : ∀ stage, events.failures stage = 0) : Tallied stats j stats (j ++ events) where
  frames := rfl
  failures stage := by rw [Journal.failures_append, h stage, Nat.add_zero]

theorem notice (stats : Stats) (j : Journal S) (n : Notice) :
    Tallied stats j stats (j ++ [.noticed n]) := log stats j fun _ => rfl

/-- A call that succeeds. -/
theorem passed {ρ : Type} {result : Except Engine.Error ρ} {a : ρ} (hr : result = .ok a)
    (stats : Stats) (j : Journal S) (number : Nat) (request : Request S) :
    Tallied stats j stats (j ++ [.called number request (succeeded result)]) := by
  rw [hr]
  exact log stats j fun _ => rfl

/-- A call that decides a stage and fails, with the count and the notice of it. -/
theorem failed {ρ : Type} {result : Except Engine.Error ρ} {e : Engine.Error}
    (hr : result = .error e) (stats : Stats) (j : Journal S) (number : Nat) (request : Request S)
    (h : request.decides = true) (n : Notice) :
    Tallied stats j (stats.fail request.stage)
      (j ++ [.called number request (succeeded result)] ++ [.noticed n]) := by
  refine ⟨rfl, ?_⟩
  intro stage
  rw [hr, Journal.failures_append, Journal.failures_append, succeeded,
    Journal.failures_failed number h, Journal.failures_notice, Stats.fail]
  dsimp only
  by_cases hstage : request.stage = stage
  · subst hstage
    rw [PerStage.get_set_self, if_pos rfl]
    omega
  · rw [PerStage.get_set_of_ne _ _ (Ne.symm hstage), if_neg hstage]
    omega

end Tallied

namespace Lane.Passage

variable (engines : Engines S F) (p : Passage S F)

theorem runGain_tallied (e : Numbered F.Gain) :
    Tallied p.stats p.journal (p.runGain engines e).stats (p.runGain engines e).journal := by
  unfold runGain
  extract_lets nearend bands learnt p₁ p₂ reply output lane bufs p₃ accepted
  have hlearnt : Tallied p.stats p.journal p₂.stats p₂.journal := by
    have hcalled : Tallied p.stats p.journal p₁.stats p₁.journal :=
      .log p.stats p.journal fun stage => by simp [Journal.failures, Event.failsStage, Request.decides]
    simp only [p₂]
    split
    · exact hcalled
    · exact hcalled.trans (.notice _ _ _)
  refine hlearnt.trans ?_
  cases hr : reply.result with
  | error error =>
    exact .failed hr p₂.stats p₂.journal e.number (.gainProcess bands p₂.micLevel false) rfl _
  | ok outcome =>
    have hpassed : Tallied p₂.stats p₂.journal p₂.stats p₃.journal := .passed hr _ _ _ _
    dsimp only
    split
    · exact hpassed.trans (.notice _ _ _)
    · exact hpassed

variable [Sample S]

theorem runNoise_tallied (e : Numbered F.Noise) :
    Tallied p.stats p.journal (p.runNoise engines e).stats (p.runNoise engines e).journal := by
  unfold runNoise
  extract_lets nearend bufs p₁ learnt lane p₂ bands reply output lane₂ bufs₂ p₃
  cases hl : learnt.result with
  | error error =>
    exact .failed hl p.stats p.journal e.number (.noiseAnalyze (nearend.lowest S)) rfl _
  | ok _ =>
    have hlearnt : Tallied p.stats p.journal p₂.stats p₂.journal := .passed hl _ _ _ _
    refine hlearnt.trans ?_
    cases hr : reply.result with
    | error error => exact .failed hr p₂.stats p₂.journal e.number (.noiseProcess bands) rfl _
    | ok _ => exact .passed hr p₂.stats p₂.journal e.number (.noiseProcess bands)

theorem runEcho_tallied (delay : Nat) (e : Numbered F.Echo) :
    Tallied p.stats p.journal (p.runEcho engines delay e).1.stats
      (p.runEcho engines delay e).1.journal := by
  unfold runEcho
  extract_lets farend bufs p₁ queued lane p₂ nearend bands reply output lane₂ bufs₂ p₃
  cases hq : queued.result with
  | error error =>
    exact .failed hq p.stats p.journal e.number (.echoFarend (farend.lowest S)) rfl _
  | ok _ =>
    have hqueued : Tallied p.stats p.journal p₂.stats p₂.journal := .passed hq _ _ _ _
    refine hqueued.trans ?_
    cases hr : reply.result with
    | error error => exact .failed hr p₂.stats p₂.journal e.number (.echoProcess bands delay) rfl _
    | ok _ => exact .passed hr p₂.stats p₂.journal e.number (.echoProcess bands delay)

/-- Whatever stages are on. -/
theorem runStages_tallied (settings : FrameSettings) :
    Tallied p.stats p.journal (p.runStages engines settings).1.stats
      (p.runStages engines settings).1.journal := by
  unfold runStages
  extract_lets p₁ p₂
  have hgain : Tallied p.stats p.journal p₁.stats p₁.journal := by
    simp only [p₁]
    split
    · exact runGain_tallied engines p _
    · exact .refl _ _
  have hnoise : Tallied p₁.stats p₁.journal p₂.stats p₂.journal := by
    simp only [p₂]
    split
    · exact runNoise_tallied engines p₁ _
    · exact .refl _ _
  refine (hgain.trans hnoise).trans ?_
  split
  · exact runEcho_tallied engines p₂ settings.delay _
  · exact .refl _ _

end Lane.Passage

/-- Loading and hearing a frame counts nothing. -/
theorem Lane.process_tallied [Sample S] (engines : Engines S F) {settings : FrameSettings}
    {farend nearend : List Int16} {p : Passage S F} {r : Passage S F × List Int16}
    (h : process engines settings farend nearend p = .ok r) :
    Tallied p.stats p.journal r.1.stats r.1.journal := by
  obtain ⟨loaded, heard, hr⟩ := process_stages engines h
  rw [hr]
  exact Passage.runStages_tallied engines { p with buffers := loaded } settings

namespace Session

variable [Sample S] {engines : Engines S F}

/-- One lane after another. -/
theorem LanesRan.tallied {settings : FrameSettings} {prepared : List (Lane F × Buffers)}
    {farend nearend outs : List (List Int16)} {c c' : Carried S} {lanes : List (Lane F)}
    (h : LanesRan engines settings prepared farend nearend c lanes outs c') :
    Tallied c.stats c.journal c'.stats c'.journal := by
  induction h with
  | nil => exact .refl _ _
  | cons hlane _ ih =>
    have htallied := Lane.process_tallied engines hlane
    exact htallied.trans ih

end Session

/-! ### The rounds of a session -/

/-- If every number is at most two, their sum is how many are not zero and once more how many are
two. -/
theorem sum_eq_countP_add {xs : List Nat} (h : ∀ x ∈ xs, x ≤ 2) :
    xs.sum = xs.countP (1 ≤ ·) + xs.countP (2 ≤ ·) := by
  induction xs with
  | nil => rfl
  | cons x xs ih =>
    have hx := h x List.mem_cons_self
    have hrest := ih fun y hy => h y (List.mem_cons_of_mem x hy)
    rw [List.sum_cons, List.countP_cons, List.countP_cons, hrest]
    by_cases hone : 1 ≤ x
    · by_cases htwo : 2 ≤ x
      · simp only [hone, htwo, decide_true, if_true]
        omega
      · simp only [hone, htwo, decide_true, decide_false, if_true, Bool.false_eq_true, if_false]
        omega
    · have hnot : ¬ 2 ≤ x := by omega
      simp only [hone, hnot, decide_false, Bool.false_eq_true, if_false]
      omega

/-- A round counts the failures of its journal, and one frame or none. -/
theorem Round.Ran.tallied [Sample S] {engines : Engines S F} {r : Round S F}
    (hran : r.Ran engines) (hlanes : r.before.lanes.length = r.before.layout.channels) :
    r.next.stats.frames = r.before.stats.frames + r.counted.toNat ∧
      ∀ stage, r.next.stats.failures.get stage =
        r.before.stats.failures.get stage + r.failures stage := by
  obtain ⟨prepared, _, _, _, c, -, hlanesRan, hafter, hjournal⟩ := hran.lanes hlanes
  have htallied : Tallied r.before.stats [] c.stats c.journal := hlanesRan.tallied
  have hstats : r.after.stats = c.stats := congrArg (·.stats) hafter
  rw [next_frames, next_failures, hstats, htallied.frames]
  refine ⟨rfl, ?_⟩
  intro stage
  rw [Round.failures, hjournal]
  exact htallied.failures stage

namespace Session

variable [Sample S] {engines : Engines S F} {initial : Int32} {s₀ s : Session F}
  {course : List (Occasion S F)}

/-- What is counted over a course: its rounds and their failures. -/
theorem Course.tallied (h : Course engines initial s₀ course s)
    (hlanes : s₀.lanes.length = s₀.layout.channels) :
    s.stats.frames = s₀.stats.frames + (Occasion.rounds course).countP (·.counted) ∧
      ∀ stage, s.stats.failures.get stage = s₀.stats.failures.get stage +
        ((Occasion.rounds course).map (·.failures stage)).sum := by
  induction h with
  | start => exact ⟨rfl, fun _ => rfl⟩
  | apart _ hsame ih =>
    rw [hsame]
    exact ih
  | reset _ _ _ _ ih =>
    rw [Occasion.rounds_reset]
    exact ih
  | reconfigured _ _ _ ih => exact ih
  | @round _ r h hran ih =>
    obtain ⟨hlayout, hlen⟩ := h.lanes hlanes
    obtain ⟨hframes, hfailures⟩ := hran.tallied (hlen.trans (congrArg _ hlayout.symm))
    rw [Occasion.rounds_round]
    refine ⟨?_, ?_⟩
    · rw [hframes, ih.1, List.countP_append, Nat.add_assoc, List.countP_singleton]
      cases r.counted with
      | false => rfl
      | true => rfl
    · intro stage
      rw [hfailures stage, ih.2 stage, List.map_append, List.sum_append, List.map_singleton,
        List.sum_singleton, Nat.add_assoc]

/-- A course takes every lane its turn in each of its rounds. -/
theorem Course.turns (h : Course engines initial s₀ course s)
    (hlanes : s₀.lanes.length = s₀.layout.channels) :
    ∀ r ∈ Occasion.rounds course, r.before.crews.length = s₀.layout.channels ∧
      FrameTurn r.settings r.before.crews r.journal.calls := by
  intro r hr
  obtain ⟨hran, hlayout, hlen⟩ := h.ran hlanes r hr
  obtain ⟨-, -, hturn⟩ := hran.turn (hlen.trans (congrArg _ hlayout.symm))
  refine ⟨?_, hturn⟩
  rw [crews, List.length_map, hlen]

/-- So no stage fails on more channels of a round than there are. -/
theorem Course.failures_le (h : Course engines initial s₀ course s)
    (hlanes : s₀.lanes.length = s₀.layout.channels) (stage : Stage) :
    ∀ r ∈ Occasion.rounds course, r.failures stage ≤ s₀.layout.channels := by
  intro r hr
  obtain ⟨hcrews, hturn⟩ := h.turns hlanes r hr
  rw [Round.failures, ← Journal.failures_calls, ← hcrews]
  exact hturn.failures_le stage

/-- A counter grows by the rounds in which its stage failed, and once more by those in which it
failed on both channels. -/
theorem Course.failures_eq (h : Course engines initial s₀ course s)
    (hlanes : s₀.lanes.length = s₀.layout.channels) (stage : Stage) :
    s.stats.failures.get stage = s₀.stats.failures.get stage +
      ((Occasion.rounds course).countP (1 ≤ ·.failures stage) +
        (Occasion.rounds course).countP (2 ≤ ·.failures stage)) := by
  obtain ⟨-, hfailures⟩ := h.tallied hlanes
  have htwo : s₀.layout.channels ≤ 2 := by
    cases s₀.layout with
    | mono => decide
    | stereo => decide
  rw [hfailures stage, sum_eq_countP_add, List.countP_map, List.countP_map]
  · rfl
  · intro x hx
    obtain ⟨r, hr, rfl⟩ := List.mem_map.mp hx
    exact (h.failures_le hlanes stage r hr).trans htwo

/-- It grows at most by one for each channel of a round. -/
theorem Course.failures_le_mul (h : Course engines initial s₀ course s)
    (hlanes : s₀.lanes.length = s₀.layout.channels) (stage : Stage) :
    s.stats.failures.get stage ≤ s₀.stats.failures.get stage +
      s₀.layout.channels * (Occasion.rounds course).length := by
  obtain ⟨-, hfailures⟩ := h.tallied hlanes
  have hsum : ((Occasion.rounds course).map (·.failures stage)).sum ≤
      (Occasion.rounds course).length * s₀.layout.channels := by
    refine (List.sum_le_card_nsmul _ s₀.layout.channels ?_).trans_eq ?_
    · intro x hx
      obtain ⟨r, hr, rfl⟩ := List.mem_map.mp hx
      exact h.failures_le hlanes stage r hr
    · rw [List.length_map]
      rfl
  rw [hfailures stage, Nat.mul_comm]
  exact Nat.add_le_add_left hsum _

end Session

/-! ### The counters -/

namespace Context

variable [Sample S] [Sample.Lawful S] {engines : Engines S F} {c c' c'' : Context S F}

/-- From the beginning of a session, whatever is called and whatever engines fail: if there is
always room for as many samples of both channels, the frames that are counted are the rounds of the
session. The counter of a stage is the number of rounds in which it failed, and once more the number
of those in which it failed on both channels; so it is the number of rounds in which it failed
exactly if it never failed on both channels of one. -/
theorem failures_counted_per_channel (h : c.Reachable engines)
    {channels nearRate farRate delay : Nat}
    (hinit : c.init engines channels nearRate farRate delay = .ok (c', .ok .initialized))
    {ops : List Operation} (hkeeps : ∀ op ∈ ops, op.KeepsSession)
    (heven : ∀ op ∈ ops, op.EvenRoom) {t : Transcript}
    (hrun : c'.run engines ops = .ok (c'', t)) :
    ∃ (s₀ s : Session F) (course : List (Occasion S F)) (rounds : List (Round S F)),
      (Session.create c.settings engines.maxRate channels nearRate farRate delay).run =
        .ok (.ok s₀) ∧ c''.session = some s ∧
      s₀.Course engines c.initialLevel (.reset :: course) s ∧
      rounds = Occasion.rounds course ∧
      c''.workshop.journal.frameCalls =
        c.workshop.journal.frameCalls ++ rounds.flatMap (·.journal.frameCalls) ∧
      (∀ r ∈ rounds, r.before.crews.length = channels ∧
        FrameTurn r.settings r.before.crews r.journal.calls) ∧
      s.stats.frames = rounds.length ∧
      ∀ stage,
        (∀ r ∈ rounds, r.failures stage ≤ channels) ∧
        s.stats.failures.get stage =
          rounds.countP (1 ≤ ·.failures stage) + rounds.countP (2 ≤ ·.failures stage) ∧
        s.stats.failures.get stage ≤ channels * s.stats.frames ∧
        (s.stats.failures.get stage = rounds.countP (1 ≤ ·.failures stage) ↔
          ∀ r ∈ rounds, r.failures stage ≤ 1) := by
  obtain ⟨s₀, s, course, hcreate, hs, hcourse, hcalls, hcounted⟩ :=
    run_course h hinit hkeeps hrun
  obtain ⟨hopened, -, hchannels⟩ := Session.create_opened hcreate
  have hlanes : s₀.lanes.length = s₀.layout.channels := hopened.valid.sound.lanes
  have hrounds : Occasion.rounds (.reset :: course) = Occasion.rounds course := rfl
  obtain ⟨hframes, -⟩ := hcourse.tallied hlanes
  have hturns := hcourse.turns hlanes
  have hle := hcourse.failures_le hlanes
  have hmul := hcourse.failures_le_mul hlanes
  have hcount := hcourse.failures_eq hlanes
  rw [hrounds, hchannels] at hturns
  rw [hrounds, hopened.stats] at hframes
  simp only [hrounds, hchannels, hopened.stats] at hle hmul hcount
  have hlength : s.stats.frames = (Occasion.rounds course).length := by
    rw [hframes, List.countP_eq_length.mpr (hcounted heven)]
    exact Nat.zero_add _
  refine ⟨s₀, s, course, _, hcreate, hs, hcourse, rfl, hcalls, hturns, hlength, ?_⟩
  intro stage
  have hzero : ({} : Stats).failures.get stage = 0 := by cases stage <;> rfl
  have hmul := hmul stage
  have hcount := hcount stage
  rw [hzero, Nat.zero_add] at hmul hcount
  refine ⟨hle stage, hcount, hlength ▸ hmul, ?_⟩
  rw [hcount, Nat.add_eq_left, List.countP_eq_zero]
  simp only [decide_eq_true_eq, Nat.not_le, Nat.lt_succ_iff]

set_option maxRecDepth 12000 in
/-- Two mono frames on which noise suppression fails. -/
theorem failures_counted_per_channel_scripted :
    ∃ (c c' : Context Int16 (Scripted.family Int16)) (t : Transcript)
      (s : Session (Scripted.family Int16)) (rounds : List (Round Int16 (Scripted.family Int16))),
      (new { echo := none, gain := none } ()).init
          (Scripted.engines Int16 ⟨{}, { processError := some 7 }, {}⟩ 48000) 1 8000 8000 0 =
        .ok (c, .ok .initialized) ∧
      c.run (Scripted.engines Int16 ⟨{}, { processError := some 7 }, {}⟩ 48000)
          [.process none (List.replicate 160 7) (List.replicate 160 0)] = .ok (c', t) ∧
      c'.session = some s ∧ rounds.length = 2 ∧
      (∀ r ∈ rounds, r.failures .noise ≤ 1) ∧
      s.stats.failures.get .noise = 2 ∧ rounds.countP (1 ≤ ·.failures .noise) = 2 := by
  obtain ⟨c, c', t, s, hinit, hrun, hs, hframes, hnoise⟩ :
      ∃ (c c' : Context Int16 (Scripted.family Int16)) (t : Transcript)
        (s : Session (Scripted.family Int16)),
        (new { echo := none, gain := none } ()).init
            (Scripted.engines Int16 ⟨{}, { processError := some 7 }, {}⟩ 48000) 1 8000 8000 0 =
          .ok (c, .ok .initialized) ∧
        c.run (Scripted.engines Int16 ⟨{}, { processError := some 7 }, {}⟩ 48000)
            [.process none (List.replicate 160 7) (List.replicate 160 0)] = .ok (c', t) ∧
        c'.session = some s ∧ s.stats.frames = 2 ∧ s.stats.failures.get .noise = 2 :=
    ⟨_, _, _, _, rfl, rfl, rfl, rfl, rfl⟩
  have hreach : (new { echo := none, gain := none } () : Context Int16 (Scripted.family Int16)).Reachable
      (Scripted.engines Int16 ⟨{}, { processError := some 7 }, {}⟩ 48000) := ⟨_, (), [], [], rfl⟩
  have hkeeps : ∀ op ∈ [Operation.process none (List.replicate 160 7) (List.replicate 160 0)],
      op.KeepsSession := List.forall_mem_singleton.mpr trivial
  have heven : ∀ op ∈ [Operation.process none (List.replicate 160 7) (List.replicate 160 0)],
      op.EvenRoom := by
    refine List.forall_mem_singleton.mpr ?_
    rw [Operation.EvenRoom, List.length_replicate]
    decide
  obtain ⟨s₀, s', course, rounds, -, hs', -, -, -, -, hlength, hstage⟩ :=
    failures_counted_per_channel hreach hinit hkeeps heven hrun
  obtain rfl : s = s' := Option.some.inj (hs.symm.trans hs')
  obtain ⟨hone, -, -, hiff⟩ := hstage .noise
  exact ⟨c, c', t, s, rounds, hinit, hrun, hs, hlength.symm.trans hframes, hone, hnoise,
    (hiff.mpr hone).symm.trans hnoise⟩

set_option maxRecDepth 12000 in
/-- A stereo frame on which noise suppression fails on both channels is one frame, and counts as two
failures. -/
theorem stereo_failure_counted_twice :
    ∃ (c : Context Int16 (Scripted.family Int16)) (t : Transcript)
      (s : Session (Scripted.family Int16)),
      (new { echo := none, gain := none } ()).run
          (Scripted.engines Int16 ⟨{}, { processError := some 7 }, {}⟩ 48000)
          [.init 2 8000 8000 0, .process none (List.replicate 160 7) (List.replicate 160 0)] =
        .ok (c, t) ∧
      c.session = some s ∧ s.stats.frames = 1 ∧ s.stats.failures.get .noise = 2 :=
  ⟨_, _, _, rfl, rfl, rfl, rfl⟩

end Context

end Duplex
