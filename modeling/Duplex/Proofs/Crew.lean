import Duplex.Proofs.Fitting
import Duplex.Proofs.Opening

/-!
# Crews: the engines of all lanes

The roster of a lane is that of its three slots. A reset fits every slot of every lane
(`resetLanes_fitted`), and new settings go to every echo canceller (`reconfigureLanes_updated`); both
keep the accounts. A session is `Staffed` when its lanes have the channels in order and a stage is
healthy exactly if it has an engine on every lane: so it is after a reset, whatever it was before
(`resetEngines_staffed`), and so it stays with new settings.
-/

namespace Duplex

open Engine

variable {S : Type} {F : Family}

namespace Settings

/-- The call that sets an engine up. -/
def setUpRequest (settings : Settings) (rate : Nat) : Stage → Request S
  | .echo => .echoSetUp rate
  | .noise => .noiseSetUp rate
  | .gain =>
    let gain := settings.gain.getD {}
    .gainSetUp gain.minLevel gain.maxLevel gain.mode rate

/-- The call that configures an engine. -/
def configureRequest (settings : Settings) : Stage → Request S
  | .echo => .echoConfigure (settings.echo.getD {})
  | .noise => .noiseConfigure (settings.noise.getD {}).level
  | .gain => .gainConfigure (settings.gain.getD {})

variable (settings : Settings) (rate : Nat) (stage : Stage)

@[simp] theorem setUpRequest_stage : (settings.setUpRequest rate stage : Request S).stage = stage := by
  cases stage <;> rfl

@[simp] theorem setUpRequest_purpose :
    (settings.setUpRequest rate stage : Request S).purpose = .setUp := by cases stage <;> rfl

@[simp] theorem configureRequest_stage : (settings.configureRequest stage : Request S).stage = stage := by
  cases stage <;> rfl

@[simp] theorem configureRequest_purpose :
    (settings.configureRequest stage : Request S).purpose = .configure := by cases stage <;> rfl

end Settings

namespace Lane

/-- The numbers of the engines in a lane. -/
def numbers (l : Lane F) : PerStage (Option Nat) :=
  ⟨l.echo.map (·.number), l.noise.map (·.number), l.gain.map (·.number)⟩

/-- The channel and the engines of a lane. -/
def crew (l : Lane F) : Nat × PerStage (Option Nat) := (l.channel, l.numbers)

/-- The engines in a lane. -/
def roster (l : Lane F) : List EngineId :=
  Stage.all.flatMap fun stage => entry stage (l.numbers.get stage)

/-- The engines in a lane but for those of one stage. -/
def others (l : Lane F) (stage : Stage) : List EngineId :=
  (Stage.all.erase stage).flatMap fun other => entry other (l.numbers.get other)

theorem roster_perm (l : Lane F) (stage : Stage) :
    l.roster.Perm (entry stage (l.numbers.get stage) ++ l.others stage) :=
  (List.perm_cons_erase (by cases stage <;> decide)).flatMap_right _

theorem others_congr {l l' : Lane F} {stage : Stage}
    (h : ∀ other ≠ stage, l'.numbers.get other = l.numbers.get other) :
    l'.others stage = l.others stage := by
  refine List.flatMap_congr fun other hother => ?_
  have hne : other ≠ stage := by
    rintro rfl
    revert hother
    cases other <;> decide
  rw [h other hne]

theorem releases_eq (l : Lane F) : (l.releases : Journal S) = l.roster.map EngineId.release := by
  obtain ⟨_, echo, noise, gain, _⟩ := l
  cases echo <;> cases noise <;> cases gain <;> rfl

theorem length_roster (l : Lane F) : l.roster.length = l.engineCount := by
  obtain ⟨_, echo, noise, gain, _⟩ := l
  cases echo <;> cases noise <;> cases gain <;> rfl

theorem succeeded_map {σ : Type} (r : Except Engine.Error (Numbered σ)) :
    succeeded (r.map fun _ => ()) = (r.toOption.map (·.number)).isSome := by cases r <;> rfl

/-- What bringing one stage of a lane up does. -/
structure StageFitted (settings : Settings) (rate : Nat) (stage : Stage) (w : Workshop S F)
    (l : Lane F) (events : Journal S) (count : Nat)
    (r : Workshop S F × Lane F × Except Engine.Error Unit) : Prop where
  grows : w.Grows events (w.made.set count stage) r.1
  fitting : Fitting stage (settings.setUpRequest rate stage) (settings.configureRequest stage)
    (l.numbers.get stage) (w.made.get stage) events (r.2.1.numbers.get stage) count
  others : ∀ other ≠ stage, r.2.1.numbers.get other = l.numbers.get other
  channel : r.2.1.channel = l.channel
  result : succeeded r.2.2 = (r.2.1.numbers.get stage).isSome

theorem StageFitted.accounts {settings : Settings} {rate : Nat} {stage : Stage} {w : Workshop S F}
    {l : Lane F} {events : Journal S} {count : Nat}
    {r : Workshop S F × Lane F × Except Engine.Error Unit} {roster : List EngineId}
    (h : StageFitted settings rate stage w l events count r)
    (hacc : Accounts w.made w.journal (l.roster ++ roster)) :
    Accounts r.1.made r.1.journal (r.2.1.roster ++ roster) := by
  have hfront := hacc.perm ((l.roster_perm stage).append_right roster)
  rw [List.append_assoc] at hfront
  have hfitted := h.fitting.accounts (by simp) (by simp) (by simp) (by simp) hfront
  rw [h.grows.journal, h.grows.made]
  refine hfitted.perm ?_
  rw [← others_congr h.others, ← List.append_assoc]
  exact ((roster_perm _ stage).append_right roster).symm

/-- What a reset does for a lane: a fitting for each stage. -/
structure Fitted (settings : Settings) (rate : Nat) (l : Lane F) (parts : PerStage (Journal S))
    (l' : Lane F) : Prop where
  channel : l'.channel = l.channel
  fitting : ∀ stage, ∃ made made', Fitting stage (settings.setUpRequest rate stage)
    (settings.configureRequest stage) (l.numbers.get stage) made (parts.get stage)
    (l'.numbers.get stage) made'

section SetUp

variable (engines : Engines S F) (rate : Nat) (settings : Settings) (w : Workshop S F) (l : Lane F)

theorem resetEcho_fitted : ∃ events count, StageFitted settings rate .echo w l events count
    (l.resetEcho engines rate (settings.echo.getD {}) w) := by
  obtain ⟨events, count, hgrows, hfitting⟩ := w.refit_fitting .echo
    (settings.setUpRequest rate .echo) (settings.configureRequest .echo)
    engines.makeEcho l.echo (fun e => engines.echo.setUp e rate)
    (fun e => engines.echo.configure e (settings.echo.getD {}))
  refine ⟨events, count, hgrows, hfitting, fun other hother => ?_, rfl, succeeded_map _⟩
  cases other with
  | echo => exact absurd rfl hother
  | noise | gain => rfl

theorem resetNoise_fitted : ∃ events count, StageFitted settings rate .noise w l events count
    (l.resetNoise engines rate (settings.noise.getD {}).level w) := by
  obtain ⟨events, count, hgrows, hfitting⟩ := w.refit_fitting .noise
    (settings.setUpRequest rate .noise) (settings.configureRequest .noise)
    engines.makeNoise l.noise (fun e => engines.noise.setUp e rate)
    (fun e => engines.noise.configure e (settings.noise.getD {}).level)
  refine ⟨events, count, hgrows, hfitting, fun other hother => ?_, rfl, succeeded_map _⟩
  cases other with
  | noise => exact absurd rfl hother
  | echo | gain => rfl

theorem resetGain_fitted : ∃ events count, StageFitted settings rate .gain w l events count
    (l.resetGain engines rate (settings.gain.getD {}) w) := by
  obtain ⟨gain, hgain⟩ : ∃ gain, settings.gain.getD {} = gain := ⟨_, rfl⟩
  obtain ⟨events, count, hgrows, hfitting⟩ := w.refit_fitting .gain
    (settings.setUpRequest rate .gain) (settings.configureRequest .gain)
    engines.makeGain l.gain
    (fun e => engines.gain.setUp e gain.minLevel gain.maxLevel gain.mode rate)
    (fun e => engines.gain.configure e gain)
  subst hgain
  refine ⟨events, count, hgrows, hfitting, fun other hother => ?_, rfl, succeeded_map _⟩
  cases other with
  | gain => exact absurd rfl hother
  | echo | noise => rfl

end SetUp

/-- What new settings may change in a lane: it may lose its echo canceller. -/
structure Updated (l l' : Lane F) : Prop where
  channel : l'.channel = l.channel
  others : ∀ stage ≠ .echo, l'.numbers.get stage = l.numbers.get stage
  echo : l'.numbers.echo = l.numbers.echo ∨ l'.numbers.echo = none

theorem Updated.accounts {l l' : Lane F} {settings : EchoSettings} {made : PerStage Nat}
    {journal events : Journal S} {roster : List EngineId} (h : l.Updated l')
    (hupdate : Update .echo (.echoConfigure settings) l.numbers.echo events l'.numbers.echo)
    (hacc : Accounts made journal (l.roster ++ roster)) :
    Accounts made (journal ++ events) (l'.roster ++ roster) := by
  have hfront := hacc.perm ((l.roster_perm .echo).append_right roster)
  rw [List.append_assoc] at hfront
  refine (hupdate.accounts (by rfl) (by rfl) hfront).perm ?_
  rw [← others_congr h.others, ← List.append_assoc]
  exact ((l'.roster_perm .echo).append_right roster).symm

/-- An echo canceller that takes new settings stays, and one that rejects them is given up. -/
theorem reconfigureEcho_updated (engines : Engines S F) (settings : EchoSettings)
    (w : Workshop S F) (l : Lane F) :
    ∃ events, w.Grows events w.made (l.reconfigureEcho engines settings w).1 ∧
      Update .echo (.echoConfigure settings) l.numbers.echo events
        (l.reconfigureEcho engines settings w).2.1.numbers.echo ∧
      l.Updated (l.reconfigureEcho engines settings w).2.1 ∧
      (succeeded (l.reconfigureEcho engines settings w).2.2 ↔
        (l.reconfigureEcho engines settings w).2.1.numbers.echo = l.numbers.echo) := by
  rw [reconfigureEcho]
  split
  · rename_i hnone
    have hslot : l.numbers.echo = none := by simp [numbers, hnone]
    exact ⟨[], ⟨(List.append_nil _).symm, rfl⟩, hslot ▸ .empty, ⟨rfl, fun _ _ => rfl, .inl rfl⟩,
      by simp [succeeded]⟩
  · rename_i e he
    obtain ⟨events, hgrows, hupdate⟩ := w.setUp_update .echo (.echoConfigure settings) e
      (fun e => engines.echo.configure e settings)
    have hslot : l.numbers.echo = some e.number := by simp [numbers, he]
    generalize hr : w.setUp .echo e
      [(.echoConfigure settings, fun e => engines.echo.configure e settings)] = r at hgrows hupdate
    have hnumber : ({ l with echo := r.2.toOption } : Lane F).numbers.echo =
        r.2.toOption.map (·.number) := rfl
    refine ⟨events, hgrows, hslot ▸ hnumber ▸ hupdate, ⟨rfl, fun stage hstage => ?_, ?_⟩, ?_⟩
    · cases stage with
      | echo => exact absurd rfl hstage
      | noise | gain => rfl
    · rw [hnumber, hslot]
      exact hupdate.slot_cases
    · rw [hnumber, hslot, succeeded_map]
      obtain hsame | hnone := hupdate.slot_cases
      · simp [hsame]
      · simp [hnone]

end Lane

namespace Session

theorem noteFailures_eq (w : Workshop S F) (healthy : PerStage Bool)
    (results : List (Stage × Except Engine.Error Unit)) :
    ∃ notices : List Notice,
      w.Grows (notices.map .noticed) w.made (noteFailures w healthy results).1 ∧
        ∀ stage, (noteFailures w healthy results).2.get stage =
          (healthy.get stage && results.all fun r => r.1 ≠ stage || succeeded r.2) := by
  induction results generalizing w healthy with
  | nil => exact ⟨[], ⟨by simp [noteFailures], rfl⟩, by simp [noteFailures]⟩
  | cons r results ih =>
    obtain ⟨stage, result⟩ := r
    cases result with
    | ok =>
      obtain ⟨notices, hgrows, hhealthy⟩ := ih w healthy
      refine ⟨notices, hgrows, fun stage' => ?_⟩
      rw [noteFailures, hhealthy]
      simp [succeeded]
    | error error =>
      obtain ⟨notices, hgrows, hhealthy⟩ :=
        ih (w.notice (.setupFailed stage error)) (healthy.set false stage)
      refine ⟨.setupFailed stage error :: notices, ⟨?_, hgrows.made⟩, fun stage' => ?_⟩
      · exact hgrows.journal.trans (List.append_assoc _ _ _)
      · rw [noteFailures, hhealthy]
        by_cases hstage : stage = stage'
        · subst hstage
          simp [succeeded]
        · rw [PerStage.get_set_of_ne _ _ (Ne.symm hstage)]
          simp [hstage]

/-- Bringing a lane up keeps the accounts, and leaves a stage healthy if it was and has an engine
now. -/
theorem resetLane_fitted (engines : Engines S F) (rate : Nat) (settings : Settings)
    (w : Workshop S F) (healthy : PerStage Bool) (l : Lane F) :
    ∃ (parts : PerStage (Journal S)) (notices : List Notice) (made : PerStage Nat),
      w.Grows (parts.echo ++ parts.noise ++ parts.gain ++ notices.map .noticed) made
          (resetLane engines rate settings w healthy l).1 ∧
        l.Fitted settings rate parts (resetLane engines rate settings w healthy l).2.2 ∧
        (∀ stage, (resetLane engines rate settings w healthy l).2.1.get stage =
          (healthy.get stage &&
            ((resetLane engines rate settings w healthy l).2.2.numbers.get stage).isSome)) ∧
        ∀ roster, Accounts w.made w.journal (l.roster ++ roster) →
          Accounts (resetLane engines rate settings w healthy l).1.made
            (resetLane engines rate settings w healthy l).1.journal
            ((resetLane engines rate settings w healthy l).2.2.roster ++ roster) := by
  obtain ⟨echo, echoes, hecho⟩ := l.resetEcho_fitted engines rate settings w
  generalize hre : l.resetEcho engines rate (settings.echo.getD {}) w = re at hecho
  obtain ⟨noise, noises, hnoise⟩ := re.2.1.resetNoise_fitted engines rate settings re.1
  generalize hrn : re.2.1.resetNoise engines rate (settings.noise.getD {}).level re.1 = rn at hnoise
  obtain ⟨gain, gains, hgain⟩ := rn.2.1.resetGain_fitted engines rate settings rn.1
  generalize hrg : rn.2.1.resetGain engines rate (settings.gain.getD {}) rn.1 = rg at hgain
  obtain ⟨notices, hnotes, hhealthy⟩ := noteFailures_eq rg.1 healthy
    [(.echo, re.2.2), (.noise, rn.2.2), (.gain, rg.2.2)]
  have hlane : resetLane engines rate settings w healthy l =
      ((noteFailures rg.1 healthy [(.echo, re.2.2), (.noise, rn.2.2), (.gain, rg.2.2)]).1,
        (noteFailures rg.1 healthy [(.echo, re.2.2), (.noise, rn.2.2), (.gain, rg.2.2)]).2, rg.2.1) := by
    subst hrg hrn hre
    rfl
  -- The slot of a stage is that of the lane until the stage's turn, and stays as it is afterwards.
  have hnoiseSlot : re.2.1.numbers.get .noise = l.numbers.get .noise := hecho.others _ (by simp)
  have hgainSlot : rn.2.1.numbers.get .gain = l.numbers.get .gain :=
    (hnoise.others _ (by simp)).trans (hecho.others _ (by simp))
  have hechoSlot : rg.2.1.numbers.get .echo = re.2.1.numbers.get .echo :=
    (hgain.others _ (by simp)).trans (hnoise.others _ (by simp))
  have hnoiseSlot' : rg.2.1.numbers.get .noise = rn.2.1.numbers.get .noise :=
    hgain.others _ (by simp)
  rw [hlane]
  refine ⟨⟨echo, noise, gain⟩, notices, _, ⟨?_, hnotes.made⟩, ⟨?_, fun stage => ?_⟩,
    fun stage => ?_, fun roster hacc => ?_⟩
  · rw [hnotes.journal, hgain.grows.journal, hnoise.grows.journal, hecho.grows.journal]
    simp only [List.append_assoc]
  · exact hgain.channel.trans (hnoise.channel.trans hecho.channel)
  · cases stage with
    | echo => exact ⟨_, _, hechoSlot ▸ hecho.fitting⟩
    | noise => exact ⟨_, _, hnoiseSlot ▸ hnoiseSlot' ▸ hnoise.fitting⟩
    | gain => exact ⟨_, _, hgainSlot ▸ hgain.fitting⟩
  · rw [hhealthy]
    cases stage with
    | echo => simp [hechoSlot, hecho.result]
    | noise => simp [hnoiseSlot', hnoise.result]
    | gain => simp [hgain.result]
  · have hfitted := hgain.accounts (hnoise.accounts (hecho.accounts hacc))
    rw [hnotes.made, hnotes.journal]
    exact hfitted.notices notices

/-- What a reset does for the lanes. -/
inductive LanesFitted (settings : Settings) (rate : Nat) :
    List (Lane F) → List (PerStage (Journal S)) → Journal S → List (Lane F) → Prop where
  | nil : LanesFitted settings rate [] [] [] []
  | cons {l l' : Lane F} {parts : PerStage (Journal S)} {lanes lanes' : List (Lane F)}
    {rest : List (PerStage (Journal S))} {events : Journal S} (notices : List Notice)
    (h : l.Fitted settings rate parts l')
    (others : LanesFitted settings rate lanes rest events lanes') :
    LanesFitted settings rate (l :: lanes) (parts :: rest)
      (parts.echo ++ parts.noise ++ parts.gain ++ notices.map .noticed ++ events) (l' :: lanes')

theorem resetLanes_fitted (engines : Engines S F) (rate : Nat) (settings : Settings)
    (w : Workshop S F) (healthy : PerStage Bool) (lanes : List (Lane F)) :
    ∃ (parts : List (PerStage (Journal S))) (events : Journal S) (made : PerStage Nat),
      w.Grows events made (resetLanes engines rate settings w healthy lanes).1 ∧
        LanesFitted settings rate lanes parts events
          (resetLanes engines rate settings w healthy lanes).2.2 ∧
        (∀ stage, (resetLanes engines rate settings w healthy lanes).2.1.get stage =
          (healthy.get stage && (resetLanes engines rate settings w healthy lanes).2.2.all
            fun l => (l.numbers.get stage).isSome)) ∧
        ∀ roster, Accounts w.made w.journal (lanes.flatMap Lane.roster ++ roster) →
          Accounts (resetLanes engines rate settings w healthy lanes).1.made
            (resetLanes engines rate settings w healthy lanes).1.journal
            ((resetLanes engines rate settings w healthy lanes).2.2.flatMap Lane.roster ++ roster) := by
  induction lanes generalizing w healthy with
  | nil =>
    exact ⟨[], [], w.made, ⟨(List.append_nil _).symm, rfl⟩, .nil, by simp [resetLanes],
      fun _ hacc => hacc⟩
  | cons l lanes ih =>
    obtain ⟨parts, notices, made, hgrows, hfitted, hhealthy, haccounts⟩ :=
      resetLane_fitted engines rate settings w healthy l
    generalize hr : resetLane engines rate settings w healthy l = r at hgrows hfitted hhealthy haccounts
    obtain ⟨rest, events, made', hgrows', hfitted', hhealthy', haccounts'⟩ := ih r.1 r.2.1
    generalize hrs : resetLanes engines rate settings r.1 r.2.1 lanes = rs
      at hgrows' hfitted' hhealthy' haccounts'
    have hlanes : resetLanes engines rate settings w healthy (l :: lanes) =
        (rs.1, rs.2.1, r.2.2 :: rs.2.2) := by
      subst hrs hr
      rfl
    rw [hlanes]
    refine ⟨parts :: rest, _, made', ⟨?_, hgrows'.made⟩, .cons notices hfitted hfitted',
      fun stage => ?_, fun roster hacc => ?_⟩
    · rw [hgrows'.journal, hgrows.journal, List.append_assoc]
    · simp only [hhealthy', hhealthy, List.all_cons, Bool.and_assoc]
    · have hlane := haccounts (lanes.flatMap Lane.roster ++ roster) (by simpa using hacc)
      have hothers := haccounts' (r.2.2.roster ++ roster) (hlane.perm (List.perm_append_comm_assoc ..))
      refine (hothers.perm (List.perm_append_comm_assoc ..)).perm ?_
      simp

section LanesFitted

variable {settings : Settings} {rate : Nat} {lanes lanes' : List (Lane F)}
  {parts : List (PerStage (Journal S))} {events : Journal S}
  (h : LanesFitted settings rate lanes parts events lanes')

include h

theorem LanesFitted.channels : lanes'.map (·.channel) = lanes.map (·.channel) := by
  induction h with
  | nil => rfl
  | cons _ h _ ih => rw [List.map_cons, List.map_cons, ih, h.channel]

theorem LanesFitted.isFrame : ∀ e ∈ events, e.isFrame = false := by
  induction h with
  | nil => simp
  | cons notices h _ ih =>
    have hpart (stage : Stage) := (h.fitting stage).elim fun _ ⟨_, hfitting⟩ =>
      hfitting.isFrame (by simp) (by simp)
    intro e he
    simp only [List.mem_append, List.mem_map] at he
    obtain (((he | he) | he) | ⟨notice, -, rfl⟩) | he := he
    · exact hpart .echo e he
    · exact hpart .noise e he
    · exact hpart .gain e he
    · rfl
    · exact ih e he

/-- What is written about one stage is a fitting of its slot on each lane, in the order of the
lanes. -/
theorem LanesFitted.stage (stage : Stage) :
    events.filter (·.stage? = some stage) = (parts.map (·.get stage)).flatten ∧
      List.Forall₂ (fun l part => ∃ made slot made', Fitting stage (settings.setUpRequest rate stage)
        (settings.configureRequest stage) (l.numbers.get stage) made part slot made')
        lanes (parts.map (·.get stage)) := by
  induction h with
  | nil => exact ⟨rfl, .nil⟩
  | @cons l l' part _ _ _ _ notices h _ ih =>
    have hstage (other : Stage) : ∀ e ∈ part.get other, e.stage? = some other :=
      (h.fitting other).elim fun _ ⟨_, hfitting⟩ => hfitting.stage? (by simp) (by simp)
    have hpart (other : Stage) : (part.get other).filter (·.stage? = some stage) =
        if other = stage then part.get other else [] := by
      split
      · rename_i heq
        exact List.filter_eq_self.mpr fun e he => by simpa [heq] using hstage other e he
      · rename_i hne
        exact List.filter_eq_nil_iff.mpr fun e he => by simpa [hstage other e he] using hne
    have hnotices : (notices.map (Event.noticed (S := S))).filter (·.stage? = some stage) = [] :=
      List.filter_eq_nil_iff.mpr fun e he => by
        obtain ⟨notice, -, rfl⟩ := List.mem_map.mp he
        simp [Event.stage?]
    have hparts : (part.echo ++ part.noise ++ part.gain).filter (·.stage? = some stage) =
        part.get stage := by
      have hecho := hpart .echo
      have hnoise := hpart .noise
      have hgain := hpart .gain
      simp only [PerStage.get] at hecho hnoise hgain
      rw [List.filter_append, List.filter_append, hecho, hnoise, hgain]
      cases stage <;> simp [PerStage.get]
    obtain ⟨made, made', hfitting⟩ := h.fitting stage
    refine ⟨?_, .cons ⟨made, _, made', hfitting⟩ ih.2⟩
    rw [List.filter_append, List.filter_append, hparts, hnotices, ih.1]
    simp

/-- A stage has an engine on every lane exactly if none of its fittings failed. -/
theorem LanesFitted.isSome_iff (stage : Stage) :
    (∀ l ∈ lanes', (l.numbers.get stage).isSome) ↔
      ∀ part ∈ parts.map (·.get stage), ∀ e ∈ part, e.fails = false := by
  induction h with
  | nil => simp
  | cons _ h _ ih =>
    obtain ⟨_, _, hfitting⟩ := h.fitting stage
    simp only [List.map_cons, List.forall_mem_cons, ih, hfitting.isSome_iff]

end LanesFitted

/-! ### New settings for echo cancellers -/

theorem reconfigureLanes_updated (engines : Engines S F) (settings : EchoSettings)
    (w : Workshop S F) (healthy : Bool) (lanes : List (Lane F)) :
    ∃ events : Journal S,
      w.Grows events w.made (reconfigureLanes engines settings w healthy lanes).1 ∧
        (∀ e ∈ events, e.isFrame = false) ∧
        List.Forall₂ Lane.Updated lanes (reconfigureLanes engines settings w healthy lanes).2.2 ∧
        ((reconfigureLanes engines settings w healthy lanes).2.1 = true ↔ healthy = true ∧
          List.Forall₂ (fun l l' => l'.numbers.echo = l.numbers.echo) lanes
            (reconfigureLanes engines settings w healthy lanes).2.2) ∧
        ∀ roster, Accounts w.made w.journal (lanes.flatMap Lane.roster ++ roster) →
          Accounts w.made (reconfigureLanes engines settings w healthy lanes).1.journal
            ((reconfigureLanes engines settings w healthy lanes).2.2.flatMap Lane.roster ++
              roster) := by
  induction lanes generalizing w healthy with
  | nil =>
    exact ⟨[], ⟨(List.append_nil _).symm, rfl⟩, by simp, .nil, by simp [reconfigureLanes],
      fun _ hacc => hacc⟩
  | cons l lanes ih =>
    obtain ⟨events, hgrows, hupdate, hupdated, hresult⟩ := l.reconfigureEcho_updated engines settings w
    have haccounts (roster : List EngineId)
        (hacc : Accounts w.made w.journal (l.roster ++ roster)) := hupdated.accounts hupdate hacc
    generalize hr : l.reconfigureEcho engines settings w = r
      at hgrows hupdate hupdated hresult haccounts
    -- What is written about the answer makes no difference to engines.
    obtain ⟨w', notices, hw', hnext⟩ : ∃ (w' : Workshop S F) (notices : List Notice),
        r.1.Grows (notices.map .noticed) r.1.made w' ∧
          reconfigureLanes engines settings w healthy (l :: lanes) =
            let rest := reconfigureLanes engines settings w' (healthy && succeeded r.2.2) lanes
            (rest.1, rest.2.1, r.2.1 :: rest.2.2) := by
      rw [reconfigureLanes, hr]
      obtain ⟨w₁, l₁, result⟩ := r
      cases result with
      | ok => exact ⟨w₁, [], ⟨(List.append_nil _).symm, rfl⟩, by simp [succeeded]⟩
      | error error =>
        exact ⟨w₁.notice (.settingsRejected error), [.settingsRejected error], ⟨rfl, rfl⟩, by
          simp [succeeded]⟩
    obtain ⟨rest, hgrows', hframe, hlanes, hhealthy, haccounts'⟩ :=
      ih w' (healthy && succeeded r.2.2)
    rw [hnext]
    generalize reconfigureLanes engines settings w' (healthy && succeeded r.2.2) lanes = rs
      at hgrows' hlanes hhealthy haccounts' ⊢
    have hmade : w'.made = w.made := hw'.made.trans hgrows.made
    refine ⟨events ++ notices.map .noticed ++ rest, ⟨?_, hgrows'.made.trans hmade⟩, ?_,
      .cons hupdated hlanes, ?_, fun roster hacc => ?_⟩
    · rw [hgrows'.journal, hw'.journal, hgrows.journal]
      simp only [List.append_assoc]
    · intro e he
      simp only [List.mem_append, List.mem_map] at he
      obtain (he | ⟨notice, -, rfl⟩) | he := he
      · exact hupdate.isFrame rfl e he
      · rfl
      · exact hframe e he
    · rw [hhealthy, Bool.and_eq_true, hresult, List.forall₂_cons, and_assoc]
    · rw [List.flatMap_cons, List.append_assoc] at hacc
      have hlane := (haccounts _ hacc).notices notices
      rw [← hgrows.journal, ← hw'.journal] at hlane
      have hothers := haccounts' (r.2.1.roster ++ roster)
        (hmade ▸ hlane.perm (List.perm_append_comm_assoc ..))
      rw [hmade] at hothers
      refine (hothers.perm (List.perm_append_comm_assoc ..)).perm ?_
      simp

/-! ### Sessions -/

/-- The engines of a session. -/
def roster (s : Session F) : List EngineId := s.lanes.flatMap Lane.roster

/-- The channels of the lanes and their engines. -/
def crews (s : Session F) : List (Nat × PerStage (Option Nat)) := s.lanes.map Lane.crew

theorem roster_congr {s t : Session F} (h : t.crews = s.crews) : t.roster = s.roster := by
  have hcrews (s : Session F) : s.roster = s.crews.flatMap fun crew =>
      Stage.all.flatMap fun stage => entry stage (crew.2.get stage) := by
    rw [crews, List.flatMap_map]
    rfl
  rw [hcrews, hcrews, h]

theorem mem_roster {s : Session F} {id : EngineId} :
    id ∈ s.roster ↔ ∃ crew ∈ s.crews, crew.2.get id.stage = some id.number := by
  have hmem (l : Lane F) : id ∈ l.roster ↔ l.numbers.get id.stage = some id.number := by
    obtain ⟨stage, number⟩ := id
    cases stage <;> simp [Lane.roster, Stage.all]
  simp [roster, crews, hmem, Lane.crew]

theorem length_roster (s : Session F) : s.roster.length = s.engineCount := by
  have hfold (lanes : List (Lane F)) (n : Nat) :
      lanes.foldl (fun n l => n + l.engineCount) n = n + (lanes.flatMap Lane.roster).length := by
    induction lanes generalizing n with
    | nil => rfl
    | cons l lanes ih =>
      rw [List.foldl_cons, ih, List.flatMap_cons, List.length_append, l.length_roster, Nat.add_assoc]
  rw [engineCount, hfold, Nat.zero_add, roster]

/-- No lane has more than an engine for each stage. -/
theorem engineCount_le (s : Session F) : s.engineCount ≤ 3 * s.lanes.length := by
  have hle (l : Lane F) : l.roster.length ≤ 3 := by
    obtain ⟨_, echo, noise, gain, _⟩ := l
    cases echo <;> cases noise <;> cases gain <;> simp [Lane.length_roster, Lane.engineCount]
  rw [← length_roster, roster]
  induction s.lanes with
  | nil => simp
  | cons l lanes ih =>
    have := hle l
    simp only [List.flatMap_cons, List.length_append, List.length_cons]
    omega

/-- Whether every lane has an engine is a matter of the slots. -/
theorem forall_isSome_congr {stage : Stage} {lanes lanes' : List (Lane F)}
    (h : lanes'.map (·.numbers.get stage) = lanes.map (·.numbers.get stage)) :
    (∀ l ∈ lanes', (l.numbers.get stage).isSome) ↔ ∀ l ∈ lanes, (l.numbers.get stage).isSome := by
  have hmem (lanes : List (Lane F)) : (∀ l ∈ lanes, (l.numbers.get stage).isSome) ↔
      ∀ slot ∈ lanes.map (·.numbers.get stage), slot.isSome := by simp only [List.forall_mem_map]
  rw [hmem, hmem, h]

/-- The lanes have the channels in order, and a stage is healthy exactly if it has an engine on every
lane. -/
structure Staffed (s : Session F) : Prop where
  channels : s.lanes.map (·.channel) = List.range s.layout.channels
  healthy : ∀ stage, s.healthy.get stage = true ↔ ∀ l ∈ s.lanes, (l.numbers.get stage).isSome

/-- After a reset a session is staffed, whatever was healthy before. -/
theorem resetEngines_staffed (engines : Engines S F) (settings : Settings) (w : Workshop S F)
    (s : Session F) (hchannels : s.lanes.map (·.channel) = List.range s.layout.channels)
    (hacc : Accounts w.made w.journal s.roster) :
    ∃ (parts : List (PerStage (Journal S))) (events : Journal S),
      (s.resetEngines engines settings w).1.journal = w.journal ++ events ∧
        LanesFitted settings s.rate s.lanes parts events (s.resetEngines engines settings w).2.lanes ∧
        (s.resetEngines engines settings w).2.Staffed ∧
        Accounts (s.resetEngines engines settings w).1.made
          (s.resetEngines engines settings w).1.journal (s.resetEngines engines settings w).2.roster := by
  obtain ⟨parts, events, made, hgrows, hfitted, hhealthy, haccounts⟩ :=
    resetLanes_fitted engines s.rate settings w (.const true) s.lanes
  refine ⟨parts, events, hgrows.journal, hfitted, ⟨?_, fun stage => ?_⟩, ?_⟩
  · exact hfitted.channels.trans hchannels
  · show (resetLanes engines s.rate settings w (.const true) s.lanes).2.1.get stage = true ↔ _
    rw [hhealthy, PerStage.get_const, Bool.true_and, List.all_eq_true]
    rfl
  · have hall := haccounts [] (by simpa [roster] using hacc)
    rw [List.append_nil] at hall
    exact hall

/-- It depends on the crews only. -/
theorem Staffed.congr {s t : Session F} (hs : s.Staffed) (hlayout : t.layout = s.layout)
    (hhealthy : t.healthy = s.healthy) (hcrews : t.crews = s.crews) : t.Staffed where
  channels := by
    have hmap := congrArg (List.map Prod.fst) hcrews
    simp only [crews, List.map_map] at hmap
    rw [hlayout, ← hs.channels]
    exact hmap
  healthy stage := by
    have hmap := congrArg (List.map fun crew => crew.2.get stage) hcrews
    simp only [crews, List.map_map] at hmap
    rw [hhealthy, hs.healthy]
    exact (forall_isSome_congr hmap).symm

theorem map_eq_of_forall₂ {α β : Type} {R : α → α → Prop} {f : α → β} {xs ys : List α}
    (h : List.Forall₂ R xs ys) (hf : ∀ x y, R x y → f y = f x) : ys.map f = xs.map f := by
  induction h with
  | nil => rfl
  | cons hxy _ ih => rw [List.map_cons, List.map_cons, hf _ _ hxy, ih]

/-- If echo cancellers were healthy exactly when every lane had one, they still are when each that
there was took the new settings. -/
theorem reconfigured_healthy {lanes lanes' : List (Lane F)} {healthy : Bool}
    (h : List.Forall₂ Lane.Updated lanes lanes')
    (hhealthy : healthy = true ↔ ∀ l ∈ lanes, l.numbers.echo.isSome) :
    (healthy = true ∧ List.Forall₂ (fun l l' => l'.numbers.echo = l.numbers.echo) lanes lanes') ↔
      ∀ l ∈ lanes', l.numbers.echo.isSome := by
  rw [hhealthy]
  clear hhealthy
  induction h with
  | nil => simp
  | @cons l l' _ _ hl _ ih =>
    rw [List.forall₂_cons, List.forall_mem_cons, List.forall_mem_cons, ← ih]
    obtain hsame | hnone := hl.echo
    · simp only [hsame, true_and, and_assoc]
    · simp only [hnone, Option.isSome_none, Bool.false_eq_true, false_and, iff_false]
      rintro ⟨⟨hsome, -⟩, hsame, -⟩
      simp [← hsame] at hsome

/-- So it stays with new settings for the echo cancellers. -/
theorem reconfigureEcho_staffed (engines : Engines S F) (settings : EchoSettings) (w : Workshop S F)
    {s : Session F} (hs : s.Staffed) (hacc : Accounts w.made w.journal s.roster) :
    ∃ events : Journal S,
      (s.reconfigureEcho engines settings w).1.journal = w.journal ++ events ∧
        (∀ e ∈ events, e.isFrame = false) ∧
        (s.reconfigureEcho engines settings w).2.Staffed ∧
        Accounts (s.reconfigureEcho engines settings w).1.made
          (s.reconfigureEcho engines settings w).1.journal
          (s.reconfigureEcho engines settings w).2.roster := by
  obtain ⟨events, hgrows, hframe, hlanes, hhealthy, haccounts⟩ :=
    reconfigureLanes_updated engines settings w s.healthy.echo s.lanes
  refine ⟨events, hgrows.journal, hframe, ⟨?_, fun stage => ?_⟩, ?_⟩
  · exact (map_eq_of_forall₂ hlanes fun _ _ h => h.channel).trans hs.channels
  · by_cases hstage : stage = .echo
    · subst hstage
      exact hhealthy.trans (reconfigured_healthy hlanes (hs.healthy .echo))
    · have hsame := map_eq_of_forall₂ hlanes fun _ _ h => h.others stage hstage
      have hget : (s.reconfigureEcho engines settings w).2.healthy.get stage =
          s.healthy.get stage := by
        cases stage with
        | echo => exact absurd rfl hstage
        | noise | gain => rfl
      rw [hget, hs.healthy]
      exact (forall_isSome_congr hsame).symm
  · have hall := haccounts [] (by simpa [roster] using hacc)
    rw [List.append_nil, ← hgrows.made] at hall
    exact hall

end Session

end Duplex
