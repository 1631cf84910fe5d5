import Duplex.Engine.Scripted
import Duplex.Proofs.Content
import Duplex.Proofs.Switching
import Duplex.Proofs.Turns

/-!
# Composition: a frame is what its stages make of it

`Stand.run` composes the stages of a lane without any buffers: each stage that is on and has an
engine is given the bands as they stand, and if it succeeds its bands take their place. Engines that
write over all of their output (`Engines.Overwrites`) never see what the output bands held before,
and then a lane does exactly this (`runStages_shows`): it makes the same calls, carries the same mic
level and synthesises the bands that the composition ends with, out of whichever frame they are in.
-/

namespace Duplex

open Signal Engine

variable {S : Type} {F : Family} {n b : Nat}

/-! ### Engines that write over their output -/

/-- Bands of the same number and size. -/
structure Bands.SameShape {α : Type} (x y : Bands α) : Prop where
  length : x.data.length = y.data.length
  perBand : x.perBand = y.perBand

/-- What the output bands held before makes no difference to the engine and to the outcome, and on
success all of them are written. -/
def WritesOver {T σ ρ : Type} (nearend : Bands T) (process : Bands T → FrameReply σ T ρ) : Prop :=
  ∀ out out', out.SameShape nearend → out'.SameShape nearend →
    (process out).engine = (process out').engine ∧ (process out).result = (process out').result ∧
      ∀ r, (process out).result = .ok r →
        (process out).out = (process out').out ∧ (process out).out.length = nearend.data.length

/-- The engines write over all of their output whenever they succeed. -/
structure Engines.Overwrites (engines : Engines S F) : Prop where
  echo (e : F.Echo) (nearend : Bands S) (delay : Nat) :
    WritesOver nearend fun out => engines.echo.process e nearend out delay
  noise (e : F.Noise) (nearend : Bands S) :
    WritesOver nearend fun out => engines.noise.process e nearend out
  gain (e : F.Gain) (nearend : Bands Int16) (micLevel : Int32) (hasEcho : Bool) :
    WritesOver nearend fun out => engines.gain.process e nearend out micLevel hasEcho

namespace Engine.Scripted.Rule

variable [Arithmetic S] (r : Rule)

theorem length_transform (hmode : r.mode ≠ .keep) (farend : Option (List S))
    (nearend out : Bands S) : (r.transform farend nearend out).length = nearend.data.length := by
  unfold transform
  cases hm : r.mode with
  | keep => exact absurd hm hmode
  | subtractFarend =>
    cases farend with
    | none => rfl
    | some far =>
      simp only [List.length_append, List.length_zipWith, List.length_take, List.length_drop,
        length_fit]
      omega
  | _ => simp

/-- Unless the output is kept as it was, a frame does not depend on it. -/
theorem frame_congr (hmode : r.mode ≠ .keep) (number : Nat) (farend : Option (List S))
    (nearend out out' : Bands S) :
    (r.frame number farend nearend out).2 = (r.frame number farend nearend out').2 ∧
      ((r.frame number farend nearend out).2 = .ok () →
        (r.frame number farend nearend out).1 = (r.frame number farend nearend out').1 ∧
          (r.frame number farend nearend out).1.length = nearend.data.length) := by
  have htransform : r.transform farend nearend out = r.transform farend nearend out' := by
    unfold transform
    cases hm : r.mode with
    | keep => exact absurd hm hmode
    | _ => rfl
  unfold frame
  cases r.outcome number .process r.processError with
  | error e => exact ⟨rfl, nofun⟩
  | ok _ => exact ⟨rfl, fun _ => ⟨htransform, length_transform r hmode ..⟩⟩

end Engine.Scripted.Rule

/-- Scripted engines write over their output unless they are told to keep it. -/
theorem Engine.Scripted.engines_overwrites [Arithmetic S] {rules : PerStage Rule}
    (hmode : ∀ stage, (rules.get stage).mode ≠ .keep) (maxRate : Nat) :
    (engines S rules maxRate).Overwrites where
  echo e nearend _ out out' _ _ := by
    obtain ⟨hresult, hout⟩ :=
      rules.echo.frame_congr (hmode .echo) e.number (some e.farend) nearend out out'
    exact ⟨rfl, hresult, fun _ => hout⟩
  noise e nearend out out' _ _ := by
    obtain ⟨hresult, hout⟩ := rules.noise.frame_congr (hmode .noise) e none nearend out out'
    exact ⟨rfl, hresult, fun _ => hout⟩
  gain e nearend micLevel _ out out' _ _ := by
    obtain ⟨hresult, hout⟩ := rules.gain.frame_congr (hmode .gain) e none nearend out out'
    refine ⟨rfl, congrArg (Except.map _) hresult, fun outcome hok => hout ?_⟩
    change Except.map _ (rules.gain.frame e none nearend out).2 = .ok outcome at hok
    cases hframe : (rules.gain.frame e none nearend out).2 with
    | ok _ => rfl
    | error error =>
      rw [hframe] at hok
      cases hok

/-- Frames of one shape have bands of one shape. -/
theorem SubbandFrame.sameShape_view {T : Type} [Sample T] [Sample.Faithful T] {f g : SubbandFrame}
    (hf : f.Shaped n b) (hg : g.Shaped n b) : (f.view T).SameShape (g.view T) where
  length := hf.length_view.trans hg.length_view.symm
  perBand := by rw [view_eq hf, view_eq hg]

/-! ### One stage -/

/-- The state type of the engines of a stage. -/
abbrev Engine.Family.state (F : Family) : Stage → Type
  | .echo => F.Echo
  | .noise => F.Noise
  | .gain => F.Gain

/-- What a stage does with the bands that it is given: the engine afterwards, the calls that were
made on it and, unless it failed, the bands and the mic level to carry on. -/
structure Delivery (S σ : Type) where
  engine : Numbered σ
  calls : Journal S
  carry : Option (Content × Int32)

namespace Delivery

variable (engines : Engines S F)

/-- That a gain controller would not learn from a frame is no failure. The output bands that it is
given make no difference. -/
def gain (e : Numbered F.Gain) (bands : Bands Int16) (micLevel : Int32) : Delivery S F.Gain :=
  let learnt := engines.gain.addMic e.engine bands
  let reply := engines.gain.process learnt.engine bands bands micLevel false
  { engine := { e with engine := reply.engine }
    calls :=
      [.called e.number (.gainAddMic bands) (succeeded learnt.result),
       .called e.number (.gainProcess bands micLevel false) (succeeded reply.result)]
    carry := reply.result.toOption.map fun outcome => (.ofInts reply.out, outcome.micLevel) }

variable [Sample S] [Sample.Faithful S]

/-- A noise suppressor has to learn from the lowest band before it is given all of them. -/
def noise (e : Numbered F.Noise) (bands : Bands S) (micLevel : Int32) : Delivery S F.Noise :=
  let lowest := bands.data.take bands.perBand
  let learnt := engines.noise.analyze e.engine lowest
  match learnt.result with
  | .error _ =>
    { engine := { e with engine := learnt.engine }
      calls := [.called e.number (.noiseAnalyze lowest) false], carry := none }
  | .ok () =>
    let reply := engines.noise.process learnt.engine bands bands
    { engine := { e with engine := reply.engine }
      calls :=
        [.called e.number (.noiseAnalyze lowest) true,
         .called e.number (.noiseProcess bands) (succeeded reply.result)]
      carry := reply.result.toOption.map fun _ => (Sample.Faithful.content reply.out, micLevel) }

/-- An echo canceller has to take the lowest farend band before it is given the nearend bands. -/
def echo (e : Numbered F.Echo) (farend : List S) (bands : Bands S) (delay : Nat)
    (micLevel : Int32) : Delivery S F.Echo :=
  let queued := engines.echo.bufferFarend e.engine farend
  match queued.result with
  | .error _ =>
    { engine := { e with engine := queued.engine }
      calls := [.called e.number (.echoFarend farend) false], carry := none }
  | .ok () =>
    let reply := engines.echo.process queued.engine bands bands delay
    { engine := { e with engine := reply.engine }
      calls :=
        [.called e.number (.echoFarend farend) true,
         .called e.number (.echoProcess bands delay) (succeeded reply.result)]
      carry := reply.result.toOption.map fun _ => (Sample.Faithful.content reply.out, micLevel) }

end Delivery

/-! ### All stages -/

/-- Where a frame stands on its way through the stages: the engines of the lane, the mic level, the
farend bands, the bands as they are now, which stages passed and which failed, and the calls. -/
structure Stand (S : Type) (F : Family) where
  slots : (stage : Stage) → Option (Numbered (F.state stage))
  micLevel : Int32
  farend : Content
  bands : Content
  passed : List Stage
  failed : List Stage
  calls : Journal S

namespace Stand

/-- The frame after a stage: what it delivered takes the place of the bands, and a stage that failed
leaves them alone. -/
def settle (s : Stand S F) (stage : Stage) (d : Delivery S (F.state stage)) : Stand S F :=
  let s := { s with
    slots := Function.update s.slots stage (some d.engine), calls := s.calls ++ d.calls }
  match d.carry with
  | some (bands, micLevel) => { s with bands, micLevel, passed := s.passed ++ [stage] }
  | none => { s with failed := s.failed ++ [stage] }

variable [Sample S] [Sample.Faithful S] (engines : Engines S F) (perBand : Nat)

/-- What a stage makes of the bands as they stand. Gain control takes them as integers, whatever
form the others work in. -/
def deliver (delay : Nat) (s : Stand S F) :
    (stage : Stage) → Numbered (F.state stage) → Delivery S (F.state stage)
  | .gain, e => .gain engines e ⟨s.bands.ints, perBand⟩ s.micLevel
  | .noise, e => .noise engines e ⟨Sample.Faithful.pick s.bands, perBand⟩ s.micLevel
  | .echo, e =>
    .echo engines e ((Sample.Faithful.pick s.farend).take perBand)
      ⟨Sample.Faithful.pick s.bands, perBand⟩ delay s.micLevel

/-- A stage that is off or has no engine leaves the frame as it stands. -/
def step (settings : FrameSettings) (s : Stand S F) (stage : Stage) : Stand S F :=
  match settings.runs stage, s.slots stage with
  | true, some e => s.settle stage (s.deliver engines perBand settings.delay stage e)
  | _, _ => s

/-- The bands go through gain control, noise suppression and echo cancellation. -/
def run (settings : FrameSettings) (s : Stand S F) : Stand S F :=
  [.gain, .noise, .echo].foldl (step engines perBand settings) s

/-- Whether echo cancellation passed. -/
def cancelled (s : Stand S F) : Bool := s.passed.contains .echo

end Stand

/-! ### What a stage does to a lane -/

namespace Buffers

/-- The filters of all frames are the same. -/
def AllFilters (bufs bufs' : Buffers) : Prop :=
  bufs'.farend.filter = bufs.farend.filter ∧ bufs.SameFilters bufs'

theorem AllFilters.refl (bufs : Buffers) : bufs.AllFilters bufs := ⟨rfl, rfl, rfl⟩

theorem AllFilters.trans {bufs₁ bufs₂ bufs₃ : Buffers} (h : bufs₁.AllFilters bufs₂)
    (h' : bufs₂.AllFilters bufs₃) : bufs₁.AllFilters bufs₃ := ⟨h'.1.trans h.1, h.2.trans h'.2⟩

end Buffers

namespace Lane

/-- The engines of a lane, stage by stage. -/
def slots (l : Lane F) : (stage : Stage) → Option (Numbered (F.state stage))
  | .echo => l.echo
  | .noise => l.noise
  | .gain => l.gain

theorem slots_gain (l : Lane F) (gain : Option (Numbered F.Gain)) :
    ({ l with gain } : Lane F).slots = Function.update l.slots .gain gain := by
  funext stage
  cases stage <;> rfl

theorem slots_noise (l : Lane F) (noise : Option (Numbered F.Noise)) :
    ({ l with noise } : Lane F).slots = Function.update l.slots .noise noise := by
  funext stage
  cases stage <;> rfl

theorem slots_echo (l : Lane F) (echo : Option (Numbered F.Echo)) :
    ({ l with echo } : Lane F).slots = Function.update l.slots .echo echo := by
  funext stage
  cases stage <;> rfl

namespace Passage

/-- The calls on the engine of a stage, which writes to nothing but the output bands. -/
structure Calls (n b : Nat) (p : Passage S F) (stage : Stage) (engine : Numbered (F.state stage))
    (calls : Journal S) (p' : Passage S F) : Prop where
  shaped : p'.buffers.Shaped n b
  filters : p.buffers.AllFilters p'.buffers
  slots : p'.lane.slots = Function.update p.lane.slots stage (some engine)
  farend : p'.buffers.farend.content = p.buffers.farend.content
  nearend : p'.buffers.nearend.content = p.buffers.nearend.content
  calls : p'.journal.calls = p.journal.calls ++ calls
  micLevel : p'.micLevel = p.micLevel
  stats : p'.stats = p.stats

/-- A stage takes a lane to where its delivery says. The bands to carry on are in the frame that
would be heard now. -/
structure Makes (n b : Nat) (p : Passage S F) (stage : Stage) (d : Delivery S (F.state stage))
    (r : Passage S F × Bool) : Prop where
  shaped : r.1.buffers.Shaped n b
  filters : p.buffers.AllFilters r.1.buffers
  slots : r.1.lane.slots = Function.update p.lane.slots stage (some d.engine)
  farend : r.1.buffers.farend.content = p.buffers.farend.content
  calls : r.1.journal.calls = p.journal.calls ++ d.calls
  passed (bands : Content) (micLevel : Int32) : d.carry = some (bands, micLevel) →
    (heardFrame r).content = bands ∧ r.1.micLevel = micLevel ∧ r.1.stats = p.stats ∧
      r.2 = decide (stage = .echo)
  failed : d.carry = none →
    (heardFrame r).content = p.buffers.nearend.content ∧ r.1.micLevel = p.micLevel ∧
      r.1.stats = p.stats.fail stage ∧ r.2 = false

theorem calls_log_called (j : Journal S) (number : Nat) (request : Request S) (ok : Bool) :
    Journal.calls (j ++ [.called number request ok]) = j.calls ++ [.called number request ok] :=
  (Journal.Adds.call j number request ok).calls

/-- Notices are no calls. -/
theorem calls_log_noticed (j : Journal S) (notice : Notice) :
    Journal.calls (j ++ [.noticed notice]) = j.calls := by
  rw [(Journal.Adds.notice j notice).calls, List.append_nil]

namespace Calls

variable {p p' : Passage S F} {stage : Stage} {engine : Numbered (F.state stage)}
  {calls : Journal S}

/-- A failure is counted and reported, and the bands stay as they are. -/
theorem fail (h : Calls n b p stage engine calls p') (error : Engine.Error) :
    Makes n b p stage ⟨engine, calls, none⟩ (p'.fail stage error, false) where
  shaped := h.shaped
  filters := h.filters
  slots := h.slots
  farend := h.farend
  calls := (calls_log_noticed ..).trans h.calls
  passed _ _ hcarry := by simp at hcarry
  failed _ := ⟨h.nearend, h.micLevel, congrArg (Stats.fail · stage) h.stats, rfl⟩

/-- What the engine has written takes the place of the bands. -/
theorem accept {T : Type} [Sample T] [Sample.Faithful T] {out : List T} (micLevel : Int32)
    (h : Calls n b p stage engine calls p') (hstage : stage ≠ .echo)
    (hout : (p'.buffers.output.view T).data = out) :
    Makes n b p stage ⟨engine, calls, some (Sample.Faithful.content out, micLevel)⟩
      ({ p'.accept (S := T) with micLevel }, false) := by
  have hview : ((p'.buffers.output.sync T).view T).data = out := by
    rw [SubbandFrame.view_sync, hout]
  have hlen : out.length = n := hout ▸ h.shaped.output.length_view
  have haccept : p'.accept (S := T) =
      { p' with
        buffers :=
          { p'.buffers with
            nearend := p'.buffers.nearend.put out, output := p'.buffers.output.sync T } } := by
    rw [← hview]
    rfl
  rw [haccept]
  refine ⟨?_, h.filters.trans ?_, h.slots, h.farend, h.calls, ?_, by simp⟩
  · exact ⟨h.shaped.farend, h.shaped.nearend.put out, h.shaped.output.sync⟩
  · exact ⟨rfl, SubbandFrame.filter_put _ _, SubbandFrame.filter_sync T _⟩
  · rintro _ _ ⟨⟩
    refine ⟨?_, rfl, h.stats, (decide_eq_false hstage).symm⟩
    exact SubbandFrame.content_put h.shaped.nearend hlen

end Calls

/-- A notice changes nothing that counts. -/
theorem Makes.notice {p p' : Passage S F} {stage : Stage} {d : Delivery S (F.state stage)}
    {cancelled : Bool} (h : p.Makes n b stage d (p', cancelled)) (notice : Notice) :
    p.Makes n b stage d (p'.log [.noticed notice], cancelled) where
  shaped := h.shaped
  filters := h.filters
  slots := h.slots
  farend := h.farend
  calls := (calls_log_noticed ..).trans h.calls
  passed := h.passed
  failed := h.failed

variable {engines : Engines S F} (hover : engines.Overwrites) {p : Passage S F}
  (hs : p.buffers.Shaped n b)

include hover hs

/-- The gain controller is given the nearend bands, and what it delivers becomes the nearend bands. -/
theorem runGain_makes (e : Numbered F.Gain) :
    p.Makes n b .gain (.gain engines e (p.buffers.nearend.view Int16) p.micLevel)
      (p.runGain engines e, false) := by
  unfold runGain Delivery.gain
  rw [← SubbandFrame.view_sync (T := Int16) p.buffers.nearend]
  extract_lets learnt' reply' nearend bands learnt p₁ p₂ reply output lane bufs p₃ accepted
  have hnear : nearend.Shaped n b := hs.nearend.sync
  have hlearnt : ∃ journal, p₂ = { p with journal } ∧ journal.calls =
      p.journal.calls ++ [.called e.number (.gainAddMic bands) (succeeded learnt.result)] := by
    simp only [p₂]
    split
    · exact ⟨_, rfl, calls_log_called ..⟩
    · exact ⟨_, rfl, (calls_log_noticed ..).trans (calls_log_called ..)⟩
  obtain ⟨journal, hp₂, hcalls⟩ := hlearnt
  clear_value p₂
  subst hp₂
  obtain ⟨hengine, hresult, hout⟩ : reply'.engine = reply.engine ∧ reply'.result = reply.result ∧
      ∀ r, reply'.result = .ok r →
        reply'.out = reply.out ∧ reply'.out.length = bands.data.length :=
    hover.gain learnt.engine bands p.micLevel false bands _ ⟨rfl, rfl⟩
      (SubbandFrame.sameShape_view hs.output hnear)
  have hmade : p.Calls n b .gain { e with engine := reply.engine }
      [.called e.number (.gainAddMic bands) (succeeded learnt.result),
       .called e.number (.gainProcess bands p.micLevel false) (succeeded reply.result)] p₃ := by
    refine ⟨⟨hs.farend, hnear, hs.output.put _⟩, ⟨rfl, ?_, ?_⟩, slots_gain p.lane _, rfl, ?_, ?_,
      rfl, rfl⟩
    · exact SubbandFrame.filter_sync Int16 _
    · exact SubbandFrame.filter_put _ _
    · exact SubbandFrame.content_sync _
    · show Journal.calls (journal ++ _) = _
      rw [calls_log_called, hcalls, List.append_assoc]
      rfl
  rw [hengine, hresult]
  cases hr : reply.result with
  | error error =>
    rw [hr] at hmade
    exact hmade.fail error
  | ok outcome =>
    rw [hr] at hmade
    obtain ⟨hwritten, hlen⟩ := hout outcome (hresult.trans hr)
    rw [hwritten] at hlen ⊢
    have hview : (output.view Int16).data = reply.out :=
      SubbandFrame.view_put hs.output (hlen.trans hnear.length_view)
    have hpassed := hmade.accept (T := Int16) outcome.micLevel (by decide) hview
    dsimp only
    split
    · exact hpassed.notice _
    · exact hpassed

variable [Sample S] [Sample.Faithful S]

/-- So is the noise suppressor, provided that it learns from the lowest band. -/
theorem runNoise_makes (e : Numbered F.Noise) :
    p.Makes n b .noise (.noise engines e (p.buffers.nearend.view S) p.micLevel)
      (p.runNoise engines e, false) := by
  unfold runNoise Delivery.noise
  rw [← SubbandFrame.view_sync (T := S) p.buffers.nearend]
  extract_lets lowest learnt' reply' nearend bufs p₁ learnt lane p₂ bands reply output lane₂ bufs₂ p₃
  have hnear : nearend.Shaped n b := hs.nearend.sync
  have hlearnt : p.Calls n b .noise { e with engine := learnt.engine }
      [.called e.number (.noiseAnalyze lowest) (succeeded learnt.result)] p₂ := by
    refine ⟨⟨hs.farend, hnear, hs.output⟩, ⟨rfl, ?_, rfl⟩, slots_noise _ _, rfl, ?_, ?_, rfl, rfl⟩
    · exact SubbandFrame.filter_sync S _
    · exact SubbandFrame.content_sync _
    · exact calls_log_called ..
  obtain ⟨hengine, hresult, hout⟩ : reply'.engine = reply.engine ∧ reply'.result = reply.result ∧
      ∀ r, reply'.result = .ok r →
        reply'.out = reply.out ∧ reply'.out.length = bands.data.length :=
    hover.noise learnt.engine bands bands _ ⟨rfl, rfl⟩
      (SubbandFrame.sameShape_view hs.output hnear)
  have hmade : p.Calls n b .noise { e with engine := reply.engine }
      [.called e.number (.noiseAnalyze lowest) (succeeded learnt.result),
       .called e.number (.noiseProcess bands) (succeeded reply.result)] p₃ := by
    refine ⟨⟨hs.farend, hnear, hs.output.put _⟩, ⟨rfl, hlearnt.filters.2.1, ?_⟩,
      slots_noise p.lane _, rfl, hlearnt.nearend, ?_, rfl, rfl⟩
    · exact SubbandFrame.filter_put _ _
    · show Journal.calls (p₂.journal ++ _) = _
      rw [calls_log_called, hlearnt.calls, List.append_assoc]
      rfl
  rw [hengine, hresult]
  change p.Makes n b .noise (match learnt.result with | .error _ => _ | .ok () => _) _
  cases hl : learnt.result with
  | error error =>
    rw [hl] at hlearnt
    exact hlearnt.fail error
  | ok _ =>
    rw [hl] at hmade
    cases hr : reply.result with
    | error error =>
      rw [hr] at hmade
      exact hmade.fail error
    | ok _ =>
      rw [hr] at hmade
      obtain ⟨hwritten, hlen⟩ := hout () (hresult.trans hr)
      rw [hwritten] at hlen ⊢
      have hview : (output.view S).data = reply.out :=
        SubbandFrame.view_put hs.output (hlen.trans hnear.length_view)
      exact hmade.accept (T := S) p.micLevel (by decide) hview

/-- What the echo canceller delivers stays in the output bands. -/
theorem runEcho_makes (delay : Nat) (e : Numbered F.Echo) :
    p.Makes n b .echo (.echo engines e (p.buffers.farend.lowest S) (p.buffers.nearend.view S) delay
      p.micLevel) (p.runEcho engines delay e) := by
  unfold runEcho Delivery.echo
  rw [← SubbandFrame.view_sync (T := S) p.buffers.nearend,
    ← SubbandFrame.lowest_sync (T := S) p.buffers.farend]
  extract_lets queued' reply' farend bufs p₁ queued lane p₂ nearend bands reply output lane₂ bufs₂ p₃
  have hfar : farend.Shaped n b := hs.farend.sync
  have hnear : nearend.Shaped n b := hs.nearend.sync
  have hqueued : p.Calls n b .echo { e with engine := queued.engine }
      [.called e.number (.echoFarend (farend.lowest S)) (succeeded queued.result)] p₂ := by
    refine ⟨⟨hfar, hs.nearend, hs.output⟩, ⟨?_, rfl, rfl⟩, slots_echo _ _, ?_, rfl, ?_, rfl, rfl⟩
    · exact SubbandFrame.filter_sync S _
    · exact SubbandFrame.content_sync _
    · exact calls_log_called ..
  obtain ⟨hengine, hresult, hout⟩ : reply'.engine = reply.engine ∧ reply'.result = reply.result ∧
      ∀ r, reply'.result = .ok r →
        reply'.out = reply.out ∧ reply'.out.length = bands.data.length :=
    hover.echo queued.engine bands delay bands _ ⟨rfl, rfl⟩
      (SubbandFrame.sameShape_view hs.output hnear)
  have hmade : p.Calls n b .echo { e with engine := reply.engine }
      [.called e.number (.echoFarend (farend.lowest S)) (succeeded queued.result),
       .called e.number (.echoProcess bands delay) (succeeded reply.result)] p₃ := by
    refine ⟨⟨hfar, hnear, hs.output.put _⟩, ⟨hqueued.filters.1, ?_, ?_⟩, slots_echo p.lane _,
      hqueued.farend, ?_, ?_, rfl, rfl⟩
    · exact SubbandFrame.filter_sync S _
    · exact SubbandFrame.filter_put _ _
    · exact SubbandFrame.content_sync _
    · show Journal.calls (p₂.journal ++ _) = _
      rw [calls_log_called, hqueued.calls, List.append_assoc]
      rfl
  rw [hengine, hresult]
  change p.Makes n b .echo (match queued.result with | .error _ => _ | .ok () => _) _
  cases hq : queued.result with
  | error error =>
    rw [hq] at hqueued
    exact hqueued.fail error
  | ok _ =>
    rw [hq] at hmade
    cases hr : reply.result with
    | error error =>
      rw [hr] at hmade
      exact hmade.fail error
    | ok _ =>
      rw [hr] at hmade
      obtain ⟨hwritten, hlen⟩ := hout () (hresult.trans hr)
      rw [hwritten] at hlen ⊢
      -- What is heard is the output itself, which the engine has written all of.
      have hheard : output.content = Sample.Faithful.content reply.out :=
        SubbandFrame.content_put hs.output (hlen.trans hnear.length_view)
      refine ⟨hmade.shaped, hmade.filters, hmade.slots, hmade.farend, hmade.calls, ?_, nofun⟩
      rintro _ _ ⟨⟩
      exact ⟨hheard, rfl, rfl, rfl⟩

end Passage

end Lane

/-! ### A lane does what the composition says -/

namespace Lane.Passage

/-- A lane on its way through the stages is where the frame stands. The filters, the counters and the
journal were those of `p₀` when it set out. -/
structure Shows (n b : Nat) (p₀ : Passage S F) (r : Passage S F × Bool) (s : Stand S F) : Prop where
  shaped : r.1.buffers.Shaped n b
  filters : p₀.buffers.AllFilters r.1.buffers
  slots : r.1.lane.slots = s.slots
  micLevel : r.1.micLevel = s.micLevel
  farend : r.1.buffers.farend.content = s.farend
  bands : (heardFrame r).content = s.bands
  cancelled : r.2 = s.cancelled
  stats : r.1.stats = s.failed.foldl Stats.fail p₀.stats
  calls : r.1.journal.calls = p₀.journal.calls ++ s.calls

namespace Shows

variable {p₀ p : Passage S F} {r : Passage S F × Bool} {s : Stand S F} {stage : Stage}

theorem settle {d : Delivery S (F.state stage)} (h : Shows n b p₀ (p, false) s)
    (hm : p.Makes n b stage d r) : Shows n b p₀ r (s.settle stage d) := by
  have hslots : r.1.lane.slots = Function.update s.slots stage (some d.engine) := by
    rw [hm.slots, ← h.slots]
  have hcalls : r.1.journal.calls = p₀.journal.calls ++ (s.calls ++ d.calls) := by
    rw [hm.calls, ← List.append_assoc, ← h.calls]
  have hcancelled : s.passed.contains .echo = false := h.cancelled.symm
  unfold Stand.settle
  cases hd : d.carry with
  | none =>
    obtain ⟨hbands, hlevel, hstats, hr⟩ := hm.failed hd
    refine ⟨hm.shaped, h.filters.trans hm.filters, hslots, ?_, ?_, ?_, ?_, ?_, hcalls⟩
    · exact hlevel.trans h.micLevel
    · exact hm.farend.trans h.farend
    · exact hbands.trans h.bands
    · exact hr.trans h.cancelled
    · rw [List.foldl_append, ← h.stats]
      exact hstats
  | some carry =>
    obtain ⟨bands, micLevel⟩ := carry
    obtain ⟨hbands, hlevel, hstats, hr⟩ := hm.passed bands micLevel hd
    refine ⟨hm.shaped, h.filters.trans hm.filters, hslots, hlevel, ?_, hbands, ?_, ?_, hcalls⟩
    · exact hm.farend.trans h.farend
    · rw [hr]
      show decide (stage = .echo) = (s.passed ++ [stage]).contains .echo
      rw [List.contains_append, hcancelled, Bool.false_or]
      simp [eq_comm]
    · exact hstats.trans h.stats

variable [Sample S] [Sample.Faithful S] {engines : Engines S F} {settings : FrameSettings}

/-- A stage that is on and has an engine makes what it delivers. -/
theorem step_on {e : Numbered (F.state stage)} (h : Shows n b p₀ (p, false) s)
    (hon : settings.runs stage = true) (he : p.lane.slots stage = some e)
    (hm : p.Makes n b stage (s.deliver engines (n / b) settings.delay stage e) r) :
    Shows n b p₀ r (s.step engines (n / b) settings stage) := by
  have hslot : s.slots stage = some e := (congrFun h.slots stage).symm.trans he
  rw [Stand.step, hon, hslot]
  exact h.settle hm

/-- Any other stage leaves the lane alone. -/
theorem step_off (h : Shows n b p₀ r s)
    (hoff : ∀ e, settings.runs stage = true → r.1.lane.slots stage = some e → False) :
    Shows n b p₀ r (s.step engines (n / b) settings stage) := by
  rw [Stand.step]
  split
  · rename_i e hon he
    exact (hoff e hon ((congrFun h.slots stage).trans he)).elim
  · exact h

end Shows

/-- A lane does what the composition of its stages says. -/
theorem runStages_shows [Sample S] [Sample.Faithful S] {engines : Engines S F}
    (hover : engines.Overwrites) {p₀ p : Passage S F} {s : Stand S F} (settings : FrameSettings)
    (h : Shows n b p₀ (p, false) s) :
    Shows n b p₀ (p.runStages engines settings) (s.run engines (n / b) settings) := by
  unfold runStages Stand.run
  extract_lets p₁ p₂
  rw [List.foldl_cons, List.foldl_cons, List.foldl_cons, List.foldl_nil]
  have h₁ : Shows n b p₀ (p₁, false) (s.step engines (n / b) settings .gain) := by
    simp only [p₁]
    split
    · rename_i e hon he
      refine h.step_on hon he ?_
      rw [Stand.deliver, ← h.bands, ← h.micLevel]
      exact (SubbandFrame.view_eq (S := Int16) h.shaped.nearend) ▸ runGain_makes hover h.shaped e
    · rename_i hoff
      exact h.step_off hoff
  have h₂ : Shows n b p₀ (p₂, false)
      ((s.step engines (n / b) settings .gain).step engines (n / b) settings .noise) := by
    generalize s.step engines (n / b) settings .gain = s at h₁
    simp only [p₂]
    split
    · rename_i e hon he
      refine h₁.step_on hon he ?_
      rw [Stand.deliver, ← h₁.bands, ← h₁.micLevel]
      exact (SubbandFrame.view_eq (S := S) h₁.shaped.nearend) ▸ runNoise_makes hover h₁.shaped e
    · rename_i hoff
      exact h₁.step_off hoff
  generalize Stand.step engines (n / b) settings _ .noise = s at h₂
  split
  · rename_i e hon he
    refine h₂.step_on hon he ?_
    rw [Stand.deliver, ← h₂.bands, ← h₂.farend, ← h₂.micLevel,
      ← SubbandFrame.lowest_eq h₂.shaped.farend]
    exact (SubbandFrame.view_eq (S := S) h₂.shaped.nearend) ▸
      runEcho_makes hover h₂.shaped settings.delay e
  · rename_i hoff
    exact h₂.step_off hoff

end Lane.Passage

end Duplex
