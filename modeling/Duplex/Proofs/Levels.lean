import Duplex.Engine.Scripted
import Duplex.Proofs.Channels
import Duplex.Proofs.Rounds

/-!
# Levels: how the mic level passes through a frame

Every frame begins with the mic level that the one before it ended with, or with the configured one
after a reset. Within a frame the level passes from one gain controller to the next (`Threaded`), so
that all of them are given the level the frame began with exactly if all but the last one hand it on
(`mic_level_threads_lanes`). Only then do twin lanes make the same of the same samples.
-/

namespace Duplex

open Signal Engine
open Pcm (Layout)

variable {S : Type} {F : Family}

/-- A frame of a channel that was given to a gain controller, with the mic level. -/
structure Adjustment (F : Family) where
  controller : Numbered F.Gain
  bands : Bands Int16
  out : Bands Int16
  given : Int32

namespace Adjustment

variable (engines : Engines S F) (a : Adjustment F)

/-- What the controller answers, after it could learn from the frame. -/
def reply : FrameReply F.Gain Int16 GainOutcome :=
  engines.gain.process (engines.gain.addMic a.controller.engine a.bands).engine a.bands a.out
    a.given false

/-- The level that is handed on: that of the outcome, or the one that was given. -/
def handed : Int32 := Lane.Passage.levelAfter a.given (a.reply engines).result

/-- What the journal says of it. -/
def event : Event S :=
  .called a.controller.number (.gainProcess a.bands a.given false)
    (succeeded (a.reply engines).result)

end Adjustment

/-- The mic level passes from one adjustment to the next. -/
inductive Threaded (engines : Engines S F) : Int32 → List (Adjustment F) → Int32 → Prop
  | nil (level : Int32) : Threaded engines level [] level
  | cons (a : Adjustment F) {as : List (Adjustment F)} {level : Int32}
    (rest : Threaded engines (a.handed engines) as level) : Threaded engines a.given (a :: as) level

namespace Threaded

variable {engines : Engines S F} {as bs : List (Adjustment F)} {before between after : Int32}

theorem append (h : Threaded engines before as between) (h' : Threaded engines between bs after) :
    Threaded engines before (as ++ bs) after := by
  induction h with
  | nil => exact h'
  | cons a _ ih => exact .cons a (ih h')

theorem inv {a : Adjustment F} (h : Threaded engines before (a :: as) after) :
    a.given = before ∧ Threaded engines (a.handed engines) as after := by
  cases h with
  | cons _ rest => exact ⟨rfl, rest⟩

/-- All are given the first level exactly if all but the last hand it on. -/
theorem given_iff (h : Threaded engines before as after) :
    (∀ a ∈ as, a.given = before) ↔ ∀ a ∈ as.dropLast, a.handed engines = before := by
  induction h with
  | nil => simp
  | @cons a as after rest ih =>
    cases as with
    | nil => simp
    | cons b bs =>
      obtain ⟨hgiven, -⟩ := rest.inv
      rw [List.dropLast_cons_of_ne_nil (by simp), List.forall_mem_cons (l := b :: bs),
        List.forall_mem_cons (l := (b :: bs).dropLast)]
      constructor
      · rintro ⟨-, hrest⟩
        have ha : a.handed engines = a.given := hgiven.symm.trans (hrest b List.mem_cons_self)
        rw [ha] at ih
        exact ⟨ha, ih.mp hrest⟩
      · rintro ⟨ha, hrest⟩
        rw [ha] at ih
        exact ⟨rfl, ih.mpr hrest⟩

end Threaded

/-- The mic level that a gain controller is given by a call. -/
def Event.given? : Event S → Option Int32
  | called _ (.gainProcess _ level _) _ => some level
  | _ => none

namespace Journal

/-- The calls that give gain controllers a frame. -/
def gainCalls (journal : Journal S) : Journal S := journal.filter (·.given?.isSome)

/-- The mic levels that gain controllers are given, in order. -/
def given (journal : Journal S) : List Int32 := journal.filterMap Event.given?

theorem gainCalls_append (j k : Journal S) :
    (j ++ k).gainCalls = j.gainCalls ++ k.gainCalls := List.filter_append ..

theorem gainCalls_of_none {j : Journal S} (h : ∀ e ∈ j, e.given? = none) : j.gainCalls = [] :=
  List.filter_eq_nil_iff.mpr fun e he => by simp [h e he]

/-- The levels are those of the adjustments that were made. -/
theorem given_of_gainCalls {engines : Engines S F} {j : Journal S} {as : List (Adjustment F)}
    (h : j.gainCalls = as.map (·.event engines)) : j.given = as.map (·.given) := by
  have hgiven : j.given = j.gainCalls.given := by
    rw [given, given, gainCalls, List.filterMap_filter]
    refine List.filterMap_congr ?_
    intro e _
    cases he : e.given? <;> simp
  rw [hgiven, h, given, List.filterMap_map]
  exact List.filterMap_eq_map_iff_forall_eq_some.mpr fun _ _ => rfl

end Journal

/-- The gain controllers of lanes, if gain control is on. -/
def controllers (settings : FrameSettings) (lanes : List (Lane F)) : List (Numbered F.Gain) :=
  if settings.gain then lanes.filterMap (·.gain) else []

theorem controllers_cons (settings : FrameSettings) (l : Lane F) (lanes : List (Lane F)) :
    controllers settings (l :: lanes) = controllers settings [l] ++ controllers settings lanes := by
  rw [controllers, controllers, controllers]
  cases settings.gain with
  | false => rfl
  | true => exact List.filterMap_append (l := [l])

theorem length_controllers_le (settings : FrameSettings) (lanes : List (Lane F)) :
    (controllers settings lanes).length ≤ lanes.length := by
  rw [controllers]
  split
  · exact List.length_filterMap_le ..
  · exact Nat.zero_le _

/-! ### The adjustments of a frame -/

/-- The journal gets the calls of adjustments, and the mic level passes through them. -/
structure Adjusted (engines : Engines S F) (as : List (Adjustment F)) (level : Int32)
    (j : Journal S) (level' : Int32) (k : Journal S) : Prop where
  calls : k.gainCalls = j.gainCalls ++ as.map (·.event engines)
  threaded : Threaded engines level as level'

namespace Adjusted

variable {engines : Engines S F} {as bs : List (Adjustment F)} {level level' level'' : Int32}
  {j k m : Journal S}

theorem trans (h : Adjusted engines as level j level' k)
    (h' : Adjusted engines bs level' k level'' m) :
    Adjusted engines (as ++ bs) level j level'' m where
  calls := by rw [h'.calls, h.calls, List.map_append, List.append_assoc]
  threaded := h.threaded.append h'.threaded

/-- Nothing is adjusted in the end. -/
theorem rest (h : Adjusted engines as level j level' k) (h' : Adjusted engines [] level' k level'' m) :
    Adjusted engines as level j level'' m := List.append_nil as ▸ h.trans h'

theorem refl (engines : Engines S F) (level : Int32) (j : Journal S) :
    Adjusted engines [] level j level j := ⟨(List.append_nil _).symm, .nil level⟩

/-- An event that gives no gain controller a frame. -/
theorem quiet (engines : Engines S F) (level : Int32) (j : Journal S) {e : Event S}
    (h : e.given? = none) : Adjusted engines [] level j level (j ++ [e]) where
  calls := by
    rw [Journal.gainCalls_append, Journal.gainCalls_of_none (List.forall_mem_singleton.mpr h)]
    rfl
  threaded := .nil level

end Adjusted

namespace Lane.Passage

variable (engines : Engines S F) (p : Passage S F)

/-- What a gain controller is given of a passage. -/
def adjustment (e : Numbered F.Gain) : Adjustment F :=
  { controller := e, bands := (p.buffers.nearend.sync Int16).view Int16
    out := p.buffers.output.view Int16, given := p.micLevel }

theorem runGain_adjusted (e : Numbered F.Gain) :
    Adjusted engines [p.adjustment e] p.micLevel p.journal (p.runGain engines e).micLevel
      (p.runGain engines e).journal := by
  obtain ⟨-, hlevel, -⟩ := runGain_leaves engines p e
  refine ⟨?_, hlevel ▸ .cons (p.adjustment e) (.nil _)⟩
  unfold runGain
  extract_lets nearend bands learnt p₁ p₂ reply output lane bufs p₃ accepted
  have hlearnt : p₂.journal.gainCalls = p.journal.gainCalls ∧ p₂.buffers = p.buffers ∧
      p₂.micLevel = p.micLevel := by
    simp only [p₂]
    split
    · exact ⟨by simp [p₁, log, Journal.gainCalls, Event.given?], rfl, rfl⟩
    · exact ⟨by simp [p₁, log, Journal.gainCalls, Event.given?], rfl, rfl⟩
  obtain ⟨hcalls, hbuffers, hlevel⟩ := hlearnt
  have hreply : reply = (p.adjustment e).reply engines := by
    simp only [reply, hbuffers, hlevel]
    rfl
  have hjournal : p₃.journal = p₂.journal ++
      [.called e.number (.gainProcess bands p₂.micLevel false) (succeeded reply.result)] := rfl
  have hcalls₃ : p₃.journal.gainCalls =
      p.journal.gainCalls ++ [(p.adjustment e).event engines] := by
    rw [hjournal, Journal.gainCalls_append, hcalls, hlevel, hreply]
    rfl
  have hnotice (n : Notice) :
      (p₃.journal ++ [Event.noticed n]).gainCalls = p₃.journal.gainCalls := by
    rw [Journal.gainCalls_append]
    exact List.append_nil _
  cases hr : reply.result with
  | error error => exact (hnotice _).trans hcalls₃
  | ok outcome =>
    dsimp only
    split
    · exact (hnotice _).trans hcalls₃
    · exact hcalls₃

variable [Sample S]

/-- Noise suppression leaves the mic level alone. -/
theorem runNoise_adjusted (e : Numbered F.Noise) :
    Adjusted engines [] p.micLevel p.journal (p.runNoise engines e).micLevel
      (p.runNoise engines e).journal := by
  unfold runNoise
  extract_lets nearend bufs p₁ learnt lane p₂ bands reply output lane₂ bufs₂ p₃
  have hlearnt : Adjusted engines [] p.micLevel p.journal p₂.micLevel p₂.journal :=
    .quiet engines p.micLevel p.journal rfl
  have hpassed : Adjusted engines [] p₂.micLevel p₂.journal p₃.micLevel p₃.journal :=
    .quiet engines p.micLevel p₂.journal rfl
  cases learnt.result with
  | error error => exact hlearnt.trans (.quiet engines p.micLevel p₂.journal rfl)
  | ok _ =>
    cases reply.result with
    | error error =>
      exact (hlearnt.trans hpassed).trans (.quiet engines p.micLevel p₃.journal rfl)
    | ok _ => exact hlearnt.trans hpassed

/-- So does echo cancellation. -/
theorem runEcho_adjusted (delay : Nat) (e : Numbered F.Echo) :
    Adjusted engines [] p.micLevel p.journal (p.runEcho engines delay e).1.micLevel
      (p.runEcho engines delay e).1.journal := by
  unfold runEcho
  extract_lets farend bufs p₁ queued lane p₂ nearend bands reply output lane₂ bufs₂ p₃
  have hqueued : Adjusted engines [] p.micLevel p.journal p₂.micLevel p₂.journal :=
    .quiet engines p.micLevel p.journal rfl
  have hpassed : Adjusted engines [] p₂.micLevel p₂.journal p₃.micLevel p₃.journal :=
    .quiet engines p.micLevel p₂.journal rfl
  cases queued.result with
  | error error => exact hqueued.trans (.quiet engines p.micLevel p₂.journal rfl)
  | ok _ =>
    cases reply.result with
    | error error =>
      exact (hqueued.trans hpassed).trans (.quiet engines p.micLevel p₃.journal rfl)
    | ok _ => exact hqueued.trans hpassed

/-- A lane adjusts the mic level once if gain control is on and it has a controller. -/
theorem runStages_adjusted (settings : FrameSettings) :
    ∃ as, as.map (·.controller) = controllers settings [p.lane] ∧
      Adjusted engines as p.micLevel p.journal (p.runStages engines settings).1.micLevel
        (p.runStages engines settings).1.journal := by
  unfold runStages
  extract_lets p₁ p₂
  obtain ⟨as, has, hgain⟩ : ∃ as : List (Adjustment F),
      as.map (·.controller) = controllers settings [p.lane] ∧
        Adjusted engines as p.micLevel p.journal p₁.micLevel p₁.journal := by
    simp only [p₁]
    split
    · rename_i e hon he
      refine ⟨[p.adjustment e], ?_, runGain_adjusted engines p e⟩
      simp [controllers, adjustment, hon, he]
    · rename_i hoff
      refine ⟨[], ?_, .refl engines p.micLevel p.journal⟩
      rw [controllers]
      split
      · rename_i hon
        cases he : p.lane.gain with
        | none => simp [he]
        | some e => exact (hoff e hon he).elim
      · rfl
  have hnoise : Adjusted engines [] p₁.micLevel p₁.journal p₂.micLevel p₂.journal := by
    simp only [p₂]
    split
    · exact runNoise_adjusted engines p₁ _
    · exact .refl engines p₁.micLevel p₁.journal
  split
  · rename_i e _ _
    exact ⟨as, has, (hgain.rest hnoise).rest (runEcho_adjusted engines p₂ settings.delay e)⟩
  · exact ⟨as, has, hgain.rest hnoise⟩

end Lane.Passage

/-- Loading and hearing a frame leaves the mic level alone. -/
theorem Lane.process_adjusted [Sample S] (engines : Engines S F) {settings : FrameSettings}
    {farend nearend : List Int16} {p : Passage S F} {r : Passage S F × List Int16}
    (h : process engines settings farend nearend p = .ok r) :
    ∃ as, as.map (·.controller) = controllers settings [p.lane] ∧
      Adjusted engines as p.micLevel p.journal r.1.micLevel r.1.journal := by
  obtain ⟨loaded, heard, hr⟩ := process_stages engines h
  rw [hr]
  exact Passage.runStages_adjusted engines { p with buffers := loaded } settings

/-- The lanes adjust the mic level one after another. -/
theorem Session.LanesRan.adjusted [Sample S] {engines : Engines S F} {settings : FrameSettings}
    {prepared : List (Lane F × Buffers)} {farend nearend outs : List (List Int16)}
    {c c' : Carried S} {lanes : List (Lane F)}
    (h : LanesRan engines settings prepared farend nearend c lanes outs c') :
    ∃ as, as.map (·.controller) = controllers settings (prepared.map (·.1)) ∧
      Adjusted engines as c.micLevel c.journal c'.micLevel c'.journal := by
  induction h with
  | nil c =>
    refine ⟨[], ?_, .refl engines c.micLevel c.journal⟩
    rw [controllers]
    split
    · rfl
    · rfl
  | cons hlane _ ih =>
    obtain ⟨as, has, hadjusted⟩ := Lane.process_adjusted engines hlane
    obtain ⟨bs, hbs, hrest⟩ := ih
    refine ⟨as ++ bs, ?_, hadjusted.trans hrest⟩
    rw [List.map_append, has, hbs, List.map_cons]
    exact (controllers_cons settings _ _).symm

namespace Round

/-- The adjustments of a round, in the order of the lanes. -/
structure Adjusts (engines : Engines S F) (r : Round S F) (as : List (Adjustment F)) : Prop where
  controllers : as.map (·.controller) = Duplex.controllers r.settings r.before.lanes
  calls : r.journal.gainCalls = as.map (·.event engines)
  threaded : Threaded engines r.before.micLevel as r.next.micLevel

/-- Every gain controller is given the mic level that the round began with. -/
def OneLevel (r : Round S F) : Prop := ∀ level ∈ r.journal.given, level = r.before.micLevel

/-- Both channels of the frame are the same. -/
def Mirrored (r : Round S F) : Prop :=
  Side.left.channel r.nearend = Side.right.channel r.nearend ∧
    Side.left.channel (r.farend.getD []) = Side.right.channel (r.farend.getD [])

variable {engines : Engines S F} {r : Round S F} {as : List (Adjustment F)}

theorem Ran.adjusts [Sample S] (hran : r.Ran engines)
    (hlanes : r.before.lanes.length = r.before.layout.channels) : ∃ as, r.Adjusts engines as := by
  obtain ⟨prepared, _, _, _, c, hprepared, hlanesRan, hafter, hjournal⟩ := hran.lanes hlanes
  obtain ⟨as, has, hadjusted⟩ := hlanesRan.adjusted
  have hlevel : r.next.micLevel = c.micLevel := by rw [next_micLevel, hafter]
  refine ⟨as, hprepared ▸ has, ?_, hlevel ▸ hadjusted.threaded⟩
  rw [hjournal]
  exact hadjusted.calls

/-- All controllers are given the same level exactly if all but the last hand it on. -/
theorem Adjusts.oneLevel_iff (h : r.Adjusts engines as) :
    r.OneLevel ↔ ∀ a ∈ as.dropLast, a.handed engines = r.before.micLevel := by
  rw [← h.threaded.given_iff, OneLevel, Journal.given_of_gainCalls h.calls, List.forall_mem_map]

theorem Adjusts.length_le (h : r.Adjusts engines as) : as.length ≤ r.before.lanes.length := by
  have hle := length_controllers_le r.settings r.before.lanes
  rwa [← h.controllers, List.length_map] at hle

end Round

/-! ### Mirrored channels -/

namespace Session

/-- The two lanes of a session are twins, gain control included, with the same frames. -/
def Mirrors {engines : Engines S F} (like : engines.Likeness) (s : Session F) : Prop :=
  ∃ a b, s.lanes = [a, b] ∧ a.Twin like true b ∧ b.buffers = a.buffers

variable {engines : Engines S F} {like : engines.Likeness} {s : Session F}

/-- Twins are brought up alike. -/
theorem resetEngines_mirrors (hmade : like.Made true) (settings : Settings) (w : Workshop S F)
    (h : s.Mirrors like) : (s.resetEngines engines settings w).2.Mirrors like := by
  obtain ⟨a, b, hlanes, htwin, hbuffers⟩ := h
  let first := resetLane engines s.rate settings w (.const true) a
  have hpair : (resetLanes engines s.rate settings w (.const true) [a, b]).2.2 =
      [first.2.2, (resetLane engines s.rate settings first.1 first.2.1 b).2.2] := rfl
  rw [← hlanes] at hpair
  exact ⟨_, _, hpair, resetLane_twin hmade w first.1 (.const true) first.2.1 htwin, hbuffers⟩

/-- So are the settings of their echo cancellers. -/
theorem reconfigureEcho_mirrors (settings : EchoSettings) (w : Workshop S F)
    (h : s.Mirrors like) : (s.reconfigureEcho engines settings w).2.Mirrors like := by
  obtain ⟨a, b, hlanes, htwin, hbuffers⟩ := h
  obtain ⟨w', hpair⟩ : ∃ w', (reconfigureLanes engines settings w s.healthy.echo [a, b]).2.2 =
      [(a.reconfigureEcho engines settings w).2.1, (b.reconfigureEcho engines settings w').2.1] :=
    ⟨_, rfl⟩
  rw [← hlanes] at hpair
  have hkept (l : Lane F) (w : Workshop S F) :
      (l.reconfigureEcho engines settings w).2.1.buffers = l.buffers := by
    rw [Lane.reconfigureEcho]
    cases l.echo with
    | none => rfl
    | some e => rfl
  exact ⟨_, _, hpair, Lane.reconfigureEcho_twin settings w w' htwin,
    (hkept b w').trans (hbuffers.trans (hkept a w).symm)⟩

end Session

/-- If every gain controller is given the same level, the first of two twins hands it on. -/
theorem Adjusted.hands_on {engines : Engines S F} {as bs : List (Adjustment F)}
    {level level' level'' : Int32} {j k : Journal S} {settings : FrameSettings} {a b : Lane F}
    (hsome : b.gain.isSome = a.gain.isSome)
    (has : as.map (·.controller) = controllers settings [a])
    (hbs : bs.map (·.controller) = controllers settings [b])
    (hfirst : Adjusted engines as level [] level' j) (hsecond : Adjusted engines bs level' j level'' k)
    (hone : ∀ given ∈ k.given, given = level) : level' = level := by
  have hgiven : k.given = (as ++ bs).map (·.given) :=
    Journal.given_of_gainCalls (hfirst.trans hsecond).calls
  cases bs with
  | cons y bs =>
    obtain ⟨hy, -⟩ := hsecond.threaded.inv
    rw [← hy]
    refine hone _ ?_
    rw [hgiven]
    exact List.mem_map_of_mem (List.mem_append_right as List.mem_cons_self)
  | nil =>
    have hnone : as = [] := by
      rw [controllers] at has hbs
      split at has
      · rw [if_pos ‹_›] at hbs
        cases hb : b.gain with
        | some f => exact absurd hbs (by simp [hb])
        | none =>
          rw [hb, Option.isSome_none, eq_comm, Option.isSome_eq_false_iff, Option.isNone_iff_eq_none]
            at hsome
          simpa [hsome] using has
      · exact List.map_eq_nil_iff.mp has
    subst hnone
    cases hfirst.threaded
    rfl

/-- If every gain controller is given the same level, twin lanes make the same of a frame whose
channels are the same, and stay twins. -/
theorem Round.Ran.mirrored [Sample S] {engines : Engines S F} {like : engines.Likeness}
    {r : Round S F} (hran : r.Ran engines) (hstereo : r.before.layout = .stereo)
    (hmirrors : r.before.Mirrors like) (hmirrored : r.Mirrored) (hlevel : r.OneLevel) :
    r.next.Mirrors like ∧ Side.left.channel r.heard = Side.right.channel r.heard := by
  obtain ⟨prepared, hprepare, hrun⟩ := hran
  obtain ⟨a, b, hlanes, htwin, hbuffers⟩ := hmirrors
  rw [hlanes] at hprepare
  obtain ⟨bufs, bufs', ha, hb, rfl⟩ := Session.prepareLanes_pair hprepare
  obtain ⟨p, q, left, right, hp, hq, hafter, hjournal, hheard⟩ :=
    Session.runFrame_pair (Session.deinterleave_stereo hstereo _)
      (Session.deinterleave_stereo hstereo _) hrun
  rw [← hmirrored.1, ← hmirrored.2] at hq
  have hsame : bufs' = bufs := by
    rw [Lane.prepare, hbuffers] at hb
    exact Except.ok.inj (Except.ok.inj (hb.symm.trans ha))
  subst hsame
  -- The second lane is given the level that the first one hands on.
  have hkept : p.micLevel = r.before.micLevel := by
    obtain ⟨as, has, hfirst⟩ := Lane.process_adjusted engines hp
    obtain ⟨bs, hbs, hsecond⟩ := Lane.process_adjusted engines hq
    exact hfirst.hands_on (Session.isSome_of_slots (htwin.gain rfl)) has hbs hsecond
      (hjournal ▸ hlevel)
  have hpassage : Lane.Passage.Twin like true
      { lane := a, buffers := bufs', micLevel := r.before.micLevel, stats := r.before.stats
        journal := ([] : Journal S) }
      { lane := b, buffers := bufs', micLevel := p.micLevel, stats := p.stats
        journal := p.journal } := ⟨htwin, rfl, fun _ => hkept⟩
  obtain ⟨⟨q', right'⟩, hq', ⟨hlane, hbufs, -⟩, hright⟩ :=
    Lane.process_twin (fun _ => rfl) hpassage hp
  obtain ⟨rfl, rfl⟩ := Prod.mk.inj (Except.ok.inj (hq.symm.trans hq'))
  have hnext : r.next.lanes = [{ p.lane with buffers := some p.buffers },
      { q.lane with buffers := some q.buffers }] := by
    rw [next_lanes, hafter]
  refine ⟨⟨_, _, hnext, hlane.keep _ _, congrArg some hbufs⟩, ?_⟩
  have hlength : left.length = right.length := congrArg List.length hright.symm
  rw [hheard, Side.channel_join hlength, Side.channel_join hlength]
  exact hright.symm

/-! ### Courses -/

namespace Occasion

/-- The mic level that is carried out of an occasion. -/
def level (initial : Int32) : Occasion S F → Int32
  | reset => initial
  | round r => r.next.micLevel

/-- A round begins with the mic level that is carried out of what came right before it. -/
def Carries (initial : Int32) (o : Occasion S F) : Occasion S F → Prop
  | reset => True
  | round r => r.before.micLevel = o.level initial

end Occasion

namespace Session

variable [Sample S] {engines : Engines S F} {initial : Int32} {s₀ s : Session F}
  {course : List (Occasion S F)}

/-- The mic level is carried through a course. -/
theorem Course.carries (h : Course engines initial s₀ course s) :
    course.IsChain (Occasion.Carries initial) ∧
      ∀ o ∈ course.getLast?, s.micLevel = o.level initial := by
  induction h with
  | start => exact ⟨.nil, by simp⟩
  | apart _ hsame ih =>
    rw [hsame]
    exact ih
  | reset _ _ hinitial _ ih =>
    refine ⟨List.isChain_append.mpr ⟨ih.1, .singleton _, ?_⟩, ?_⟩
    · rintro o - o' ⟨⟩
      trivial
    · intro o ho
      rw [List.getLast?_concat] at ho
      cases ho
      exact hinitial
  | reconfigured _ _ _ ih => exact ih
  | round _ _ ih =>
    refine ⟨List.isChain_append.mpr ⟨ih.1, .singleton _, ?_⟩, ?_⟩
    · rintro o ho o' ⟨⟩
      exact ih.2 o ho
    · intro o ho
      rw [List.getLast?_concat] at ho
      cases ho
      rfl

/-- In a course whose rounds all have the same channels and one level, so have what is heard. -/
theorem Course.mirrored {like : engines.Likeness} (h : Course engines initial s₀ course s)
    (hmade : like.Made true) (hlanes : s₀.lanes.length = s₀.layout.channels)
    (hstereo : s₀.layout = .stereo) (hmirrors : s₀.Mirrors like)
    (hrounds : ∀ r ∈ Occasion.rounds course, r.Mirrored ∧ r.OneLevel) :
    s.Mirrors like ∧
      ∀ r ∈ Occasion.rounds course, Side.left.channel r.heard = Side.right.channel r.heard := by
  induction h with
  | start => exact ⟨hmirrors, fun r hr => absurd hr List.not_mem_nil⟩
  | apart _ hsame ih =>
    rw [hsame]
    exact ih hrounds
  | reset _ settings _ w ih =>
    rw [Occasion.rounds_reset] at hrounds ⊢
    obtain ⟨hmirrors, hheard⟩ := ih hrounds
    exact ⟨resetEngines_mirrors hmade settings w hmirrors, hheard⟩
  | reconfigured _ settings w ih =>
    obtain ⟨hmirrors, hheard⟩ := ih hrounds
    exact ⟨reconfigureEcho_mirrors settings w hmirrors, hheard⟩
  | @round _ r h hran ih =>
    rw [Occasion.rounds_round] at hrounds ⊢
    obtain ⟨hbefore, hlast⟩ := List.forall_mem_append.mp hrounds
    obtain ⟨hmirrored, hlevel⟩ := List.forall_mem_singleton.mp hlast
    obtain ⟨hmirrors, hheard⟩ := ih hbefore
    obtain ⟨hnext, hsame⟩ :=
      hran.mirrored ((h.lanes hlanes).1.trans hstereo) hmirrors hmirrored hlevel
    exact ⟨hnext, List.forall_mem_append.mpr ⟨hheard, List.forall_mem_singleton.mpr hsame⟩⟩

/-- A course adjusts the mic level in each of its rounds. -/
theorem Course.adjusts (h : Course engines initial s₀ course s)
    (hlanes : s₀.lanes.length = s₀.layout.channels) :
    ∀ r ∈ Occasion.rounds course,
      ∃ as, r.Adjusts engines as ∧ as.length ≤ s₀.layout.channels := by
  intro r hr
  obtain ⟨hran, hlayout, hlen⟩ := h.ran hlanes r hr
  obtain ⟨as, has⟩ := hran.adjusts (hlen.trans (congrArg _ hlayout.symm))
  exact ⟨as, has, has.length_le.trans_eq hlen⟩

end Session

namespace Context

variable [Sample S] [Sample.Lawful S] {engines : Engines S F} {c c' c'' : Context S F}

/-- From the beginning of a session, whatever is called and whatever gain controllers answer: every
frame begins with the mic level that the one before it ended with, or with the configured one right
after a reset. Within a frame the level passes from the gain controller of one channel to that of the
next, so all are given the level that the frame began with exactly if all but the last one hand it
on; with one channel that is always so. If it is so on every frame, and engines are made alike, then
what is heard of both channels is the same whenever they are fed the same. -/
theorem mic_level_threads_lanes (h : c.Reachable engines) {channels nearRate farRate delay : Nat}
    (hinit : c.init engines channels nearRate farRate delay = .ok (c', .ok .initialized))
    {ops : List Operation} (hkeeps : ∀ op ∈ ops, op.KeepsSession) {t : Transcript}
    (hrun : c'.run engines ops = .ok (c'', t)) :
    ∃ (s₀ s : Session F) (course : List (Occasion S F)) (rounds : List (Round S F)),
      (Session.create c.settings engines.maxRate channels nearRate farRate delay).run =
        .ok (.ok s₀) ∧ c''.session = some s ∧
      s₀.Course engines c.initialLevel (.reset :: course) s ∧
      rounds = Occasion.rounds course ∧
      c''.workshop.journal.frameCalls =
        c.workshop.journal.frameCalls ++ rounds.flatMap (·.journal.frameCalls) ∧
      (.reset :: course).IsChain (Occasion.Carries c.initialLevel) ∧
      (∀ o ∈ (.reset :: course).getLast?, s.micLevel = o.level c.initialLevel) ∧
      (∀ r ∈ rounds, ∃ as : List (Adjustment F), r.Adjusts engines as ∧ as.length ≤ channels ∧
        (r.OneLevel ↔ ∀ a ∈ as.dropLast, a.handed engines = r.before.micLevel)) ∧
      (channels = 1 → ∀ r ∈ rounds, r.OneLevel) ∧
      ∀ like : engines.Likeness, like.Made true → channels = 2 →
        (∀ r ∈ rounds, r.Mirrored ∧ r.OneLevel) →
        ∀ r ∈ rounds, Side.left.channel r.heard = Side.right.channel r.heard := by
  obtain ⟨s₀, s, course, hcreate, hs, hcourse, hcalls, -⟩ := run_course h hinit hkeeps hrun
  obtain ⟨hopened, -, hchannels⟩ := Session.create_opened hcreate
  have hlanes : s₀.lanes.length = s₀.layout.channels := hopened.valid.sound.lanes
  obtain ⟨hchain, hlast⟩ := hcourse.carries
  have hadjusts := hcourse.adjusts hlanes
  rw [hchannels] at hadjusts
  refine ⟨s₀, s, course, _, hcreate, hs, hcourse, rfl, hcalls, hchain, hlast, ?_, ?_, ?_⟩
  · intro r hr
    obtain ⟨as, has, hlength⟩ := hadjusts r hr
    exact ⟨as, has, hlength, has.oneLevel_iff⟩
  · rintro rfl r hr
    obtain ⟨as, has, hlength⟩ := hadjusts r hr
    have hnone : as.dropLast = [] := by
      rw [← List.length_eq_zero_iff, List.length_dropLast]
      omega
    refine has.oneLevel_iff.mpr ?_
    rw [hnone]
    exact fun a ha => absurd ha List.not_mem_nil
  · rintro like hmade rfl hrounds
    have hstereo : s₀.layout = .stereo := Layout.channels_injective hchannels
    have hnew : s₀.lanes = [.new 0, .new 1] := by
      rw [hopened.lanes, hchannels]
      rfl
    have hmirrors : s₀.Mirrors like := ⟨_, _, hnew, ⟨.none, .none, fun _ => .none⟩, rfl⟩
    exact (hcourse.mirrored hmade hlanes hstereo hmirrors hrounds).2

set_option maxRecDepth 12000 in
/-- Two mono frames, of which each raises the mic level by five. -/
theorem mic_level_threads_lanes_scripted :
    ∃ (c c' : Context Int16 (Scripted.family Int16)) (t : Transcript)
      (s : Session (Scripted.family Int16)) (course : List (Occasion Int16 (Scripted.family Int16))),
      (new { echo := none, noise := none } ()).init
          (Scripted.engines Int16 ⟨{}, {}, { level := 5 }⟩ 48000) 1 8000 8000 0 =
        .ok (c, .ok .initialized) ∧
      c.run (Scripted.engines Int16 ⟨{}, {}, { level := 5 }⟩ 48000)
          [.process none (List.replicate 160 7) (List.replicate 160 0)] = .ok (c', t) ∧
      c'.session = some s ∧ c'.workshop.journal.given = [128, 133] ∧ s.micLevel = 138 ∧
      (.reset :: course).IsChain (Occasion.Carries 128) ∧
      ∀ r ∈ Occasion.rounds course, r.OneLevel := by
  obtain ⟨c, c', t, s, hinit, hrun, hs, hgiven, hlevel⟩ :
      ∃ (c c' : Context Int16 (Scripted.family Int16)) (t : Transcript)
        (s : Session (Scripted.family Int16)),
        (new { echo := none, noise := none } ()).init
            (Scripted.engines Int16 ⟨{}, {}, { level := 5 }⟩ 48000) 1 8000 8000 0 =
          .ok (c, .ok .initialized) ∧
        c.run (Scripted.engines Int16 ⟨{}, {}, { level := 5 }⟩ 48000)
            [.process none (List.replicate 160 7) (List.replicate 160 0)] = .ok (c', t) ∧
        c'.session = some s ∧ c'.workshop.journal.given = [128, 133] ∧ s.micLevel = 138 :=
    ⟨_, _, _, _, rfl, rfl, rfl, rfl, rfl⟩
  have hreach : (new { echo := none, noise := none } () :
      Context Int16 (Scripted.family Int16)).Reachable
      (Scripted.engines Int16 ⟨{}, {}, { level := 5 }⟩ 48000) := ⟨_, (), [], [], rfl⟩
  have hkeeps : ∀ op ∈ [Operation.process none (List.replicate 160 7) (List.replicate 160 0)],
      op.KeepsSession := List.forall_mem_singleton.mpr trivial
  obtain ⟨s₀, s', course, _, -, -, -, rfl, -, hchain, -, -, hmono, -⟩ :=
    mic_level_threads_lanes hreach hinit hkeeps hrun
  exact ⟨c, c', t, s, course, hinit, hrun, hs, hgiven, hlevel, hchain, hmono rfl⟩

set_option maxRecDepth 12000 in
/-- On a stereo frame the second gain controller is given the level that the first one hands on, and
the frame raises the mic level twice. -/
theorem stereo_level_raised_twice :
    ∃ (c : Context Int16 (Scripted.family Int16)) (t : Transcript)
      (s : Session (Scripted.family Int16)),
      (new { echo := none, noise := none } ()).run
          (Scripted.engines Int16 ⟨{}, {}, { level := 5 }⟩ 48000)
          [.init 2 8000 8000 0, .process none (List.replicate 160 7) (List.replicate 160 0)] =
        .ok (c, t) ∧
      c.session = some s ∧ s.stats.frames = 1 ∧ c.workshop.journal.given = [128, 133] ∧
      s.micLevel = 138 :=
  ⟨_, _, _, rfl, rfl, rfl, rfl, rfl⟩

end Context

end Duplex
