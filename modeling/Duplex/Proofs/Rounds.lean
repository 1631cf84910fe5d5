import Duplex.Proofs.Feeding
import Duplex.Proofs.Staffing

/-!
# Rounds: the frames of a session in order

A `Round` is a frame that the lanes ran on, with the session before and after it. The course of a
session (`Session.Course`) lists its rounds and its resets; in between only intakes, output and
settings change. Every run of calls takes a session a course, and the calls that the journal has for
frames are those of its rounds (`run_course`).
-/

namespace Duplex

open Signal Engine

variable {S : Type} {F : Family}

/-- A frame that the lanes ran on. -/
structure Round (S : Type) (F : Family) where
  settings : FrameSettings
  farend : Option (List Int16)
  nearend : List Int16
  before : Session F
  /-- The session when the lanes are through. -/
  after : Session F
  /-- What the engines were asked and answered, and what was reported. -/
  journal : Journal S
  /-- The samples of all channels. -/
  heard : List Int16
  /-- Whether any of them was delivered; only such frames are counted. -/
  counted : Bool

namespace Round

/-- The lanes make of the frame what the round says. -/
def Ran [Sample S] (engines : Engines S F) (r : Round S F) : Prop :=
  ∃ prepared, (Session.prepareLanes r.settings r.before.lanes).run = .ok (.ok prepared) ∧
    r.before.runFrame engines r.settings r.farend r.nearend prepared =
      .ok (r.after, r.journal, r.heard)

/-- The session after the frame was counted. -/
def next (r : Round S F) : Session F :=
  if r.counted then r.after.countFrame r.settings else r.after

theorem next_lanes (r : Round S F) : r.next.lanes = r.after.lanes := by
  rw [next]
  split <;> rfl

theorem next_layout (r : Round S F) : r.next.layout = r.after.layout := by
  rw [next]
  split <;> rfl

theorem next_micLevel (r : Round S F) : r.next.micLevel = r.after.micLevel := by
  rw [next]
  split <;> rfl

theorem next_failures (r : Round S F) : r.next.stats.failures = r.after.stats.failures := by
  rw [next]
  split <;> rfl

theorem next_frames (r : Round S F) :
    r.next.stats.frames = r.after.stats.frames + r.counted.toNat := by
  rw [next]
  cases r.counted <;> rfl

/-- The lanes run one after another, and the session takes over what they make. -/
theorem Ran.lanes [Sample S] {engines : Engines S F} {r : Round S F} (hran : r.Ran engines)
    (hlanes : r.before.lanes.length = r.before.layout.channels) :
    ∃ (prepared : List (Lane F × Buffers)) (farend nearend outs : List (List Int16))
      (c : Session.Carried S),
      prepared.map (·.1) = r.before.lanes ∧
      Session.LanesRan engines r.settings prepared farend nearend
        { micLevel := r.before.micLevel, stats := r.before.stats, journal := [] }
        r.after.lanes outs c ∧
      r.after = { r.before with
        lanes := r.after.lanes, micLevel := c.micLevel, stats := c.stats } ∧
      r.journal = c.journal := by
  obtain ⟨prepared, hprepare, hrun⟩ := hran
  have hprepared := Session.prepareLanes_lanes hprepare
  obtain ⟨lanes, outs, c, hran, heq⟩ := Session.runFrame_lanes hlanes hprepared hrun
  obtain ⟨hafter, hjournal, -⟩ :
      r.after = { r.before with lanes, micLevel := c.micLevel, stats := c.stats } ∧
        r.journal = c.journal ∧ r.heard = Pcm.Layout.join outs := by
    simpa only [Prod.mk.injEq] using heq
  have hafterLanes : r.after.lanes = lanes := congrArg (·.lanes) hafter
  rw [hafterLanes]
  exact ⟨prepared, _, _, outs, c, hprepared, hran, hafter, hjournal⟩

/-- A round leaves the layout and takes every lane its turn, on the engines that it has and keeps. -/
theorem Ran.turn [Sample S] {engines : Engines S F} {r : Round S F} (hran : r.Ran engines)
    (hlanes : r.before.lanes.length = r.before.layout.channels) :
    r.next.layout = r.before.layout ∧ r.next.crews = r.before.crews ∧
      FrameTurn r.settings r.before.crews r.journal.calls := by
  obtain ⟨prepared, _, _, _, c, hprepared, hlanesRan, hafter, hjournal⟩ := hran.lanes hlanes
  obtain ⟨hcrews, calls, hadds, hturn⟩ := hlanesRan.turns
  rw [hprepared] at hcrews hturn
  have hcalls : r.journal.calls = calls := hjournal ▸ hadds.calls
  refine ⟨?_, ?_, hcalls ▸ hturn⟩
  · rw [next_layout, hafter]
  · rw [Session.crews, next_lanes]
    exact hcrews

end Round

/-- Something that happens to the lanes of a session. -/
inductive Occasion (S : Type) (F : Family) where
  /-- All engines are brought up. -/
  | reset
  | round (r : Round S F)

namespace Occasion

def round? : Occasion S F → Option (Round S F)
  | reset => none
  | round r => some r

/-- The rounds of a course. -/
def rounds (course : List (Occasion S F)) : List (Round S F) := course.filterMap round?

theorem rounds_append (course course' : List (Occasion S F)) :
    rounds (course ++ course') = rounds course ++ rounds course' := List.filterMap_append

theorem rounds_reset (course : List (Occasion S F)) :
    rounds (course ++ [.reset]) = rounds course := by
  rw [rounds_append]
  exact List.append_nil _

theorem rounds_round (course : List (Occasion S F)) (r : Round S F) :
    rounds (course ++ [.round r]) = rounds course ++ [r] := rounds_append ..

theorem rounds_map (rs : List (Round S F)) : rounds (rs.map .round) = rs := by
  rw [rounds, List.filterMap_map]
  exact List.filterMap_some

end Occasion

/-- The calls of a journal that belong to frames. -/
def Journal.frameCalls (journal : Journal S) : Journal S := journal.filter Event.isFrame

theorem Journal.frameCalls_append (j k : Journal S) :
    (j ++ k).frameCalls = j.frameCalls ++ k.frameCalls := List.filter_append ..

theorem Journal.frameCalls_of_none {j : Journal S} (h : ∀ e ∈ j, e.isFrame = false) :
    j.frameCalls = [] := List.filter_eq_nil_iff.mpr fun e he => by simp [h e he]

/-! ### Sessions -/

namespace Session

/-- Nothing changes but intakes, output, the delay, and the counts of bytes. -/
def Apart (s t : Session F) : Prop :=
  t = { s with
    farend := t.farend, nearend := t.nearend, outputAdapter := t.outputAdapter
    pending := t.pending, delay := t.delay
    stats := { s.stats with
      farendUnderrun := t.stats.farendUnderrun, droppedFarend := t.stats.droppedFarend
      droppedNearend := t.stats.droppedNearend } }

theorem Refitted.length_lanes {s t : Session F} (h : s.Refitted t) :
    t.lanes.length = s.lanes.length := by
  simpa using congrArg List.length h.buffers

section

variable [Sample S] (engines : Engines S F) (initial : Int32)

/-- What happened to a session: the rounds and the resets, in order. Every reset starts from the
same mic level. -/
inductive Course (s₀ : Session F) : List (Occasion S F) → Session F → Prop
  | start : Course s₀ [] s₀
  | apart {course : List (Occasion S F)} {s t : Session F} (h : Course s₀ course s)
    (hsame : s.Apart t) : Course s₀ course t
  | reset {course : List (Occasion S F)} {s : Session F} (h : Course s₀ course s)
    (settings : Settings) (hinitial : (settings.gain.getD {}).initialMicLevel = initial)
    (w : Workshop S F) :
    Course s₀ (course ++ [.reset]) (s.resetEngines engines settings w).2
  | reconfigured {course : List (Occasion S F)} {s : Session F} (h : Course s₀ course s)
    (settings : EchoSettings) (w : Workshop S F) :
    Course s₀ course (s.reconfigureEcho engines settings w).2
  | round {course : List (Occasion S F)} {r : Round S F} (h : Course s₀ course r.before)
    (hran : r.Ran engines) : Course s₀ (course ++ [.round r]) r.next

variable {engines} {initial} {s₀ s t : Session F} {course course' : List (Occasion S F)}

theorem Course.trans (h : Course engines initial s₀ course s)
    (h' : Course engines initial s course' t) : Course engines initial s₀ (course ++ course') t := by
  induction h' with
  | start =>
    rw [List.append_nil]
    exact h
  | apart _ hsame ih => exact ih.apart hsame
  | reset _ settings hinitial w ih =>
    rw [← List.append_assoc]
    exact ih.reset settings hinitial w
  | reconfigured _ settings w ih => exact ih.reconfigured settings w
  | round _ hran ih =>
    rw [← List.append_assoc]
    exact ih.round hran

/-- A course keeps the layout and a lane for each channel. -/
theorem Course.lanes (h : Course engines initial s₀ course s)
    (hlanes : s₀.lanes.length = s₀.layout.channels) :
    s.layout = s₀.layout ∧ s.lanes.length = s₀.layout.channels := by
  induction h with
  | start => exact ⟨rfl, hlanes⟩
  | apart _ hsame ih =>
    rw [hsame]
    exact ih
  | @reset _ u _ settings _ w ih =>
    exact ⟨ih.1, (resetEngines_refitted engines settings w u).length_lanes.trans ih.2⟩
  | @reconfigured _ u _ settings w ih =>
    exact ⟨ih.1, (reconfigureEcho_refitted engines settings w u).length_lanes.trans ih.2⟩
  | round _ hran ih =>
    obtain ⟨hlayout, hcrews, -⟩ := hran.turn (ih.2.trans (congrArg _ ih.1.symm))
    have hlen := congrArg List.length hcrews
    rw [crews, crews, List.length_map, List.length_map] at hlen
    exact ⟨hlayout.trans ih.1, hlen.trans ih.2⟩

/-- The lanes ran on every round of a course, one for each channel. -/
theorem Course.ran (h : Course engines initial s₀ course s)
    (hlanes : s₀.lanes.length = s₀.layout.channels) :
    ∀ r ∈ Occasion.rounds course, r.Ran engines ∧ r.before.layout = s₀.layout ∧
      r.before.lanes.length = s₀.layout.channels := by
  induction h with
  | start => exact fun r hr => absurd hr List.not_mem_nil
  | apart _ _ ih => exact ih
  | reset _ _ _ _ ih =>
    rw [Occasion.rounds_reset]
    exact ih
  | reconfigured _ _ _ ih => exact ih
  | round h hran ih =>
    rw [Occasion.rounds_round]
    exact List.forall_mem_append.mpr ⟨ih, List.forall_mem_singleton.mpr ⟨hran, h.lanes hlanes⟩⟩

/-- A course of one round. -/
theorem Course.single {r : Round S F} (hran : r.Ran engines) :
    Course engines initial r.before [.round r] r.next := Course.start.round hran

end

variable [Sample S] {engines : Engines S F} {initial : Int32} {settings : FrameSettings}
  {s t u : Session F}

/-- Rounds that take a session to another one, and what the journal says of them. -/
structure Plays (engines : Engines S F) (initial : Int32) (s : Session F) (rs : List (Round S F))
    (t : Session F) (journal : Journal S) : Prop where
  course : Course engines initial s (rs.map .round) t
  frameCalls : journal.frameCalls = rs.flatMap (·.journal.frameCalls)

namespace Plays

variable {rs rs' : List (Round S F)} {j k : Journal S}

theorem trans (h : Plays engines initial s rs t j) (h' : Plays engines initial t rs' u k) :
    Plays engines initial s (rs ++ rs') u (j ++ k) where
  course := by
    rw [List.map_append]
    exact h.course.trans h'.course
  frameCalls := by
    rw [Journal.frameCalls_append, h.frameCalls, h'.frameCalls, List.flatMap_append]

/-- Without a round there are no calls for frames. -/
theorem of_apart (hsame : s.Apart t) (h : ∀ e ∈ j, e.isFrame = false) :
    Plays engines initial s [] t j := ⟨Course.start.apart hsame, Journal.frameCalls_of_none h⟩

theorem refl (s : Session F) : Plays engines initial s [] s [] := ⟨.start, rfl⟩

end Plays

/-- The frames that are fed are rounds; those of which something is delivered are counted. -/
theorem Feeds.plays {frames : List (List Int16)} {farend : Option (List Int16)} {room : Nat}
    {feeds : List (Feed S)} (initial : Int32)
    (h : Feeds engines settings frames farend room s feeds t) :
    ∃ rs, Plays engines initial s rs t (feeds.flatMap (·.journal)) ∧
      ((∀ feed ∈ feeds, feed.delivered ≠ []) → ∀ r ∈ rs, r.counted = true) := by
  induction h with
  | done => exact ⟨[], .refl _, by simp⟩
  | full => exact ⟨[], .refl _, by simp⟩
  | refused => exact ⟨[], .refl _, by simp⟩
  | @starved near frames farend room s u prepared journal heard hroom hprepare hrun hnone =>
    let r : Round S F :=
      { settings, farend := farend.map (·.take near.length), nearend := near, before := s, after := u
        journal, heard, counted := false }
    have hran : r.Ran engines := ⟨prepared, hprepare, hrun⟩
    refine ⟨[r], ⟨.single hran, ?_⟩, ?_⟩
    · rw [List.flatMap_singleton, List.flatMap_singleton]
    · intro hdelivered
      exact absurd rfl (hdelivered _ List.mem_cons_self)
  | @fed near delivered frames farend room s u t prepared journal heard feeds hroom hprepare hrun
      hdelivered hsome hrest ih =>
    obtain ⟨rs, hrs, hcounted⟩ := ih
    let r : Round S F :=
      { settings, farend := farend.map (·.take near.length), nearend := near, before := s, after := u
        journal, heard, counted := true }
    have hran : r.Ran engines := ⟨prepared, hprepare, hrun⟩
    have hone : Plays engines initial s [r] (u.countFrame settings) journal :=
      ⟨.single hran, by rw [List.flatMap_singleton]⟩
    refine ⟨r :: rs, ?_, ?_⟩
    · rw [List.flatMap_cons]
      exact hone.trans hrs
    · intro hall
      exact List.forall_mem_cons.mpr
        ⟨rfl, hcounted fun feed hfeed => hall feed (List.mem_cons_of_mem _ hfeed)⟩

omit [Sample S] in
theorem apart_readFrame (s : Session F) : s.Apart (s.readFrame (S := S)).1 := by
  rw [readFrame_eq]
  rfl

omit [Sample S] in
theorem apart_convertOutput (s : Session F) (samples : List Int16) :
    s.Apart (s.convertOutput samples).1 := by
  rw [convertOutput]
  split
  · rfl
  · rfl

omit [Sample S] in
/-- Taking a frame off the intakes makes no calls. -/
theorem isFrame_readFrame (s : Session F) : ∀ e ∈ (s.readFrame (S := S)).2.1, e.isFrame = false := by
  rw [readFrame_eq]
  dsimp only
  split
  · intro e he
    rw [List.mem_singleton.mp he]
    rfl
  · exact fun e he => absurd he List.not_mem_nil

variable [Sample.Lawful S] (engines) (initial)

/-- A call of `process` plays rounds; all are counted if room is left for whole frames only. -/
theorem process_plays (hs : s.Sound) (hset : settings.For s.frames s.bands)
    {farend : Option (List Int16)} {nearend out out' : List Int16} {journal : Journal S}
    {result : Except Error Nat}
    (h : s.process engines settings farend nearend out = .ok (t, journal, out', result)) :
    ∃ rs, Plays engines initial s rs t journal ∧
      (¬ (s.layout = .stereo ∧ out.length % 2 = 1) → ∀ r ∈ rs, r.counted = true) := by
  obtain ⟨feeds, hfeeds, rfl, -⟩ := process_feeds engines h
  obtain ⟨rs, hrs, hcounted⟩ := hfeeds.plays initial
  refine ⟨rs, hrs, ?_⟩
  intro heven
  have hnot : ¬ s.Starves (blocks s.frameLength nearend).length out.length :=
    fun hstarves => heven ⟨hstarves.2.1, hstarves.2.2.1⟩
  obtain ⟨-, hcounts⟩ | ⟨hstarves, -⟩ := hfeeds.counted engines hs hset (frames_pos_of_process h)
  · exact hcounted hcounts.delivered
  · exact absurd hstarves hnot

/-- Buffered frames are processed with room for a whole frame. -/
theorem produce_plays (hs : s.Sound) (hset : settings.For s.frames s.bands) {budget missing : Nat}
    {made : Produced S F} (h : produce engines settings budget missing s = .ok made) :
    ∃ rs, Plays engines initial s rs made.session made.journal ∧ ∀ r ∈ rs, r.counted = true := by
  induction budget generalizing s missing made with
  | zero =>
    obtain rfl := Except.ok.inj h
    exact ⟨[], .refl s, by simp⟩
  | succ budget ih =>
    rw [produce] at h
    split at h
    · obtain rfl := Except.ok.inj h
      exact ⟨[], .refl s, by simp⟩
    have hread : Plays engines initial s [] (s.readFrame (S := S)).1 (s.readFrame (S := S)).2.1 :=
      .of_apart (apart_readFrame s) (isFrame_readFrame s)
    have hkin : s.Kin (s.readFrame (S := S)).1 := kin_readFrame s
    generalize s.readFrame (S := S) = read at h hread hkin
    obtain ⟨⟨t, journal, out, result⟩, hprocess, h⟩ := bind_eq_ok.mp h
    obtain ⟨rs, hrs, hcounted⟩ :=
      process_plays engines initial (hkin.sound hs) (hkin.settings hset) hprocess
    have heven : ¬ (read.1.layout = .stereo ∧
        (List.replicate read.1.frameLength (0 : Int16)).length % 2 = 1) := by
      rintro ⟨hstereo, hodd⟩
      rw [List.length_replicate, frameLength, hstereo, Pcm.Layout.channels] at hodd
      omega
    have hplayed := hread.trans hrs
    have hnext : s.Kin t := hkin.trans (process_advances engines (hkin.sound hs)
      (hkin.settings hset) hprocess).kin
    cases result with
    | error e =>
      obtain rfl := Except.ok.inj h
      exact ⟨rs, hplayed, hcounted heven⟩
    | ok written =>
      have hconverted := apart_convertOutput t (out.take written)
      have hkin' := kin_convertOutput t (out.take written)
      dsimp only at h
      generalize t.convertOutput (out.take written) = conversion at h hconverted hkin'
      obtain ⟨u, bytes, converted⟩ := conversion
      have hkin := hnext.trans hkin'
      have hquiet : Plays engines initial t [] u [] :=
        .of_apart hconverted fun e he => absurd he List.not_mem_nil
      cases converted with
      | error e =>
        obtain rfl := Except.ok.inj h
        refine ⟨rs, ?_, hcounted heven⟩
        simpa using hplayed.trans hquiet
      | ok done =>
        obtain ⟨rest, hrest, h⟩ := bind_eq_ok.mp h
        obtain rfl := Except.ok.inj h
        obtain ⟨more, hmore, hcounted'⟩ := ih (hkin.sound hs) (hkin.settings hset) hrest
        refine ⟨rs ++ more, ?_, List.forall_mem_append.mpr ⟨hcounted heven, hcounted'⟩⟩
        simpa using (hplayed.trans hquiet).trans hmore

theorem tryProcess_plays (hs : s.Sound) (hset : settings.For s.frames s.bands) {dest : List UInt8}
    {r : Session F × Journal S × List UInt8 × Except Error Nat}
    (h : s.tryProcess engines settings dest = .ok r) :
    ∃ rs, Plays engines initial s rs r.1 r.2.1 ∧ ∀ round ∈ rs, round.counted = true := by
  obtain ⟨made, hmade, h⟩ := bind_eq_ok.mp h
  obtain ⟨rs, hrs, hcounted⟩ := produce_plays engines initial hs hset hmade
  refine ⟨rs, ?_, hcounted⟩
  dsimp only at h
  split at h
  · obtain rfl := Except.ok.inj h
    exact ⟨hrs.course.apart rfl, hrs.frameCalls⟩
  · obtain rfl := Except.ok.inj h
    exact ⟨hrs.course.apart rfl, hrs.frameCalls⟩

end Session

/-! ### Contexts -/

/-- Calls after which there is still the session that there was. -/
def Operation.KeepsSession : Operation → Prop
  | .fini | .release => False
  | _ => True

/-- A destination of samples holds as many of both channels. -/
def Operation.EvenRoom : Operation → Prop
  | .process _ _ out => 2 ∣ out.length
  | _ => True

namespace Context

/-- The mic level that a reset starts from. -/
def initialLevel (c : Context S F) : Int32 := (c.settings.gain.getD {}).initialMicLevel

variable [Sample S]

/-- Calls that take the session of a context a course. -/
structure Takes (engines : Engines S F) (c : Context S F) (course : List (Occasion S F))
    (c' : Context S F) : Prop where
  session : ∃ s t, c.session = some s ∧ c'.session = some t ∧
    s.Course engines c.initialLevel course t
  level : c'.initialLevel = c.initialLevel
  frameCalls : c'.workshop.journal.frameCalls = c.workshop.journal.frameCalls ++
    (Occasion.rounds course).flatMap (·.journal.frameCalls)

variable {engines : Engines S F} {c c' c'' : Context S F} {s t : Session F}
  {course course' : List (Occasion S F)}

theorem Takes.trans (h : c.Takes engines course c') (h' : c'.Takes engines course' c'') :
    c.Takes engines (course ++ course') c'' := by
  obtain ⟨s, t, hs, ht, hcourse⟩ := h.session
  obtain ⟨t', u, ht', hu, hcourse'⟩ := h'.session
  obtain rfl : t = t' := Option.some.inj (ht.symm.trans ht')
  refine ⟨⟨s, u, hs, hu, hcourse.trans (h.level ▸ hcourse')⟩, h'.level.trans h.level, ?_⟩
  rw [h'.frameCalls, h.frameCalls, Occasion.rounds_append, List.flatMap_append, List.append_assoc]

/-- A call that makes no calls for frames. -/
theorem takes_of_quiet {events : Journal S} (hs : c.session = some s) (ht : c'.session = some t)
    (hcourse : s.Course engines c.initialLevel course t) (hrounds : Occasion.rounds course = [])
    (hlevel : c'.initialLevel = c.initialLevel)
    (hjournal : c'.workshop.journal = c.workshop.journal ++ events)
    (hframe : ∀ e ∈ events, e.isFrame = false) : c.Takes engines course c' := by
  refine ⟨⟨s, t, hs, ht, hcourse⟩, hlevel, ?_⟩
  rw [hjournal, Journal.frameCalls_append, Journal.frameCalls_of_none hframe, hrounds]
  rfl

/-- A reset is an occasion of its own. -/
theorem reset_course (engines : Engines S F) (hs : c.session = some s) :
    ∃ t, (c.reset engines).1.session = some t ∧
      s.Course engines c.initialLevel [.reset] t ∧
      (c.reset engines).1.initialLevel = c.initialLevel := by
  rw [reset]
  simp only [hs]
  exact ⟨_, rfl, .reset .start c.settings rfl c.workshop, rfl⟩

/-- Something but the lanes changes, and they are reset. -/
theorem reset_course_of_apart (engines : Engines S F) (ht : c.session = some t)
    (hapart : s.Apart t) :
    ∃ course u, (c.reset engines).1.session = some u ∧
      s.Course engines c.initialLevel course u ∧ Occasion.rounds course = [] ∧
      (c.reset engines).1.initialLevel = c.initialLevel := by
  obtain ⟨u, hu, hcourse, hlevel⟩ := reset_course engines ht
  exact ⟨_, u, hu, (Session.Course.start.apart hapart).trans hcourse, rfl, hlevel⟩

/-- Another format changes nothing, or something but the lanes and resets them. -/
theorem setFarendInfo_course (hs : c.session = some s) {rate channels : Nat}
    {r : Except Error Unit} (h : c.setFarendInfo engines rate channels = .ok (c', r)) :
    ∃ course t, c'.session = some t ∧ s.Course engines c.initialLevel course t ∧
      Occasion.rounds course = [] ∧ c'.initialLevel = c.initialLevel := by
  rw [setFarendInfo, hs] at h
  obtain ⟨changed, hchanged, h⟩ := bind_eq_ok.mp h
  cases changed with
  | error e =>
    obtain ⟨rfl, -⟩ := Prod.mk.inj (Except.ok.inj h)
    exact ⟨[], s, hs, .start, rfl, rfl⟩
  | ok u =>
    obtain ⟨farend, rfl, -⟩ := Session.changeFarend_cases hchanged
    let w : Context S F := { c with session := some { s with farend } }.notice
      (adapterNotices farend.adapter ++ [Notice.formatChanged .farend rate channels])
    have hw : w.session = some { s with farend } := rfl
    obtain rfl : (w.reset engines).1 = c' := congrArg Prod.fst (Except.ok.inj h)
    exact reset_course_of_apart engines hw rfl

theorem setNearendInfo_course (hs : c.session = some s) {rate channels : Nat}
    {r : Except Error Unit} (h : c.setNearendInfo engines rate channels = .ok (c', r)) :
    ∃ course t, c'.session = some t ∧ s.Course engines c.initialLevel course t ∧
      Occasion.rounds course = [] ∧ c'.initialLevel = c.initialLevel := by
  rw [setNearendInfo, hs] at h
  obtain ⟨changed, hchanged, h⟩ := bind_eq_ok.mp h
  cases changed with
  | error e =>
    obtain ⟨rfl, -⟩ := Prod.mk.inj (Except.ok.inj h)
    exact ⟨[], s, hs, .start, rfl, rfl⟩
  | ok u =>
    obtain ⟨nearend, outputAdapter, rfl, -⟩ := Session.changeNearend_cases hchanged
    let u : Session F := { s with nearend, outputAdapter, pending := [] }
    let w : Context S F := { c with session := some u }.notice
      (adapterNotices nearend.adapter ++ adapterNotices outputAdapter ++
        [Notice.formatChanged .nearend rate channels])
    have hw : w.session = some u := rfl
    obtain rfl : (w.reset engines).1 = c' := congrArg Prod.fst (Except.ok.inj h)
    exact reset_course_of_apart engines hw rfl

/-- A call that processes nothing takes the session a course without rounds. -/
theorem apply_quiet (hs : c.session = some s) {op : Operation} (hkeeps : op.KeepsSession)
    (hquiet : op.farend? = none) {answer : Answer}
    (happly : c.apply engines op = .ok (c', answer)) :
    ∃ course t, c'.session = some t ∧ s.Course engines c.initialLevel course t ∧
      Occasion.rounds course = [] ∧ c'.initialLevel = c.initialLevel := by
  cases op with
  | init channels nearRate farRate delay =>
    rw [apply, init, if_pos (by rw [hs]; rfl)] at happly
    cases happly
    exact ⟨[], s, hs, .start, rfl, rfl⟩
  | fini => exact hkeeps.elim
  | release => exact hkeeps.elim
  | retain =>
    rw [apply, retain, if_neg (by simp [hs])] at happly
    cases happly
    exact ⟨[], s, hs, .start, rfl, rfl⟩
  | reset =>
    obtain ⟨t, ht, hcourse, hlevel⟩ := reset_course engines hs
    cases happly
    exact ⟨_, t, ht, hcourse, rfl, hlevel⟩
  | setFarendReady | setNearendReady | setStageEnabled =>
    cases happly
    exact ⟨[], s, hs, .start, rfl, rfl⟩
  | setFarendInfo rate channels =>
    obtain ⟨⟨d, r⟩, hr, heq⟩ := map_eq_ok.mp happly
    cases heq
    exact setFarendInfo_course hs hr
  | setNearendInfo rate channels =>
    obtain ⟨⟨d, r⟩, hr, heq⟩ := map_eq_ok.mp happly
    cases heq
    exact setNearendInfo_course hs hr
  | setDelay delay =>
    rw [apply, setDelay, hs] at happly
    cases happly
    exact ⟨[], _, rfl, Session.Course.start.apart rfl, rfl, rfl⟩
  | setEchoSettings settings =>
    rw [apply, setEchoSettings, hs] at happly
    cases happly
    exact ⟨[], _, rfl, .reconfigured .start settings c.workshop, rfl, rfl⟩
  | flush =>
    cases happly
    exact ⟨[], s.flush, by rw [flush, hs]; rfl, Session.Course.start.apart rfl, rfl, rfl⟩
  | pushFarend bytes =>
    rcases c.open_or_closed with ⟨s', hs', hopen⟩ | hclosed
    · obtain rfl : s = s' := Option.some.inj (hs.symm.trans hs')
      obtain ⟨w, hpush⟩ := pushFarend_open hs hopen bytes
      rw [apply, hpush] at happly
      cases happly
      exact ⟨[], _, rfl, Session.Course.start.apart rfl, rfl, rfl⟩
    · have hsame : (c.pushFarend bytes).1 = c' := (Prod.mk.inj (Except.ok.inj happly)).1
      rw [(push_closed hclosed bytes).1.1] at hsame
      exact ⟨[], s, hsame ▸ hs, .start, rfl, hsame ▸ rfl⟩
  | pushNearend bytes =>
    rcases c.open_or_closed with ⟨s', hs', hopen⟩ | hclosed
    · obtain rfl : s = s' := Option.some.inj (hs.symm.trans hs')
      obtain ⟨w, hpush⟩ := pushNearend_open hs hopen bytes
      rw [apply, hpush] at happly
      cases happly
      exact ⟨[], _, rfl, Session.Course.start.apart rfl, rfl, rfl⟩
    · have hsame : (c.pushNearend bytes).1 = c' := (Prod.mk.inj (Except.ok.inj happly)).1
      rw [(push_closed hclosed bytes).2.1] at hsame
      exact ⟨[], s, hsame ▸ hs, .start, rfl, hsame ▸ rfl⟩
  | process => exact absurd hquiet (by simp [Operation.farend?])
  | tryProcess => exact absurd hquiet (by simp [Operation.farend?])

/-- Processing that plays rounds takes the session the course of them. -/
theorem takes_of_plays (hs : c.session = some s) {rs : List (Round S F)} {journal : Journal S}
    (h : s.Plays engines c.initialLevel rs t journal) :
    c.Takes engines (rs.map .round)
      { c with session := some t, workshop := c.workshop.log journal } := by
  refine ⟨⟨s, t, hs, rfl, h.course⟩, rfl, ?_⟩
  show (c.workshop.journal ++ journal).frameCalls = _
  rw [Journal.frameCalls_append, h.frameCalls, Occasion.rounds_map]

variable [Sample.Lawful S]

/-- Every call that keeps the session takes it a course. All its frames are counted if there is room
for as many samples of both channels. -/
theorem apply_takes (hsound : c.Sound) (hstaffed : c.Staffed) (hs : c.session = some s)
    {op : Operation} (hkeeps : op.KeepsSession) {answer : Answer}
    (happly : c.apply engines op = .ok (c', answer)) :
    ∃ course, c.Takes engines course c' ∧
      (op.EvenRoom → ∀ r ∈ Occasion.rounds course, r.counted = true) := by
  cases hfarend : op.farend? with
  | none =>
    obtain ⟨course, t, ht, hcourse, hrounds, hlevel⟩ := apply_quiet hs hkeeps hfarend happly
    obtain htended | ⟨farend, -, -, -, hsome, -⟩ := apply_cases engines hstaffed happly
    · obtain ⟨events, hjournal, hframe⟩ := htended.journal
      refine ⟨course, takes_of_quiet hs ht hcourse hrounds hlevel hjournal hframe, ?_⟩
      intro _ r hr
      rw [hrounds] at hr
      exact absurd hr List.not_mem_nil
    · rw [hfarend] at hsome
      exact absurd hsome (by simp)
  | some farend =>
    have hsession := (hsound s hs).sound
    cases op with
    | process far near out =>
      obtain ⟨⟨d, out', result⟩, hr, heq⟩ := map_eq_ok.mp happly
      obtain ⟨hnone, -⟩ | ⟨s', t, journal, hs', ht, hd⟩ := process_cases engines hr
      · exact absurd (hs.symm.trans hnone) (by simp)
      obtain rfl : s = s' := Option.some.inj (hs.symm.trans hs')
      obtain ⟨rs, hrs, hcounted⟩ := Session.process_plays engines c.initialLevel
        hsession (c.frameSettings_for s _) ht
      obtain rfl : _ = c' := hd.symm.trans (Prod.mk.inj heq).1
      refine ⟨rs.map .round, takes_of_plays hs hrs, ?_⟩
      rw [Occasion.rounds_map]
      intro heven
      refine hcounted ?_
      rintro ⟨-, hodd⟩
      have hdvd : 2 ∣ out.length := heven
      omega
    | tryProcess dest =>
      obtain ⟨⟨d, dest', result⟩, hr, heq⟩ := map_eq_ok.mp happly
      obtain ⟨hnone, -⟩ | ⟨s', t, journal, hs', ht, hd⟩ := tryProcess_cases engines hr
      · exact absurd (hs.symm.trans hnone) (by simp)
      obtain rfl : s = s' := Option.some.inj (hs.symm.trans hs')
      obtain ⟨rs, hrs, hcounted⟩ := Session.tryProcess_plays engines c.initialLevel
        hsession (c.frameSettings_for s _) ht
      obtain rfl : _ = c' := hd.symm.trans (Prod.mk.inj heq).1
      refine ⟨rs.map .round, takes_of_plays hs hrs, ?_⟩
      rw [Occasion.rounds_map]
      exact fun _ => hcounted
    | _ => exact absurd hfarend (by simp [Operation.farend?])

omit [Sample.Lawful S] in
theorem Takes.refl (engines : Engines S F) (hs : c.session = some s) : c.Takes engines [] c :=
  ⟨⟨s, s, hs, hs, .start⟩, rfl, (List.append_nil _).symm⟩

/-- So does every run of such calls. -/
theorem run_takes (hsound : c.Sound) (hstaffed : c.Staffed) (hs : c.session = some s)
    {ops : List Operation} (hkeeps : ∀ op ∈ ops, op.KeepsSession) {t : Transcript}
    (hrun : c.run engines ops = .ok (c', t)) :
    ∃ course, c.Takes engines course c' ∧
      ((∀ op ∈ ops, op.EvenRoom) → ∀ r ∈ Occasion.rounds course, r.counted = true) := by
  have hkept := run_keeps engines (t := []) (I := fun d _ => d.Sound ∧ d.Staffed ∧
    ∃ course, c.Takes engines course d ∧
      ((∀ op ∈ ops, op.EvenRoom) → ∀ r ∈ Occasion.rounds course, r.counted = true))
    ?_ ⟨hsound, hstaffed, [], .refl engines hs, by simp [Occasion.rounds]⟩ hrun
  · exact hkept.2.2
  rintro d - op d' answer hop ⟨hsound, hstaffed, course, htakes, hcounted⟩ happly
  obtain ⟨-, u, -, hu, -⟩ := htakes.session
  obtain ⟨more, hmore, hcounted'⟩ := apply_takes hsound hstaffed hu (hkeeps op hop) happly
  refine ⟨apply_sound engines hsound happly, apply_staffed engines hstaffed happly, _,
    htakes.trans hmore, ?_⟩
  intro heven
  rw [Occasion.rounds_append]
  exact List.forall_mem_append.mpr ⟨hcounted heven, hcounted' (heven op hop)⟩

/-- From the creation of a session: it is reset once, and then takes the course of the calls. -/
theorem run_course (h : c.Reachable engines) {channels nearRate farRate delay : Nat}
    (hinit : c.init engines channels nearRate farRate delay = .ok (c', .ok .initialized))
    {ops : List Operation} (hkeeps : ∀ op ∈ ops, op.KeepsSession) {t : Transcript}
    (hrun : c'.run engines ops = .ok (c'', t)) :
    ∃ (s₀ s : Session F) (course : List (Occasion S F)),
      (Session.create c.settings engines.maxRate channels nearRate farRate delay).run =
        .ok (.ok s₀) ∧ c''.session = some s ∧
      s₀.Course engines c.initialLevel (.reset :: course) s ∧
      c''.workshop.journal.frameCalls = c.workshop.journal.frameCalls ++
        (Occasion.rounds course).flatMap (·.journal.frameCalls) ∧
      ((∀ op ∈ ops, op.EvenRoom) → ∀ r ∈ Occasion.rounds course, r.counted = true) := by
  have hsound := init_sound engines h.sound hinit
  obtain ⟨hstaffed, events, hjournal, hframe⟩ := init_tended engines h.staffed hinit
  have hstart := hinit
  rw [init] at hstart
  split at hstart
  · exact absurd hstart (by simp)
  obtain ⟨made, hmade, hstart⟩ := bind_eq_ok.mp hstart
  cases made with
  | error e => exact absurd hstart (by simp [pure, Except.pure])
  | ok s₀ =>
    let w : Context S F := { c with session := some s₀, references := 1 }.notice
      (s₀.adapterNotices ++
        [Notice.initialized channels nearRate farRate s₀.rate s₀.frames s₀.bands])
    have hw : w.session = some s₀ := rfl
    obtain ⟨u, hu, hreset, hlevel⟩ := reset_course engines hw
    obtain rfl : (w.reset engines).1 = c' := congrArg Prod.fst (Except.ok.inj hstart)
    obtain ⟨course, htakes, hcounted⟩ := run_takes hsound hstaffed hu hkeeps hrun
    obtain ⟨u', s, hu', hs, hcourse⟩ := htakes.session
    obtain rfl : u = u' := Option.some.inj (hu.symm.trans hu')
    refine ⟨s₀, s, course, hmade, hs, hreset.trans (hlevel ▸ hcourse), ?_, hcounted⟩
    rw [htakes.frameCalls, hjournal, Journal.frameCalls_append,
      Journal.frameCalls_of_none hframe, List.append_nil]

end Context

end Duplex
