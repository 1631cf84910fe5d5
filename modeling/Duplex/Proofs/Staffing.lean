import Duplex.Engine.Scripted
import Duplex.Proofs.Context
import Duplex.Proofs.Turns

/-!
# Staffing: the engines of a context

A context is `Staffed` when its journal accounts for the engines of its session and the session is
staffed itself. Every call keeps it so (`apply_staffed`), whatever the engines and the factory
answer; a call that does not process audio makes no calls of frames (`Tended`).
-/

namespace Duplex

open Engine

variable {S : Type} {F : Family}

/-- Which engines a session has and which stages are healthy. -/
def Session.staff (s : Session F) :
    Pcm.Layout × PerStage Bool × List (Nat × PerStage (Option Nat)) := (s.layout, s.healthy, s.crews)

/-- For a call that processes audio, whether it has farend. -/
def Operation.farend? : Operation → Option Bool
  | .process farend _ _ => some farend.isSome
  | .tryProcess _ => some true
  | _ => none

namespace Context

/-- The engines at work. -/
def roster (c : Context S F) : List EngineId := (c.session.map (·.roster)).getD []

/-- The journal accounts for the engines at work, and the session, if there is one, is staffed. -/
structure Staffed (c : Context S F) : Prop where
  accounts : Accounts c.workshop.made c.workshop.journal c.roster
  session : ∀ s, c.session = some s → s.Staffed

/-- A call that keeps a context staffed and makes no calls of frames. -/
structure Tended (c c' : Context S F) : Prop where
  staffed : c'.Staffed
  journal : ∃ events : Journal S, c'.workshop.journal = c.workshop.journal ++ events ∧
    ∀ e ∈ events, e.isFrame = false

theorem new_staffed (settings : Settings) (factory : F.Factory) :
    (new settings factory : Context S F).Staffed where
  accounts := .nil
  session s hs := by simp [new] at hs

theorem roster_of_session {c : Context S F} {s : Session F} (hs : c.session = some s) :
    c.roster = s.roster := by rw [roster, hs]; rfl

theorem roster_of_none {c : Context S F} (hs : c.session = none) : c.roster = [] := by
  rw [roster, hs]; rfl

variable (engines : Engines S F) {c c' : Context S F} {s t : Session F}

/-! ### Calls that leave the engines alone -/

/-- What only writes notices and leaves the engines alone. -/
theorem Staffed.idle (h : c.Staffed) (notices : List Notice)
    (hw : c'.workshop = c.workshop.log (notices.map .noticed))
    (hs : c'.session.map (·.staff) = c.session.map (·.staff)) : c.Tended c' := by
  have hstaff (t : Session F) (ht : c'.session = some t) :
      ∃ s, c.session = some s ∧ s.staff = t.staff :=
    Option.map_eq_some_iff.mp (hs.symm.trans (congrArg _ ht))
  have hroster : c'.roster = c.roster := by
    cases ht : c'.session with
    | none => rw [roster_of_none ht, roster_of_none (by simpa [ht, eq_comm] using hs)]
    | some t =>
      obtain ⟨s, hs, heq⟩ := hstaff t ht
      rw [roster_of_session ht, roster_of_session hs]
      exact (Session.roster_congr (congrArg (·.2.2) heq)).symm
  refine ⟨⟨?_, fun t ht => ?_⟩, notices.map .noticed, by rw [hw]; rfl, ?_⟩
  · rw [hroster, hw]
    exact h.accounts.notices notices
  · obtain ⟨s, hs, heq⟩ := hstaff t ht
    exact (h.session s hs).congr (congrArg (·.1) heq).symm (congrArg (·.2.1) heq).symm
      (congrArg (·.2.2) heq).symm
  · intro e he
    obtain ⟨n, -, rfl⟩ := List.mem_map.mp he
    rfl

/-- What changes nothing at all. -/
theorem Staffed.refl (h : c.Staffed) : c.Tended c :=
  h.idle [] (by simp [Workshop.log]) rfl

/-! ### Life cycle -/

/-- A reset staffs the context, whatever was healthy before. -/
theorem reset_tended {c₀ : Context S F} (notices : List Notice)
    (hw : c.workshop = c₀.workshop.log (notices.map .noticed)) (hs : c.session = some s)
    (hchannels : s.lanes.map (·.channel) = List.range s.layout.channels)
    (hacc : Accounts c₀.workshop.made c₀.workshop.journal s.roster) :
    c₀.Tended (c.reset engines).1 := by
  have hacc : Accounts c.workshop.made c.workshop.journal s.roster := by
    rw [hw]
    exact hacc.notices notices
  obtain ⟨parts, events, hjournal, hfitted, hstaffed, hacc⟩ :=
    s.resetEngines_staffed engines c.settings c.workshop hchannels hacc
  simp only [reset, hs]
  generalize s.resetEngines engines c.settings c.workshop = r at *
  refine ⟨⟨hacc.notices [.reset r.2.healthy], ?_⟩,
    notices.map .noticed ++ (events ++ [.noticed (.reset r.2.healthy)]), ?_, ?_⟩
  · rintro t ⟨⟩
    exact hstaffed
  · show r.1.journal ++ _ = _
    rw [hjournal, hw]
    simp [Workshop.log]
  · intro e he
    simp only [List.mem_append, List.mem_map, List.mem_singleton] at he
    obtain ⟨n, -, rfl⟩ | he | rfl := he
    · rfl
    · exact hfitted.isFrame e he
    · rfl

/-- A session that is opened has no engines yet. -/
theorem roster_of_opened {nearRate farRate : Nat} (h : s.Opened nearRate farRate) : s.roster = [] := by
  rw [Session.roster, h.lanes]
  simp [Lane.roster, Lane.numbers, Lane.new, Stage.all, entry, PerStage.get]

theorem channels_of_opened {nearRate farRate : Nat} (h : s.Opened nearRate farRate) :
    s.lanes.map (·.channel) = List.range s.layout.channels := by
  rw [h.lanes, List.map_map]
  simp [Function.comp_def, Lane.new]

theorem init_tended (h : c.Staffed) {channels nearRate farRate delay : Nat}
    {r : Except Error InitStatus}
    (hinit : c.init engines channels nearRate farRate delay = .ok (c', r)) : c.Tended c' := by
  rw [init] at hinit
  split at hinit
  · obtain ⟨rfl, -⟩ := Prod.mk.inj (Except.ok.inj hinit)
    exact h.refl
  rename_i hnone
  obtain ⟨made, hmade, hinit⟩ := bind_eq_ok.mp hinit
  cases made with
  | error e =>
    obtain ⟨rfl, -⟩ := Prod.mk.inj (Except.ok.inj hinit)
    exact h.refl
  | ok s =>
    obtain ⟨hopened, -, -⟩ := Session.create_opened hmade
    let w : Context S F := { c with session := some s, references := 1 }.notice
      (s.adapterNotices ++ [Notice.initialized channels nearRate farRate s.rate s.frames s.bands])
    have hc' : (w.reset engines).1 = c' := congrArg Prod.fst (Except.ok.inj hinit)
    have hempty : c.roster = [] := roster_of_none (by simpa using hnone)
    have hacc : Accounts c.workshop.made c.workshop.journal s.roster := by
      rw [roster_of_opened hopened, ← hempty]
      exact h.accounts
    exact hc' ▸ reset_tended engines (c := w) _ rfl rfl (channels_of_opened hopened) hacc

theorem fini_tended (h : c.Staffed) : c.Tended c.fini := by
  rw [fini]
  split
  · rename_i hs
    exact h.idle [] (by simp [Workshop.log]) (by simp [hs])
  · rename_i s hs
    have hacc := h.accounts.notices [.finalized]
    rw [roster_of_session hs, ← List.append_nil s.roster] at hacc
    have hreleases : s.lanes.flatMap (·.releases (S := S)) = s.roster.map EngineId.release := by
      simp only [Session.roster, List.map_flatMap, Lane.releases_eq]
    refine ⟨⟨?_, by simp⟩, .noticed .finalized :: s.lanes.flatMap (·.releases), rfl, ?_⟩
    · have hreleased := hacc.released
      rw [List.append_assoc, ← hreleases] at hreleased
      exact hreleased
    · rw [hreleases]
      rintro e (_ | ⟨_, he⟩)
      · rfl
      · obtain ⟨id, -, rfl⟩ := List.mem_map.mp he
        rfl

theorem release_tended (h : c.Staffed) : c.Tended c.release.1 := by
  unfold release
  by_cases hnone : c.references = 0
  · rw [if_pos hnone]
    exact h.refl
  rw [if_neg hnone]
  by_cases hlast : c.references - 1 = 0
  · rw [if_pos hlast]
    exact fini_tended h
  · rw [if_neg hlast]
    exact h.idle [] (by simp [Workshop.log]) rfl

/-! ### Switches and formats -/

/-- Another format refits the session that has it. -/
theorem format_tended (h : c.Staffed) {t : Session F} (hs : c.session = some s)
    (hlayout : t.layout = s.layout) (hlanes : t.lanes = s.lanes) (notices : List Notice) :
    c.Tended ((({ c with session := some t } : Context S F).notice notices).reset engines).1 := by
  have hchannels : t.lanes.map (·.channel) = List.range t.layout.channels := by
    rw [hlanes, hlayout]
    exact (h.session s hs).channels
  have hacc : Accounts c.workshop.made c.workshop.journal t.roster := by
    rw [Session.roster, hlanes, ← Session.roster, ← roster_of_session hs]
    exact h.accounts
  exact reset_tended engines (c := ({ c with session := some t } : Context S F).notice notices)
    notices rfl rfl hchannels hacc

theorem setFarendInfo_tended (h : c.Staffed) {rate channels : Nat} {r : Except Error Unit}
    (hset : c.setFarendInfo engines rate channels = .ok (c', r)) : c.Tended c' := by
  rw [setFarendInfo] at hset
  split at hset
  · obtain ⟨rfl, -⟩ := Prod.mk.inj (Except.ok.inj hset)
    exact h.refl
  rename_i s hs
  obtain ⟨changed, hchanged, hset⟩ := bind_eq_ok.mp hset
  cases changed with
  | error e =>
    obtain ⟨rfl, -⟩ := Prod.mk.inj (Except.ok.inj hset)
    exact h.refl
  | ok t =>
    obtain ⟨farend, ht, -⟩ := Session.changeFarend_cases hchanged
    obtain rfl := congrArg Prod.fst (Except.ok.inj hset)
    exact format_tended engines h hs (by rw [ht]) (by rw [ht]) _

theorem setNearendInfo_tended (h : c.Staffed) {rate channels : Nat} {r : Except Error Unit}
    (hset : c.setNearendInfo engines rate channels = .ok (c', r)) : c.Tended c' := by
  rw [setNearendInfo] at hset
  split at hset
  · obtain ⟨rfl, -⟩ := Prod.mk.inj (Except.ok.inj hset)
    exact h.refl
  rename_i s hs
  obtain ⟨changed, hchanged, hset⟩ := bind_eq_ok.mp hset
  cases changed with
  | error e =>
    obtain ⟨rfl, -⟩ := Prod.mk.inj (Except.ok.inj hset)
    exact h.refl
  | ok t =>
    obtain ⟨nearend, outputAdapter, ht, -⟩ := Session.changeNearend_cases hchanged
    obtain rfl := congrArg Prod.fst (Except.ok.inj hset)
    exact format_tended engines h hs (by rw [ht]) (by rw [ht]) _

theorem setEchoSettings_tended (h : c.Staffed) (settings : EchoSettings) :
    c.Tended (c.setEchoSettings engines settings) := by
  rw [setEchoSettings]
  cases hs : c.session with
  | none =>
    dsimp only
    exact h.idle [] (by simp [Workshop.log]) (by simp [hs])
  | some s =>
    have hacc := h.accounts
    rw [roster_of_session hs] at hacc
    obtain ⟨events, hjournal, hframe, hstaffed, hacc⟩ :=
      s.reconfigureEcho_staffed engines settings c.workshop (h.session s hs) hacc
    refine ⟨⟨hacc, ?_⟩, events, hjournal, hframe⟩
    rintro t ⟨⟩
    exact hstaffed

/-! ### Audio -/

theorem pushFarend_tended (h : c.Staffed) (bytes : List UInt8) : c.Tended (c.pushFarend bytes).1 := by
  rw [pushFarend]
  split
  · exact h.refl
  rename_i s hs
  split
  · obtain ⟨farend, result⟩ := s.farend.push bytes
    cases result with
    | error e => exact h.idle [] (by simp [Workshop.log]) (by simp [hs]; rfl)
    | ok dropped => exact h.idle _ rfl (by simp [hs, notice]; rfl)
  · exact h.refl

theorem pushNearend_tended (h : c.Staffed) (bytes : List UInt8) :
    c.Tended (c.pushNearend bytes).1 := by
  rw [pushNearend]
  split
  · exact h.refl
  rename_i s hs
  split
  · obtain ⟨nearend, result⟩ := s.nearend.push bytes
    cases result with
    | error e => exact h.idle [] (by simp [Workshop.log]) (by simp [hs]; rfl)
    | ok dropped => exact h.idle _ rfl (by simp [hs, notice]; rfl)
  · exact h.refl

/-- Processing makes the calls of frames. -/
theorem Staffed.turned (h : c.Staffed) (hs : c.session = some s) {settings : FrameSettings}
    {events : Journal S} (hturned : s.Turned settings t events) :
    ({ c with session := some t, workshop := c.workshop.log events } : Context S F).Staffed := by
  have hacc := h.accounts
  rw [roster_of_session hs] at hacc
  refine ⟨hturned.accounts hacc, ?_⟩
  rintro t ⟨⟩
  exact hturned.staffed (h.session s hs)

/-! ### Every call -/

variable [Sample S]

/-- What a call does with the engines of a context: it tends to them, or it makes the calls of the
frames that it processes. -/
theorem apply_cases (h : c.Staffed) {op : Operation} {answer : Answer}
    (happly : c.apply engines op = .ok (c', answer)) :
    c.Tended c' ∨ ∃ farend s t events, op.farend? = some farend ∧ c.session = some s ∧
      c' = { c with session := some t, workshop := c.workshop.log events } ∧
      s.Turned (c.frameSettings s farend) t events := by
  have hlanes (s : Session F) (hs : c.session = some s) : s.lanes.length = s.layout.channels := by
    have hlen := congrArg List.length (h.session s hs).channels
    simpa using hlen
  cases op with
  | init channels nearRate farRate delay =>
    obtain ⟨r, hr, hc'⟩ := map_eq_ok.mp happly
    exact .inl ((Prod.mk.inj hc').1 ▸ init_tended engines h hr)
  | fini => exact .inl ((Prod.mk.inj (Except.ok.inj happly)).1 ▸ fini_tended h)
  | retain =>
    have hretain : c.Tended c.retain.1 := by
      rw [retain]
      split
      · exact h.refl
      · exact h.idle [] (by simp [Workshop.log]) rfl
    exact .inl ((Prod.mk.inj (Except.ok.inj happly)).1 ▸ hretain)
  | release => exact .inl ((Prod.mk.inj (Except.ok.inj happly)).1 ▸ release_tended h)
  | reset =>
    have hreset : c.Tended (c.reset engines).1 := by
      cases hs : c.session with
      | none =>
        rw [show (c.reset engines).1 = c by simp only [reset, hs]]
        exact h.refl
      | some s =>
        exact reset_tended engines [] (by simp [Workshop.log]) hs (h.session s hs).channels
          (roster_of_session hs ▸ h.accounts)
    exact .inl ((Prod.mk.inj (Except.ok.inj happly)).1 ▸ hreset)
  | setFarendReady ready => exact .inl ((Prod.mk.inj (Except.ok.inj happly)).1 ▸ h.idle _ rfl rfl)
  | setNearendReady ready => exact .inl ((Prod.mk.inj (Except.ok.inj happly)).1 ▸ h.idle _ rfl rfl)
  | setStageEnabled stage enabled =>
    exact .inl ((Prod.mk.inj (Except.ok.inj happly)).1 ▸ h.idle [.stageRequested stage enabled] rfl rfl)
  | setFarendInfo rate channels =>
    obtain ⟨r, hr, hc'⟩ := map_eq_ok.mp happly
    exact .inl ((Prod.mk.inj hc').1 ▸ setFarendInfo_tended engines h hr)
  | setNearendInfo rate channels =>
    obtain ⟨r, hr, hc'⟩ := map_eq_ok.mp happly
    exact .inl ((Prod.mk.inj hc').1 ▸ setNearendInfo_tended engines h hr)
  | setDelay delay =>
    have hdelay : c.Tended (c.setDelay delay).1 := by
      rw [setDelay]
      split
      · exact h.refl
      · rename_i s hs
        exact h.idle [] (by simp [Workshop.log]) (by simp [hs]; rfl)
    exact .inl ((Prod.mk.inj (Except.ok.inj happly)).1 ▸ hdelay)
  | setEchoSettings settings =>
    exact .inl ((Prod.mk.inj (Except.ok.inj happly)).1 ▸ setEchoSettings_tended engines h settings)
  | flush =>
    refine .inl ((Prod.mk.inj (Except.ok.inj happly)).1 ▸ h.idle [] (by simp [Workshop.log, flush]) ?_)
    simp only [flush, Option.map_map]
    rfl
  | pushFarend bytes => exact .inl ((Prod.mk.inj (Except.ok.inj happly)).1 ▸ pushFarend_tended h bytes)
  | pushNearend bytes =>
    exact .inl ((Prod.mk.inj (Except.ok.inj happly)).1 ▸ pushNearend_tended h bytes)
  | process farend nearend out =>
    obtain ⟨r, hr, hc'⟩ := map_eq_ok.mp happly
    obtain ⟨-, rfl⟩ | ⟨s, t, events, hs, ht, hr⟩ := process_cases engines hr
    · exact .inl ((Prod.mk.inj hc').1 ▸ h.refl)
    · exact .inr ⟨_, s, t, events, rfl, hs, (Prod.mk.inj hc').1 ▸ hr,
        Session.process_turned engines (hlanes s hs) ht⟩
  | tryProcess dest =>
    obtain ⟨r, hr, hc'⟩ := map_eq_ok.mp happly
    obtain ⟨-, rfl⟩ | ⟨s, t, events, hs, ht, hr⟩ := tryProcess_cases engines hr
    · exact .inl ((Prod.mk.inj hc').1 ▸ h.refl)
    · exact .inr ⟨_, s, t, events, rfl, hs, (Prod.mk.inj hc').1 ▸ hr,
        Session.tryProcess_turned engines (hlanes s hs) ht⟩

theorem apply_staffed (h : c.Staffed) {op : Operation} {answer : Answer}
    (happly : c.apply engines op = .ok (c', answer)) : c'.Staffed := by
  obtain htended | ⟨_, s, t, events, -, hs, rfl, hturned⟩ := apply_cases engines h happly
  · exact htended.staffed
  · exact h.turned hs hturned

theorem run_staffed (h : c.Staffed) {ops : List Operation} {t : Transcript}
    (hrun : c.run engines ops = .ok (c', t)) : c'.Staffed :=
  run_keeps engines (I := fun c _ => c.Staffed) (t := [])
    (fun _ _ _ _ _ _ h happly => apply_staffed engines h happly) h hrun

theorem Reachable.staffed (h : c.Reachable engines) : c.Staffed := by
  obtain ⟨settings, factory, ops, t, hrun⟩ := h
  exact run_staffed engines (new_staffed settings factory) hrun

/-! ### Stages and their engines -/

omit [Sample S] in
/-- There are as many engines at work as were made and not given up. -/
theorem Staffed.balance (h : c.Staffed) :
    c.workshop.journal.created = c.workshop.journal.dropped + c.engineCount := by
  have hcount : c.roster.length = c.engineCount := by
    rw [roster, engineCount]
    cases c.session with
    | none => rfl
    | some s => exact s.length_roster
  exact hcount ▸ h.accounts.balance

end Context

namespace Session

/-- What a reset makes of a session: a stage is healthy exactly if on no lane anything failed that
was done for its slot, the mic level is the configured one, and all else is as it was. -/
structure ResetTo (settings : Settings) (s t : Session F) (events : Journal S) : Prop where
  fittings : ∀ stage, ∃ parts : List (Journal S),
    events.filter (·.stage? = some stage) = parts.flatten ∧
      List.Forall₂ (fun l part => ∃ made slot made', Fitting stage
        (settings.setUpRequest s.rate stage) (settings.configureRequest stage) (l.numbers.get stage)
        made part slot made') s.lanes parts ∧
      (t.healthy.get stage = true ↔ ∀ part ∈ parts, ∀ e ∈ part, e.fails = false)
  micLevel : t.micLevel = (settings.gain.getD {}).initialMicLevel
  same : t = { s with lanes := t.lanes, healthy := t.healthy, micLevel := t.micLevel }
  channels : t.lanes.map (·.channel) = s.lanes.map (·.channel)
  buffers : t.lanes.map (·.buffers) = s.lanes.map (·.buffers)

end Session

namespace Context

variable {engines : Engines S F} {c : Context S F} {s : Session F}

/-- A reset brings every engine up as far as it can be, whatever was healthy before. -/
theorem Staffed.reset (h : c.Staffed) (hs : c.session = some s) :
    ∃ c' t events, c.reset engines = (c', .ok ()) ∧ c'.session = some t ∧
      c'.workshop.journal = c.workshop.journal ++ events ∧ s.ResetTo c.settings t events := by
  obtain ⟨parts, events, hjournal, hfitted, hstaffed, -⟩ :=
    s.resetEngines_staffed engines c.settings c.workshop (h.session s hs).channels
      (roster_of_session hs ▸ h.accounts)
  have hrefit := Session.resetEngines_refitted engines c.settings c.workshop s
  have hlevel : (s.resetEngines engines c.settings c.workshop).2.micLevel =
      (c.settings.gain.getD {}).initialMicLevel := rfl
  rw [Context.reset, hs]
  dsimp only
  generalize s.resetEngines engines c.settings c.workshop = r
    at hjournal hfitted hstaffed hrefit hlevel
  refine ⟨_, r.2, events ++ [.noticed (.reset r.2.healthy)], rfl, rfl, ?_, ?_⟩
  · show r.1.journal ++ _ = _
    rw [hjournal, List.append_assoc]
    rfl
  · refine ⟨fun stage => ?_, hlevel, hrefit.same, hfitted.channels, hrefit.buffers⟩
    obtain ⟨hevents, hparts⟩ := hfitted.stage stage
    refine ⟨parts.map (·.get stage), ?_, hparts, ?_⟩
    · rw [List.filter_append, hevents]
      simp [Event.stage?]
    · rw [hstaffed.healthy, hfitted.isSome_iff]

variable [Sample S]

/-- In every reachable state the engines that were made and not given up are those in the slots of
the lanes, none without a session and at most three for each channel; a stage is healthy exactly if
every lane has an engine for it, so that a stage that is enabled has one on every channel; and a reset
brings the engines up anew. -/
theorem engines_accounted (h : c.Reachable engines) :
    c.workshop.journal.created = c.workshop.journal.dropped + c.engineCount ∧
      (c.session = none → c.engineCount = 0) ∧
      ∀ s, c.session = some s →
        c.engineCount ≤ 3 * s.layout.channels ∧
        s.lanes.map (·.channel) = List.range s.layout.channels ∧
        (∀ stage, s.healthy.get stage = true ↔ ∀ l ∈ s.lanes, (l.numbers.get stage).isSome) ∧
        (∀ stage, c.stageEnabled stage = true → ∀ l ∈ s.lanes, (l.numbers.get stage).isSome) ∧
        ∃ c' t events, c.reset engines = (c', .ok ()) ∧ c'.session = some t ∧
          c'.workshop.journal = c.workshop.journal ++ events ∧ s.ResetTo c.settings t events := by
  have hstaffed := h.staffed engines
  refine ⟨hstaffed.balance, fun hnone => by simp [engineCount, hnone], fun s hs => ?_⟩
  have hs' := hstaffed.session s hs
  refine ⟨?_, hs'.channels, hs'.healthy, fun stage henabled => ?_, hstaffed.reset hs⟩
  · have hlen := congrArg List.length hs'.channels
    simp only [List.length_map, List.length_range] at hlen
    have hcount : c.engineCount = s.engineCount := by simp [engineCount, hs]
    rw [hcount, ← hlen]
    exact s.engineCount_le
  · simp only [stageEnabled, hs, Option.any_some, Bool.and_eq_true] at henabled
    exact (hs'.healthy stage).mp henabled.2

/-- Two channels, of which the second has a noise suppressor that rejects its settings: six engines
are made and five are at work. -/
theorem engines_accounted_scripted :
    ∃ (c : Context Int16 (Scripted.family Int16)) (s : Session (Scripted.family Int16)),
      c.Reachable (Scripted.engines Int16 ⟨{}, { settingsError := some 7, only := some 1 }, {}⟩ 48000) ∧
        c.session = some s ∧ c.workshop.journal.created = 6 ∧ c.engineCount = 5 ∧
        c.workshop.journal.created = c.workshop.journal.dropped + c.engineCount ∧
        s.healthy = ⟨true, false, true⟩ ∧ ¬ ∀ l ∈ s.lanes, (l.numbers.get .noise).isSome := by
  obtain ⟨c, t, s, hrun, hs, hcreated, hcount, hhealthy⟩ :
      ∃ (c : Context Int16 (Scripted.family Int16)) (t : Transcript)
        (s : Session (Scripted.family Int16)),
        (new {} ()).run
            (Scripted.engines Int16 ⟨{}, { settingsError := some 7, only := some 1 }, {}⟩ 48000)
            [.init 2 16000 44100 0] = .ok (c, t) ∧
          c.session = some s ∧ c.workshop.journal.created = 6 ∧ c.engineCount = 5 ∧
          s.healthy = ⟨true, false, true⟩ := ⟨_, _, _, rfl, rfl, rfl, rfl, rfl⟩
  have hreach : c.Reachable
      (Scripted.engines Int16 ⟨{}, { settingsError := some 7, only := some 1 }, {}⟩ 48000) :=
    ⟨{}, (), _, t, hrun⟩
  obtain ⟨hbalance, -, hsession⟩ := engines_accounted hreach
  obtain ⟨-, -, hstages, -⟩ := hsession s hs
  refine ⟨c, s, hreach, hs, hcreated, hcount, hbalance, hhealthy, ?_⟩
  rw [← hstages .noise, hhealthy]
  decide

end Context

end Duplex
