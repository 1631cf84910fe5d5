import Duplex.Operation
import Duplex.Proofs.Opening

/-!
# Contexts: what every call keeps

A context is `Sound` when its session, if it has one, is valid. A new context is sound, every call
that gives a result keeps it so (`apply_sound`), and so does every run of calls.
-/

namespace Duplex

open Signal Engine

variable {S : Type} {F : Family}

/-- The converted bytes that a push lost. -/
def lostOf : Except RateAdapter.Error Nat → Nat
  | .error _ => 0
  | .ok dropped => dropped

/-- What a push answers: that all bytes were taken, or why the resampler failed. -/
def takenOf (bytes : List UInt8) : Except RateAdapter.Error Nat → Except Error Nat
  | .error e => .error (.rateAdapter e)
  | .ok _ => .ok bytes.length

namespace Context

/-- The session, if there is one, is valid. -/
def Sound (c : Context S F) : Prop := ∀ s, c.session = some s → s.Valid

/-- What runs on a frame of a session has the session's shape. -/
theorem frameSettings_for (c : Context S F) (s : Session F) (farend : Bool) :
    (c.frameSettings s farend).For s.frames s.bands := ⟨rfl, rfl⟩

theorem sound_of_session {c : Context S F} {s : Session F} (hc : c.session = some s)
    (hs : s.Valid) : c.Sound := by
  intro t ht
  rw [hc, Option.some.injEq] at ht
  exact ht ▸ hs

theorem sound_of_none {c : Context S F} (hc : c.session = none) : c.Sound := by
  intro s hs
  rw [hc] at hs
  simp at hs

theorem new_sound (settings : Settings) (factory : F.Factory) :
    (new settings factory : Context S F).Sound := sound_of_none rfl

variable (engines : Engines S F) {c : Context S F} {s : Session F}

/-! ### Life cycle -/

/-- A reset refits the session. -/
theorem reset_session (hs : c.session = some s) :
    ∃ t, (c.reset engines).1.session = some t ∧ s.Refitted t ∧ (c.reset engines).2 = .ok () := by
  rw [reset]
  simp only [hs]
  exact ⟨_, rfl, Session.resetEngines_refitted engines c.settings c.workshop s, trivial⟩

theorem reset_sound (h : c.Sound) : (c.reset engines).1.Sound := by
  cases hs : c.session with
  | none => simpa only [reset, hs] using h
  | some s =>
    obtain ⟨t, ht, hrefit, -⟩ := reset_session engines hs
    exact sound_of_session ht (hrefit.valid (h s hs))

/-- Beginning a session changes nothing, or makes one and brings its engines up. -/
theorem init_creates {channels nearRate farRate delay : Nat} {c' : Context S F}
    {r : Except Error InitStatus}
    (h : c.init engines channels nearRate farRate delay = .ok (c', r)) :
    c' = c ∧ r ≠ .ok .initialized ∨
      ∃ (s : Session F) (w : Workshop S F), c.session = none ∧
        (Session.create c.settings engines.maxRate channels nearRate farRate delay).run =
          .ok (.ok s) ∧
        c'.session = some (s.resetEngines engines c.settings w).2 ∧ c'.settings = c.settings := by
  rw [init] at h
  split at h
  · obtain ⟨rfl, rfl⟩ := Prod.mk.inj (Except.ok.inj h)
    exact .inl ⟨rfl, by simp⟩
  rename_i hnone
  obtain ⟨made, hmade, h⟩ := bind_eq_ok.mp h
  cases made with
  | error e =>
    obtain ⟨rfl, rfl⟩ := Prod.mk.inj (Except.ok.inj h)
    exact .inl ⟨rfl, by simp⟩
  | ok s =>
    obtain rfl : _ = c' := congrArg Prod.fst (Except.ok.inj h)
    exact .inr ⟨s, _, by simpa using hnone, hmade, rfl, rfl⟩

/-- The session is new but for its engines. -/
theorem init_cases {channels nearRate farRate delay : Nat} {c' : Context S F}
    {r : Except Error InitStatus}
    (h : c.init engines channels nearRate farRate delay = .ok (c', r)) :
    c' = c ∧ r ≠ .ok .initialized ∨
      ∃ s t : Session F, s.Opened nearRate farRate ∧
        s.rate = processingRate nearRate (min c.settings.maxRate.hertz engines.maxRate) ∧
        s.layout.channels = channels ∧ s.Refitted t ∧ c'.session = some t := by
  obtain hsame | ⟨s, w, -, hmade, hc', -⟩ := init_creates engines h
  · exact .inl hsame
  · obtain ⟨hopened, hrate, hchannels⟩ := Session.create_opened hmade
    exact .inr ⟨s, _, hopened, hrate, hchannels,
      Session.resetEngines_refitted engines c.settings w s, hc'⟩

theorem init_sound (h : c.Sound) {channels nearRate farRate delay : Nat} {c' : Context S F}
    {r : Except Error InitStatus}
    (hinit : c.init engines channels nearRate farRate delay = .ok (c', r)) : c'.Sound := by
  obtain ⟨rfl, -⟩ | ⟨s, t, hopened, -, -, hrefit, hc'⟩ := init_cases engines hinit
  · exact h
  · exact sound_of_session hc' (hrefit.valid hopened.valid)

theorem fini_session (c : Context S F) : c.fini.session = none := by
  rw [fini]
  split
  · assumption
  · rfl

theorem release_sound (h : c.Sound) : c.release.1.Sound := by
  unfold release
  by_cases hnone : c.references = 0
  · rw [if_pos hnone]
    exact h
  rw [if_neg hnone]
  by_cases hlast : c.references - 1 = 0
  · rw [if_pos hlast]
    exact sound_of_none c.fini_session
  · rw [if_neg hlast]
    exact h

/-! ### Switches and formats -/

/-- Another farend format is refused, or replaces the farend intake and brings the engines up. -/
theorem setFarendInfo_changes {rate channels : Nat} {c' : Context S F} {r : Except Error Unit}
    (h : c.setFarendInfo engines rate channels = .ok (c', r)) :
    c' = c ∧ r ≠ .ok () ∨ ∃ (s t : Session F) (w : Workshop S F), c.session = some s ∧
      (s.changeFarend rate channels).run = .ok (.ok t) ∧
      c'.session = some (t.resetEngines engines c.settings w).2 ∧
      c' = { c with session := c'.session, workshop := c'.workshop } ∧ r = .ok () := by
  rw [setFarendInfo] at h
  split at h
  · obtain ⟨rfl, rfl⟩ := Prod.mk.inj (Except.ok.inj h)
    exact .inl ⟨rfl, by simp⟩
  rename_i s hs
  obtain ⟨changed, hchanged, h⟩ := bind_eq_ok.mp h
  cases changed with
  | error e =>
    obtain ⟨rfl, rfl⟩ := Prod.mk.inj (Except.ok.inj h)
    exact .inl ⟨rfl, by simp⟩
  | ok t =>
    obtain ⟨rfl, rfl⟩ := Prod.mk.inj (Except.ok.inj h)
    exact .inr ⟨s, t, _, hs, hchanged, rfl, rfl, rfl⟩

/-- The intake is as sound as the one before, and the session refitted. -/
theorem setFarendInfo_cases {rate channels : Nat} {c' : Context S F} {r : Except Error Unit}
    (h : c.setFarendInfo engines rate channels = .ok (c', r)) :
    c' = c ∨ ∃ s farend t, c.session = some s ∧
      (s.farend.Sound s.layout → farend.Sound s.layout) ∧
      { s with farend }.Refitted t ∧ c'.session = some t := by
  obtain ⟨hsame, -⟩ | ⟨s, t, w, hs, hchanged, hc', -⟩ := setFarendInfo_changes engines h
  · exact .inl hsame
  · obtain ⟨farend, rfl, hfarend⟩ := Session.changeFarend_cases hchanged
    exact .inr ⟨s, farend, _, hs, hfarend, Session.resetEngines_refitted engines _ w _, hc'⟩

/-- Another farend format is taken or refused. -/
theorem setFarendInfo_answers (c : Context S F) (rate channels : Nat) :
    Returns (c.setFarendInfo engines rate channels) fun _ => True := by
  rw [setFarendInfo]
  split
  · exact returns_ok trivial
  · rename_i s _
    refine (s.changeFarend_answers rate channels).bind fun changed _ => ?_
    cases changed <;> exact returns_ok trivial

/-- Another nearend format is refused, or replaces the nearend intake and the way back, drops what
is pending and brings the engines up. -/
theorem setNearendInfo_changes {rate channels : Nat} {c' : Context S F} {r : Except Error Unit}
    (h : c.setNearendInfo engines rate channels = .ok (c', r)) :
    c' = c ∧ r ≠ .ok () ∨ ∃ (s t : Session F) (w : Workshop S F), c.session = some s ∧
      (s.changeNearend rate channels).run = .ok (.ok t) ∧
      c'.session = some (t.resetEngines engines c.settings w).2 ∧
      c' = { c with session := c'.session, workshop := c'.workshop } ∧ r = .ok () := by
  rw [setNearendInfo] at h
  split at h
  · obtain ⟨rfl, rfl⟩ := Prod.mk.inj (Except.ok.inj h)
    exact .inl ⟨rfl, by simp⟩
  rename_i s hs
  obtain ⟨changed, hchanged, h⟩ := bind_eq_ok.mp h
  cases changed with
  | error e =>
    obtain ⟨rfl, rfl⟩ := Prod.mk.inj (Except.ok.inj h)
    exact .inl ⟨rfl, by simp⟩
  | ok t =>
    obtain ⟨rfl, rfl⟩ := Prod.mk.inj (Except.ok.inj h)
    exact .inr ⟨s, t, _, hs, hchanged, rfl, rfl, rfl⟩

theorem setNearendInfo_cases {rate channels : Nat} {c' : Context S F} {r : Except Error Unit}
    (h : c.setNearendInfo engines rate channels = .ok (c', r)) :
    c' = c ∨ ∃ s nearend outputAdapter t, c.session = some s ∧
      (s.nearend.Sound s.layout → nearend.Sound s.layout) ∧
      Leads outputAdapter s.rate nearend.format.rate s.layout.channels ∧
      { s with nearend, outputAdapter, pending := [] }.Refitted t ∧ c'.session = some t := by
  obtain ⟨hsame, -⟩ | ⟨s, t, w, hs, hchanged, hc', -⟩ := setNearendInfo_changes engines h
  · exact .inl hsame
  · obtain ⟨nearend, outputAdapter, rfl, hnearend, hway⟩ := Session.changeNearend_cases hchanged
    exact .inr ⟨s, nearend, outputAdapter, _, hs, hnearend, hway,
      Session.resetEngines_refitted engines _ w _, hc'⟩

theorem setEchoSettings_session (settings : EchoSettings) (hs : c.session = some s) :
    ∃ t, (c.setEchoSettings engines settings).session = some t ∧ s.Refitted t := by
  rw [setEchoSettings]
  simp only [hs]
  exact ⟨_, rfl, Session.reconfigureEcho_refitted engines settings c.workshop s⟩

/-! ### Audio -/

/-- While audio is taken, a push queues what is emitted, unless the resampler fails. -/
theorem pushFarend_open (hs : c.session = some s) (hrun : c.shouldRunEcho = true)
    (bytes : List UInt8) :
    ∃ workshop, c.pushFarend bytes = ({ c with
      session := some { s with
        farend := (s.farend.push bytes).1
        stats := { s.stats with
          droppedFarend := s.stats.droppedFarend + lostOf (s.farend.push bytes).2 } }
      workshop }, takenOf bytes (s.farend.push bytes).2) := by
  unfold pushFarend
  simp only [hs, hrun, if_true]
  obtain ⟨farend, result⟩ := s.farend.push bytes
  cases result <;> exact ⟨_, rfl⟩

theorem pushNearend_open (hs : c.session = some s) (hrun : c.shouldRunEcho = true)
    (bytes : List UInt8) :
    ∃ workshop, c.pushNearend bytes = ({ c with
      session := some { s with
        nearend := (s.nearend.push bytes).1
        stats := { s.stats with
          droppedNearend := s.stats.droppedNearend + lostOf (s.nearend.push bytes).2 } }
      workshop }, takenOf bytes (s.nearend.push bytes).2) := by
  unfold pushNearend
  simp only [hs, hrun, if_true]
  obtain ⟨nearend, result⟩ := s.nearend.push bytes
  cases result <;> exact ⟨_, rfl⟩

/-- Otherwise it takes nothing and leaves the context alone. -/
theorem push_closed (hclosed : ∀ s, c.session = some s → c.shouldRunEcho = false)
    (bytes : List UInt8) :
    ((c.pushFarend bytes).1 = c ∧ ∀ n, (c.pushFarend bytes).2 = .ok n → n = 0) ∧
      (c.pushNearend bytes).1 = c ∧ ∀ n, (c.pushNearend bytes).2 = .ok n → n = 0 := by
  unfold pushFarend pushNearend
  cases hs : c.session with
  | none => exact ⟨⟨rfl, by simp⟩, rfl, by simp⟩
  | some s =>
    simp only [hclosed s hs, Bool.false_eq_true, if_false]
    refine ⟨⟨trivial, fun n hn => ?_⟩, trivial, fun n hn => ?_⟩
    · exact (Except.ok.inj hn).symm
    · exact (Except.ok.inj hn).symm

/-- Audio is taken in a session or not. -/
theorem open_or_closed (c : Context S F) :
    (∃ s, c.session = some s ∧ c.shouldRunEcho = true) ∨
      ∀ s, c.session = some s → c.shouldRunEcho = false := by
  cases hrun : c.shouldRunEcho with
  | false => exact .inr fun _ _ => rfl
  | true =>
    cases hs : c.session with
    | none => exact .inr fun s h => absurd h (by simp)
    | some s => exact .inl ⟨s, rfl, rfl⟩

theorem setFarendInfo_sound (h : c.Sound) {rate channels : Nat} {c' : Context S F}
    {r : Except Error Unit} (hset : c.setFarendInfo engines rate channels = .ok (c', r)) :
    c'.Sound := by
  obtain rfl | ⟨s, farend, t, hs, hfarend, hrefit, hc'⟩ := setFarendInfo_cases engines hset
  · exact h
  · have hs := h s hs
    exact sound_of_session hc'
      (hrefit.valid (hs.of_intakes rfl (hfarend hs.farend) hs.nearend rfl))

theorem setNearendInfo_sound (h : c.Sound) {rate channels : Nat} {c' : Context S F}
    {r : Except Error Unit} (hset : c.setNearendInfo engines rate channels = .ok (c', r)) :
    c'.Sound := by
  obtain rfl | ⟨s, nearend, _, t, hs, hnearend, hway, hrefit, hc'⟩ := setNearendInfo_cases engines hset
  · exact h
  · have hs := h s hs
    exact sound_of_session hc'
      (hrefit.valid (hs.of_same rfl hs.farend (hnearend hs.nearend) hway))

theorem setDelay_sound (h : c.Sound) (delay : Nat) : (c.setDelay delay).1.Sound := by
  rw [setDelay]
  split
  · exact h
  · rename_i s hs
    exact sound_of_session rfl ((h s hs).of_intakes rfl (h s hs).farend (h s hs).nearend rfl)

theorem setEchoSettings_sound (h : c.Sound) (settings : EchoSettings) :
    (c.setEchoSettings engines settings).Sound := by
  cases hs : c.session with
  | none =>
    refine sound_of_none ?_
    simp only [setEchoSettings, hs]
  | some s =>
    obtain ⟨t, ht, hrefit⟩ := setEchoSettings_session engines settings hs
    exact sound_of_session ht (hrefit.valid (h s hs))

theorem flush_sound (h : c.Sound) : c.flush.Sound := by
  intro t ht
  obtain ⟨s, hs, rfl⟩ := Option.map_eq_some_iff.mp ht
  refine (h s hs).of_same rfl (h s hs).farend.flush (h s hs).nearend.flush (h s hs).way.reset

theorem pushFarend_sound (h : c.Sound) (bytes : List UInt8) : (c.pushFarend bytes).1.Sound := by
  rcases c.open_or_closed with ⟨s, hs, hrun⟩ | hclosed
  · obtain ⟨w, hpush⟩ := pushFarend_open hs hrun bytes
    have hs := h s hs
    rw [hpush]
    exact sound_of_session rfl (hs.of_intakes rfl (Intake.push_sound hs.farend bytes) hs.nearend rfl)
  · rw [(push_closed hclosed bytes).1.1]
    exact h

theorem pushNearend_sound (h : c.Sound) (bytes : List UInt8) : (c.pushNearend bytes).1.Sound := by
  rcases c.open_or_closed with ⟨s, hs, hrun⟩ | hclosed
  · obtain ⟨w, hpush⟩ := pushNearend_open hs hrun bytes
    have hs := h s hs
    rw [hpush]
    exact sound_of_session rfl (hs.of_intakes rfl hs.farend (Intake.push_sound hs.nearend bytes)
      (s.nearend.push_format bytes))
  · rw [(push_closed hclosed bytes).2.1]
    exact h

variable [Sample S]

/-- Processing is that of the session, if there is one. -/
theorem process_cases {farend : Option (List Int16)} {nearend out : List Int16}
    {r : Context S F × List Int16 × Except Error Nat}
    (h : c.process engines farend nearend out = .ok r) :
    c.session = none ∧ r = (c, out, .error .notInitialized) ∨
      ∃ s t journal, c.session = some s ∧
        s.process engines (c.frameSettings s farend.isSome) farend nearend out =
          .ok (t, journal, r.2) ∧
        r.1 = { c with session := some t, workshop := c.workshop.log journal } := by
  rw [process] at h
  split at h
  · rename_i hs
    exact .inl ⟨hs, (Except.ok.inj h).symm⟩
  · rename_i s hs
    obtain ⟨⟨t, journal, out, result⟩, ht, h⟩ := bind_eq_ok.mp h
    obtain rfl : _ = r := Except.ok.inj h
    exact .inr ⟨s, t, journal, hs, ht, rfl⟩

theorem tryProcess_cases {dest : List UInt8} {r : Context S F × List UInt8 × Except Error Nat}
    (h : c.tryProcess engines dest = .ok r) :
    c.session = none ∧ r = (c, dest, .error .notInitialized) ∨
      ∃ s t journal, c.session = some s ∧
        s.tryProcess engines (c.frameSettings s true) dest = .ok (t, journal, r.2) ∧
        r.1 = { c with session := some t, workshop := c.workshop.log journal } := by
  rw [tryProcess] at h
  split at h
  · rename_i hs
    exact .inl ⟨hs, (Except.ok.inj h).symm⟩
  · rename_i s hs
    obtain ⟨⟨t, journal, dest, result⟩, ht, h⟩ := bind_eq_ok.mp h
    obtain rfl : _ = r := Except.ok.inj h
    exact .inr ⟨s, t, journal, hs, ht, rfl⟩

/-! ### Every call -/

variable [Sample.Lawful S]

theorem process_sound (h : c.Sound) {farend : Option (List Int16)} {nearend out : List Int16}
    {r : Context S F × List Int16 × Except Error Nat}
    (hprocess : c.process engines farend nearend out = .ok r) : r.1.Sound := by
  obtain ⟨-, rfl⟩ | ⟨s, t, journal, hs, ht, hr⟩ := process_cases engines hprocess
  · exact h
  · have hadvanced := Session.process_advances engines (h s hs).sound (c.frameSettings_for s _) ht
    exact hr ▸ sound_of_session rfl (hadvanced.kin.valid (h s hs))

theorem tryProcess_sound (h : c.Sound) {dest : List UInt8}
    {r : Context S F × List UInt8 × Except Error Nat}
    (hprocess : c.tryProcess engines dest = .ok r) : r.1.Sound := by
  obtain ⟨-, rfl⟩ | ⟨s, t, journal, hs, ht, hr⟩ := tryProcess_cases engines hprocess
  · exact h
  · have hkin := Session.tryProcess_kin engines (h s hs).sound (c.frameSettings_for s _) ht
    exact hr ▸ sound_of_session rfl (hkin.valid (h s hs))

/-- Every call that gives a result keeps a context sound. -/
theorem apply_sound {c' : Context S F} {op : Operation} {answer : Answer} (h : c.Sound)
    (happly : c.apply engines op = .ok (c', answer)) : c'.Sound := by
  cases op with
  | init channels nearRate farRate delay =>
    obtain ⟨r, hr, hc'⟩ := map_eq_ok.mp happly
    exact (Prod.mk.inj hc').1 ▸ init_sound engines h hr
  | fini => exact (Prod.mk.inj (Except.ok.inj happly)).1 ▸ sound_of_none c.fini_session
  | retain =>
    have hretain : c.retain.1.Sound := by
      rw [retain]
      split <;> exact h
    exact (Prod.mk.inj (Except.ok.inj happly)).1 ▸ hretain
  | release => exact (Prod.mk.inj (Except.ok.inj happly)).1 ▸ release_sound h
  | reset => exact (Prod.mk.inj (Except.ok.inj happly)).1 ▸ reset_sound engines h
  | setFarendReady ready => exact (Prod.mk.inj (Except.ok.inj happly)).1 ▸ h
  | setNearendReady ready => exact (Prod.mk.inj (Except.ok.inj happly)).1 ▸ h
  | setStageEnabled stage enabled => exact (Prod.mk.inj (Except.ok.inj happly)).1 ▸ h
  | setFarendInfo rate channels =>
    obtain ⟨r, hr, hc'⟩ := map_eq_ok.mp happly
    exact (Prod.mk.inj hc').1 ▸ setFarendInfo_sound engines h hr
  | setNearendInfo rate channels =>
    obtain ⟨r, hr, hc'⟩ := map_eq_ok.mp happly
    exact (Prod.mk.inj hc').1 ▸ setNearendInfo_sound engines h hr
  | setDelay delay => exact (Prod.mk.inj (Except.ok.inj happly)).1 ▸ setDelay_sound h delay
  | setEchoSettings settings =>
    exact (Prod.mk.inj (Except.ok.inj happly)).1 ▸ setEchoSettings_sound engines h settings
  | flush => exact (Prod.mk.inj (Except.ok.inj happly)).1 ▸ flush_sound h
  | pushFarend bytes => exact (Prod.mk.inj (Except.ok.inj happly)).1 ▸ pushFarend_sound h bytes
  | pushNearend bytes => exact (Prod.mk.inj (Except.ok.inj happly)).1 ▸ pushNearend_sound h bytes
  | process farend nearend out =>
    obtain ⟨r, hr, hc'⟩ := map_eq_ok.mp happly
    exact (Prod.mk.inj hc').1 ▸ process_sound engines h hr
  | tryProcess dest =>
    obtain ⟨r, hr, hc'⟩ := map_eq_ok.mp happly
    exact (Prod.mk.inj hc').1 ▸ tryProcess_sound engines h hr

omit [Sample.Lawful S] in
/-- A run makes its first call and goes on from there. -/
theorem run_cons (c : Context S F) (op : Operation) (ops : List Operation) :
    c.run engines (op :: ops) =
      c.apply engines op >>= fun r =>
        (r.1.run engines ops).map fun q => (q.1, (op, r.2) :: q.2) := by
  rw [run]
  cases c.apply engines op with
  | error fault => rfl
  | ok r =>
    rw [ok_bind, ok_bind]
    dsimp only
    cases r.1.run engines ops <;> rfl

omit [Sample.Lawful S] in
/-- What holds of a context and what was called so far, and is kept by each call of some kind, is
kept by every run of such calls; if these always give a result, so does the run. -/
theorem run_returns {I : Context S F → Transcript → Prop} {P : Operation → Prop}
    (hstep : ∀ c t op, I c t → P op → Returns (c.apply engines op) fun r => I r.1 (t ++ [(op, r.2)]))
    {t : Transcript} (h : I c t) {ops : List Operation} (hops : ∀ op ∈ ops, P op) :
    Returns (c.run engines ops) fun r => I r.1 (t ++ r.2) := by
  induction ops generalizing c t with
  | nil => exact returns_ok (by simpa using h)
  | cons op ops ih =>
    refine (hstep c t op h (hops op List.mem_cons_self)).bind fun d hd => ?_
    refine (ih hd fun op' hop' => hops op' (List.mem_cons_of_mem _ hop')).bind fun e he => ?_
    exact returns_ok (by simpa using he)

omit [Sample.Lawful S] in
/-- What holds of a context and what was called so far, and is kept by each call of a run that gives
a result, is kept by the run. -/
theorem run_keeps {I : Context S F → Transcript → Prop} {ops : List Operation}
    (hstep : ∀ c t op c' answer, op ∈ ops → I c t → c.apply engines op = .ok (c', answer) →
      I c' (t ++ [(op, answer)]))
    {c' : Context S F} {t u : Transcript} (h : I c t) (hrun : c.run engines ops = .ok (c', u)) :
    I c' (t ++ u) := by
  induction ops generalizing c c' t u with
  | nil =>
    obtain ⟨rfl, rfl⟩ := Prod.mk.inj (Except.ok.inj hrun)
    rwa [List.append_nil]
  | cons op ops ih =>
    obtain ⟨⟨d, answer⟩, hop, hrest⟩ := bind_eq_ok.mp hrun
    obtain ⟨⟨e, rest⟩, hops, hc'⟩ := bind_eq_ok.mp hrest
    obtain ⟨rfl, rfl⟩ := Prod.mk.inj (Except.ok.inj hc')
    have hd := hstep c t op d answer List.mem_cons_self h hop
    have he := ih
      (fun c t op' c' answer hop' => hstep c t op' c' answer (List.mem_cons_of_mem op hop')) hd hops
    rwa [List.append_assoc] at he

/-- Every run of calls keeps a context sound. -/
theorem run_sound {c' : Context S F} {ops : List Operation} {t : Transcript} (h : c.Sound)
    (hrun : c.run engines ops = .ok (c', t)) : c'.Sound :=
  run_keeps engines (I := fun c _ => c.Sound) (t := [])
    (fun _ _ _ _ _ _ h happly => apply_sound engines h happly) h hrun

/-- A context that calls can bring about. -/
def Reachable (c : Context S F) : Prop :=
  ∃ settings factory ops t, (new settings factory).run engines ops = .ok (c, t)

theorem Reachable.sound (h : c.Reachable engines) : c.Sound := by
  obtain ⟨settings, factory, ops, t, hrun⟩ := h
  exact run_sound engines (new_sound settings factory) hrun

end Context

end Duplex
