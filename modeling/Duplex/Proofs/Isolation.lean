import Duplex.Proofs.Agreement
import Duplex.Proofs.Steadiness
import Duplex.Proofs.Wiring

/-!
# Isolation: what a flush leaves of earlier audio

A flush, and a change of the nearend format, drop all audio that is queued, carried, on its way or
pending. So two sessions that were begun alike are alike after it, whatever audio went through them
before (`Goes.cut`), and from then on the same calls are answered alike (`run_isolates`).
-/

namespace Duplex

open Signal Engine

variable {S : Type} {F : Family}

/-- A call that was answered and that drops the audio of before: a flush, or a change of the nearend
format that was not refused. -/
def Operation.Cuts : Operation → Answer → Prop
  | .flush, _ => True
  | .setNearendInfo _ _, .outcome (.ok ()) => True
  | _, _ => False

namespace Session

/-- A session in the shape and the nearend format in which it was begun. -/
structure SameStream (o s : Session F) : Prop where
  layout : s.layout = o.layout
  rate : s.rate = o.rate
  frames : s.frames = o.frames
  bands : s.bands = o.bands
  format : s.nearend.format = o.nearend.format

variable {o s s' t : Session F} {size : Nat}

theorem SameStream.of_same (h : o.SameStream s)
    (ht : t = { s with
      delay := t.delay, healthy := t.healthy, micLevel := t.micLevel, farend := t.farend
      outputAdapter := t.outputAdapter, lanes := t.lanes, pending := t.pending, stats := t.stats }) :
    o.SameStream t := by
  rw [ht]
  exact ⟨h.layout, h.rate, h.frames, h.bands, h.format⟩

theorem Drains.sameStream [Sample S] {engines : Engines S F} {settings : FrameSettings}
    {missing : Nat} {outs : List (List UInt8)} (h : o.SameStream s)
    (hdrains : Drains engines settings missing s outs t) : o.SameStream t := by
  induction hdrains with
  | done stop => exact h
  | frame wanted step rest ih =>
    have hkin := step.kin
    refine ih ⟨hkin.layout.trans h.layout, hkin.rate.trans h.rate, hkin.frames.trans h.frames,
      hkin.bands.trans h.bands, ?_⟩
    rw [step.rest.2.1]
    exact h.format

/-- Calls that leave the nearend format alone keep it so. -/
theorem Moved.sameStream [Sample S] {engines : Engines S F} {op : Operation} {answer : Answer}
    (hop : op.Streams) (h : o.SameStream s) (hmoved : s.Moved engines op answer t) :
    o.SameStream t := by
  cases hmoved with
  | quiet same => exact h.of_same (by rw [same.same])
  | pushFarend bytes => exact h.of_same rfl
  | pushNearend bytes =>
    refine ⟨h.layout, h.rate, h.frames, h.bands, ?_⟩
    show (s.nearend.push bytes).1.format = _
    rw [Intake.push_same, Intake.emit_same]
    exact h.format
  | tryProcess shape drains count => exact (drains.sameStream h).of_same rfl
  | held failing kin reads =>
    exact ⟨kin.layout.trans h.layout, kin.rate.trans h.rate, kin.frames.trans h.frames,
      kin.bands.trans h.bands, kin.stream.trans h.format⟩
  | flush => exact hop.elim
  | setFarendInfo taken changed same => exact h.of_same (by rw [same.same])
  | setNearendInfo => exact hop.elim

section Cut

variable (h : o.SameStream s) (h' : o.SameStream s') (hs : s.Wired size) (hs' : s'.Wired size)

include h h' hs hs'

/-- What is the same of the intakes of two such sessions. -/
theorem Wired.same_nearend : s'.nearend.rate = s.nearend.rate ∧
    s'.nearend.layout = s.nearend.layout ∧ s'.nearend.format = s.nearend.format ∧
      s'.nearend.ring.capacity = s.nearend.ring.capacity := by
  refine ⟨?_, ?_, h'.format.trans h.format.symm, hs'.capacity.trans hs.capacity.symm⟩
  · rw [hs'.rate, hs.rate, h'.rate, h.rate]
  · rw [hs'.used.sound.layout, hs.used.sound.layout, h'.layout, h.layout]

/-- Where a reset renews resamplers, nothing tells them apart after a flush. -/
theorem Wired.flush_alike (hnew : F.resampling.Renewed) (hway : s.Way) (hway' : s'.Way) :
    s.flush.Alike s'.flush := by
  obtain ⟨hrate, hlayout, hformat, hcapacity⟩ := hs.same_nearend h h' hs'
  have hsame : s'.layout = s.layout := h'.layout.trans h.layout.symm
  have hin := hs'.used.sound.renewed hnew
  have hout := Leads.renewed hnew hway'
  rw [hrate, hsame, hformat, hs.used.sound.renewed hnew, Except.ok.injEq, Except.ok.injEq] at hin
  rw [h'.rate, h'.format, hsame, ← h.rate, ← h.format, Leads.renewed hnew hway, Except.ok.injEq,
    Except.ok.injEq] at hout
  exact ⟨h'.layout.trans h.layout.symm, h'.frames.trans h.frames.symm, h'.bands.trans h.bands.symm,
    Intake.flush_alike hformat hrate hlayout hin.symm hcapacity, hout.symm, rfl⟩

/-- A nearend format that one of them takes the other one takes too, and nothing tells them apart
afterwards. -/
theorem Wired.changeNearend_alike {rate channels : Nat}
    (hchanged : (s.changeNearend rate channels).run = .ok (.ok t)) :
    ∃ t', (s'.changeNearend rate channels).run = .ok (.ok t') ∧ t.Alike t' := by
  obtain ⟨hrate, hlayout, hformat, hcapacity⟩ := hs.same_nearend h h' hs'
  obtain ⟨format, nearend, outputAdapter, htaken, hnearend, hway, rfl⟩ :=
    changeNearend_eq_ok.mp hchanged
  obtain ⟨adapter, hadapter, rfl⟩ := Intake.setFormat_eq_ok.mp hnearend
  rw [← hrate, ← hlayout] at hadapter
  rw [h.rate, h.layout, ← h'.rate, ← h'.layout] at hway
  refine ⟨_, changeNearend_eq_ok.mpr ⟨format, _, outputAdapter, htaken,
    Intake.setFormat_eq_ok.mpr ⟨adapter, hadapter, rfl⟩, hway, rfl⟩, ?_⟩
  exact ⟨h'.layout.trans h.layout.symm, h'.frames.trans h.frames.symm, h'.bands.trans h.bands.symm,
    Intake.flush_alike rfl hrate hlayout rfl hcapacity, rfl, rfl⟩

end Cut

end Session

namespace Context

/-- The same readiness, and the same stages switched on. -/
structure SameSwitches (c c' : Context S F) : Prop where
  farendReady : c'.farendReady = c.farendReady
  nearendReady : c'.nearendReady = c.nearendReady
  requested : c'.requested = c.requested

/-- A context whose session has an echo canceller on every lane if they come up, and on none if they
do not. -/
structure Manned (ready : Bool) (c : Context S F) (s : Session F) : Prop where
  session : c.session = some s
  sound : c.Sound
  staffed : c.Staffed
  equipped : s.Equipped ready

/-- The session that was begun as `o` goes on in its formats. -/
structure Goes (settings : Settings) (ready : Bool) (o : Session F) (c : Context S F)
    (s : Session F) : Prop extends c.Manned ready s where
  configured : c.settings = settings
  stream : o.SameStream s
  wired : s.Wired settings.ringSize

variable {c c' d d' : Context S F} {s s' t t' u o : Session F} {settings : Settings} {ready : Bool}

theorem SameSwitches.of_sessions (h : c.SameSwitches c')
    (hd : d = { c with session := d.session, workshop := d.workshop })
    (hd' : d' = { c' with session := d'.session, workshop := d'.workshop }) : d.SameSwitches d' := by
  rw [hd, hd']
  exact ⟨h.farendReady, h.nearendReady, h.requested⟩

/-- Whether audio is taken is a matter of the switches, and of whether echo cancellers come up. -/
theorem Manned.shouldRunEcho (h : c.Manned ready s) :
    c.shouldRunEcho = (c.farendReady && c.nearendReady && (c.requested.echo && ready)) := by
  rw [Context.shouldRunEcho, stageEnabled, h.session, Option.any_some,
    ← h.equipped.healthy (h.sound s h.session).sound (h.staffed.session s h.session)]
  rfl

/-- So contexts with the same switches are alike if their sessions are. -/
theorem Manned.alike (h : c.Manned ready s) (h' : c'.Manned ready s') (hswitches : c.SameSwitches c')
    (hrate : Session.Processable s.rate) (hone : s.bands = 1) (ha : s.Alike s') : c.Alike c' := by
  have hw := (h.sound s h.session).sound.works_iff.mpr hrate
  refine ⟨h.sound, h'.sound, ?_, s, s', h.session, h'.session, hw, hone, ha⟩
  rw [h.shouldRunEcho, h'.shouldRunEcho, hswitches.farendReady, hswitches.nearendReady,
    hswitches.requested]

theorem Goes.readies {engines : Engines S F} (h : c.Goes settings ready o s)
    (hready : engines.Readies o.rate (settings.echo.getD {}) ready) :
    engines.Readies s.rate (c.settings.echo.getD {}) ready := by
  rw [h.stream.rate, h.configured]
  exact hready

/-- A new session. -/
theorem init_goes {engines : Engines S F} {factory : F.Factory}
    {channels nearRate farRate delay : Nat}
    (hinit : (new settings factory).init engines channels nearRate farRate delay =
      .ok (c, .ok .initialized))
    (hmade : (Session.create settings engines.maxRate channels nearRate farRate delay).run =
      .ok (.ok o))
    (hready : engines.Readies o.rate (settings.echo.getD {}) ready) :
    ∃ s, c.Goes settings ready o s := by
  obtain ⟨-, hnot⟩ | ⟨o', w, -, hmade', hc, hsettings⟩ := init_creates engines hinit
  · exact absurd rfl hnot
  obtain rfl : o = o' := Except.ok.inj (Except.ok.inj (hmade.symm.trans hmade'))
  have hmanned : c.Manned ready _ := ⟨hc, init_sound engines (new_sound settings factory) hinit,
    (init_tended engines (new_staffed settings factory) hinit).staffed,
    Session.create_equipped hmade hready w⟩
  exact ⟨_, hmanned, hsettings, ⟨rfl, rfl, rfl, rfl, rfl⟩, (Session.create_wired hmade).of_same rfl⟩

/-- A nearend format that a session takes is taken. -/
theorem setNearendInfo_of_changed (engines : Engines S F) (hs : c.session = some s)
    {rate channels : Nat} (hchanged : (s.changeNearend rate channels).run = .ok (.ok u)) :
    ∃ d, c.setNearendInfo engines rate channels = .ok (d, .ok ()) := by
  rw [setNearendInfo, hs]
  dsimp only
  rw [hchanged]
  exact ⟨_, rfl⟩

section Calls

variable [Sample S] [Sample.Lawful S] {engines : Engines S F} {op : Operation} {answer : Answer}

theorem Manned.apply (h : c.Manned ready s) (happly : c.apply engines op = .ok (d, answer))
    (ht : d.session = some t) (he : t.Equipped ready) : d.Manned ready t :=
  ⟨ht, apply_sound engines h.sound happly, apply_staffed engines h.staffed happly, he⟩

/-- The reset after a change of the nearend format mans the context again. -/
theorem Manned.setNearendInfo (h : c.Manned ready s)
    (hready : engines.Readies s.rate (c.settings.echo.getD {}) ready) {rate channels : Nat}
    (hset : c.setNearendInfo engines rate channels = .ok (d, .ok ())) :
    ∃ u t, (s.changeNearend rate channels).run = .ok (.ok u) ∧ u.Refitted t ∧ d.Manned ready t ∧
      d = { c with session := d.session, workshop := d.workshop } := by
  have happly : c.apply engines (.setNearendInfo rate channels) = .ok (d, .outcome (.ok ())) := by
    rw [Context.apply, hset]
    rfl
  obtain ⟨-, hnot⟩ | ⟨s', u, w, hs', hchanged, hd, hsame, -⟩ := setNearendInfo_changes engines hset
  · exact absurd rfl hnot
  obtain rfl : s = s' := Option.some.inj (h.session.symm.trans hs')
  refine ⟨u, _, hchanged, Session.resetEngines_refitted engines c.settings w u,
    h.apply happly hd ?_, hsame⟩
  obtain ⟨nearend, outputAdapter, rfl, -⟩ := Session.changeNearend_cases hchanged
  exact Session.Equipped.reset hready w h.equipped

section Goes

variable (hready : engines.Readies o.rate (settings.echo.getD {}) ready)

include hready

/-- A session goes on with every call that keeps it, its nearend format and the settings. -/
theorem Goes.apply (hrate : Session.Processable o.rate) (h : c.Goes settings ready o s)
    (hop : op.Streams) (hsettings : ∀ settings, op ≠ .setEchoSettings settings)
    (happly : c.apply engines op = .ok (c', answer)) : ∃ t, c'.Goes settings ready o t := by
  obtain ⟨hends, -⟩ | ⟨t, ht, -, hmoved⟩ := apply_moves engines h.sound h.session happly
  · rcases hends with rfl | rfl <;> exact hop.elim
  have hmoved := hmoved (h.stream.rate ▸ hrate)
  have hlanes := (h.sound s h.session).sound.lanes
  have hequipped :=
    apply_equipped h.session hlanes (h.readies hready) h.equipped hop hsettings happly ht
  exact ⟨t, h.toManned.apply happly ht hequipped,
    (apply_settings engines hsettings happly).trans h.configured, hmoved.sameStream hop h.stream,
    hmoved.wired h.wired⟩

theorem run_goes (hrate : Session.Processable o.rate) (h : c.Goes settings ready o s)
    {ops : List Operation}
    (hops : ∀ op ∈ ops, op.Streams ∧ ∀ settings, op ≠ .setEchoSettings settings) {T : Transcript}
    (hrun : c.run engines ops = .ok (c', T)) : ∃ t, c'.Goes settings ready o t := by
  refine run_keeps engines (I := fun c _ => ∃ s, c.Goes settings ready o s) (t := []) ?_ ⟨s, h⟩ hrun
  rintro c _ op c' answer hop ⟨s, h⟩ happly
  exact h.apply hready hrate (hops op hop).1 (hops op hop).2 happly

/-- After a flush, or a change of the nearend format, which the one takes if the other does, nothing
tells two contexts apart that were begun alike and have the same switches. -/
theorem Goes.cut (hnew : F.resampling.Renewed) (hrate : Session.Processable o.rate)
    (h : c.Goes settings ready o s) (h' : c'.Goes settings ready o s')
    (hswitches : c.SameSwitches c') (hone : o.bands = 1)
    (hcut : c.apply engines op = .ok (d, answer)) (hclean : op.Cuts answer) :
    ∃ d', c'.apply engines op = .ok (d', answer) ∧ d.Alike d' := by
  have hbands := h.stream.bands.trans hone
  have hgood : Session.Processable s.rate := h.stream.rate ▸ hrate
  cases op with
  | flush =>
    obtain ⟨rfl, rfl⟩ := Prod.mk.inj (Except.ok.inj hcut)
    have hflush {c : Context S F} {s : Session F} (h : c.Manned ready s) :
        c.flush.Manned ready s.flush := by
      have hs : c.flush.session = some s.flush := by
        rw [flush, h.session]
        rfl
      exact h.apply (rfl : c.apply engines .flush = _) hs h.equipped
    exact ⟨c'.flush, rfl, (hflush h.toManned).alike (hflush h'.toManned)
      (hswitches.of_sessions rfl rfl) hgood hbands
      (Session.Wired.flush_alike h.stream h'.stream h.wired h'.wired hnew
        (h.sound s h.session).way (h'.sound s' h'.session).way)⟩
  | setNearendInfo rate channels =>
    obtain ⟨⟨d, result⟩, hset, hd⟩ := map_eq_ok.mp hcut
    obtain ⟨rfl, rfl⟩ := Prod.mk.inj hd
    cases result with
    | error e => exact hclean.elim
    | ok _ =>
      obtain ⟨u, t, hchanged, hrefit, hmanned, hd⟩ :=
        h.toManned.setNearendInfo (h.readies hready) hset
      obtain ⟨u', hchanged', ha⟩ :=
        Session.Wired.changeNearend_alike h.stream h'.stream h.wired h'.wired hchanged
      obtain ⟨d', hset'⟩ := setNearendInfo_of_changed engines h'.session hchanged'
      obtain ⟨v, t', hv, hrefit', hmanned', hd'⟩ :=
        h'.toManned.setNearendInfo (h'.readies hready) hset'
      obtain rfl : u' = v := Except.ok.inj (Except.ok.inj (hchanged'.symm.trans hv))
      obtain ⟨hgood, hone⟩ : Session.Processable t.rate ∧ t.bands = 1 := by
        obtain ⟨nearend, outputAdapter, rfl, -⟩ := Session.changeNearend_cases hchanged
        rw [hrefit.same]
        exact ⟨hgood, hbands⟩
      refine ⟨d', ?_, hmanned.alike hmanned' (hswitches.of_sessions hd hd') hgood hone ?_⟩
      · rw [Context.apply, hset']
        rfl
      · exact ha.of_same (by rw [hrefit.same]) (by rw [hrefit'.same])
  | _ => exact hclean.elim

end Goes

end Calls

/-- Let a reset leave resamplers as they were built, and let them refuse no block: a change of the
nearend format does not reset the farend, whose pushes the resampler answers. Then sessions of one band
are isolated from earlier audio. Two contexts with the same settings begin a session alike and then take
any calls that keep it, its nearend format and the settings, and end with the same switches. If a flush
follows, or a change of the nearend format that the one takes, then all calls from there on that move
audio are answered alike by both, with the same bytes. -/
theorem run_isolates [Sample S] [Sample.Exact S] {engines : Engines S F}
    (hR : F.resampling.Unfailing) (hnew : F.resampling.Renewed) (hcopies : engines.Copies)
    (hsteady : engines.Steady) {factory factory' : F.Factory} {channels nearRate farRate delay : Nat}
    {c₀ c₀' : Context S F} {ops ops' more : List Operation} {T T' : Transcript} {cut : Operation}
    {answer : Answer}
    (hinit : (new settings factory).init engines channels nearRate farRate delay =
      .ok (c₀, .ok .initialized))
    (hinit' : (new settings factory').init engines channels nearRate farRate delay =
      .ok (c₀', .ok .initialized))
    (hrate : c₀.processingRate? = some 8000 ∨ c₀.processingRate? = some 16000)
    (hops : ∀ op ∈ ops, op.Streams ∧ ∀ settings, op ≠ .setEchoSettings settings)
    (hops' : ∀ op ∈ ops', op.Streams ∧ ∀ settings, op ≠ .setEchoSettings settings)
    (hrun : c₀.run engines ops = .ok (c, T)) (hrun' : c₀'.run engines ops' = .ok (c', T'))
    (hswitches : c.SameSwitches c') (hcut : c.apply engines cut = .ok (d, answer))
    (hclean : cut.Cuts answer) (hmore : ∀ op ∈ more, op.MovesAudio) :
    Returns (c.run engines (cut :: more)) fun r => Returns (c'.run engines (cut :: more)) fun r' =>
      r'.2 = r.2 := by
  obtain ⟨-, hnot⟩ | ⟨o, w, -, hmade, hc₀, -⟩ := init_creates engines hinit
  · exact absurd rfl hnot
  obtain ⟨ready, hready⟩ := hsteady.readies o.rate (settings.echo.getD {})
  have hone : Session.Processable o.rate ∧ o.bands = 1 := by
    rw [(Session.create_opened hmade).1.bands]
    have hrate' : c₀.processingRate? = some o.rate := by
      rw [processingRate?, hc₀]
      rfl
    rw [hrate', Option.some.injEq, Option.some.injEq] at hrate
    rcases hrate with h | h <;> rw [h] <;> exact ⟨.inl (by decide), by decide⟩
  obtain ⟨s₀, h₀⟩ := init_goes hinit hmade hready
  obtain ⟨s₀', h₀'⟩ := init_goes hinit' hmade hready
  obtain ⟨s, h⟩ := run_goes hready hone.1 h₀ hops hrun
  obtain ⟨s', h'⟩ := run_goes hready hone.1 h₀' hops' hrun'
  obtain ⟨d', hcut', ha⟩ := h.cut hready hnew hone.1 h' hswitches hone.2 hcut hclean
  obtain ⟨r, hr, r', hr', hanswers, -⟩ := ha.run hR hcopies hmore
  rw [run_cons, run_cons, hcut, hcut', ok_bind, ok_bind, hr, hr']
  refine returns_ok (returns_ok ?_)
  show (cut, answer) :: r'.2 = (cut, answer) :: r.2
  rw [hanswers]

/-- A stream at 16 kHz that is processed at 8 kHz. The one history ends inside a sample, the other one
with output pending and a frame queued; after a flush 640 bytes come back, the same. -/
theorem run_isolates_bypass :
    ∃ (c₀ c c' d : Context Int16 Bypass.family) (T T' : Transcript)
      (r r' : Context Int16 Bypass.family × Transcript),
      (new { ringSize := 1024 } ()).init (Bypass.engines Int16 8000) 1 16000 8000 0 =
          .ok (c₀, .ok .initialized) ∧
        c₀.processingRate? = some 8000 ∧
        c₀.run (Bypass.engines Int16 8000) [.setFarendReady true, .setNearendReady true,
          .pushNearend (List.replicate 33 9)] = .ok (c, T) ∧
        c₀.run (Bypass.engines Int16 8000) [.setFarendReady true, .setNearendReady true,
          .pushNearend (List.replicate 700 5), .tryProcess (List.replicate 100 0)] = .ok (c', T') ∧
        c.SameSwitches c' ∧ c.apply (Bypass.engines Int16 8000) .flush = .ok (d, .done) ∧
        c.run (Bypass.engines Int16 8000) [.flush, .pushNearend (List.replicate 960 7),
          .tryProcess (List.replicate 640 0)] = .ok r ∧
        c'.run (Bypass.engines Int16 8000) [.flush, .pushNearend (List.replicate 960 7),
          .tryProcess (List.replicate 640 0)] = .ok r' ∧
        r'.2 = r.2 ∧ r.2.heard.length = 640 := by
  obtain ⟨c₀, hinit, hrate⟩ : ∃ c₀ : Context Int16 Bypass.family,
      (new { ringSize := 1024 } ()).init (Bypass.engines Int16 8000) 1 16000 8000 0 =
          .ok (c₀, .ok .initialized) ∧ c₀.processingRate? = some 8000 := ⟨_, rfl, rfl⟩
  have hvalues : ((new { ringSize := 1024 } () : Context Int16 Bypass.family).init
      (Bypass.engines Int16 8000) 1 16000 8000 0 >>=
      fun q => q.1.run (Bypass.engines Int16 8000) [.setFarendReady true, .setNearendReady true,
        .pushNearend (List.replicate 33 9)] >>= fun p =>
      q.1.run (Bypass.engines Int16 8000) [.setFarendReady true, .setNearendReady true,
        .pushNearend (List.replicate 700 5), .tryProcess (List.replicate 100 0)] >>= fun p' =>
      p.1.run (Bypass.engines Int16 8000) [.flush, .pushNearend (List.replicate 960 7),
        .tryProcess (List.replicate 640 0)] >>= fun r =>
      .ok ((p.1.farendReady, p.1.nearendReady, p.1.requested),
        (p'.1.farendReady, p'.1.nearendReady, p'.1.requested), r.2.heard.length)) =
      .ok ((true, true, .const true), (true, true, .const true), 640) := by
    decide +kernel
  rw [hinit, ok_bind] at hvalues
  obtain ⟨⟨c, T⟩, hrun, hvalues⟩ := bind_eq_ok.mp hvalues
  obtain ⟨⟨c', T'⟩, hrun', hvalues⟩ := bind_eq_ok.mp hvalues
  obtain ⟨q, hq, hvalues⟩ := bind_eq_ok.mp hvalues
  simp only [Except.ok.injEq, Prod.mk.injEq] at hvalues
  obtain ⟨⟨hfar, hnear, hrequested⟩, ⟨hfar', hnear', hrequested'⟩, hlength⟩ := hvalues
  have hswitches : c.SameSwitches c' :=
    ⟨hfar'.trans hfar.symm, hnear'.trans hnear.symm, hrequested'.trans hrequested.symm⟩
  have hops : ∀ op ∈ [Operation.setFarendReady true, .setNearendReady true,
      .pushNearend (List.replicate 33 9)], op.Streams ∧ ∀ settings, op ≠ .setEchoSettings settings := by
    simp [Operation.Streams]
  have hops' : ∀ op ∈ [Operation.setFarendReady true, .setNearendReady true,
      .pushNearend (List.replicate 700 5), .tryProcess (List.replicate 100 0)],
      op.Streams ∧ ∀ settings, op ≠ .setEchoSettings settings := by
    intro op hop
    simp only [List.mem_cons, List.not_mem_nil, or_false] at hop
    rcases hop with rfl | rfl | rfl | rfl <;> refine ⟨trivial, fun settings h => ?_⟩ <;> cases h
  have hmore : ∀ op ∈ [Operation.pushNearend (List.replicate 960 7),
      .tryProcess (List.replicate 640 0)], op.MovesAudio := by
    intro op hop
    simp only [List.mem_cons, List.not_mem_nil, or_false] at hop
    rcases hop with rfl | rfl <;> trivial
  obtain ⟨r, hr, r', hr', hsame⟩ := run_isolates Resample.spectral_unfailing
    Resample.spectral_renewed (Bypass.engines_copies Int16 8000) (Bypass.engines_steady Int16 8000) hinit hinit
    (.inl hrate) hops hops' hrun hrun' hswitches
    (rfl : c.apply (Bypass.engines Int16 8000) .flush = _) trivial hmore
  obtain rfl : q = r := Except.ok.inj (hq.symm.trans hr)
  exact ⟨c₀, c, c', c.flush, T, T', q, r', hinit, hrate, hrun, hrun', hswitches, rfl, hr, hr', hsame,
    hlength⟩

end Context

end Duplex
