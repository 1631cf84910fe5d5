import Duplex.Proofs.Draining
import Duplex.Proofs.Rates

/-!
# Moving: what calls do to buffered audio

A call in a session ends it, or leaves its audio alone, or does one of a few things to the intakes,
the way back to the nearend rate and what is pending (`Session.Moved`). So what a new session has
and each of these keeps holds of the session of every context that calls bring about
(`run_session`).
-/

namespace Duplex

open Signal Engine

variable {S : Type} {F : Family}

namespace Session

/-- What is of no account to buffered audio changed, and nothing was lost. -/
structure Quiet (s t : Session F) : Prop where
  same : t = { s with
    delay := t.delay, healthy := t.healthy, micLevel := t.micLevel, lanes := t.lanes
    stats := t.stats }
  losses : s.stats.SameLosses t.stats

theorem Quiet.refl (s : Session F) : s.Quiet s := ⟨rfl, .refl _⟩

theorem Refitted.quiet {s t : Session F} (h : s.Refitted t) : s.Quiet t := by
  refine ⟨?_, ?_⟩ <;> rw [h.same]
  exact .refl _

theorem Advanced.quiet {s t : Session F} (h : s.Advanced t) : s.Quiet t := by
  refine ⟨?_, h.losses⟩
  rw [h.same]

section Reads

variable [Sample S] [Sample.Lawful S] (engines : Engines S F) {s t : Session F} {settings : FrameSettings}

/-- Buffered processing takes nearend audio off. -/
theorem produce_reads (hs : s.Sound) (hset : settings.For s.frames s.bands) {budget missing : Nat}
    {made : Produced S F} (h : produce engines settings budget missing s = .ok made) :
    ∃ ns : List Nat, made.session.nearend = ns.foldl (fun i n => (i.read n).1) s.nearend := by
  induction budget generalizing s missing made with
  | zero =>
    obtain rfl : _ = made := Except.ok.inj h
    exact ⟨[], rfl⟩
  | succ budget ih =>
    rw [produce] at h
    split at h
    · obtain rfl : _ = made := Except.ok.inj h
      exact ⟨[], rfl⟩
    have hread : s.Kin (s.readFrame (S := S)).1 := kin_readFrame s
    have hnearend : (s.readFrame (S := S)).1.nearend = (s.nearend.read s.frameBytes).1 := by
      rw [readFrame_eq]
    generalize s.readFrame (S := S) = read at h hread hnearend
    obtain ⟨⟨t, run, out, result⟩, hprocess, h⟩ := bind_eq_ok.mp h
    have hadvanced : read.1.Advanced t :=
      process_advances engines (hread.sound hs) (hread.settings hset) hprocess
    have ht : t.nearend = (s.nearend.read s.frameBytes).1 := by rw [hadvanced.same, hnearend]
    cases result with
    | error e =>
      obtain rfl : _ = made := Except.ok.inj h
      exact ⟨[s.frameBytes], ht⟩
    | ok written =>
      have hkin := (hread.trans hadvanced.kin).trans (kin_convertOutput t (out.take written))
      have hnext : (t.convertOutput (out.take written)).1.nearend = (s.nearend.read s.frameBytes).1 := by
        rw [convertOutput_same, ht]
      dsimp only at h
      generalize t.convertOutput (out.take written) = conversion at h hkin hnext
      obtain ⟨u, bytes, converted⟩ := conversion
      cases converted with
      | error e =>
        obtain rfl : _ = made := Except.ok.inj h
        exact ⟨[s.frameBytes], hnext⟩
      | ok done =>
        obtain ⟨rest, hrest, h⟩ := bind_eq_ok.mp h
        obtain rfl : _ = made := Except.ok.inj h
        obtain ⟨ns, hns⟩ := ih (hkin.sound hs) (hkin.settings hset) hrest
        refine ⟨s.frameBytes :: ns, ?_⟩
        rw [List.foldl_cons, ← hnext]
        exact hns

theorem tryProcess_reads (hs : s.Sound) (hset : settings.For s.frames s.bands) {dest : List UInt8}
    {r : Session F × Journal S × List UInt8 × Except Error Nat}
    (h : s.tryProcess engines settings dest = .ok r) :
    ∃ ns : List Nat, r.1.nearend = ns.foldl (fun i n => (i.read n).1) s.nearend := by
  obtain ⟨made, hmade, h⟩ := bind_eq_ok.mp h
  have hreads := produce_reads engines hs hset hmade
  dsimp only at h
  split at h
  · obtain rfl : _ = r := Except.ok.inj h
    exact hreads
  · obtain rfl : _ = r := Except.ok.inj h
    exact hreads

end Reads

variable [Sample S]

/-- What a call can do to the audio of the session that it is made in, and what it answers. Where the
resampler may fail on the way back, buffered processing may hold before it is done. -/
inductive Moved (engines : Engines S F) (s : Session F) : Operation → Answer → Session F → Prop where
  | quiet {op : Operation} {answer : Answer} {t : Session F} (same : s.Quiet t)
    (untried : ∀ dest, op ≠ .tryProcess dest)
    (taken : Transcript.taken .nearend [(op, answer)] = [])
    (heard : Transcript.heard [(op, answer)] = []) : Moved engines s op answer t
  | pushFarend (bytes : List UInt8) :
    Moved engines s (.pushFarend bytes) (.taken (takenOf bytes (s.farend.push bytes).2)) { s with
      farend := (s.farend.push bytes).1
      stats := { s.stats with
        droppedFarend := s.stats.droppedFarend + lostOf (s.farend.push bytes).2 } }
  | pushNearend (bytes : List UInt8) :
    Moved engines s (.pushNearend bytes) (.taken (takenOf bytes (s.nearend.push bytes).2)) { s with
      nearend := (s.nearend.push bytes).1
      stats := { s.stats with
        droppedNearend := s.stats.droppedNearend + lostOf (s.nearend.push bytes).2 } }
  | tryProcess {settings : FrameSettings} {dest : List UInt8} {outs : List (List UInt8)}
    {u : Session F} {n : Nat} (shape : settings.For s.frames s.bands)
    (drains : Drains engines settings (dest.length - s.pending.length) s outs u)
    (count : n = min dest.length (s.pending ++ outs.flatten).length) :
    Moved engines s (.tryProcess dest)
      (.bytes ((s.pending ++ outs.flatten).take n ++ dest.drop n) (.ok n))
      { u with pending := (s.pending ++ outs.flatten).drop n }
  | held {dest : List UInt8} {answer : Answer} {t : Session F} (failing : ¬ s.Returning) (kin : s.Kin t)
    (reads : ∃ ns : List Nat, t.nearend = ns.foldl (fun i n => (i.read n).1) s.nearend) :
    Moved engines s (.tryProcess dest) answer t
  | flush : Moved engines s .flush .done s.flush
  | setFarendInfo {rate channels : Nat} {format : StreamFormat} {farend : Intake F.resampling}
    {t : Session F}
    (taken : formatOf rate channels = .ok format)
    (changed : (s.farend.setFormat format).run = .ok (.ok farend))
    (same : { s with farend }.Quiet t) :
    Moved engines s (.setFarendInfo rate channels) (.outcome (.ok ())) t
  | setNearendInfo {rate channels : Nat} {format : StreamFormat}
    {nearend : Intake F.resampling} {outputAdapter : Option (RateAdapter F.resampling)} {t : Session F}
    (taken : formatOf rate channels = .ok format)
    (changed : (s.nearend.setFormat format).run = .ok (.ok nearend))
    (way : (adapterBetween s.rate rate s.layout.channels).run = .ok (.ok outputAdapter))
    (same : { s with nearend, outputAdapter, pending := [] }.Quiet t) :
    Moved engines s (.setNearendInfo rate channels) (.outcome (.ok ())) t

end Session

namespace Context

variable (engines : Engines S F) {c c' : Context S F} {s : Session F}

theorem retain_session (c : Context S F) : c.retain.1.session = c.session := by
  rw [retain]
  split <;> rfl

theorem release_session (c : Context S F) :
    c.release.1.session = none ∨ c.release.1.session = c.session := by
  rw [release]
  by_cases hnone : c.references = 0
  · exact .inr (by rw [if_pos hnone])
  rw [if_neg hnone]
  by_cases hlast : c.references - 1 = 0
  · exact .inl (by rw [if_pos hlast, fini_session])
  · exact .inr (by rw [if_neg hlast])

/-- Whether a call ended the session or did something to its audio; that is known at the rates where
processing works. -/
def Moves [Sample S] (s : Session F) (op : Operation) (answer : Answer) (c' : Context S F) : Prop :=
  (op = .fini ∨ op = .release) ∧ c'.session = none ∨
    ∃ t, c'.session = some t ∧ t.rate = s.rate ∧
      (Session.Processable s.rate → s.Moved engines op answer t)

section Moves

variable {op : Operation} {answer : Answer} {t : Session F}

section Quiet

variable [Sample S]

theorem moves_of_quiet (ht : c'.session = some t) (hsame : s.Quiet t)
    (hop : ∀ dest, op ≠ .tryProcess dest) (htaken : Transcript.taken .nearend [(op, answer)] = [])
    (hheard : Transcript.heard [(op, answer)] = []) : Moves engines s op answer c' := by
  refine .inr ⟨t, ht, ?_, fun _ => .quiet hsame hop htaken hheard⟩
  rw [hsame.same]

theorem moves_of_same (hc' : c'.session = some s) (hop : ∀ dest, op ≠ .tryProcess dest)
    (htaken : Transcript.taken .nearend [(op, answer)] = [])
    (hheard : Transcript.heard [(op, answer)] = []) : Moves engines s op answer c' :=
  moves_of_quiet engines hc' (.refl s) hop htaken hheard

theorem setFarendInfo_moves (hs : c.session = some s) {rate channels : Nat}
    {r : Except Error Unit} (h : c.setFarendInfo engines rate channels = .ok (c', r)) :
    Moves engines s (.setFarendInfo rate channels) (.outcome r) c' := by
  obtain ⟨rfl, -⟩ | ⟨s', u, w, hs', hchanged, hc', -, rfl⟩ := setFarendInfo_changes engines h
  · exact moves_of_same engines hs (by simp) rfl rfl
  obtain rfl : s = s' := Option.some.inj (hs.symm.trans hs')
  obtain ⟨format, farend, hformat, hfarend, rfl⟩ := Session.changeFarend_eq_ok hchanged
  have hrefit := Session.resetEngines_refitted engines c.settings w { s with farend }
  exact .inr ⟨_, hc', rfl, fun _ => .setFarendInfo hformat hfarend hrefit.quiet⟩

theorem setNearendInfo_moves (hs : c.session = some s) {rate channels : Nat}
    {r : Except Error Unit} (h : c.setNearendInfo engines rate channels = .ok (c', r)) :
    Moves engines s (.setNearendInfo rate channels) (.outcome r) c' := by
  obtain ⟨rfl, -⟩ | ⟨s', u, w, hs', hchanged, hc', -, rfl⟩ := setNearendInfo_changes engines h
  · exact moves_of_same engines hs (by simp) rfl rfl
  obtain rfl : s = s' := Option.some.inj (hs.symm.trans hs')
  obtain ⟨format, nearend, outputAdapter, hformat, hnearend, hway, rfl⟩ :=
    Session.changeNearend_eq_ok.mp hchanged
  have hrefit := Session.resetEngines_refitted engines c.settings w
    { s with nearend, outputAdapter, pending := [] }
  exact .inr ⟨_, hc', rfl, fun _ => .setNearendInfo hformat hnearend hway hrefit.quiet⟩

theorem pushFarend_moves (hs : c.session = some s) (bytes : List UInt8) :
    Moves engines s (.pushFarend bytes) (.taken (c.pushFarend bytes).2) (c.pushFarend bytes).1 := by
  rcases c.open_or_closed with ⟨s', hs', hrun⟩ | hclosed
  · obtain ⟨w, hpush⟩ := pushFarend_open hs hrun bytes
    rw [hpush]
    exact .inr ⟨_, rfl, rfl, fun _ => .pushFarend bytes⟩
  · refine moves_of_same engines ?_ (by simp) (Transcript.taken_of_closed hclosed _ bytes).1 rfl
    rw [(push_closed hclosed bytes).1.1, hs]

theorem pushNearend_moves (hs : c.session = some s) (bytes : List UInt8) :
    Moves engines s (.pushNearend bytes) (.taken (c.pushNearend bytes).2)
      (c.pushNearend bytes).1 := by
  rcases c.open_or_closed with ⟨s', hs', hrun⟩ | hclosed
  · obtain ⟨w, hpush⟩ := pushNearend_open hs hrun bytes
    rw [hpush]
    exact .inr ⟨_, rfl, rfl, fun _ => .pushNearend bytes⟩
  · refine moves_of_same engines ?_ (by simp) (Transcript.taken_of_closed hclosed _ bytes).2 rfl
    rw [(push_closed hclosed bytes).2.1, hs]

end Quiet

variable [Sample S] [Sample.Lawful S]

/-- Buffered processing hands out the front of what is pending after the loop. -/
theorem tryProcess_drains (hs : c.session = some s) (hsound : s.Sound) (hw : s.Works)
    (hback : s.Returning) (dest : List UInt8) :
    Returns (c.tryProcess engines dest) fun r =>
      ∃ (u : Session F) (outs : List (List UInt8)) (n : Nat),
        Session.Drains engines (c.frameSettings s true) (dest.length - s.pending.length) s outs u ∧
          n = min dest.length (s.pending ++ outs.flatten).length ∧
          r.1 = { c with
            session := some { u with pending := (s.pending ++ outs.flatten).drop n }
            workshop := r.1.workshop } ∧
          r.2 = ((s.pending ++ outs.flatten).take n ++ dest.drop n, .ok n) := by
  rw [tryProcess, hs]
  refine (Session.tryProcess_drains hsound (c.frameSettings_for s true) hw hback dest).bind ?_
  rintro r ⟨u, outs, n, hdrains, hn, hsession, hanswer⟩
  refine returns_ok ⟨u, outs, n, hdrains, hn, ?_, hanswer⟩
  rw [← hsession]

theorem tryProcess_moves (h : c.Sound) (hs : c.session = some s) {dest : List UInt8}
    {r : Context S F × List UInt8 × Except Error Nat} (hr : c.tryProcess engines dest = .ok r) :
    Moves engines s (.tryProcess dest) (.bytes r.2.1 r.2.2) r.1 := by
  have hsound := (h s hs).sound
  have hset := c.frameSettings_for s true
  obtain ⟨hnone, -⟩ | ⟨s', t, journal, hs', ht, hr'⟩ := tryProcess_cases engines hr
  · rw [hs] at hnone
    simp at hnone
  obtain rfl : s = s' := Option.some.inj (hs.symm.trans hs')
  have hkin := Session.tryProcess_kin engines hsound hset ht
  refine .inr ⟨t, by rw [hr'], hkin.rate, ?_⟩
  intro hrate
  by_cases hback : s.Returning
  · obtain ⟨u, outs, n, hdrains, hn, hsession, hanswer⟩ :=
      (tryProcess_drains engines hs hsound (hsound.works_iff.mpr hrate) hback dest).elim hr
    obtain rfl : t = _ := Option.some.inj (congrArg Context.session (hr'.symm.trans hsession))
    rw [show r.2 = (r.2.1, r.2.2) from rfl, Prod.mk.injEq] at hanswer
    rw [hanswer.1, hanswer.2]
    exact .tryProcess hset hdrains hn
  · exact .held hback hkin (Session.tryProcess_reads engines hsound hset ht)

/-- What a call does in a session. -/
theorem apply_moves (h : c.Sound) (hs : c.session = some s)
    (happly : c.apply engines op = .ok (c', answer)) : Moves engines s op answer c' := by
  cases op with
  | init channels nearRate farRate delay =>
    obtain ⟨⟨c'', r⟩, hr, hc'⟩ := map_eq_ok.mp happly
    obtain ⟨rfl, rfl⟩ := Prod.mk.inj hc'
    obtain ⟨rfl, -⟩ | ⟨_, _, hnone, -⟩ := init_creates engines hr
    · exact moves_of_same engines hs (by simp) rfl rfl
    · rw [hs] at hnone
      simp at hnone
  | fini =>
    obtain ⟨rfl, rfl⟩ := Prod.mk.inj (Except.ok.inj happly)
    exact .inl ⟨.inl rfl, c.fini_session⟩
  | retain =>
    obtain ⟨rfl, rfl⟩ := Prod.mk.inj (Except.ok.inj happly)
    exact moves_of_same engines (c.retain_session.trans hs) (by simp) rfl rfl
  | release =>
    obtain ⟨rfl, rfl⟩ := Prod.mk.inj (Except.ok.inj happly)
    rcases c.release_session with hnone | hsame
    · exact .inl ⟨.inr rfl, hnone⟩
    · exact moves_of_same engines (hsame.trans hs) (by simp) rfl rfl
  | reset =>
    obtain ⟨rfl, rfl⟩ := Prod.mk.inj (Except.ok.inj happly)
    obtain ⟨t, ht, hrefit, -⟩ := reset_session engines hs
    exact moves_of_quiet engines ht hrefit.quiet (by simp) rfl rfl
  | setFarendReady ready | setNearendReady ready | setStageEnabled stage enabled =>
    obtain ⟨rfl, rfl⟩ := Prod.mk.inj (Except.ok.inj happly)
    exact moves_of_same engines hs (by simp) rfl rfl
  | setFarendInfo rate channels =>
    obtain ⟨⟨c'', r⟩, hr, hc'⟩ := map_eq_ok.mp happly
    obtain ⟨rfl, rfl⟩ := Prod.mk.inj hc'
    exact setFarendInfo_moves engines hs hr
  | setNearendInfo rate channels =>
    obtain ⟨⟨c'', r⟩, hr, hc'⟩ := map_eq_ok.mp happly
    obtain ⟨rfl, rfl⟩ := Prod.mk.inj hc'
    exact setNearendInfo_moves engines hs hr
  | setDelay delay =>
    obtain ⟨rfl, rfl⟩ := Prod.mk.inj (Except.ok.inj happly)
    have hdelay : (c.setDelay delay).1.session = some { s with delay } := by rw [setDelay, hs]
    exact moves_of_quiet engines hdelay ⟨rfl, .refl _⟩ (by simp) rfl rfl
  | setEchoSettings settings =>
    obtain ⟨rfl, rfl⟩ := Prod.mk.inj (Except.ok.inj happly)
    obtain ⟨t, ht, hrefit⟩ := setEchoSettings_session engines settings hs
    exact moves_of_quiet engines ht hrefit.quiet (by simp) rfl rfl
  | flush =>
    obtain ⟨rfl, rfl⟩ := Prod.mk.inj (Except.ok.inj happly)
    refine .inr ⟨s.flush, ?_, rfl, fun _ => .flush⟩
    rw [Context.flush, hs]
    rfl
  | pushFarend bytes =>
    obtain ⟨rfl, rfl⟩ := Prod.mk.inj (Except.ok.inj happly)
    exact pushFarend_moves engines hs bytes
  | pushNearend bytes =>
    obtain ⟨rfl, rfl⟩ := Prod.mk.inj (Except.ok.inj happly)
    exact pushNearend_moves engines hs bytes
  | process farend nearend out =>
    obtain ⟨r, hr, hc'⟩ := map_eq_ok.mp happly
    obtain ⟨rfl, rfl⟩ := Prod.mk.inj hc'
    obtain ⟨hnone, -⟩ | ⟨s', t, journal, hs', ht, hr⟩ := process_cases engines hr
    · rw [hs] at hnone
      simp at hnone
    obtain rfl : s = s' := Option.some.inj (hs.symm.trans hs')
    have hadvanced :=
      Session.process_advances engines (h s hs).sound (c.frameSettings_for s _) ht
    exact moves_of_quiet engines (by rw [hr]) hadvanced.quiet (by simp) rfl rfl
  | tryProcess dest =>
    obtain ⟨r, hr, hc'⟩ := map_eq_ok.mp happly
    obtain ⟨rfl, rfl⟩ := Prod.mk.inj hc'
    exact tryProcess_moves engines h hs hr

/-- In a session every call gives a result, at the rates where processing works and adapters can
start from. -/
theorem apply_returns (h : c.Sound) (hs : c.session = some s) (hrate : Session.Processable s.rate)
    (hmin : minSampleRate ≤ s.rate) (op : Operation) :
    Returns (c.apply engines op) fun _ => True := by
  have hsound := (h s hs).sound
  have hw := hsound.works_iff.mpr hrate
  cases op with
  | init channels nearRate farRate delay =>
    rw [apply, init, if_pos (by rw [hs]; rfl)]
    exact returns_ok trivial
  | setFarendInfo rate channels =>
    exact (setFarendInfo_answers engines c rate channels).map fun _ _ => trivial
  | setNearendInfo rate channels =>
    have hset : Returns (c.setNearendInfo engines rate channels) fun _ => True := by
      simp only [setNearendInfo, hs]
      refine (Session.changeNearend_answers hmin rate channels).bind fun changed _ => ?_
      cases changed <;> exact returns_ok trivial
    exact hset.map fun _ _ => trivial
  | process farend nearend out =>
    have hprocess : Returns (c.process engines farend nearend out) fun _ => True := by
      simp only [process, hs]
      exact (Session.process_returns engines hsound (c.frameSettings_for s _) hw farend nearend
        out).bind fun _ _ => returns_ok trivial
    exact hprocess.map fun _ _ => trivial
  | tryProcess dest =>
    have hprocess : Returns (c.tryProcess engines dest) fun _ => True := by
      simp only [tryProcess, hs]
      exact (Session.tryProcess_returns engines hsound (c.frameSettings_for s _) hw dest).bind
        fun _ _ => returns_ok trivial
    exact hprocess.map fun _ _ => trivial
  | _ => exact returns_ok trivial

omit [Sample.Lawful S] in
/-- Without a session a call begins one or does nothing to it. -/
theorem apply_begins (hs : c.session = none) (happly : c.apply engines op = .ok (c', answer)) :
    c'.session = none ∨ ∃ (channels nearRate farRate delay : Nat) (s t : Session F),
      (Session.create c.settings engines.maxRate channels nearRate farRate delay).run = .ok (.ok s) ∧
        s.Quiet t ∧ c'.session = some t := by
  have hnone : c.session.isSome = false := by rw [hs]; rfl
  cases op with
  | init channels nearRate farRate delay =>
    obtain ⟨⟨c'', r⟩, hr, hc'⟩ := map_eq_ok.mp happly
    obtain ⟨rfl, rfl⟩ := Prod.mk.inj hc'
    obtain ⟨rfl, -⟩ | ⟨s, w, -, hmade, hc', -⟩ := init_creates engines hr
    · exact .inl hs
    · exact .inr ⟨_, _, _, _, s, _, hmade,
        (Session.resetEngines_refitted engines c.settings w s).quiet, hc'⟩
  | fini =>
    obtain ⟨rfl, rfl⟩ := Prod.mk.inj (Except.ok.inj happly)
    exact .inl c.fini_session
  | retain =>
    obtain ⟨rfl, rfl⟩ := Prod.mk.inj (Except.ok.inj happly)
    exact .inl (c.retain_session.trans hs)
  | release =>
    obtain ⟨rfl, rfl⟩ := Prod.mk.inj (Except.ok.inj happly)
    rcases c.release_session with hnone | hsame
    · exact .inl hnone
    · exact .inl (hsame.trans hs)
  | reset | setDelay delay | pushFarend bytes | pushNearend bytes =>
    simp only [apply, reset, setDelay, pushFarend, pushNearend, hs] at happly
    obtain ⟨rfl, rfl⟩ := Prod.mk.inj (Except.ok.inj happly)
    exact .inl hs
  | setFarendReady ready | setNearendReady ready | setStageEnabled stage enabled =>
    obtain ⟨rfl, rfl⟩ := Prod.mk.inj (Except.ok.inj happly)
    exact .inl hs
  | setFarendInfo rate channels | setNearendInfo rate channels =>
    simp only [apply, setFarendInfo, setNearendInfo, hs] at happly
    obtain ⟨rfl, rfl⟩ := Prod.mk.inj (Except.ok.inj happly)
    exact .inl hs
  | setEchoSettings settings | flush =>
    simp only [apply, setEchoSettings, flush, hs] at happly
    obtain ⟨rfl, rfl⟩ := Prod.mk.inj (Except.ok.inj happly)
    exact .inl (by first | exact hs | rfl)
  | process farend nearend out | tryProcess dest =>
    simp only [apply, process, tryProcess, hs] at happly
    obtain ⟨rfl, rfl⟩ := Prod.mk.inj (Except.ok.inj happly)
    exact .inl hs

omit [Sample.Lawful S] in
/-- Only new settings of the echo canceller change the settings. -/
theorem apply_settings (hop : ∀ settings, op ≠ .setEchoSettings settings)
    (happly : c.apply engines op = .ok (c', answer)) : c'.settings = c.settings := by
  cases op with
  | init channels nearRate farRate delay =>
    obtain ⟨⟨c'', r⟩, hr, hc'⟩ := map_eq_ok.mp happly
    obtain ⟨rfl, rfl⟩ := Prod.mk.inj hc'
    obtain ⟨rfl, -⟩ | ⟨_, _, -, -, -, hsettings⟩ := init_creates engines hr
    · rfl
    · exact hsettings
  | fini =>
    have hfini : c.fini.settings = c.settings := by
      rw [fini]
      split <;> rfl
    exact (Prod.mk.inj (Except.ok.inj happly)).1 ▸ hfini
  | retain =>
    have hretain : c.retain.1.settings = c.settings := by
      rw [retain]
      split <;> rfl
    exact (Prod.mk.inj (Except.ok.inj happly)).1 ▸ hretain
  | release =>
    have hrelease : c.release.1.settings = c.settings := by
      unfold release fini
      split
      · rfl
      · split
        · split <;> rfl
        · rfl
    exact (Prod.mk.inj (Except.ok.inj happly)).1 ▸ hrelease
  | reset =>
    have hreset : (c.reset engines).1.settings = c.settings := by
      rw [reset]
      split <;> rfl
    exact (Prod.mk.inj (Except.ok.inj happly)).1 ▸ hreset
  | setFarendReady ready | setNearendReady ready | setStageEnabled stage enabled | flush =>
    exact (Prod.mk.inj (Except.ok.inj happly)).1 ▸ rfl
  | setFarendInfo rate channels =>
    obtain ⟨⟨c'', r⟩, hr, hc'⟩ := map_eq_ok.mp happly
    obtain ⟨rfl, rfl⟩ := Prod.mk.inj hc'
    obtain ⟨rfl, -⟩ | ⟨_, _, _, -, -, -, hsame, -⟩ := setFarendInfo_changes engines hr
    · rfl
    · rw [hsame]
  | setNearendInfo rate channels =>
    obtain ⟨⟨c'', r⟩, hr, hc'⟩ := map_eq_ok.mp happly
    obtain ⟨rfl, rfl⟩ := Prod.mk.inj hc'
    obtain ⟨rfl, -⟩ | ⟨_, _, _, -, -, -, hsame, -⟩ := setNearendInfo_changes engines hr
    · rfl
    · rw [hsame]
  | setDelay delay =>
    have hdelay : (c.setDelay delay).1.settings = c.settings := by
      rw [setDelay]
      split <;> rfl
    exact (Prod.mk.inj (Except.ok.inj happly)).1 ▸ hdelay
  | setEchoSettings settings => exact absurd rfl (hop settings)
  | pushFarend bytes =>
    have hpush : (c.pushFarend bytes).1.settings = c.settings := by
      rcases c.open_or_closed with ⟨s, hs, hrun⟩ | hclosed
      · obtain ⟨w, hpush⟩ := pushFarend_open hs hrun bytes
        rw [hpush]
      · rw [(push_closed hclosed bytes).1.1]
    exact (Prod.mk.inj (Except.ok.inj happly)).1 ▸ hpush
  | pushNearend bytes =>
    have hpush : (c.pushNearend bytes).1.settings = c.settings := by
      rcases c.open_or_closed with ⟨s, hs, hrun⟩ | hclosed
      · obtain ⟨w, hpush⟩ := pushNearend_open hs hrun bytes
        rw [hpush]
      · rw [(push_closed hclosed bytes).2.1]
    exact (Prod.mk.inj (Except.ok.inj happly)).1 ▸ hpush
  | process farend nearend out =>
    obtain ⟨r, hr, hc'⟩ := map_eq_ok.mp happly
    obtain ⟨rfl, rfl⟩ := Prod.mk.inj hc'
    obtain ⟨-, rfl⟩ | ⟨_, _, _, -, -, hsame⟩ := process_cases engines hr
    · rfl
    · rw [hsame]
  | tryProcess dest =>
    obtain ⟨r, hr, hc'⟩ := map_eq_ok.mp happly
    obtain ⟨rfl, rfl⟩ := Prod.mk.inj hc'
    obtain ⟨-, rfl⟩ | ⟨_, _, _, -, -, hsame⟩ := tryProcess_cases engines hr
    · rfl
    · rw [hsame]

omit [Sample.Lawful S] in
/-- No call changes the size of the rings. -/
theorem apply_ringSize (happly : c.apply engines op = .ok (c', answer)) :
    c'.settings.ringSize = c.settings.ringSize := by
  by_cases hop : ∃ settings, op = .setEchoSettings settings
  · obtain ⟨settings, rfl⟩ := hop
    have hset : (c.setEchoSettings engines settings).settings.ringSize = c.settings.ringSize := by
      rw [setEchoSettings]
      split <;> rfl
    exact (Prod.mk.inj (Except.ok.inj happly)).1 ▸ hset
  · rw [apply_settings engines (fun settings h => hop ⟨settings, h⟩) happly]

/-- What every new session has, with the rings of the configured size, and every call keeps holds of
the session that calls bring about, at the rates where processing works. -/
theorem run_session {J : Session F → Prop} {ops : List Operation} {c₀ : Context S F} {t : Transcript}
    (hnew : ∀ (settings : Settings) (channels nearRate farRate delay : Nat) (s u : Session F),
      settings.ringSize = c₀.settings.ringSize →
      (Session.create settings engines.maxRate channels nearRate farRate delay).run = .ok (.ok s) →
      Session.Processable s.rate → s.Quiet u → J u)
    (hkeep : ∀ s op answer u, op ∈ ops → s.Valid → Session.Processable s.rate → J s →
      s.Moved engines op answer u → J u)
    (h₀ : c₀.session = none) (hrun : c₀.run engines ops = .ok (c, t)) (hs : c.session = some s)
    (hrate : Session.Processable s.rate) : J s := by
  have hstep : ∀ (c : Context S F) (t : Transcript) (op : Operation) (c' : Context S F)
      (answer : Answer), op ∈ ops →
      (c.Sound ∧ c.settings.ringSize = c₀.settings.ringSize ∧
        ∀ s, c.session = some s → Session.Processable s.rate → J s) →
      c.apply engines op = .ok (c', answer) →
      c'.Sound ∧ c'.settings.ringSize = c₀.settings.ringSize ∧
        ∀ s, c'.session = some s → Session.Processable s.rate → J s := by
    rintro c t op c' answer hop ⟨hsound, hsize, hsession⟩ happly
    refine ⟨apply_sound engines hsound happly, (apply_ringSize engines happly).trans hsize, ?_⟩
    intro u hu hrate
    rcases hs : c.session with _ | s
    · obtain hnone | ⟨_, _, _, _, s, u', hmade, hquiet, hu'⟩ := apply_begins engines hs happly
      · rw [hu] at hnone
        simp at hnone
      · obtain rfl : u = u' := Option.some.inj (hu.symm.trans hu')
        have hkept : u.rate = s.rate := by rw [hquiet.same]
        exact hnew _ _ _ _ _ s u hsize hmade (hkept ▸ hrate) hquiet
    · obtain ⟨-, hnone⟩ | ⟨u', hu', hkept, hmoved⟩ := apply_moves engines hsound hs happly
      · rw [hu] at hnone
        simp at hnone
      · obtain rfl : u = u' := Option.some.inj (hu.symm.trans hu')
        rw [hkept] at hrate
        exact hkeep s op answer u hop (hsound s hs) hrate (hsession s hs hrate) (hmoved hrate)
  have hstart : ∀ s, c₀.session = some s → Session.Processable s.rate → J s := by
    intro s hs
    rw [h₀] at hs
    simp at hs
  exact (run_keeps engines hstep (t := []) ⟨sound_of_none h₀, rfl, hstart⟩ hrun).2.2 s hs hrate

end Moves

end Context

end Duplex
