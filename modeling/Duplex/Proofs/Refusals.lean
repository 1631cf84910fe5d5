import Duplex.Engine.Bypass
import Duplex.Proofs.Context
import Duplex.Proofs.Spectral

/-!
# Refusals: calls that answer an error

A call that is refused leaves the context as it was, down to the journal, so that no engine was
called; only buffered processing keeps what it did before the error, and so does a push of which the
resampler refuses a block. Making a session, changing its formats and bringing its engines up are
sequences of steps of which several can be refused. `applyInPlace` takes them on the session as it
stands and keeps what was done before an error. Every refusal comes before the first change, but for
that of an adapter back to the nearend rate. Where there is an adapter between any two rates that are
not zero, no session that calls can bring about has a rate for which that is refused (`apply_inPlace`).
So a run may be made without the calls that it refuses (`run_accepted`).
-/

namespace Duplex

open Signal Engine
open Pcm (Layout)

variable {S : Type} {F : Family} {R : Resampling}

namespace Answer

/-- The error of a call that was refused. -/
def error? : Answer → Option Error
  | .status (.error e) => some e
  | .outcome (.error e) => some e
  | .taken (.error e) => some e
  | .samples _ (.error e) => some e
  | .bytes _ (.error e) => some e
  | _ => none

variable {e : Error}

theorem error?_status {r : Except Error InitStatus} :
    (status r).error? = some e ↔ r = .error e := by
  cases r <;> simp [error?]

theorem error?_outcome {r : Except Error Unit} : (outcome r).error? = some e ↔ r = .error e := by
  cases r <;> simp [error?]

theorem error?_taken {r : Except Error Nat} : (taken r).error? = some e ↔ r = .error e := by
  cases r <;> simp [error?]

theorem error?_samples {out : List Int16} {r : Except Error Nat} :
    (samples out r).error? = some e ↔ r = .error e := by
  cases r <;> simp [error?]

end Answer

namespace Operation

/-- Whether a call processes buffered frames, which an error does not bring back. -/
def isBuffered : Operation → Bool
  | .tryProcess _ => true
  | _ => false

/-- Whether a call has its bytes resampled on the way in. -/
def isPush : Operation → Bool
  | .pushFarend _ | .pushNearend _ => true
  | _ => false

end Operation

/-- Whether a resampler refused a block. -/
def Error.isResample : Error → Bool
  | .rateAdapter (.resample _) => true
  | _ => false

/-- The calls that were not refused, those of buffered processing, and pushes on which a resampler
failed. -/
def Transcript.accepted (t : Transcript) : Transcript :=
  t.filter fun call => call.1.isBuffered || call.2.error?.all Error.isResample

/-! ### Steps taken in place -/

/-- What is there after a change that was taken or refused as a whole. -/
def settle {σ : Type} (before : σ) : Except Error σ → σ × Except Error Unit
  | .ok after => (after, .ok ())
  | .error e => (before, .error e)

/-- Take a stream of another format: replace the adapter, then the format, and drop what is
queued. -/
def Intake.setFormatInPlace (format : StreamFormat) (i : Intake R) :
    Checked (Intake R × Except Error Unit) := do
  match ← ((adapterBetween format.rate i.rate i.layout.channels).adapt Error.rateAdapter).run with
  | .error e => return (i, .error e)
  | .ok adapter =>
    let i := { i with adapter }
    let i := { i with format }
    return (i.flush, .ok ())

namespace Session

/-- Change the farend format, after a check of it. -/
def changeFarendInPlace (rate channels : Nat) (s : Session F) :
    Checked (Session F × Except Error Unit) := do
  match formatOf rate channels with
  | .error e => return (s, .error e)
  | .ok format =>
    let (farend, taken) ← s.farend.setFormatInPlace format
    return ({ s with farend }, taken)

/-- Change the nearend format, after a check of it: first the intake, then the way back to the
nearend rate, and last the pending output. -/
def changeNearendInPlace (rate channels : Nat) (s : Session F) :
    Checked (Session F × Except Error Unit) := do
  match formatOf rate channels with
  | .error e => return (s, .error e)
  | .ok format =>
    let (nearend, taken) ← s.nearend.setFormatInPlace format
    let s := { s with nearend }
    match taken with
    | .error e => return (s, .error e)
    | .ok () =>
      match ← ((adapterBetween s.rate rate s.layout.channels).adapt Error.rateAdapter).run with
      | .error e => return (s, .error e)
      | .ok outputAdapter =>
        let s := { s with outputAdapter }
        return ({ s with pending := [] }, .ok ())

end Session

namespace Context

variable (engines : Engines S F)

/-- Change the farend format and reset. -/
def setFarendInfoInPlace (c : Context S F) (rate channels : Nat) :
    Checked (Context S F × Except Error Unit) :=
  match c.session with
  | none => .ok (c, .error .notInitialized)
  | some s => do
    let (s, taken) ← s.changeFarendInPlace rate channels
    let c := { c with session := some s }
    match taken with
    | .error e => return (c, .error e)
    | .ok () =>
      return (c.notice
        (adapterNotices s.farend.adapter ++ [Notice.formatChanged .farend rate channels])).reset
          engines

/-- Change the nearend format and reset. -/
def setNearendInfoInPlace (c : Context S F) (rate channels : Nat) :
    Checked (Context S F × Except Error Unit) :=
  match c.session with
  | none => .ok (c, .error .notInitialized)
  | some s => do
    let (s, taken) ← s.changeNearendInPlace rate channels
    let c := { c with session := some s }
    match taken with
    | .error e => return (c, .error e)
    | .ok () =>
      return (c.notice
        (adapterNotices s.nearend.adapter ++ adapterNotices s.outputAdapter ++
          [Notice.formatChanged .nearend rate channels])).reset engines

/-- Make one call, and change formats in place. -/
def applyInPlace [Sample S] (c : Context S F) : Operation → Checked (Context S F × Answer)
  | .setFarendInfo rate channels =>
    (c.setFarendInfoInPlace engines rate channels).map fun (c, r) => (c, .outcome r)
  | .setNearendInfo rate channels =>
    (c.setNearendInfoInPlace engines rate channels).map fun (c, r) => (c, .outcome r)
  | op => c.apply engines op

end Context

/-! ### What can be refused -/

theorem adapterBetween_takes (hR : R.RefusesZeroRates) {inputRate outputRate channels : Nat}
    (hi : 0 < inputRate) (ho : 0 < outputRate) (hc : 0 < channels) (e : RateAdapter.Error) :
    (adapterBetween (R := R) inputRate outputRate channels).run ≠ .ok (.error e) := by
  intro h
  rw [adapterBetween] at h
  by_cases heq : inputRate = outputRate
  · rw [if_pos heq, run_pure] at h
    exact absurd (Except.ok.inj h) (by simp)
  · rw [if_neg heq, map_eq_pure_bind, ExceptT.run_bind] at h
    obtain ⟨made, hmade, h⟩ := bind_eq_ok.mp h
    cases made with
    | error e' => exact RateAdapter.create_takes hR hi ho hc e' hmade
    | ok a => exact absurd (Except.ok.inj h) (by simp)

/-- A new format is taken or refused before anything changes. -/
theorem Intake.setFormatInPlace_eq (format : StreamFormat) (i : Intake R) :
    i.setFormatInPlace format =
      ((i.setFormat format).adapt Error.rateAdapter).run.map (settle i) := by
  rw [setFormatInPlace, setFormat, ExceptT.run_adapt, ExceptT.run_adapt, ExceptT.run_bind]
  cases (adapterBetween format.rate i.rate i.layout.channels).run with
  | error fault => rfl
  | ok made =>
    cases made with
    | error e => rfl
    | ok adapter => rfl

namespace Session

variable {s : Session F}

theorem changeFarendInPlace_eq (rate channels : Nat) (s : Session F) :
    s.changeFarendInPlace rate channels = (s.changeFarend rate channels).run.map (settle s) := by
  have hlift : (liftM (formatOf rate channels) : Attempt Error StreamFormat).run =
      .ok (formatOf rate channels) := rfl
  rw [changeFarendInPlace, changeFarend, ExceptT.run_bind, hlift, ok_bind]
  cases formatOf rate channels with
  | error e => rfl
  | ok format =>
    dsimp only
    rw [Intake.setFormatInPlace_eq, ExceptT.run_bind]
    cases ((s.farend.setFormat format).adapt Error.rateAdapter).run with
    | error fault => rfl
    | ok made =>
      cases made with
      | error e => rfl
      | ok farend => rfl

/-- The way back to the nearend rate comes after a change of the intake, but is never refused. -/
theorem changeNearendInPlace_eq (hR : F.resampling.RefusesZeroRates) (hrate : 0 < s.rate)
    (rate channels : Nat) :
    s.changeNearendInPlace rate channels = (s.changeNearend rate channels).run.map (settle s) := by
  have hlift : (liftM (formatOf rate channels) : Attempt Error StreamFormat).run =
      .ok (formatOf rate channels) := rfl
  rw [changeNearendInPlace, changeNearend, ExceptT.run_bind, hlift, ok_bind]
  cases hformat : formatOf rate channels with
  | error e => rfl
  | ok format =>
    dsimp only
    rw [Intake.setFormatInPlace_eq, ExceptT.run_bind]
    cases ((s.nearend.setFormat format).adapt Error.rateAdapter).run with
    | error fault => rfl
    | ok made =>
      cases made with
      | error e => rfl
      | ok nearend =>
        have hpos : 0 < rate := by
          rw [← (formatOf_cases hformat).1]
          exact Nat.lt_of_lt_of_le (by decide) format.minSampleRate_le
        have htakes := adapterBetween_takes hR hrate hpos (Layout.channels_pos s.layout)
        show (((adapterBetween s.rate rate s.layout.channels).adapt Error.rateAdapter).run >>= _) = _
        rw [ok_bind]
        dsimp only [settle]
        rw [ExceptT.run_bind, ExceptT.run_adapt]
        cases hback : (adapterBetween s.rate rate s.layout.channels).run with
        | error fault => rfl
        | ok made =>
          cases made with
          | error e => exact absurd hback (htakes e)
          | ok outputAdapter => rfl

end Session

namespace Context

variable (engines : Engines S F) {c c' : Context S F}

/-- From a rate of zero there would be no way back to the nearend rate. -/
theorem Sound.rate_pos (hR : F.resampling.RefusesZeroRates) (h : c.Sound) {s : Session F}
    (hs : c.session = some s) : 0 < s.rate := by
  have hway := (h s hs).way
  refine Nat.pos_of_ne_zero fun hzero => ?_
  cases hadapter : s.outputAdapter with
  | none =>
    have hmin : 8000 ≤ s.nearend.format.rate := s.nearend.format.minSampleRate_le
    have hsame := hway.none_iff.mp hadapter
    omega
  | some a =>
    obtain ⟨s₀, hbuild⟩ := (hway.serves a hadapter).stands.built
    obtain ⟨cause, hcause⟩ := (hR (Layout.channels_pos s.layout) hbuild).mpr (.inl hzero)
    exact absurd hcause nofun

theorem setFarendInfoInPlace_eq (c : Context S F) (rate channels : Nat) :
    c.setFarendInfoInPlace engines rate channels = c.setFarendInfo engines rate channels := by
  rw [setFarendInfoInPlace, setFarendInfo]
  cases hs : c.session with
  | none => rfl
  | some s =>
    dsimp only
    rw [Session.changeFarendInPlace_eq]
    cases (s.changeFarend rate channels).run with
    | error fault => rfl
    | ok changed =>
      cases changed with
      | error e =>
        show Except.ok ({ c with session := some s }, _) = Except.ok (c, _)
        rw [← hs]
      | ok t => rfl

theorem setNearendInfoInPlace_eq (hR : F.resampling.RefusesZeroRates) (h : c.Sound)
    (rate channels : Nat) :
    c.setNearendInfoInPlace engines rate channels = c.setNearendInfo engines rate channels := by
  rw [setNearendInfoInPlace, setNearendInfo]
  cases hs : c.session with
  | none => rfl
  | some s =>
    dsimp only
    rw [Session.changeNearendInPlace_eq hR (h.rate_pos hR hs)]
    cases (s.changeNearend rate channels).run with
    | error fault => rfl
    | ok changed =>
      cases changed with
      | error e =>
        show Except.ok ({ c with session := some s }, _) = Except.ok (c, _)
        rw [← hs]
      | ok t => rfl

/-! ### What a refusal leaves -/

/-- Bringing the engines of a session up is not refused. -/
theorem reset_not_refused {s : Session F} {e : Error} (h : c.reset engines = (c', .error e))
    (hs : c.session = some s) : False := by
  obtain ⟨-, -, -, hreset⟩ := reset_session engines hs
  rw [h] at hreset
  exact absurd hreset (by simp)

/-- Making a session is refused before there is one. -/
theorem init_refused {channels nearRate farRate delay : Nat} {e : Error}
    (h : c.init engines channels nearRate farRate delay = .ok (c', .error e)) : c' = c := by
  rw [init] at h
  by_cases hsome : c.session.isSome = true
  · rw [if_pos hsome] at h
    exact absurd (Prod.mk.inj (Except.ok.inj h)).2 (by simp)
  rw [if_neg hsome] at h
  obtain ⟨made, hmade, h⟩ := bind_eq_ok.mp h
  cases made with
  | error e' => exact (Prod.mk.inj (Except.ok.inj h)).1.symm
  | ok s =>
    let w : Context S F := { c with session := some s, references := 1 }.notice
      (s.adapterNotices ++ [Notice.initialized channels nearRate farRate s.rate s.frames s.bands])
    have hanswer : (w.reset engines).2.map (fun () => InitStatus.initialized) = .error e :=
      congrArg Prod.snd (Except.ok.inj h)
    cases hreset : w.reset engines with
    | mk d r =>
      rw [hreset] at hanswer
      cases r with
      | ok _ => exact absurd hanswer (by simp [Except.map])
      | error e' => exact (reset_not_refused engines hreset (s := s) rfl).elim

theorem reset_refused {e : Error} (h : (c.reset engines).2 = .error e) :
    (c.reset engines).1 = c := by
  cases hs : c.session with
  | none => simp only [reset, hs]
  | some s => exact (reset_not_refused engines (Prod.ext rfl h) hs).elim

theorem setFarendInfo_refused {rate channels : Nat} {e : Error}
    (h : c.setFarendInfo engines rate channels = .ok (c', .error e)) : c' = c := by
  rw [setFarendInfo] at h
  cases hs : c.session with
  | none =>
    rw [hs] at h
    exact (Prod.mk.inj (Except.ok.inj h)).1.symm
  | some s =>
    rw [hs] at h
    obtain ⟨changed, -, h⟩ := bind_eq_ok.mp h
    cases changed with
    | error e' => exact (Prod.mk.inj (Except.ok.inj h)).1.symm
    | ok t => exact (reset_not_refused engines (Except.ok.inj h) (s := t) rfl).elim

theorem setNearendInfo_refused {rate channels : Nat} {e : Error}
    (h : c.setNearendInfo engines rate channels = .ok (c', .error e)) : c' = c := by
  rw [setNearendInfo] at h
  cases hs : c.session with
  | none =>
    rw [hs] at h
    exact (Prod.mk.inj (Except.ok.inj h)).1.symm
  | some s =>
    rw [hs] at h
    obtain ⟨changed, -, h⟩ := bind_eq_ok.mp h
    cases changed with
    | error e' => exact (Prod.mk.inj (Except.ok.inj h)).1.symm
    | ok t => exact (reset_not_refused engines (Except.ok.inj h) (s := t) rfl).elim

theorem setDelay_refused {delay : Nat} {e : Error} (h : (c.setDelay delay).2 = .error e) :
    (c.setDelay delay).1 = c := by
  cases hs : c.session with
  | none => simp only [setDelay, hs]
  | some s =>
    simp only [setDelay, hs] at h
    exact absurd h (by simp)

/-- Taken audio is refused by a resampler only. -/
theorem takenOf_ne_error {i : Intake R} {bytes : List UInt8} {e : Error}
    (hresample : e.isResample = false) : takenOf bytes (i.push bytes).2 ≠ .error e := by
  intro h
  cases hpush : (i.push bytes).2 with
  | ok dropped =>
    rw [hpush] at h
    exact absurd h nofun
  | error e' =>
    obtain ⟨cause, rfl⟩ := Intake.push_error hpush
    rw [hpush] at h
    obtain rfl := Except.error.inj h
    exact absurd hresample nofun

theorem pushFarend_refused {bytes : List UInt8} {e : Error} (hresample : e.isResample = false)
    (h : (c.pushFarend bytes).2 = .error e) : (c.pushFarend bytes).1 = c := by
  rcases c.open_or_closed with ⟨s, hs, hrun⟩ | hclosed
  · obtain ⟨w, hpush⟩ := pushFarend_open hs hrun bytes
    rw [hpush] at h
    exact absurd h (takenOf_ne_error hresample)
  · exact (push_closed hclosed bytes).1.1

theorem pushNearend_refused {bytes : List UInt8} {e : Error} (hresample : e.isResample = false)
    (h : (c.pushNearend bytes).2 = .error e) : (c.pushNearend bytes).1 = c := by
  rcases c.open_or_closed with ⟨s, hs, hrun⟩ | hclosed
  · obtain ⟨w, hpush⟩ := pushNearend_open hs hrun bytes
    rw [hpush] at h
    exact absurd h (takenOf_ne_error hresample)
  · exact (push_closed hclosed bytes).2.1

end Context

variable [Sample S] [Sample.Lawful S] (engines : Engines S F)

/-- Processing is refused for want of a whole frame or because the lanes cannot have frames of this
shape, and both before the first frame. -/
theorem Session.process_refused {s t : Session F} {settings : FrameSettings} (hs : s.Sound)
    (hset : settings.For s.frames s.bands) {farend : Option (List Int16)}
    {nearend out out' : List Int16} {journal : Journal S} {e : Error}
    (h : s.process engines settings farend nearend out = .ok (t, journal, out', .error e)) :
    t = s ∧ journal = [] ∧ out' = out := by
  by_cases hshort : nearend.length < s.frameLength
  · rw [process, if_pos hshort] at h
    cases h
    exact ⟨rfl, rfl, rfl⟩
  have hframes := frames_pos_of_process h
  have hpos := frameLength_pos hframes
  by_cases hgood : Workable s.frames s.bands ∧ s.bands ∣ s.frames
  · rw [process, if_neg hshort, if_neg hpos.ne'] at h
    obtain ⟨run, hrun, h⟩ := bind_eq_ok.mp h
    obtain ⟨-, hnone⟩ :=
      (runFrames_returns engines hs hset hgood.1 hgood.2 _ farend out.length).elim hrun
    rw [hnone] at h
    cases h
  rcases Nat.eq_zero_or_pos out.length with hzero | hroom
  · rw [process, if_neg hshort, if_neg hpos.ne', blocks_of_le_length hpos (Nat.le_of_not_lt hshort),
      hzero, runFrames, if_pos rfl] at h
    cases h
  · rcases process_stops engines hs hset hframes hgood farend (Nat.le_of_not_lt hshort) hroom with
      hstop | hstop
    · rw [hstop] at h
      cases h
    · rw [hstop] at h
      cases h
      exact ⟨rfl, rfl, rfl⟩

namespace Context

variable {c c' : Context S F}

theorem process_refused (h : c.Sound) {farend : Option (List Int16)} {nearend out out' : List Int16}
    {e : Error} (hprocess : c.process engines farend nearend out = .ok (c', out', .error e)) :
    c' = c ∧ out' = out := by
  obtain ⟨-, hr⟩ | ⟨s, t, journal, hs, ht, hc'⟩ := process_cases engines hprocess
  · cases hr
    exact ⟨rfl, rfl⟩
  · obtain ⟨rfl, rfl, rfl⟩ :=
      Session.process_refused engines (h s hs).sound (c.frameSettings_for s _) ht
    have hlog : c.workshop.log [] = c.workshop := by
      rw [Workshop.log, List.append_nil]
    refine ⟨?_, rfl⟩
    rw [show c' = _ from hc', hlog, ← hs]

/-- A refused call leaves the context and the destination as they were. -/
theorem apply_refused (h : c.Sound) {op : Operation} {answer : Answer} {e : Error}
    (hop : op.isBuffered = false) (happly : c.apply engines op = .ok (c', answer))
    (herror : answer.error? = some e) (hresample : op.isPush = true → e.isResample = false) :
    c' = c ∧ ∀ farend nearend out, op = .process farend nearend out →
      answer = .samples out (.error e) := by
  cases op with
  | init channels nearRate farRate delay =>
    obtain ⟨⟨d, r⟩, hr, hd⟩ := map_eq_ok.mp happly
    cases hd
    obtain rfl := Answer.error?_status.mp herror
    exact ⟨init_refused engines hr, nofun⟩
  | reset =>
    cases happly
    exact ⟨reset_refused engines (Answer.error?_outcome.mp herror), nofun⟩
  | setFarendInfo rate channels =>
    obtain ⟨⟨d, r⟩, hr, hd⟩ := map_eq_ok.mp happly
    cases hd
    obtain rfl := Answer.error?_outcome.mp herror
    exact ⟨setFarendInfo_refused engines hr, nofun⟩
  | setNearendInfo rate channels =>
    obtain ⟨⟨d, r⟩, hr, hd⟩ := map_eq_ok.mp happly
    cases hd
    obtain rfl := Answer.error?_outcome.mp herror
    exact ⟨setNearendInfo_refused engines hr, nofun⟩
  | setDelay delay =>
    cases happly
    exact ⟨setDelay_refused (Answer.error?_outcome.mp herror), nofun⟩
  | pushFarend bytes =>
    cases happly
    exact ⟨pushFarend_refused (hresample rfl) (Answer.error?_taken.mp herror), nofun⟩
  | pushNearend bytes =>
    cases happly
    exact ⟨pushNearend_refused (hresample rfl) (Answer.error?_taken.mp herror), nofun⟩
  | process farend nearend out =>
    obtain ⟨⟨d, out', r⟩, hr, hd⟩ := map_eq_ok.mp happly
    cases hd
    obtain rfl := Answer.error?_samples.mp herror
    obtain ⟨hc', rfl⟩ := process_refused engines h hr
    refine ⟨hc', ?_⟩
    rintro _ _ _ ⟨⟩
    rfl
  | tryProcess dest => exact absurd hop (by simp [Operation.isBuffered])
  -- No other call can be refused.
  | _ =>
    cases happly
    exact absurd herror (by simp [Answer.error?])

omit [Sample.Lawful S] in
/-- Formats that are changed in place are changed as a whole. -/
theorem apply_inPlace (hR : F.resampling.RefusesZeroRates) (h : c.Sound) (op : Operation) :
    c.applyInPlace engines op = c.apply engines op := by
  cases op with
  | setFarendInfo rate channels => rw [applyInPlace, apply, setFarendInfoInPlace_eq]
  | setNearendInfo rate channels => rw [applyInPlace, apply, setNearendInfoInPlace_eq engines hR h]
  | _ => rfl

/-- A run may be made without the calls that it refuses: the others get the same answers, and it
ends the same. -/
theorem run_accepted (h : c.Sound) {ops : List Operation} {t : Transcript}
    (hrun : c.run engines ops = .ok (c', t)) :
    c.run engines (t.accepted.map (·.1)) = .ok (c', t.accepted) := by
  induction ops generalizing c c' t with
  | nil =>
    cases hrun
    rfl
  | cons op ops ih =>
    rw [run_cons] at hrun
    obtain ⟨⟨d, answer⟩, hop, hrest⟩ := bind_eq_ok.mp hrun
    obtain ⟨⟨_, rest⟩, hops, hc'⟩ := map_eq_ok.mp hrest
    cases hc'
    have hrest := ih (apply_sound engines h hop) hops
    by_cases haccepted : (op.isBuffered || answer.error?.all Error.isResample) = true
    · have hcons : Transcript.accepted ((op, answer) :: rest) = (op, answer) :: rest.accepted :=
        List.filter_cons_of_pos haccepted
      rw [hcons, List.map_cons, run_cons, hop, ok_bind, hrest]
      rfl
    · have hskip : Transcript.accepted ((op, answer) :: rest) = rest.accepted :=
        List.filter_cons_of_neg haccepted
      obtain ⟨hbuffered, e, herror, hresample⟩ :
          op.isBuffered = false ∧ ∃ e, answer.error? = some e ∧ e.isResample = false := by
        simpa [Option.all_eq_false] using haccepted
      obtain ⟨rfl, -⟩ := apply_refused engines h hbuffered hop herror fun _ => hresample
      rw [hskip]
      exact hrest

/-- Let there be an adapter between any two rates but zero. In every reachable state a call other than
buffered processing that answers an error, in a push not that of a resampler which refused a block,
leaves the context as it was, with its formats, rings, adapters, output, engines, counters and journal,
and the destination as it was given. So it does when formats are changed in place, and whatever is
called next goes as if it had not been made. -/
theorem refusals_change_nothing (hR : F.resampling.RefusesZeroRates) (h : c.Reachable engines)
    {op : Operation} {answer : Answer} {e : Error} (hop : op.isBuffered = false)
    (happly : c.apply engines op = .ok (c', answer)) (herror : answer.error? = some e)
    (hresample : op.isPush = true → e.isResample = false) :
    c' = c ∧ c.applyInPlace engines op = .ok (c, answer) ∧
      (∀ farend nearend out, op = .process farend nearend out →
        answer = .samples out (.error e)) ∧
      ∀ ops, c.run engines (op :: ops) =
        (c.run engines ops).map fun r => (r.1, (op, answer) :: r.2) := by
  have hsound := h.sound engines
  obtain ⟨rfl, hout⟩ := apply_refused engines hsound hop happly herror hresample
  refine ⟨rfl, (apply_inPlace engines hR hsound op).trans happly, hout, ?_⟩
  intro ops
  rw [run_cons, happly, ok_bind]

/-- A nearend that is short of a frame. -/
theorem refusals_change_nothing_short :
    ∃ c : Context Int16 Bypass.family, c.Reachable (Bypass.engines Int16 48000) ∧
      c.applyInPlace (Bypass.engines Int16 48000) (.process none [1, 2, 3] [9, 9]) =
        .ok (c, .samples [9, 9] (.error (.insufficientData 3 80))) := by
  obtain ⟨c, c', t, hrun, happly⟩ :
      ∃ (c c' : Context Int16 Bypass.family) (t : Transcript),
        (new {} ()).run (Bypass.engines Int16 48000) [.init 1 8000 8000 0] = .ok (c, t) ∧
          c.apply (Bypass.engines Int16 48000) (.process none [1, 2, 3] [9, 9]) =
            .ok (c', .samples [9, 9] (.error (.insufficientData 3 80))) :=
    ⟨_, _, _, rfl, rfl⟩
  have hreach : c.Reachable (Bypass.engines Int16 48000) := ⟨{}, (), _, t, hrun⟩
  exact ⟨c, hreach,
    (refusals_change_nothing _ Resample.spectral_refusesZeroRates hreach rfl happly rfl
      fun _ => rfl).2.1⟩

end Context

end Duplex
