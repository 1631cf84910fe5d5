import Duplex.Engine.Bypass
import Duplex.Proofs.Context
import Duplex.Proofs.Spectral

/-!
# Rates: where processing works

Opening a session checks that a frame is not too long and the number of its bands, but neither that
there is a frame nor that the bands divide it and the filter takes them. Below 100 Hz a frame is empty,
and between 32100 and 47900 Hz it does not go with its bands: there the first frame that is processed is
refused or stops on a fault. At every other rate that a session can have, both ways of processing
always give a result, as long as no resampler refuses a block.
-/

namespace Duplex

open Signal Engine

variable {S : Type} {F : Family}

namespace Session

/-- The rates at which there is a frame, which can be cut into its bands so that the filter takes
them. -/
def Processable (rate : Nat) : Prop := 100 ≤ rate ∧ rate < 32100 ∨ 48000 ≤ rate

theorem Sound.works_iff {s : Session F} (hs : s.Sound) : s.Works ↔ Processable s.rate := by
  have hframes : s.frames = 80 * s.rate / 8000 := hs.frames
  have hle : s.frames ≤ 480 := hs.frames_le
  have hrange := hs.bands_range
  have hb := hs.bands
  have hworks : s.Works ↔ 0 < s.frames ∧ Workable s.frames s.bands ∧ s.bands ∣ s.frames :=
    ⟨fun h => ⟨h.frames_pos, h.workable, h.dvd⟩, fun ⟨hpos, hw, hd⟩ => ⟨hpos, hw, hd⟩⟩
  rw [hworks]
  simp only [Processable, Workable, Filter.TwoBand.Supports, Filter.TwoBand.maxPerBand,
    Filter.ThreeBand.frameSize]
  rw [bandCountForRate] at hb
  rcases Nat.lt_or_ge s.rate 32000 with h | h
  · have hone : s.bands = 1 := by split at hb <;> omega
    simp only [hone, Nat.one_dvd, and_true, true_or]
    omega
  rw [if_neg (by omega)] at hb
  rcases Nat.lt_or_ge s.rate 48000 with h' | h'
  · have htwo : s.bands = 2 := by omega
    simp only [htwo]
    constructor
    · rintro ⟨-, hgood⟩
      omega
    · intro hrate
      have hexact : s.frames = 320 := by omega
      exact ⟨by omega, .inr (.inl ⟨trivial, by omega, by omega⟩), by omega⟩
  · have hthree : s.bands = 3 := by omega
    have hexact : s.frames = 480 := by omega
    simp only [hthree, hexact]
    exact iff_of_true ⟨by omega, .inr (.inr ⟨trivial, Nat.le_refl _⟩), by omega⟩ (.inr h')

end Session

namespace Context

variable [Sample S] (engines : Engines S F)

/-- Whatever it is given, either way of processing gives a result: `process` counts samples unless
there are too few, and `tryProcess` counts bytes. -/
structure Processes (c : Context S F) : Prop where
  process (farend : Option (List Int16)) (nearend out : List Int16) :
    Returns (c.process engines farend nearend out) fun r =>
      (∃ n, r.2.2 = .ok n) ∨
        ∃ available required, r.2.2 = .error (.insufficientData available required)
  tryProcess (dest : List UInt8) :
    Returns (c.tryProcess engines dest) fun r => ∃ n, r.2.2 = .ok n

variable [Sample.Lawful S] {c : Context S F} {s : Session F}

/-- As long as no resampler refuses a block, the session of a reachable context is processed without a
fault or an error exactly at the processable rates. -/
theorem processes_iff_processable (hR : F.resampling.Unfailing) (h : c.Reachable engines)
    (hs : c.session = some s) : c.Processes engines ↔ Session.Processable s.rate := by
  have hvalid := h.sound engines s hs
  have hsound := hvalid.sound
  rw [← hsound.works_iff]
  constructor
  · intro hprocesses
    by_contra hbad
    by_cases hpos : 0 < s.frames
    case neg =>
      -- An empty frame is one of which there is always enough.
      have hzero : s.frameLength = 0 := by
        rw [Session.frameLength, Nat.eq_zero_of_not_pos hpos, Nat.zero_mul]
      obtain ⟨r, hr, -⟩ := hprocesses.process none [] []
      rw [process, hs] at hr
      dsimp only at hr
      rw [Session.process, if_neg (by omega), if_pos hzero] at hr
      cases hr
    case pos =>
      -- A silent frame is stopped if there is room for a sample of it.
      have hshape : ¬ (Workable s.frames s.bands ∧ s.bands ∣ s.frames) := by
        rintro ⟨hw, hd⟩
        exact hbad ⟨hpos, hw, hd⟩
      have hfull : s.frameLength ≤ (List.replicate s.frameLength (0 : Int16)).length := by simp
      have hroom : 0 < [(0 : Int16)].length := Nat.one_pos
      have hstops := Session.process_stops engines hsound (c.frameSettings_for s false) hpos hshape
        none hfull hroom
      have hprocess := hprocesses.process none (List.replicate s.frameLength 0) [0]
      rw [process, hs] at hprocess
      dsimp only [Option.isSome] at hprocess
      obtain hstop | hstop := hstops
      · rw [hstop] at hprocess
        obtain ⟨r, hr, -⟩ := hprocess
        simp at hr
      · rw [hstop] at hprocess
        obtain ⟨r, hr, hanswer⟩ := hprocess
        obtain rfl : _ = r := Except.ok.inj hr
        simp at hanswer
  · intro hw
    refine ⟨fun farend nearend out => ?_, fun dest => ?_⟩
    · rw [process, hs]
      refine (Session.process_returns engines hsound (c.frameSettings_for s _) hw farend nearend
        out).bind ?_
      rintro r ⟨-, hanswer⟩
      exact returns_ok hanswer
    · rw [tryProcess, hs]
      refine (Session.tryProcess_returns engines hsound (c.frameSettings_for s _) hw dest).bind ?_
      rintro r ⟨-, -, hanswer⟩
      exact returns_ok (hanswer (hvalid.returning hR))

/-- At 16 kHz, with farend that is resampled. -/
theorem processes_iff_processable_bypass :
    ∃ (c : Context Int16 Bypass.family) (s : Session Bypass.family),
      c.Reachable (Bypass.engines Int16 48000) ∧ c.session = some s ∧ s.rate = 16000 ∧
        s.farend.adapter.isSome ∧
        (c.Processes (Bypass.engines Int16 48000) ↔ Session.Processable s.rate) := by
  obtain ⟨c, t, s, hrun, hs, hrate, hadapter⟩ : ∃ (c : Context Int16 Bypass.family) (t : Transcript)
      (s : Session Bypass.family),
      (new {} ()).run (Bypass.engines Int16 48000) [.init 2 16000 44100 0] = .ok (c, t) ∧
        c.session = some s ∧ s.rate = 16000 ∧ s.farend.adapter.isSome :=
    ⟨_, _, _, rfl, rfl, rfl, rfl⟩
  have hreach : c.Reachable (Bypass.engines Int16 48000) := ⟨{}, (), _, t, hrun⟩
  exact ⟨c, s, hreach, hs, hrate, hadapter,
    processes_iff_processable _ Resample.spectral_unfailing hreach hs⟩

set_option maxRecDepth 12000 in
/-- A session is opened at 40 kHz, and its first frame, of 400 samples, stops on a fault. -/
theorem process_faults_at_40000 :
    ∃ (c : Context Int16 Bypass.family) (t : Transcript),
      (new {} ()).run (Bypass.engines Int16 40000) [.init 1 48000 48000 0] = .ok (c, t) ∧
        t = [(.init 1 48000 48000 0, .status (.ok .initialized))] ∧
        c.process (Bypass.engines Int16 40000) none (List.replicate 400 0) [0] =
          .error .outOfRange :=
  ⟨_, _, rfl, rfl, rfl⟩

end Context

end Duplex
