import Duplex.Proofs.Streaming

/-!
# Playing: the frames of a stream, one after another

What becomes of a frame depends on the lanes, the mic level, the output adapter and the frame
itself, but not on the intakes or on what is pending (`playFrame_rewire`). So `play`, which
processes given frames one after another, tells what buffered processing does to the frames that it
takes off the intakes, as long as the farend does not run short (`Frames.plays`).
-/

namespace Duplex

open Signal Engine

variable {S : Type} {F : Family} [Sample S] (engines : Engines S F) (settings : FrameSettings)

namespace Session

/-! ### What processing does not look at -/

/-- The session with other intakes and other pending output. -/
def rewire (s : Session F) (farend nearend : Intake F.resampling) (pending : List UInt8) : Session F :=
  { s with farend, nearend, pending }

section Rewire

variable (farend nearend : Intake F.resampling) (pending : List UInt8) (s : Session F)

theorem runFrame_rewire (far : Option (List Int16)) (near : List Int16)
    (lanes : List (Lane F × Buffers)) :
    (s.rewire farend nearend pending).runFrame engines settings far near lanes =
      (s.runFrame engines settings far near lanes).map fun r =>
        (r.1.rewire farend nearend pending, r.2) := by
  unfold runFrame
  show (runLanes engines settings lanes (s.deinterleave (far.getD [])) (s.deinterleave near)
    { micLevel := s.micLevel, stats := s.stats, journal := [] } >>= _) = _
  cases runLanes engines settings lanes (s.deinterleave (far.getD [])) (s.deinterleave near)
    { micLevel := s.micLevel, stats := s.stats, journal := [] } <;> rfl

theorem runFrames_rewire (frames : List (List Int16)) (far : Option (List Int16)) (room : Nat) :
    runFrames engines settings frames far room (s.rewire farend nearend pending) =
      (runFrames engines settings frames far room s).map fun run =>
        { run with session := run.session.rewire farend nearend pending } := by
  induction frames generalizing s far room with
  | nil => rfl
  | cons near frames ih =>
    rw [runFrames, runFrames]
    by_cases hroom : room = 0
    · rw [if_pos hroom, if_pos hroom]
      rfl
    rw [if_neg hroom, if_neg hroom]
    show ((prepareLanes settings s.lanes).run >>= _) = _
    cases (prepareLanes settings s.lanes).run with
    | error e => rfl
    | ok made =>
      cases made with
      | error e => rfl
      | ok lanes =>
        simp only [ok_bind, runFrame_rewire]
        cases s.runFrame engines settings (far.map (·.take near.length)) near lanes with
        | error e => rfl
        | ok r =>
          obtain ⟨t, journal, heard⟩ := r
          have hlayout : (t.rewire farend nearend pending).layout = t.layout := rfl
          have hcount : (t.rewire farend nearend pending).countFrame settings =
              (t.countFrame settings).rewire farend nearend pending := rfl
          simp only [Except.map, ok_bind, hlayout, hcount, ih]
          split
          · rfl
          · cases runFrames engines settings frames (far.map (·.drop near.length)) _
              (t.countFrame settings) <;> rfl

theorem process_rewire (far : Option (List Int16)) (near out : List Int16) :
    (s.rewire farend nearend pending).process engines settings far near out =
      (s.process engines settings far near out).map fun r =>
        (r.1.rewire farend nearend pending, r.2) := by
  have hlength : (s.rewire farend nearend pending).frameLength = s.frameLength := rfl
  unfold process
  rw [hlength, runFrames_rewire]
  split
  · rfl
  split
  · rfl
  cases runFrames engines settings (blocks s.frameLength near) far out.length s <;> rfl

theorem convertOutput_rewire (samples : List Int16) :
    (s.rewire farend nearend pending).convertOutput samples =
      ((s.convertOutput samples).1.rewire farend nearend pending, (s.convertOutput samples).2) := by
  have hadapter : (s.rewire farend nearend pending).outputAdapter = s.outputAdapter := rfl
  unfold convertOutput
  rw [hadapter]
  cases s.outputAdapter <;> rfl

end Rewire

/-! ### Frames of given bytes -/

/-- Process one frame of either direction, given as bytes, and convert what is heard. -/
def playFrame (frame : List UInt8 × List UInt8) (s : Session F) :
    Checked (Session F × List UInt8) :=
  (s.process engines settings (some (Pcm.decode frame.1)) (Pcm.decode frame.2)
    (List.replicate s.frameLength 0)).map fun r =>
      ((r.1.convertOutput r.2.2.1).1, (r.1.convertOutput r.2.2.1).2.1)

/-- Process frames one after another. -/
def play : List (List UInt8 × List UInt8) → Session F → Checked (Session F × List UInt8)
  | [], s => .ok (s, [])
  | frame :: frames, s =>
    playFrame engines settings frame s >>= fun r =>
      (play frames r.1).map fun q => (q.1, r.2 ++ q.2)

variable {engines settings}

theorem play_cons_eq_ok {frame : List UInt8 × List UInt8} {frames : List (List UInt8 × List UInt8)}
    {s u : Session F} {out : List UInt8} :
    play engines settings (frame :: frames) s = .ok (u, out) ↔
      ∃ t bytes rest, playFrame engines settings frame s = .ok (t, bytes) ∧
        play engines settings frames t = .ok (u, rest) ∧ out = bytes ++ rest := by
  rw [play, bind_eq_ok]
  constructor
  · rintro ⟨⟨t, bytes⟩, ht, hrest⟩
    obtain ⟨⟨v, rest⟩, hv, heq⟩ := map_eq_ok.mp hrest
    obtain ⟨rfl, rfl⟩ := Prod.mk.inj heq
    exact ⟨t, bytes, rest, ht, hv, rfl⟩
  · rintro ⟨t, bytes, rest, ht, hu, rfl⟩
    exact ⟨(t, bytes), ht, map_eq_ok.mpr ⟨(u, rest), hu, rfl⟩⟩

/-- Frames in two portions give what they give in one. -/
theorem play_append {frames more : List (List UInt8 × List UInt8)} {s t u : Session F}
    {out rest : List UInt8} (h : play engines settings frames s = .ok (t, out))
    (hmore : play engines settings more t = .ok (u, rest)) :
    play engines settings (frames ++ more) s = .ok (u, out ++ rest) := by
  induction frames generalizing s out with
  | nil =>
    obtain ⟨rfl, rfl⟩ := Prod.mk.inj (Except.ok.inj h)
    exact hmore
  | cons frame frames ih =>
    obtain ⟨v, bytes, tail, hv, htail, rfl⟩ := play_cons_eq_ok.mp h
    exact play_cons_eq_ok.mpr ⟨v, bytes, tail ++ rest, hv, ih htail, List.append_assoc _ _ _⟩

/-- More frames give more output. -/
theorem play_prefix {frames more : List (List UInt8 × List UInt8)} {s t u : Session F}
    {out all : List UInt8} (h : play engines settings frames s = .ok (t, out))
    (hall : play engines settings (frames ++ more) s = .ok (u, all)) : out <+: all := by
  induction frames generalizing s out all with
  | nil =>
    obtain ⟨-, rfl⟩ := Prod.mk.inj (Except.ok.inj h)
    exact List.nil_prefix
  | cons frame frames ih =>
    obtain ⟨v, bytes, tail, hv, htail, rfl⟩ := play_cons_eq_ok.mp h
    obtain ⟨v', bytes', tail', hv', htail', rfl⟩ := play_cons_eq_ok.mp hall
    obtain ⟨rfl, rfl⟩ := Prod.mk.inj (Except.ok.inj (hv.symm.trans hv'))
    exact (List.prefix_append_right_inj bytes).mpr (ih htail htail')

theorem playFrame_rewire (frame : List UInt8 × List UInt8) (farend nearend : Intake F.resampling)
    (pending : List UInt8) (s : Session F) :
    playFrame engines settings frame (s.rewire farend nearend pending) =
      (playFrame engines settings frame s).map fun r =>
        (r.1.rewire farend nearend pending, r.2) := by
  have hlength : (s.rewire farend nearend pending).frameLength = s.frameLength := rfl
  unfold playFrame
  rw [process_rewire, hlength]
  cases s.process engines settings (some (Pcm.decode frame.1)) (Pcm.decode frame.2)
    (List.replicate s.frameLength 0) with
  | error e => rfl
  | ok r =>
    simp only [Except.map, convertOutput_rewire]

theorem play_rewire (frames : List (List UInt8 × List UInt8)) (farend nearend : Intake F.resampling)
    (pending : List UInt8) (s : Session F) :
    play engines settings frames (s.rewire farend nearend pending) =
      (play engines settings frames s).map fun r => (r.1.rewire farend nearend pending, r.2) := by
  induction frames generalizing s with
  | nil => rfl
  | cons frame frames ih =>
    unfold play
    rw [playFrame_rewire]
    cases playFrame engines settings frame s with
    | error e => rfl
    | ok r =>
      simp only [Except.map, ok_bind, ih]
      cases play engines settings frames r.1 <;> rfl

/-! ### Buffered frames -/

/-- A frame step without an underrun plays the frames at the front of the queues. -/
theorem FrameStep.plays {s t : Session F} {bytes : List UInt8}
    (h : s.FrameStep engines settings bytes t) (hfar : s.frameBytes ≤ s.farend.ring.avail) :
    ∃ t', playFrame engines settings
        (s.farend.ring.toList.take s.frameBytes, s.nearend.ring.toList.take s.frameBytes) s =
          .ok (t', bytes) ∧
      t = t'.rewire t.farend t.nearend t.pending := by
  cases h with
  | @intro u journal out full process advanced length converted =>
    have hread : (s.readFrame (S := S)).1 =
        s.rewire (s.farend.read s.frameBytes).1 (s.nearend.read s.frameBytes).1 s.pending := by
      rw [readFrame_eq, Nat.sub_eq_zero_of_le hfar]
      rfl
    have hfit : fit s.frameBytes 0 (s.farend.ring.toList.take s.frameBytes) =
        s.farend.ring.toList.take s.frameBytes := by
      apply fit_of_length_eq
      rw [List.length_take, ByteRing.length_toList, Nat.min_eq_left hfar]
    have hbytes : (s.readFrame (S := S)).2.2 =
        (Pcm.decode (s.farend.ring.toList.take s.frameBytes),
          Pcm.decode (s.nearend.ring.toList.take s.frameBytes)) := by
      rw [readFrame_eq, hfit]
    rw [hread, hbytes, process_rewire] at process
    obtain ⟨⟨v, _, _, _⟩, hv, heq⟩ := map_eq_ok.mp process
    simp only [Prod.mk.injEq] at heq
    obtain ⟨rfl, rfl, rfl, rfl⟩ := heq
    rw [convertOutput_rewire]
    refine ⟨(v.convertOutput _).1, ?_, rfl⟩
    unfold playFrame
    rw [hv]
    rfl

/-- A run of frame steps without an underrun plays frames that it takes off the intakes. -/
theorem Frames.plays {s t : Session F} {bytes : List UInt8} {m : Nat} (hm : s.frameBytes = m)
    (h : Frames engines settings s bytes t)
    (hfull : t.stats.farendUnderrun = s.stats.farendUnderrun) :
    ∃ frames t', play engines settings frames s = .ok (t', bytes) ∧
      t = t'.rewire t.farend t.nearend t.pending ∧
      (∀ frame ∈ frames, frame.1.length = m ∧ frame.2.length = m) ∧
      (∀ i₀ taken used, Intake.Ahead i₀ taken used s.farend →
        Intake.Ahead i₀ taken (used ++ (frames.map (·.1)).flatten) t.farend) ∧
      ∀ i₀ taken used, Intake.Ahead i₀ taken used s.nearend →
        Intake.Ahead i₀ taken (used ++ (frames.map (·.2)).flatten) t.nearend := by
  induction h with
  | nil s =>
    refine ⟨[], s, rfl, rfl, by simp, ?_, ?_⟩
    · intro i₀ taken used hahead
      simpa using hahead
    · intro i₀ taken used hahead
      simpa using hahead
  | @cons s t u bytes rest step more ih =>
    obtain ⟨hfar, hnear, -, -, -, hunderrun⟩ := step.rest
    have hle := more.lossesLe.farendUnderrun
    have hroom : s.frameBytes ≤ s.farend.ring.avail := by omega
    have hnearFull : s.frameBytes ≤ s.nearend.ring.avail := by
      cases step with
      | intro full => exact full
    have hsize : t.frameBytes = m := by
      rw [← hm, frameBytes, frameLength, step.kin.frames, step.kin.layout]
      rfl
    obtain ⟨t', hplay, ht⟩ := step.plays hroom
    obtain ⟨frames, u', hmore, hu, hlengths, hfars, hnears⟩ := ih hsize (by omega)
    rw [ht, play_rewire] at hmore
    obtain ⟨⟨v, _⟩, hv, heq⟩ := map_eq_ok.mp hmore
    obtain ⟨rfl, rfl⟩ := Prod.mk.inj heq
    refine ⟨_ :: frames, v, play_cons_eq_ok.mpr ⟨t', bytes, _, hplay, hv, rfl⟩, hu, ?_, ?_, ?_⟩
    · intro frame hframe
      rcases List.mem_cons.mp hframe with rfl | hframe
      · simp [hm ▸ hroom, hm ▸ hnearFull, hm]
      · exact hlengths frame hframe
    · intro i₀ taken used hahead
      have hstep := hahead.read s.frameBytes
      rw [← hfar] at hstep
      simpa using hfars i₀ taken _ hstep
    · intro i₀ taken used hahead
      have hstep := hahead.read s.frameBytes
      rw [← hnear] at hstep
      simpa using hnears i₀ taken _ hstep

end Session

end Duplex
