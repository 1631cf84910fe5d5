import Duplex.Proofs.Streaming

/-!
# Draining: how far the loop of buffered processing goes

The output of a frame is made by the output adapter of the samples of one frame
(`FrameStep.converts`). Without an adapter every frame gives as many bytes as it took, so that the
loop processes as many frames as the missing bytes begin, or all that are queued (`Drains.plain`).
-/

namespace Duplex

open Signal Engine

variable {S : Type} {F : Family}

namespace Session

/-- Output is made by the output adapter, whatever else there is. -/
theorem convertOutput_congr {s t : Session F} (h : t.outputAdapter = s.outputAdapter)
    (samples : List Int16) :
    (t.convertOutput samples).2 = (s.convertOutput samples).2 ∧
      (t.convertOutput samples).1.outputAdapter = (s.convertOutput samples).1.outputAdapter := by
  unfold convertOutput
  rw [h]
  split
  · exact ⟨rfl, h⟩
  · exact ⟨rfl, rfl⟩

variable [Sample S] {engines : Engines S F} {settings : FrameSettings} {s t : Session F}
  {bytes : List UInt8} {missing : Nat} {outs : List (List UInt8)}

/-- The output bytes of a step are those of one frame of samples. -/
theorem FrameStep.converts (h : s.FrameStep engines settings bytes t) :
    ∃ out, out.length = s.frameLength ∧ bytes = (s.convertOutput out).2.1 ∧
      (s.convertOutput out).2.2 = .ok () ∧
      t.outputAdapter = (s.convertOutput out).1.outputAdapter := by
  cases h with
  | @intro u journal out full process advanced length converted =>
    have hadapter : u.outputAdapter = s.outputAdapter := by
      rw [advanced.same, readFrame_eq]
    obtain ⟨hconverted, hnext⟩ := convertOutput_congr hadapter out
    rw [hconverted] at converted
    exact ⟨out, length, by rw [hconverted], converted, hnext⟩

/-- Without an output adapter a step gives as many bytes as it takes. -/
theorem FrameStep.plain (hout : s.outputAdapter = none) (h : s.FrameStep engines settings bytes t) :
    bytes.length = s.frameBytes ∧ t.outputAdapter = none := by
  obtain ⟨out, hlen, rfl, -, hadapter⟩ := h.converts
  simp only [convertOutput, hout] at hadapter ⊢
  refine ⟨?_, hadapter⟩
  rw [Pcm.length_encode, hlen, frameBytes, Nat.mul_comm]

/-- A step takes a frame off the nearend queue. -/
theorem FrameStep.avail (h : s.FrameStep engines settings bytes t) :
    t.nearend.ring.avail = s.nearend.ring.avail - s.frameBytes := by
  rw [h.rest.2.1]
  exact s.nearend.avail_read s.frameBytes

section Counts

variable [Sample.Lawful S] (hs : s.Sound) (hset : settings.For s.frames s.bands)
  (hw : s.Works)

include hs hset hw

/-- A step counts one frame. -/
theorem FrameStep.counts (h : s.FrameStep engines settings bytes t) :
    t.stats.frames = s.stats.frames + 1 := by
  have hkin : s.Kin (s.readFrame (S := S)).1 := kin_readFrame s
  cases h with
  | @intro u journal out full process advanced length converted =>
    have hnear : (s.readFrame (S := S)).2.2.2.length = (s.readFrame (S := S)).1.frameLength := by
      rw [readFrame_eq]
      exact length_nearend_frame full
    have hlen : (s.readFrame (S := S)).1.frameLength = s.frameLength := by
      rw [readFrame_eq]
      rfl
    obtain ⟨prepared, v, journal', heard, hprepare, hrun, -, -, hprocess⟩ :=
      process_frame engines (hkin.sound hs) (hkin.settings hset) (hkin.works hw)
        (some (s.readFrame (S := S)).2.2.1) hnear
    rw [hlen, process] at hprocess
    obtain ⟨rfl, -, -⟩ : u = countFrame settings v ∧ journal = journal' ∧ out = heard := by
      simpa using hprocess
    obtain ⟨⟨lanes, outs, c⟩, hlanes, hv⟩ := bind_eq_ok.mp hrun
    obtain ⟨-, -, -, failures, hstats⟩ := runLanes_cases engines (hkin.sound hs) (hkin.settings hset)
      hprepare (length_deinterleave _ _) (length_deinterleave _ _) hlanes
    have hv : v.stats = c.stats := congrArg (fun r => r.1.stats) (Except.ok.inj hv).symm
    rw [convertOutput_same]
    show v.stats.frames + 1 = s.stats.frames + 1
    rw [hv, hstats, readFrame_eq]

end Counts

/-- A frame's bytes less leave a frame less to process. -/
theorem ceil_sub {missing m : Nat} (hm : 0 < m) (hmissing : 0 < missing) :
    (missing + m - 1) / m = (missing - m + m - 1) / m + 1 := by
  by_cases hle : m ≤ missing
  · have hsum : missing + m - 1 = missing - m + m - 1 + m := by omega
    rw [hsum, Nat.add_div_right _ hm]
  · have hzero : (missing - m + m - 1) / m = 0 := Nat.div_eq_of_lt (by omega)
    have hone : (missing + m - 1) / m = 1 := Nat.div_eq_of_lt_le (by omega) (by omega)
    rw [hzero, hone]

/-- Without an output adapter the loop processes the frames that the missing bytes begin, or all that
are queued, and every one gives as many bytes as it took. -/
theorem Drains.plain {m : Nat} (hm : s.frameBytes = m) (hpos : 0 < m)
    (hout : s.outputAdapter = none) (h : Drains engines settings missing s outs t) :
    outs.length = min (s.nearend.ring.avail / m) ((missing + m - 1) / m) ∧
      (∀ out ∈ outs, out.length = m) ∧ t.outputAdapter = none := by
  induction h with
  | @done missing s stop =>
    refine ⟨?_, by simp, hout⟩
    rcases stop with rfl | hshort
    · rw [Nat.zero_add, Nat.div_eq_of_lt (Nat.sub_lt hpos Nat.one_pos), Nat.min_zero]
      rfl
    · rw [Nat.div_eq_of_lt (hm ▸ hshort), Nat.zero_min]
      rfl
  | @frame missing s t u bytes outs wanted step rest ih =>
    obtain ⟨hbytes, hadapter⟩ := step.plain hout
    obtain ⟨hcount, hlens, hlast⟩ := ih (step.kin.frameBytes.trans hm) hadapter
    have hfull : m ≤ s.nearend.ring.avail := hm ▸ step.full
    refine ⟨?_, ?_, hlast⟩
    · rw [step.avail, hbytes, hm] at hcount
      rw [List.length_cons, hcount, ceil_sub hpos wanted, Nat.div_eq_sub_div hpos hfull,
        ← Nat.add_min_add_right]
    · intro out hmem
      rcases List.mem_cons.mp hmem with rfl | hmem
      · rw [hbytes, hm]
      · exact hlens out hmem

/-- The loop counts every frame. -/
theorem Drains.counts [Sample.Lawful S] (hs : s.Sound) (hset : settings.For s.frames s.bands)
    (hw : s.Works) (h : Drains engines settings missing s outs t) :
    t.stats.frames = s.stats.frames + outs.length := by
  induction h with
  | done => rfl
  | frame wanted step rest ih =>
    have hkin := step.kin
    rw [ih (hkin.sound hs) (hkin.settings hset) (hkin.works hw), step.counts hs hset hw,
      List.length_cons, Nat.add_assoc, Nat.add_comm 1]

end Session

end Duplex
