import Duplex.Proofs.Backlog
import Duplex.Proofs.PassThrough

/-!
# Progress: how much of a push comes through

In a session at the nearend format whole frames are queued as they come, as many as the ring has
room for, and processed. What comes of them is settled by the size of the ring and of a frame
(`push_then_process`): nothing at all, if not even one frame fits. Beginning a session does not ask
for that.
-/

namespace Duplex

open Signal Engine

variable {S : Type} {F : Family}

namespace Intake

variable {R : Resampling} {i : Intake R} {l : Pcm.Layout} {bytes : List UInt8}

/-- Whole frames that need no conversion are queued as far as there is room. -/
theorem avail_push_plain (h : i.Sound l) (hlayout : i.format.layout = l) (hadapter : i.adapter = none)
    (hcarry : i.carry = []) (hwhole : l.channels * 2 ∣ bytes.length) :
    (i.push bytes).1.ring.avail =
      i.ring.avail + min (i.ring.free / (l.channels * 2) * (l.channels * 2)) bytes.length := by
  obtain ⟨k, hk⟩ :
      ∃ k, min (i.ring.free / (l.channels * 2) * (l.channels * 2)) bytes.length = k := ⟨_, rfl⟩
  have hframe : i.format.channels * 2 = l.channels * 2 := by rw [StreamFormat.channels, hlayout]
  have hall : (blocks (i.format.channels * 2) (i.carry ++ bytes)).flatten = bytes := by
    rw [hcarry, List.nil_append, ← take_eq_flatten_blocks i.frame_pos, hframe,
      Nat.div_mul_cancel hwhole, List.take_length]
  have hroom := Nat.div_mul_le_self i.ring.free (l.channels * 2)
  have hsound := emit_sound h bytes
  rw [emit_of_plain (hlayout.trans h.layout.symm) hadapter, hall] at hsound
  rw [push_ok (outcome_ok h (unfailing_of_none hadapter) bytes).1,
    emit_of_plain (hlayout.trans h.layout.symm) hadapter, hall]
  dsimp only
  rw [hsound.enqueue_eq bytes hk]
  show (i.ring.write (bytes.take k)).2.avail = _
  rw [ByteRing.write_avail, List.length_take, hk]
  omega

end Intake

namespace Session

variable {s : Session F} {size : Nat}

/-- At the nearend rate there are no adapters. -/
theorem Wired.plain (hs : s.Wired size) (hway : s.Way) (hrate : s.nearend.format.rate = s.rate) :
    s.nearend.adapter = none ∧ s.outputAdapter = none :=
  ⟨hs.used.sound.adapter.none_iff.mpr (hrate.trans hs.rate.symm), hway.none_iff.mpr hrate.symm⟩

section Push

variable {bytes : List UInt8} {k : Nat} (hs : s.Wired size) (hway : s.Way) (hpos : 0 < s.frameBytes)
  (hformat : s.nearend.format.rate = s.rate ∧ s.nearend.format.layout = s.layout)
  (hempty : s.nearend.avail = 0) (hcarry : s.nearend.carry = [])
  (hbytes : bytes.length = k * s.frameBytes)

include hs hway hpos hformat hempty hcarry hbytes

/-- Of a push of whole frames so many are queued. -/
theorem Wired.avail_push_div :
    (s.nearend.push bytes).1.ring.avail / s.frameBytes = min k ((size - 1) / s.frameBytes) := by
  obtain ⟨frames, hframes⟩ := s.dvd_frameBytes
  have hframe : 0 < s.layout.channels * 2 := Nat.mul_pos s.layout.channels_pos Nat.two_pos
  have hwhole : s.layout.channels * 2 ∣ bytes.length := by
    rw [hbytes]
    exact Nat.dvd_trans s.dvd_frameBytes (Nat.dvd_mul_left _ _)
  have hfree : s.nearend.ring.free = size - 1 := by
    have havail : s.nearend.ring.avail = 0 := hempty
    rw [ByteRing.free, havail, hs.capacity, Nat.sub_zero]
  rw [Intake.avail_push_plain hs.used.sound hformat.2 (hs.plain hway hformat.1).1 hcarry hwhole,
    show s.nearend.ring.avail = 0 from hempty, Nat.zero_add, hfree, hbytes, Nat.min_comm]
  -- A whole frame of processing is whole frames of samples.
  have hqueued : (size - 1) / (s.layout.channels * 2) * (s.layout.channels * 2) / s.frameBytes =
      (size - 1) / s.frameBytes := by
    rw [hframes, ← Nat.div_div_eq_div_mul, Nat.mul_div_cancel _ hframe, Nat.div_div_eq_div_mul]
  rcases Nat.le_total (k * s.frameBytes)
    ((size - 1) / (s.layout.channels * 2) * (s.layout.channels * 2)) with hle | hle
  · have hk := Nat.div_le_div_right (c := s.frameBytes) hle
    rw [Nat.mul_div_cancel _ hpos, hqueued] at hk
    rw [Nat.min_eq_left hle, Nat.mul_div_cancel _ hpos, Nat.min_eq_left hk]
  · have hk := Nat.div_le_div_right (c := s.frameBytes) hle
    rw [Nat.mul_div_cancel _ hpos, hqueued] at hk
    rw [Nat.min_eq_right hle, hqueued, Nat.min_eq_right hk]

/-- And so many are handed out. -/
theorem Wired.push_drains [Sample S] {engines : Engines S F} {settings : FrameSettings}
    {u v : Session F} {dest : List UInt8} {outs : List (List UInt8)}
    (hpending : s.pending = []) (hdest : k * s.frameBytes ≤ dest.length)
    (hu : u = { s with nearend := (s.nearend.push bytes).1, stats := u.stats })
    (h : Drains engines settings (dest.length - u.pending.length) u outs v) :
    min dest.length (u.pending ++ outs.flatten).length =
      s.frameBytes * min k ((size - 1) / s.frameBytes) := by
  have hparts : u.frameBytes = s.frameBytes ∧ u.outputAdapter = none ∧ u.pending = [] ∧
      u.nearend.ring.avail / s.frameBytes = min k ((size - 1) / s.frameBytes) := by
    rw [hu]
    exact ⟨rfl, (hs.plain hway hformat.1).2, hpending,
      hs.avail_push_div hway hpos hformat hempty hcarry hbytes⟩
  obtain ⟨hsame, hout, hrest, havail⟩ := hparts
  have hle := Nat.mul_le_mul_left s.frameBytes (Nat.min_le_left k ((size - 1) / s.frameBytes))
  rw [Nat.mul_comm s.frameBytes k] at hle
  rw [h.count_plain (hsame ▸ hpos) hout, hrest, hsame, havail, List.length_nil, Nat.zero_add]
  omega

end Push

end Session

/-- A rate of streams that is processed as it is can be processed. -/
theorem Session.processable_of_same {rate limit : Nat} (hmin : minSampleRate ≤ rate)
    (h : processingRate rate limit = rate) : Processable rate := by
  have hmin : 8000 ≤ rate := hmin
  unfold processingRate at h
  by_cases hnative : rate ∈ nativeRates
  · simp only [nativeRates, List.mem_cons, List.not_mem_nil, or_false] at hnative
    unfold Processable
    omega
  · have hfallback : fallbackRate = 32000 := rfl
    rw [if_neg hnative] at h
    exact .inl (by omega)

namespace Context

variable [Sample S] [Sample.Lawful S] (engines : Engines S F) {c₀ c₁ c : Context S F}
  {s : Session F}

/-- A push while audio is taken and a call after it, where there are no adapters for the nearend. -/
theorem run_push_tryProcess (hsound : c.Sound) (hs : c.session = some s)
    (hnone : s.nearend.adapter = none ∧ s.outputAdapter = none)
    (hrate : Session.Processable s.rate) (hgate : c.shouldRunEcho = true)
    (bytes dest : List UInt8) :
    Returns (c.run engines [.pushNearend bytes, .tryProcess dest]) fun r =>
      ∃ (settings : FrameSettings) (u v : Session F) (outs : List (List UInt8)) (out : List UInt8)
        (n : Nat),
        u = { s with nearend := (s.nearend.push bytes).1, stats := u.stats } ∧
        Session.Drains engines settings (dest.length - u.pending.length) u outs v ∧
        n = min dest.length (u.pending ++ outs.flatten).length ∧
        r.2 = [(.pushNearend bytes, .taken (.ok bytes.length)),
          (.tryProcess dest, .bytes out (.ok n))] := by
  have hvalid := hsound s hs
  obtain ⟨dropped, hdropped⟩ :=
    Intake.push_answers hvalid.nearend (Intake.unfailing_of_none hnone.1) bytes
  obtain ⟨w, hpush⟩ := pushNearend_open hs hgate bytes
  rw [hdropped] at hpush
  obtain ⟨c', hc'⟩ : ∃ c', (c.pushNearend bytes).1 = c' := ⟨_, rfl⟩
  obtain ⟨u, hu⟩ : ∃ u : Session F, u = { s with
      nearend := (s.nearend.push bytes).1
      stats := { s.stats with droppedNearend := s.stats.droppedNearend + dropped } } := ⟨_, rfl⟩
  have hpushed : c.apply engines (.pushNearend bytes) = .ok (c', .taken (.ok bytes.length)) := by
    rw [apply, ← hc', hpush]
    rfl
  have hsession : c'.session = some u := by
    rw [← hc', hpush, hu]
    rfl
  have hvalid' := apply_sound engines hsound hpushed u hsession
  have hw := hvalid'.sound.works_iff.mpr (by rw [hu]; exact hrate)
  have hback := hvalid'.way.returning (by rw [hu]; exact hnone.2)
  obtain ⟨⟨d, out, result⟩, hr, v, outs, n, hdrains, hn, -, hanswer⟩ :=
    tryProcess_drains engines hsession hvalid'.sound hw hback dest
  obtain ⟨-, rfl⟩ := Prod.mk.inj hanswer
  have hrun : c.run engines [.pushNearend bytes, .tryProcess dest] =
      .ok (d, [(.pushNearend bytes, .taken (.ok bytes.length)),
        (.tryProcess dest, .bytes out (.ok n))]) := by
    rw [run_cons, hpushed, ok_bind, run_cons, apply, hr]
    rfl
  exact ⟨_, hrun, _, u, v, outs, _, n, by rw [hu], hdrains, hn, rfl⟩

/-- In a session that was begun at the processing rate, with the nearend format that of processing,
audio being taken and none of it on its way, a push of `k` frames and a call with room for them hand
out as many of them as the ring has room for. That is at least one exactly if a frame fits into the
ring. -/
theorem push_then_process {channels rate farRate delay : Nat} {ops : List Operation}
    {t : Transcript} {bytes dest : List UInt8} {k : Nat}
    (hinit : c₀.init engines channels rate farRate delay = .ok (c₁, .ok .initialized))
    (hrate : c₁.processingRate? = some rate) (hrun : c₁.run engines ops = .ok (c, t))
    (hs : c.session = some s) (hsame : s.rate = rate)
    (hformat : s.nearend.format.rate = s.rate ∧ s.nearend.format.layout = s.layout)
    (hgate : c.shouldRunEcho = true) (hempty : s.nearend.avail = 0) (hcarry : s.nearend.carry = [])
    (hpending : s.pending = []) (hk : 1 ≤ k) (hbytes : bytes.length = k * s.frameBytes)
    (hdest : k * s.frameBytes ≤ dest.length) :
    Returns (c.run engines [.pushNearend bytes, .tryProcess dest]) fun r =>
      ∃ (out : List UInt8) (n : Nat),
        r.2 = [(.pushNearend bytes, .taken (.ok bytes.length)),
          (.tryProcess dest, .bytes out (.ok n))] ∧
        n = s.frameBytes * min k ((c₀.settings.ringSize - 1) / s.frameBytes) ∧
        (s.frameBytes ≤ n ↔ s.frameBytes < c₀.settings.ringSize) := by
  obtain ⟨-, hnot⟩ | ⟨o, w, hnone, hmade, hc₁, -⟩ := init_creates engines hinit
  · exact absurd rfl hnot
  have hopened := Session.create_opened hmade
  have hlimit : processingRate rate (min c₀.settings.maxRate.hertz engines.maxRate) = rate := by
    rw [processingRate?, hc₁] at hrate
    exact hopened.2.1.symm.trans (Option.some.inj hrate)
  have hmin : minSampleRate ≤ rate := hopened.1.nearend.stream ▸ o.nearend.format.minSampleRate_le
  have hprocessable : Session.Processable s.rate :=
    hsame ▸ Session.processable_of_same hmin hlimit
  have hfrom : c₀.run engines (.init channels rate farRate delay :: ops) =
      .ok (c, (.init channels rate farRate delay, .status (.ok .initialized)) :: t) := by
    rw [run_cons, apply, hinit]
    show (c₁.run engines ops).map _ = _
    rw [hrun]
    rfl
  have hwired := run_wired engines hnone hfrom hs hprocessable
  have hsound := run_sound engines (sound_of_none hnone) hfrom
  have hvalid := hsound s hs
  have hpos := Session.frameBytes_pos (hvalid.sound.works_iff.mpr hprocessable).frames_pos
  refine (run_push_tryProcess engines hsound hs (hwired.plain hvalid.way hformat.1) hprocessable hgate
    bytes dest).mono ?_
  rintro r ⟨settings, u, v, outs, out, n, hu, hdrains, hn, hanswers⟩
  have hcount := hn.trans
    (hwired.push_drains hvalid.way hpos hformat hempty hcarry hbytes hpending hdest hu hdrains)
  refine ⟨out, n, hanswers, hcount, ?_⟩
  have hone : s.frameBytes ≤ s.frameBytes * min k ((c₀.settings.ringSize - 1) / s.frameBytes) ↔
      1 ≤ min k ((c₀.settings.ringSize - 1) / s.frameBytes) := by
    simpa only [Nat.mul_one] using Nat.mul_le_mul_left_iff (n := 1) hpos
  rw [hcount, hone, Nat.le_min, and_iff_right hk, Nat.one_le_div_iff hpos]
  omega

/-- At 8 kHz, with room for 1023 bytes, six of seven frames come through. -/
theorem push_then_process_bypass :
    ∃ (c₁ c : Context Int16 Bypass.family) (t : Transcript) (s : Session Bypass.family),
      (new { ringSize := 1024 } ()).init (Bypass.engines Int16 48000) 1 8000 8000 0 =
          .ok (c₁, .ok .initialized) ∧
        c₁.run (Bypass.engines Int16 48000) [.setFarendReady true, .setNearendReady true] =
          .ok (c, t) ∧
        c.session = some s ∧ s.frameBytes = 160 ∧
        Returns (c.run (Bypass.engines Int16 48000)
            [.pushNearend (List.replicate 1120 7), .tryProcess (List.replicate 1120 0)]) fun r =>
          ∃ out, r.2 = [(.pushNearend (List.replicate 1120 7), .taken (.ok 1120)),
            (.tryProcess (List.replicate 1120 0), .bytes out (.ok 960))] := by
  obtain ⟨c₁, c, t, s, hinit, hrate, hrun, hs, hsame, hformat, hgate, hempty, hcarry, hpending,
      hbytes⟩ :
      ∃ (c₁ c : Context Int16 Bypass.family) (t : Transcript) (s : Session Bypass.family),
        (new { ringSize := 1024 } ()).init (Bypass.engines Int16 48000) 1 8000 8000 0 =
            .ok (c₁, .ok .initialized) ∧
          c₁.processingRate? = some 8000 ∧
          c₁.run (Bypass.engines Int16 48000) [.setFarendReady true, .setNearendReady true] =
            .ok (c, t) ∧
          c.session = some s ∧ s.rate = 8000 ∧
          (s.nearend.format.rate = s.rate ∧ s.nearend.format.layout = s.layout) ∧
          c.shouldRunEcho = true ∧ s.nearend.avail = 0 ∧ s.nearend.carry = [] ∧ s.pending = [] ∧
          s.frameBytes = 160 :=
    ⟨_, _, _, _, rfl, rfl, rfl, rfl, rfl, ⟨rfl, rfl⟩, rfl, rfl, rfl, rfl, rfl⟩
  refine ⟨c₁, c, t, s, hinit, hrun, hs, hbytes, ?_⟩
  refine (push_then_process (Bypass.engines Int16 48000) hinit hrate hrun hs hsame hformat hgate hempty
    hcarry hpending (k := 7) (by decide) (by rw [List.length_replicate, hbytes])
    (by rw [List.length_replicate, hbytes])).mono ?_
  rintro r ⟨out, n, hanswers, hn, -⟩
  rw [hbytes] at hn
  obtain rfl : n = 960 := hn
  rw [List.length_replicate] at hanswers
  exact ⟨out, hanswers⟩

/-- A ring of two bytes is accepted. All bytes of a frame are accepted then too, and none come
back. -/
theorem push_comes_to_nothing :
    ∃ (c₁ c : Context Int16 Bypass.family) (t : Transcript) (s : Session Bypass.family),
      (new { ringSize := 2 } ()).init (Bypass.engines Int16 48000) 1 8000 8000 0 =
          .ok (c₁, .ok .initialized) ∧
        c₁.run (Bypass.engines Int16 48000) [.setFarendReady true, .setNearendReady true] =
          .ok (c, t) ∧
        c.session = some s ∧ s.rate = 8000 ∧ s.frameBytes = 160 ∧
        s.nearend.format.rate = s.rate ∧ s.nearend.format.layout = s.layout ∧
        c.shouldRunEcho = true ∧ s.nearend.avail = 0 ∧ s.nearend.carry = [] ∧ s.pending = [] ∧
        Returns (c.run (Bypass.engines Int16 48000)
            [.pushNearend (List.replicate 160 7), .tryProcess (List.replicate 160 0)]) fun r =>
          (r.2.taken .nearend).length = 160 ∧ r.2.heard = [] := by
  obtain ⟨c₁, c, t, s, hinit, hrun, hs, hrate, hbytes, hformat, hlayout, hgate, hempty, hcarry,
      hpending⟩ :
      ∃ (c₁ c : Context Int16 Bypass.family) (t : Transcript) (s : Session Bypass.family),
        (new { ringSize := 2 } ()).init (Bypass.engines Int16 48000) 1 8000 8000 0 =
            .ok (c₁, .ok .initialized) ∧
          c₁.run (Bypass.engines Int16 48000) [.setFarendReady true, .setNearendReady true] =
            .ok (c, t) ∧
          c.session = some s ∧ s.rate = 8000 ∧ s.frameBytes = 160 ∧
          s.nearend.format.rate = s.rate ∧ s.nearend.format.layout = s.layout ∧
          c.shouldRunEcho = true ∧ s.nearend.avail = 0 ∧ s.nearend.carry = [] ∧ s.pending = [] :=
    ⟨_, _, _, _, rfl, rfl, rfl, rfl, rfl, rfl, rfl, rfl, rfl, rfl, rfl⟩
  have hvalues : ((new { ringSize := 2 } () : Context Int16 Bypass.family).init
      (Bypass.engines Int16 48000) 1 8000 8000 0 >>=
      fun q => q.1.run (Bypass.engines Int16 48000) [.setFarendReady true, .setNearendReady true] >>=
      fun q => q.1.run (Bypass.engines Int16 48000)
        [.pushNearend (List.replicate 160 7), .tryProcess (List.replicate 160 0)] >>=
      fun r => .ok ((r.2.taken .nearend).length, r.2.heard)) = .ok (160, []) := by decide +kernel
  rw [hinit, ok_bind, hrun, ok_bind] at hvalues
  obtain ⟨r, hr, hanswers⟩ := bind_eq_ok.mp hvalues
  rw [Except.ok.injEq, Prod.mk.injEq] at hanswers
  exact ⟨c₁, c, t, s, hinit, hrun, hs, hrate, hbytes, hformat, hlayout, hgate, hempty, hcarry,
    hpending, r, hr, hanswers⟩

end Context

end Duplex
