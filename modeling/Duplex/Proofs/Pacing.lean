import Duplex.Proofs.PassThrough
import Duplex.Proofs.Wiring

/-!
# Pacing: as much audio comes back as went in

Nearend audio is resampled on the way in and, frame by frame, on the way out again, with a remainder
kept back each time. The remainders do not add up: after any number of calls the number of frames
that came in settles how many were queued, and the number of frames that were processed settles how
much was given back (`Session.Paced`). So no more comes back than went in, and when a call runs short
less than 40 ms are missing.
-/

namespace Duplex

open Signal Engine
open Pcm (Layout)

variable {S : Type} {F : Family}

namespace Intake

/-- How much is emitted for all bytes that came in. -/
theorem Opened.length_emit {R : Resampling} {i : Intake R} {l : Layout} {streamRate rate : Nat}
    {p : Pace} {kept : R.State → Nat} (hR : R.Unfailing) (hF : R.Fixed)
    (h : i.Opened l streamRate rate) (hfed : AdapterFed p kept streamRate rate l.channels i.adapter 0)
    (bytes : List UInt8) :
    (i.emit bytes).2.length = p.yield (bytes.length / (l.channels * 2)) * (l.channels * 2) := by
  obtain ⟨n, hn⟩ : ∃ n, bytes.length / (l.channels * 2) = n := ⟨_, rfl⟩
  have hwhole : n * (l.channels * 2) ≤ bytes.length := hn ▸ Nat.div_mul_le_self _ _
  have hsamples : (Pcm.decode (bytes.take (n * (l.channels * 2)))).length = n * l.channels := by
    rw [Pcm.length_decode, List.length_take, Nat.min_eq_left hwhole, ← Nat.mul_assoc,
      Nat.mul_div_cancel _ Nat.two_pos]
  have hdouble (k : Nat) : k * (l.channels * 2) = 2 * (k * l.channels) := by
    rw [← Nat.mul_assoc, Nat.mul_comm]
  rw [h.emit]
  unfold convertStream
  dsimp only
  rw [hn, Pcm.length_encode, Layout.remap_self, hdouble (p.yield n)]
  rcases hadapter : i.adapter with _ | a
  · obtain rfl : p = .direct := by
      rw [hadapter] at hfed
      cases hfed
      assumption
    show 2 * (Pcm.decode _).length = 2 * (_ * _)
    rw [hsamples, Pace.yield_direct]
  · obtain ⟨-, hout⟩ := (hadapter ▸ hfed).process hR hF hsamples
    rw [Pace.yield_zero, Nat.zero_mul, Nat.zero_add, Nat.zero_add] at hout
    show 2 * (a.process _).2.1.length = _
    rw [hout]

end Intake

namespace Session

/-- So many frames were processed since the session was opened: their bytes were taken off what the
nearend was converted to, unless some of it was dropped, and so many bytes were given for them. -/
structure Processed (p : Pace) (kept : F.resampling.State → Nat) (s₀ : Session F)
    (taken : List UInt8) (s : Session F) (k given : Nat) : Prop where
  layout : s.layout = s₀.layout
  frames : s.frames = s₀.frames
  nearend : s.stats.droppedNearend = 0 → ∃ used, used.length = k * s.frameBytes ∧
    Intake.Ahead s₀.nearend taken used s.nearend
  fed : AdapterFed p kept s₀.rate s₀.nearend.format.rate s.layout.channels s.outputAdapter
    (k * s.frames)
  given : given = p.yield (k * s.frames) * (s.layout.channels * 2)

/-- Where the audio of a session is, as long as its nearend stays as it was opened: what was handed
out or is pending was given for the frames that were processed. -/
structure Paced (p : Pace) (kept : F.resampling.State → Nat) (s₀ : Session F) (t : Transcript)
    (s : Session F) : Prop where
  processed : ∃ k, Processed p kept s₀ (t.taken .nearend) s k (t.heard.length + s.pending.length)
  drained : t.Drained → s.pending = [] ∧ s.nearend.ring.avail < s.frameBytes

variable {p : Pace} {kept : F.resampling.State → Nat} {s₀ s t : Session F} {taken bytes : List UInt8}
  {k given : Nat}

/-- Nothing else matters. -/
theorem Processed.of_same (h : Processed p kept s₀ taken s k given)
    (hsame : t = { s with
      delay := t.delay, healthy := t.healthy, micLevel := t.micLevel, farend := t.farend
      lanes := t.lanes, pending := t.pending, stats := t.stats })
    (hdropped : t.stats.droppedNearend = s.stats.droppedNearend) :
    Processed p kept s₀ taken t k given := by
  rw [hsame]
  exact ⟨h.layout, h.frames, fun hzero => h.nearend (hdropped ▸ hzero), h.fed, h.given⟩

/-- A call that moves neither nearend audio nor output. -/
theorem Paced.of_same {T : Transcript} {op : Operation} {answer : Answer} (h : Paced p kept s₀ T s)
    (hop : ∀ dest, op ≠ .tryProcess dest) (htaken : Transcript.taken .nearend [(op, answer)] = [])
    (hheard : Transcript.heard [(op, answer)] = [])
    (hsame : t = { s with
      delay := t.delay, healthy := t.healthy, micLevel := t.micLevel, farend := t.farend
      lanes := t.lanes, stats := t.stats })
    (hdropped : t.stats.droppedNearend = s.stats.droppedNearend) :
    Paced p kept s₀ (T ++ [(op, answer)]) t := by
  obtain ⟨k, hk⟩ := h.processed
  refine ⟨⟨k, ?_⟩, fun hdrained => absurd hdrained (Transcript.not_drained_concat hop)⟩
  have hpending : t.pending = s.pending := by rw [hsame]
  rw [Transcript.taken_append, Transcript.heard_append, htaken, hheard, List.append_nil,
    List.append_nil, hpending]
  exact hk.of_same (by rw [hsame]) hdropped

variable [Sample S] {engines : Engines S F} {settings : FrameSettings} {missing : Nat}
  {outs : List (List UInt8)} (hR : F.resampling.Unfailing) (hF : F.resampling.Fixed)

include hR hF

/-- A step processes one frame. -/
theorem FrameStep.processed (h : Processed p kept s₀ taken s k given)
    (hstep : s.FrameStep engines settings bytes t) :
    Processed p kept s₀ taken t (k + 1) (given + bytes.length) := by
  obtain ⟨-, hnear, -, -, hdropped, -⟩ := hstep.rest
  obtain ⟨out, hlen, hbytes, -, hadapter⟩ := hstep.converts
  have hkin := hstep.kin
  obtain ⟨hfed, hgiven⟩ := convertOutput_fed hR hF h.fed hlen
  rw [← Nat.succ_mul] at hfed hgiven
  refine ⟨hkin.layout.trans h.layout, hkin.frames.trans h.frames, ?_, ?_, ?_⟩
  · intro hzero
    obtain ⟨used, hused, hahead⟩ := h.nearend (hdropped ▸ hzero)
    refine ⟨used ++ s.nearend.ring.toList.take s.frameBytes, ?_, hnear ▸ hahead.read s.frameBytes⟩
    rw [List.length_append, List.length_take, ByteRing.length_toList, Nat.min_eq_left hstep.full,
      hused, hkin.frameBytes, Nat.succ_mul]
  · rw [hadapter, hkin.layout, hkin.frames]
    exact hfed
  · rw [hkin.layout, hkin.frames, h.given, hbytes, hgiven]

theorem Drains.processed (h : Processed p kept s₀ taken s k given)
    (hdrains : Drains engines settings missing s outs t) :
    ∃ k, Processed p kept s₀ taken t k (given + outs.flatten.length) := by
  induction hdrains generalizing k given with
  | done stop => exact ⟨k, h⟩
  | frame wanted step rest ih =>
    obtain ⟨k, hk⟩ := ih (step.processed hR hF h)
    refine ⟨k, ?_⟩
    rwa [List.flatten_cons, List.length_append, ← Nat.add_assoc]

/-- Whatever a call does to the audio that leaves the nearend as it was opened, the session is
paced. -/
theorem Moved.paced {T : Transcript} (h₀ : s₀.nearend.Sound s₀.layout) (hvalid : s.Valid)
    {op : Operation} {answer : Answer} (hop : op.Streams) (h : Paced p kept s₀ T s)
    (hmoved : s.Moved engines op answer t) : Paced p kept s₀ (T ++ [(op, answer)]) t := by
  cases hmoved with
  | quiet same untried htaken heard =>
    exact h.of_same untried htaken heard (by rw [same.same]) same.losses.droppedNearend
  | pushFarend bytes =>
    refine h.of_same (by simp) ?_ rfl rfl rfl
    cases (s.farend.push bytes).2 <;> rfl
  | pushNearend bytes =>
    obtain ⟨k, hk⟩ := h.processed
    obtain ⟨dropped, hdropped⟩ := Intake.push_answers hvalid.nearend (fun _ => hR) bytes
    refine ⟨⟨k, ?_⟩, fun hdrained => absurd hdrained (Transcript.not_drained_concat (by simp))⟩
    rw [hdropped, takenOf, Transcript.taken_append, Transcript.heard_append,
      Transcript.taken_pushNearend, Transcript.heard_pushNearend, List.append_nil, if_pos rfl]
    refine ⟨hk.layout, hk.frames, ?_, hk.fed, hk.given⟩
    intro hzero
    obtain ⟨hbefore, rfl⟩ := Nat.add_eq_zero_iff.mp hzero
    obtain ⟨used, hused, hahead⟩ := hk.nearend hbefore
    exact ⟨used, hused, hahead.push h₀ (fun _ => hR) hdropped⟩
  | @tryProcess settings dest outs u n shape drains count =>
    obtain ⟨before, hbefore⟩ := h.processed
    obtain ⟨k, hk⟩ := drains.processed hR hF hbefore
    obtain ⟨out, hout⟩ : ∃ out, s.pending ++ outs.flatten = out := ⟨_, rfl⟩
    have hlen : out.length = s.pending.length + outs.flatten.length := by
      rw [← hout, List.length_append]
    rw [hout] at count ⊢
    refine ⟨⟨k, ?_⟩, ?_⟩
    · have hgiven : (T.heard ++ (out.take n ++ dest.drop n).take n).length + (out.drop n).length =
          T.heard.length + s.pending.length + outs.flatten.length := by
        simp only [List.length_append, List.length_take, List.length_drop]
        omega
      rw [Transcript.taken_append, Transcript.heard_append, Transcript.taken_tryProcess,
        Transcript.heard_tryProcess, List.append_nil]
      dsimp only
      rw [hgiven]
      exact hk.of_same rfl rfl
    · intro hdrained
      obtain ⟨dest', out', n', hdest, hanswer, hless⟩ := (Transcript.drained_concat _ _ _).mp hdrained
      obtain rfl : dest = dest' := by simpa using hdest
      obtain rfl : n = n' := Except.ok.inj (Answer.bytes.inj hanswer).2
      refine ⟨List.drop_of_length_le (by omega), ?_⟩
      show u.nearend.ring.avail < u.frameBytes
      rw [drains.frames.kin.frameBytes]
      exact drains.stops.resolve_left (by omega)
  | held failing => exact absurd (hvalid.returning hR) failing
  | flush => exact hop.elim
  | setFarendInfo taken changed same =>
    exact h.of_same (by simp) rfl rfl (by rw [same.same]) same.losses.droppedNearend
  | setNearendInfo => exact hop.elim

end Session

/-- There and back again. If the frames of 10 ms that were processed do not exceed what came in, what
comes back does not exceed it either; if the rest is short of a frame, less than 40 ms are missing. -/
theorem roundTrip_bounds {R : Resampling} {streamRate rate channels m m' : Nat} {p q : Pace}
    {kept kept' : R.State → Nat} {way back : Option (RateAdapter R)}
    (hway : AdapterFed p kept streamRate rate channels way m)
    (hback : AdapterFed q kept' rate streamRate channels back m')
    (hstream : 100 ∣ streamRate) (hrate : 100 ∣ rate) (hpos : 0 < streamRate) (hpos' : 0 < rate)
    {n k : Nat} (hle : k * (rate / 100) ≤ p.yield n) :
    q.yield (k * (rate / 100)) ≤ n ∧
      (p.yield n < k * (rate / 100) + rate / 100 →
        n < q.yield (k * (rate / 100)) + 4 * streamRate / 100) := by
  obtain ⟨hin, hin', -⟩ := hway.bounds hstream hrate hpos hpos' n
  obtain ⟨hout, -, hout'⟩ := hback.bounds hrate hstream hpos' hpos (k * (rate / 100))
  have hout' := hout' (Nat.dvd_mul_left _ _)
  obtain ⟨q, rfl⟩ := hstream
  obtain ⟨f, rfl⟩ := hrate
  have hq : 100 * q / 100 = q := Nat.mul_div_cancel_left q (by omega)
  have hf : 100 * f / 100 = f := Nat.mul_div_cancel_left f (by omega)
  rw [hq] at hin'
  rw [hf] at hle hout hout' ⊢
  have hsame : f * (100 * q) = q * (100 * f) := by
    rw [Nat.mul_left_comm, Nat.mul_comm f, ← Nat.mul_left_comm]
  have hfour : 4 * (100 * q) / 100 = 4 * q := by omega
  constructor
  · have hprocessed := Nat.mul_le_mul_right (100 * q) hle
    exact Nat.le_of_mul_le_mul_right (hout.trans (hprocessed.trans hin)) hpos'
  · intro hshort
    have hprocessed := Nat.mul_le_mul_right (100 * q) hshort.le
    rw [Nat.add_mul, hsame] at hprocessed
    rw [hsame] at hout'
    rw [hfour]
    refine Nat.lt_of_mul_lt_mul_right (a := 100 * f) ?_
    rw [Nat.add_mul, Nat.mul_assoc 4]
    rw [Nat.mul_assoc 2] at hin'
    omega

namespace Session

/-- Native rates have whole frames of 10 ms. -/
theorem frameSize_of_native {rate : Nat} (h : rate ∈ nativeRates) :
    100 ∣ rate ∧ 0 < rate ∧ frameSizeForRate rate = rate / 100 := by
  simp only [nativeRates, List.mem_cons, List.not_mem_nil, or_false] at h
  rcases h with rfl | rfl | rfl | rfl <;> decide

/-- Processing works at native rates, and streams can have them. -/
theorem processable_of_native {rate : Nat} (h : rate ∈ nativeRates) :
    Processable rate ∧ minSampleRate ≤ rate := by
  simp only [nativeRates, List.mem_cons, List.not_mem_nil, or_false] at h
  unfold Processable minSampleRate
  rcases h with rfl | rfl | rfl | rfl <;> decide

/-- The start of the count: both ways are at rest, and nothing is queued or pending. -/
structure Starts (s : Session F) (nearRate : Nat) : Prop where
  nearend : s.nearend.Opened s.layout nearRate s.rate
  way : (adapterBetween s.rate nearRate s.layout.channels).run = .ok (.ok s.outputAdapter)
  pending : s.pending = []
  frames : s.frames = frameSizeForRate s.rate

variable {p q : Pace} {kept kept' : F.resampling.State → Nat} {s₀ s t : Session F} {nearRate : Nat}
  {T : Transcript}

theorem Starts.of_quiet (h : s.Starts nearRate) (hsame : s.Quiet t) : t.Starts nearRate := by
  rw [hsame.same]
  exact ⟨h.nearend, h.way, h.pending, h.frames⟩

/-- A new session starts the count. -/
theorem create_starts {settings : Settings} {limit channels farRate delay : Nat}
    (h : (create settings limit channels nearRate farRate delay).run = .ok (.ok s)) :
    s.Starts nearRate :=
  have hopened := (create_opened h).1
  ⟨hopened.nearend, hopened.way, hopened.pending, hopened.frames⟩

theorem Starts.paced (h : s.Starts nearRate) (hR : F.resampling.Unfailing)
    (hfed : AdapterFed p kept s.rate nearRate s.layout.channels s.outputAdapter 0) :
    Paced p kept s [] s := by
  refine ⟨⟨0, rfl, rfl, fun _ => ⟨[], ?_, h.nearend.used.sound.ahead fun _ => hR⟩, ?_, ?_⟩, ?_⟩
  · rw [Nat.zero_mul, List.length_nil]
  · rw [Nat.zero_mul, h.nearend.stream]
    exact hfed
  · rw [h.pending, Nat.zero_mul, Pace.yield_zero, Nat.zero_mul]
    rfl
  · rintro ⟨_, _, _, hlast, -⟩
    simp at hlast

/-- Without a drop no more was handed out than came in, and less than 40 ms are missing after a call
that ran short. -/
theorem Paced.bounds (hR : F.resampling.Unfailing) (hF : F.resampling.Fixed) (h : Paced p kept s₀ T s)
    (h₀ : s₀.Starts nearRate)
    (hfed : AdapterFed q kept' nearRate s₀.rate s₀.layout.channels s₀.nearend.adapter 0)
    (hrate : s₀.rate ∈ nativeRates) (hzero : s.stats.droppedNearend = 0) {n : Nat}
    (hn : (T.taken .nearend).length / (s₀.layout.channels * 2) = n) :
    T.heard.length ≤ n * (s₀.layout.channels * 2) ∧
      (T.Drained →
        n * (s₀.layout.channels * 2) <
          T.heard.length + 4 * nearRate / 100 * (s₀.layout.channels * 2)) := by
  obtain ⟨k, hk⟩ := h.processed
  obtain ⟨used, hused, hahead⟩ := hk.nearend hzero
  obtain ⟨frame, hframe⟩ : ∃ frame, s₀.layout.channels * 2 = frame := ⟨_, rfl⟩
  have hpos : 0 < frame := hframe ▸ Nat.mul_pos s₀.layout.channels_pos Nat.two_pos
  obtain ⟨hdvd, hrate_pos, hsize⟩ := frameSize_of_native hrate
  have hframes : s.frames = s₀.rate / 100 := by rw [hk.frames, h₀.frames, hsize]
  have hbytes : s.frameBytes = s₀.rate / 100 * frame := by
    rw [frameBytes, frameLength, hframes, hk.layout, Nat.mul_assoc, hframe]
  -- What was emitted was processed or is queued.
  have hqueue := congrArg List.length hahead.queue
  rw [h₀.nearend.queued, List.nil_append, List.length_append,
    h₀.nearend.length_emit hR hF hfed, hn, hframe, hused,
    hbytes, ByteRing.length_toList, ← Nat.mul_assoc] at hqueue
  have hgiven := hk.given
  rw [hframes, hk.layout, hframe] at hgiven
  have hle : k * (s₀.rate / 100) ≤ q.yield n :=
    Nat.le_of_mul_le_mul_right (by omega) hpos
  have hstream : 100 ∣ nearRate ∧ 0 < nearRate := by
    rw [← h₀.nearend.stream]
    exact ⟨s₀.nearend.format.dvd_rate,
      Nat.lt_of_lt_of_le (by decide) s₀.nearend.format.minSampleRate_le⟩
  have hback := hk.fed
  rw [h₀.nearend.stream, hk.layout] at hback
  obtain ⟨hmost, hleast⟩ :=
    roundTrip_bounds hfed hback hstream.1 hdvd hstream.2 hrate_pos hle
  rw [hframe]
  constructor
  · have := Nat.mul_le_mul_right frame hmost
    omega
  · intro hdrained
    obtain ⟨hpending, hshort⟩ := h.drained hdrained
    rw [hbytes] at hshort
    have hless := hleast (Nat.lt_of_mul_lt_mul_right (a := frame) (by rw [Nat.add_mul]; omega))
    have := Nat.mul_lt_mul_of_pos_right hless hpos
    rw [hpending, List.length_nil] at hgiven
    rw [Nat.add_mul] at this
    omega

end Session

namespace Context

variable [Sample S] [Sample.Lawful S] (engines : Engines S F) {c₀ c : Context S F} {s : Session F}

omit [Sample S] [Sample.Lawful S] in
theorem init_starts {channels nearRate farRate delay : Nat}
    (hinit : c₀.init engines channels nearRate farRate delay = .ok (c, .ok .initialized))
    (hs : c.session = some s) :
    c.Sound ∧ s.Starts nearRate ∧ s.layout.channels = channels := by
  obtain ⟨-, hnot⟩ | ⟨o, w, hnone, hmade, hc, -⟩ := init_creates engines hinit
  · exact absurd rfl hnot
  have hquiet := (Session.resetEngines_refitted engines c₀.settings w o).quiet
  obtain rfl : _ = s := Option.some.inj (hc.symm.trans hs)
  refine ⟨init_sound engines (sound_of_none hnone) hinit,
    (Session.create_starts hmade).of_quiet hquiet, ?_⟩
  rw [hquiet.same]
  exact (Session.create_opened hmade).2.2

/-- The session that was begun goes on, and it is paced. -/
def Paces (p : Pace) (kept : F.resampling.State → Nat) (s₀ : Session F) (c : Context S F)
    (T : Transcript) : Prop :=
  ∃ s, c.session = some s ∧ c.Sound ∧ s.rate = s₀.rate ∧ Session.Paced p kept s₀ T s

/-- A call that leaves the nearend as it was opened keeps the session paced. -/
theorem Paces.apply {p : Pace} {kept : F.resampling.State → Nat} {s₀ : Session F} {T : Transcript}
    (hR : F.resampling.Unfailing) (hF : F.resampling.Fixed) (h : Paces p kept s₀ c T)
    (h₀ : s₀.nearend.Sound s₀.layout) (hrate : s₀.rate ∈ nativeRates) {op : Operation}
    (hop : op.Streams) :
    Returns (c.apply engines op) fun r => Paces p kept s₀ r.1 (T ++ [(op, r.2)]) := by
  obtain ⟨s, hs, hsound, hsame, hpaced⟩ := h
  have hnative : Session.Processable s.rate ∧ minSampleRate ≤ s.rate := by
    rw [hsame]
    exact Session.processable_of_native hrate
  obtain ⟨⟨c', answer⟩, happly, -⟩ := apply_returns engines hsound hs hnative.1 hnative.2 op
  refine ⟨_, happly, ?_⟩
  obtain ⟨hends, -⟩ | ⟨t, ht, hkept, hmoved⟩ := apply_moves engines hsound hs happly
  · rcases hends with rfl | rfl
    · exact hop.elim
    · exact hop.elim
  · exact ⟨t, ht, apply_sound engines hsound happly, hkept.trans hsame,
      (hmoved hnative.1).paced hR hF h₀ (hsound s hs) hop hpaced⟩

/-- Let resamplers take every block, in blocks of one size, and gather their input: out of so many
frames that were fed come so many, in the ratio of the rates, and the rest waits. Then at a native rate
no more bytes are handed out than came in as whole frames, as long as none were dropped; and less than
40 ms of them are missing after a call that handed out less than it was asked for. Both hold after any
number of calls. -/
theorem run_keeps_pace (hR : F.resampling.Unfailing) (hF : F.resampling.Fixed)
    (hP : F.resampling.Proportional) {channels nearRate farRate delay : Nat}
    (hinit : c₀.init engines channels nearRate farRate delay = .ok (c, .ok .initialized))
    (hs : c.session = some s) (hrate : s.rate ∈ nativeRates) {ops : List Operation}
    (hops : ∀ op ∈ ops, op.Streams) :
    Returns (c.run engines ops) fun r => r.1.stats.droppedNearend = 0 →
      r.2.heard.length ≤ (r.2.taken .nearend).length / (channels * 2) * (channels * 2) ∧
        (r.2.Drained →
          (r.2.taken .nearend).length / (channels * 2) * (channels * 2) <
            r.2.heard.length + 4 * nearRate / 100 * (channels * 2)) := by
  obtain ⟨hsound, hstarts, rfl⟩ := init_starts engines hinit hs
  obtain ⟨p, kept, hback⟩ := AdapterFed.of_adapterBetween hP hstarts.way
  obtain ⟨q, kept', hfed⟩ := AdapterFed.of_adapterBetween hP hstarts.nearend.adapter
  have hstart : Paces p kept s c [] := ⟨s, hs, hsound, rfl, hstarts.paced hR hback⟩
  refine (run_returns engines (I := Paces p kept s)
    (fun c t op h hop => Paces.apply engines hR hF h hstarts.nearend.used.sound hrate hop)
    hstart hops).mono ?_
  rintro r ⟨t, ht, -, -, hpaced⟩ hzero
  rw [stats, ht] at hzero
  exact Session.Paced.bounds hR hF hpaced hstarts hfed hrate hzero rfl

/-- A stream at 16 kHz that is processed at 8 kHz: of 350 samples 320 come back. -/
theorem run_keeps_pace_bypass :
    ∃ (c : Context Int16 Bypass.family) (s : Session Bypass.family)
      (r : Context Int16 Bypass.family × Transcript),
      (new { ringSize := 1024 } ()).init (Bypass.engines Int16 8000) 1 16000 8000 0 =
          .ok (c, .ok .initialized) ∧
        c.session = some s ∧ s.rate ∈ nativeRates ∧
        c.run (Bypass.engines Int16 8000) [.setFarendReady true, .setNearendReady true,
          .pushNearend (List.replicate 700 7), .tryProcess (List.replicate 700 0)] = .ok r ∧
        r.1.stats.droppedNearend = 0 ∧ r.2.heard.length = 640 ∧
        640 ≤ (r.2.taken .nearend).length / (1 * 2) * (1 * 2) := by
  obtain ⟨c, s, hinit, hs, hrate⟩ : ∃ (c : Context Int16 Bypass.family)
      (s : Session Bypass.family),
      (new { ringSize := 1024 } ()).init (Bypass.engines Int16 8000) 1 16000 8000 0 =
          .ok (c, .ok .initialized) ∧
        c.session = some s ∧ s.rate = 8000 := ⟨_, _, rfl, rfl, rfl⟩
  have hnative : s.rate ∈ nativeRates := by simp [hrate, nativeRates]
  have hstreams : ∀ op ∈ [Operation.setFarendReady true, .setNearendReady true,
      .pushNearend (List.replicate 700 7), .tryProcess (List.replicate 700 0)], op.Streams := by
    intro op hop
    simp only [List.mem_cons, List.not_mem_nil, or_false] at hop
    rcases hop with rfl | rfl | rfl | rfl <;> trivial
  obtain ⟨r, hr, hpace⟩ := run_keeps_pace (F := Bypass.family) (Bypass.engines Int16 8000)
    Resample.spectral_unfailing Resample.spectral_fixed Resample.spectral_proportional hinit hs hnative
    hstreams
  have hvalues : ((new { ringSize := 1024 } () : Context Int16 Bypass.family).init
      (Bypass.engines Int16 8000) 1 16000 8000 0 >>=
      fun q => q.1.run (Bypass.engines Int16 8000) [.setFarendReady true, .setNearendReady true,
        .pushNearend (List.replicate 700 7), .tryProcess (List.replicate 700 0)] >>=
      fun r => .ok (r.1.stats.droppedNearend, r.2.heard.length)) = .ok (0, 640) := by
    decide +kernel
  rw [hinit, ok_bind, hr, ok_bind, Except.ok.injEq, Prod.mk.injEq] at hvalues
  refine ⟨c, s, r, hinit, hs, hnative, hr, hvalues.1, hvalues.2, ?_⟩
  rw [← hvalues.2]
  exact (hpace hvalues.1).1

end Context

end Duplex
