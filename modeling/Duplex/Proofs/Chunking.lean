import Duplex.Engine.Bypass
import Duplex.Proofs.Playing
import Duplex.Proofs.Rates

/-!
# Chunking: the output does not depend on how the input was cut

Two runs of pushes and buffered processing start from the same context and move the same bytes of
either direction, cut, ordered and asked for differently. Without a loss each of them plays the
frames at the front of the same two converted streams (`Streamed`), so that what one of them hands
out is a prefix of what the other one hands out.
-/

namespace Duplex

open Signal Engine

variable {S : Type} {F : Family}

/-- A call that moves buffered audio. -/
def Operation.MovesAudio : Operation → Prop
  | .pushFarend _ | .pushNearend _ | .tryProcess _ => True
  | _ => False

namespace Session

variable [Sample S] (engines : Engines S F)

/-- What became of a session while bytes were moved without a loss: it played the frames at the
front of both streams, and what they gave is handed out or pending. -/
structure Played (settings : FrameSettings) (s₀ : Session F) (t : Transcript)
    (frames : List (List UInt8 × List UInt8)) (out : List UInt8) (s : Session F) : Prop where
  play : ∃ core, play engines settings frames s₀ = .ok (core, out) ∧
    s = core.rewire s.farend s.nearend s.pending
  whole : ∀ frame ∈ frames, frame.1.length = s₀.frameBytes ∧ frame.2.length = s₀.frameBytes
  heard : s₀.pending ++ out = t.heard ++ s.pending
  farend : Intake.Ahead s₀.farend (t.taken .farend) (frames.map (·.1)).flatten s.farend
  nearend : Intake.Ahead s₀.nearend (t.taken .nearend) (frames.map (·.2)).flatten s.nearend

/-- The frames of the two streams that a session is going to process: of what is queued and what
the given bytes are converted into. -/
def streamFrames (s₀ : Session F) (far near : List UInt8) : List (List UInt8 × List UInt8) :=
  (blocks s₀.frameBytes (s₀.farend.ring.toList ++ (s₀.farend.emit far).2)).zip
    (blocks s₀.frameBytes (s₀.nearend.ring.toList ++ (s₀.nearend.emit near).2))

section Frames

variable {engines} {settings : FrameSettings} {s₀ s : Session F} {t : Transcript}
  {frames : List (List UInt8 × List UInt8)} {out : List UInt8}

/-- The frames of the streams are those that were played, and behind them those still queued. -/
theorem Played.streamFrames_eq (h : Played engines settings s₀ t frames out s)
    (hpos : 0 < s₀.frameBytes) :
    s₀.streamFrames (t.taken .farend) (t.taken .nearend) =
      frames ++ (blocks s₀.frameBytes s.farend.ring.toList).zip
        (blocks s₀.frameBytes s.nearend.ring.toList) := by
  have hfar : ∀ block ∈ frames.map (·.1), block.length = s₀.frameBytes := by
    intro block hblock
    obtain ⟨frame, hframe, rfl⟩ := List.mem_map.mp hblock
    exact (h.whole frame hframe).1
  have hnear : ∀ block ∈ frames.map (·.2), block.length = s₀.frameBytes := by
    intro block hblock
    obtain ⟨frame, hframe, rfl⟩ := List.mem_map.mp hblock
    exact (h.whole frame hframe).2
  rw [streamFrames, h.farend.queue, h.nearend.queue, blocks_flatten_append hpos hfar,
    blocks_flatten_append hpos hnear, List.zip_append (by simp), ← List.zip_of_prod rfl rfl]

theorem Played.frames_prefix (h : Played engines settings s₀ t frames out s)
    (hpos : 0 < s₀.frameBytes) :
    frames <+: s₀.streamFrames (t.taken .farend) (t.taken .nearend) := by
  rw [h.streamFrames_eq hpos]
  exact List.prefix_append _ _

/-- If less than a nearend frame is still queued, all frames were played. -/
theorem Played.frames_all (h : Played engines settings s₀ t frames out s)
    (hpos : 0 < s₀.frameBytes) (hshort : s.nearend.ring.avail < s₀.frameBytes) :
    frames = s₀.streamFrames (t.taken .farend) (t.taken .nearend) := by
  have hnone : blocks s₀.frameBytes s.nearend.ring.toList = [] :=
    blocks_of_length_lt (by rw [ByteRing.length_toList]; exact hshort)
  rw [h.streamFrames_eq hpos, hnone, List.zip_nil_right, List.append_nil]

end Frames

end Session

namespace Context

variable [Sample S] (engines : Engines S F)

/-- What a run of moves keeps: everything but the session and the journal, what the session is for,
and that losses are only added. Without a loss, frames were played; and after a call that ran short
nothing is pending and no nearend frame queued. -/
structure Streamed (c₀ : Context S F) (s₀ : Session F) (c : Context S F) (t : Transcript)
    (s : Session F) : Prop where
  session : c.session = some s
  same : c = { c₀ with session := c.session, workshop := c.workshop }
  kin : s₀.Kin s
  losses : s₀.stats.LossesLe s.stats
  played : s₀.stats.SameLosses s.stats →
    ∃ frames out, Session.Played engines (c₀.frameSettings s₀ true) s₀ t frames out s
  drained : t.Drained → s.pending = [] ∧ s.nearend.ring.avail < s₀.frameBytes

variable {engines} {c₀ c : Context S F} {s₀ s : Session F} {t : Transcript}

theorem Streamed.stageEnabled (h : Streamed engines c₀ s₀ c t s) (h₀ : c₀.session = some s₀)
    (stage : Stage) : c.stageEnabled stage = c₀.stageEnabled stage := by
  have hrequested : c.requested = c₀.requested := by rw [h.same]
  unfold Context.stageEnabled
  rw [hrequested, h.session, h₀, Option.any_some, Option.any_some, h.kin.healthy]

theorem Streamed.shouldRunEcho (h : Streamed engines c₀ s₀ c t s) (h₀ : c₀.session = some s₀) :
    c.shouldRunEcho = c₀.shouldRunEcho := by
  have hready : c.farendReady = c₀.farendReady ∧ c.nearendReady = c₀.nearendReady := by
    rw [h.same]
    exact ⟨rfl, rfl⟩
  unfold Context.shouldRunEcho
  rw [hready.1, hready.2, h.stageEnabled h₀]

/-- What runs on a frame stays the same. -/
theorem Streamed.frameSettings (h : Streamed engines c₀ s₀ c t s) (h₀ : c₀.session = some s₀) :
    c.frameSettings s true = c₀.frameSettings s₀ true := by
  unfold Context.frameSettings
  rw [h.kin.frames, h.kin.bands, h.kin.delay, h.stageEnabled h₀, h.stageEnabled h₀,
    h.shouldRunEcho h₀]

theorem Streamed.start (hR : F.resampling.Unfailing) (h₀ : c₀.session = some s₀)
    (hvalid : s₀.Valid) : Streamed engines c₀ s₀ c₀ [] s₀ := by
  refine ⟨h₀, rfl, .refl s₀, .refl _, fun _ => ?_, ?_⟩
  · exact ⟨[], [], ⟨s₀, rfl, rfl⟩, by simp, by simp, hvalid.farend.ahead fun _ => hR,
      hvalid.nearend.ahead fun _ => hR⟩
  · rintro ⟨_, _, _, hlast, -⟩
    simp at hlast

section Steps

variable (h : Streamed engines c₀ s₀ c t s) (hR : F.resampling.Unfailing)
  (h₀ : c₀.session = some s₀) (hvalid : s₀.Valid) (hgate : c₀.shouldRunEcho = true)

include h hR h₀ hvalid hgate

omit hR h₀ hvalid hgate in
/-- A call that takes bytes in, if without a loss it changes nothing of the session but the intakes. -/
theorem Streamed.taking {c' : Context S F} {s' : Session F} {op : Operation} {answer : Answer}
    (hop : ∀ dest, op ≠ .tryProcess dest) (hheard : Transcript.heard [(op, answer)] = [])
    (hsession : c'.session = some s')
    (hsame : c' = { c with session := c'.session, workshop := c'.workshop }) (hkin : s.Kin s')
    (hlosses : s.stats.LossesLe s'.stats)
    (hkept : s.stats.SameLosses s'.stats → s' = s.rewire s'.farend s'.nearend s.pending ∧
      (∀ used, Intake.Ahead s₀.farend (t.taken .farend) used s.farend →
        Intake.Ahead s₀.farend ((t ++ [(op, answer)]).taken .farend) used s'.farend) ∧
      ∀ used, Intake.Ahead s₀.nearend (t.taken .nearend) used s.nearend →
        Intake.Ahead s₀.nearend ((t ++ [(op, answer)]).taken .nearend) used s'.nearend) :
    Streamed engines c₀ s₀ c' (t ++ [(op, answer)]) s' := by
  refine ⟨hsession, ?_, h.kin.trans hkin, h.losses.trans hlosses, ?_, ?_⟩
  · rw [hsame, h.same]
  · intro hlossless
    obtain ⟨hbefore, hnow⟩ := hlossless.between h.losses hlosses
    obtain ⟨hs', hfar, hnear⟩ := hkept hnow
    obtain ⟨frames, out, hplayed⟩ := h.played hbefore
    obtain ⟨core, hcore, hs⟩ := hplayed.play
    refine ⟨frames, out, ⟨core, hcore, ?_⟩, hplayed.whole, ?_, hfar _ hplayed.farend,
      hnear _ hplayed.nearend⟩
    · rw [hs', hs]
      rfl
    · rw [Transcript.heard_append, hheard, List.append_nil, hs']
      exact hplayed.heard
  · intro hdrained
    exact absurd hdrained (Transcript.not_drained_concat hop)

theorem Streamed.pushFarend (bytes : List UInt8) :
    ∃ s', Streamed engines c₀ s₀ (c.pushFarend bytes).1
      (t ++ [(.pushFarend bytes, .taken (c.pushFarend bytes).2)]) s' := by
  obtain ⟨w, hpush⟩ := pushFarend_open h.session ((h.shouldRunEcho h₀).trans hgate) bytes
  obtain ⟨dropped, hdropped⟩ :=
    Intake.push_answers (h.kin.valid hvalid).farend (fun _ => hR) bytes
  have hkin : s.Kin { s with
      farend := (s.farend.push bytes).1
      stats := { s.stats with droppedFarend := s.stats.droppedFarend + dropped } } :=
    s.kin_intakes _ _ _ (fun hs => Intake.push_sound hs bytes) (fun hs => hs) rfl
  rw [hpush, hdropped]
  refine ⟨_, h.taking (by simp) rfl rfl rfl hkin ?_ fun hkept => ?_⟩
  · exact ⟨Nat.le_refl _, Nat.le_add_right _ _, Nat.le_refl _⟩
  · have hnone : dropped = 0 := Nat.add_eq_left.mp hkept.droppedFarend
    rw [hnone] at hdropped
    refine ⟨?_, fun used hahead => ?_, fun used hahead => ?_⟩
    · rw [hnone]
      rfl
    · rw [Transcript.taken_append, takenOf, Transcript.taken_pushFarend, if_pos rfl]
      exact hahead.push hvalid.farend (fun _ => hR) hdropped
    · rw [Transcript.taken_append, takenOf, Transcript.taken_pushFarend, if_neg (by simp), List.append_nil]
      exact hahead

theorem Streamed.pushNearend (bytes : List UInt8) :
    ∃ s', Streamed engines c₀ s₀ (c.pushNearend bytes).1
      (t ++ [(.pushNearend bytes, .taken (c.pushNearend bytes).2)]) s' := by
  obtain ⟨w, hpush⟩ := pushNearend_open h.session ((h.shouldRunEcho h₀).trans hgate) bytes
  obtain ⟨dropped, hdropped⟩ :=
    Intake.push_answers (h.kin.valid hvalid).nearend (fun _ => hR) bytes
  have hkin : s.Kin { s with
      nearend := (s.nearend.push bytes).1
      stats := { s.stats with droppedNearend := s.stats.droppedNearend + dropped } } :=
    s.kin_intakes _ _ _ (fun hs => hs) (fun hs => Intake.push_sound hs bytes) (s.nearend.push_format bytes)
  rw [hpush, hdropped]
  refine ⟨_, h.taking (by simp) rfl rfl rfl hkin ?_ fun hkept => ?_⟩
  · exact ⟨Nat.le_refl _, Nat.le_refl _, Nat.le_add_right _ _⟩
  · have hnone : dropped = 0 := Nat.add_eq_left.mp hkept.droppedNearend
    rw [hnone] at hdropped
    refine ⟨?_, fun used hahead => ?_, fun used hahead => ?_⟩
    · rw [hnone]
      rfl
    · rw [Transcript.taken_append, takenOf, Transcript.taken_pushNearend, if_neg (by simp), List.append_nil]
      exact hahead
    · rw [Transcript.taken_append, takenOf, Transcript.taken_pushNearend, if_pos rfl]
      exact hahead.push hvalid.nearend (fun _ => hR) hdropped

omit hgate in
/-- A call plays the frames that it takes off the intakes. -/
theorem Streamed.tryProcess [Sample.Lawful S] (hw : s₀.Works) (dest : List UInt8) :
    Returns (c.tryProcess engines dest) fun r =>
      ∃ s', Streamed engines c₀ s₀ r.1 (t ++ [(.tryProcess dest, .bytes r.2.1 r.2.2)]) s' := by
  have hkin := h.kin
  have hsame := h.same
  have hsettings := h.frameSettings h₀
  have hbytes : s.frameBytes = s₀.frameBytes := by
    rw [Session.frameBytes, Session.frameLength, hkin.frames, hkin.layout]
    rfl
  unfold Context.tryProcess
  rw [h.session]
  refine (Session.tryProcess_frames (hkin.sound hvalid.sound) (c.frameSettings_for s _)
    (hkin.works hw) ((hkin.valid hvalid).returning hR) dest).bind fun r hr => ?_
  obtain ⟨u, bytes, n, hframes, hn, hresult, hsession, hout, hshort⟩ := hr
  have hheard : Transcript.heard [(.tryProcess dest, .bytes r.2.2.1 r.2.2.2)] =
      (u.pending ++ bytes).take n := by
    rw [hresult, Transcript.heard_tryProcess, hout]
  have hstats : r.1.stats = u.stats := by rw [hsession]
  refine returns_ok ⟨r.1, rfl, by rw [hsame], ?_, ?_, fun hlossless => ?_, fun hdrained => ?_⟩
  · rw [hsession]
    exact (hkin.trans hframes.kin).trans (Session.kin_pending u _)
  · rw [hstats]
    exact h.losses.trans hframes.lossesLe
  · rw [hstats] at hlossless
    obtain ⟨hbefore, hnow⟩ := hlossless.between h.losses hframes.lossesLe
    obtain ⟨frames, out, hplayed⟩ := h.played hbefore
    obtain ⟨core, hcore, hs⟩ := hplayed.play
    obtain ⟨more, u', hmore, hu, hwhole, hfar, hnear⟩ := hframes.plays hbytes hnow.farendUnderrun
    rw [hsettings, hs, Session.play_rewire] at hmore
    obtain ⟨⟨v, _⟩, hv, heq⟩ := map_eq_ok.mp hmore
    obtain ⟨rfl, rfl⟩ := Prod.mk.inj heq
    refine ⟨frames ++ more, _, ⟨v, Session.play_append hcore hv, ?_⟩, ?_, ?_, ?_, ?_⟩
    · rw [hsession, hu]
      rfl
    · intro frame hframe
      rcases List.mem_append.mp hframe with hframe | hframe
      · exact hplayed.whole frame hframe
      · exact hwhole frame hframe
    · rw [Transcript.heard_append, hheard, ← List.append_assoc, hplayed.heard, hsession,
        List.append_assoc, List.append_assoc, List.take_append_drop, hframes.pending]
    · rw [Transcript.taken_append, Transcript.taken_tryProcess, List.append_nil, List.map_append,
        List.flatten_append, hsession]
      exact hfar _ _ _ hplayed.farend
    · rw [Transcript.taken_append, Transcript.taken_tryProcess, List.append_nil, List.map_append,
        List.flatten_append, hsession]
      exact hnear _ _ _ hplayed.nearend
  · obtain ⟨dest', _, n', hdest, hanswer, hless⟩ := (Transcript.drained_concat _ _ _).mp hdrained
    obtain rfl : dest = dest' := by simpa using hdest
    obtain rfl : n = n' := by
      rw [Answer.bytes.injEq, hresult] at hanswer
      exact Except.ok.inj hanswer.2
    obtain ⟨hall, havail⟩ := hshort hless
    rw [hsession]
    exact ⟨List.drop_of_length_le (Nat.le_of_eq hall.symm), hbytes ▸ havail⟩

/-- Every call that moves audio keeps what a run keeps. -/
theorem Streamed.apply [Sample.Lawful S] (hw : s₀.Works) {op : Operation} (hop : op.MovesAudio) :
    Returns (c.apply engines op) fun r =>
      ∃ s', Streamed engines c₀ s₀ r.1 (t ++ [(op, r.2)]) s' := by
  cases op with
  | pushFarend bytes => exact returns_ok (h.pushFarend hR h₀ hvalid hgate bytes)
  | pushNearend bytes => exact returns_ok (h.pushNearend hR h₀ hvalid hgate bytes)
  | tryProcess dest => exact (h.tryProcess hR h₀ hvalid hw dest).map fun r hr => hr
  | _ => exact hop.elim

end Steps

variable {c₁ c₂ : Context S F} {s₁ s₂ : Session F} {t₁ t₂ : Transcript}

/-- Of two lossless runs over the same streams one hands out a prefix of what the other one does. -/
theorem Streamed.heard_prefix (h₁ : Streamed engines c₀ s₀ c₁ t₁ s₁)
    (h₂ : Streamed engines c₀ s₀ c₂ t₂ s₂) (hpos : 0 < s₀.frameBytes)
    (hsame₁ : s₀.stats.SameLosses s₁.stats) (hsame₂ : s₀.stats.SameLosses s₂.stats)
    (hnear : t₁.taken .nearend = t₂.taken .nearend) (hfar : t₁.taken .farend = t₂.taken .farend) :
    t₁.heard <+: t₂.heard ∨ t₂.heard <+: t₁.heard := by
  obtain ⟨frames₁, out₁, hplayed₁⟩ := h₁.played hsame₁
  obtain ⟨frames₂, out₂, hplayed₂⟩ := h₂.played hsame₂
  obtain ⟨u₁, hplay₁, -⟩ := hplayed₁.play
  obtain ⟨u₂, hplay₂, -⟩ := hplayed₂.play
  have hfirst := hplayed₁.frames_prefix hpos
  rw [hnear, hfar] at hfirst
  have hheard₁ : t₁.heard <+: s₀.pending ++ out₁ := hplayed₁.heard ▸ List.prefix_append _ _
  have hheard₂ : t₂.heard <+: s₀.pending ++ out₂ := hplayed₂.heard ▸ List.prefix_append _ _
  rcases List.prefix_or_prefix_of_prefix hfirst (hplayed₂.frames_prefix hpos) with hle | hle
  · obtain ⟨more, rfl⟩ := hle
    have hout := (List.prefix_append_right_inj s₀.pending).mpr (Session.play_prefix hplay₁ hplay₂)
    exact List.prefix_or_prefix_of_prefix (hheard₁.trans hout) hheard₂
  · obtain ⟨more, rfl⟩ := hle
    have hout := (List.prefix_append_right_inj s₀.pending).mpr (Session.play_prefix hplay₂ hplay₁)
    exact List.prefix_or_prefix_of_prefix hheard₁ (hheard₂.trans hout)

/-- Two lossless runs over the same streams that both ran short hand out the same. -/
theorem Streamed.heard_eq (h₁ : Streamed engines c₀ s₀ c₁ t₁ s₁)
    (h₂ : Streamed engines c₀ s₀ c₂ t₂ s₂) (hpos : 0 < s₀.frameBytes)
    (hsame₁ : s₀.stats.SameLosses s₁.stats) (hsame₂ : s₀.stats.SameLosses s₂.stats)
    (hnear : t₁.taken .nearend = t₂.taken .nearend) (hfar : t₁.taken .farend = t₂.taken .farend)
    (hdrained₁ : t₁.Drained) (hdrained₂ : t₂.Drained) : t₁.heard = t₂.heard := by
  obtain ⟨frames₁, out₁, hplayed₁⟩ := h₁.played hsame₁
  obtain ⟨frames₂, out₂, hplayed₂⟩ := h₂.played hsame₂
  obtain ⟨u₁, hplay₁, -⟩ := hplayed₁.play
  obtain ⟨u₂, hplay₂, -⟩ := hplayed₂.play
  obtain ⟨hpending₁, havail₁⟩ := h₁.drained hdrained₁
  obtain ⟨hpending₂, havail₂⟩ := h₂.drained hdrained₂
  have hframes : frames₁ = frames₂ := by
    rw [hplayed₁.frames_all hpos havail₁, hplayed₂.frames_all hpos havail₂, hnear, hfar]
  rw [hframes, hplay₂] at hplay₁
  have hout : out₂ = out₁ := congrArg Prod.snd (Except.ok.inj hplay₁)
  have hheard₁ := hplayed₁.heard
  have hheard₂ := hplayed₂.heard
  rw [hpending₁, List.append_nil] at hheard₁
  rw [hpending₂, List.append_nil, hout] at hheard₂
  exact hheard₁.symm.trans hheard₂

/-- Let no resampler refuse a block that has the size which it asks for. How the bytes of either
direction are cut into pushes, how pushes and buffered processing take turns and how much is asked for
at a time does not change what is heard: over the same streams and without a loss, one run hands out a
prefix of what the other one does, and the same if both ran short at the end. -/
theorem run_chunking_invariant [Sample.Lawful S] {c : Context S F} {s : Session F}
    (hR : F.resampling.Unfailing) (hreach : c.Reachable engines) (hs : c.session = some s)
    (hrate : s.rate ∈ nativeRates) (hgate : c.shouldRunEcho = true) {ops₁ ops₂ : List Operation}
    (hops₁ : ∀ op ∈ ops₁, op.MovesAudio) (hops₂ : ∀ op ∈ ops₂, op.MovesAudio) :
    Returns (c.run engines ops₁) fun r₁ => Returns (c.run engines ops₂) fun r₂ =>
      c.stats.SameLosses r₁.1.stats → c.stats.SameLosses r₂.1.stats →
      r₁.2.taken .nearend = r₂.2.taken .nearend → r₁.2.taken .farend = r₂.2.taken .farend →
        (r₁.2.heard <+: r₂.2.heard ∨ r₂.2.heard <+: r₁.2.heard) ∧
          (r₁.2.Drained → r₂.2.Drained → r₁.2.heard = r₂.2.heard) := by
  have hvalid := hreach.sound engines s hs
  have hprocessable : Session.Processable s.rate := by
    simp only [nativeRates, List.mem_cons, List.not_mem_nil, or_false] at hrate
    unfold Session.Processable
    omega
  have hw := hvalid.sound.works_iff.mpr hprocessable
  have hpos := Session.frameBytes_pos hw.frames_pos
  have hruns : ∀ ops : List Operation, (∀ op ∈ ops, op.MovesAudio) →
      Returns (c.run engines ops) fun r => ∃ s', Streamed engines c s r.1 r.2 s' := by
    intro ops hops
    exact run_returns engines (I := fun c' t => ∃ s', Streamed engines c s c' t s')
      (fun c' t op ⟨s', h⟩ hop => h.apply hR hs hvalid hgate hw hop)
      ⟨s, Streamed.start hR hs hvalid⟩ hops
  refine (hruns ops₁ hops₁).mono fun r₁ ⟨s₁, h₁⟩ => (hruns ops₂ hops₂).mono fun r₂ ⟨s₂, h₂⟩ => ?_
  intro hsame₁ hsame₂ hnear hfar
  rw [stats, stats, hs, h₁.session] at hsame₁
  rw [stats, stats, hs, h₂.session] at hsame₂
  exact ⟨h₁.heard_prefix h₂ hpos hsame₁ hsame₂ hnear hfar,
    h₁.heard_eq h₂ hpos hsame₁ hsame₂ hnear hfar⟩

/-- Both directions are resampled from 16 to 8 kHz, and the output back. A frame and three bytes in two
ways. -/
theorem run_chunking_invariant_bypass :
    ∃ (c : Context Int16 Bypass.family) (s : Session Bypass.family)
      (r₁ r₂ : Context Int16 Bypass.family × Transcript),
      c.Reachable (Bypass.engines Int16 8000) ∧ c.session = some s ∧ s.rate ∈ nativeRates ∧
        c.shouldRunEcho = true ∧
        [s.farend.adapter, s.nearend.adapter, s.outputAdapter].all (·.isSome) ∧
        c.run (Bypass.engines Int16 8000) [.pushFarend (List.replicate 320 0),
          .pushNearend (List.replicate 323 7), .tryProcess (List.replicate 400 0)] = .ok r₁ ∧
        c.run (Bypass.engines Int16 8000) [.pushNearend (List.replicate 101 7),
          .pushFarend (List.replicate 99 0), .pushFarend (List.replicate 221 0),
          .pushNearend (List.replicate 222 7), .tryProcess (List.replicate 7 0),
          .tryProcess (List.replicate 400 0)] = .ok r₂ ∧
        c.stats.SameLosses r₁.1.stats ∧ c.stats.SameLosses r₂.1.stats ∧
        r₁.2.taken .nearend = r₂.2.taken .nearend ∧ r₁.2.taken .farend = r₂.2.taken .farend ∧
        r₁.2.heard.length = 320 ∧ (r₁.2.heard <+: r₂.2.heard ∨ r₂.2.heard <+: r₁.2.heard) := by
  obtain ⟨c, t, s, hrun, hs, hrate, hgate, hadapters⟩ : ∃ (c : Context Int16 Bypass.family)
      (t : Transcript) (s : Session Bypass.family),
      (new { ringSize := 1024 } ()).run (Bypass.engines Int16 8000)
          [.init 1 16000 16000 0, .setFarendReady true, .setNearendReady true] = .ok (c, t) ∧
        c.session = some s ∧ s.rate = 8000 ∧ c.shouldRunEcho = true ∧
        [s.farend.adapter, s.nearend.adapter, s.outputAdapter].all (·.isSome) :=
    ⟨_, _, _, rfl, rfl, rfl, rfl, rfl⟩
  have hreach : c.Reachable (Bypass.engines Int16 8000) := ⟨_, (), _, t, hrun⟩
  have hnative : s.rate ∈ nativeRates := by simp [hrate, nativeRates]
  have hops₁ : ∀ op ∈ [Operation.pushFarend (List.replicate 320 0),
      .pushNearend (List.replicate 323 7), .tryProcess (List.replicate 400 0)], op.MovesAudio := by
    intro op hop
    simp only [List.mem_cons, List.not_mem_nil, or_false] at hop
    rcases hop with rfl | rfl | rfl <;> trivial
  have hops₂ : ∀ op ∈ [Operation.pushNearend (List.replicate 101 7),
      .pushFarend (List.replicate 99 0), .pushFarend (List.replicate 221 0),
      .pushNearend (List.replicate 222 7), .tryProcess (List.replicate 7 0),
      .tryProcess (List.replicate 400 0)], op.MovesAudio := by
    intro op hop
    simp only [List.mem_cons, List.not_mem_nil, or_false] at hop
    rcases hop with rfl | rfl | rfl | rfl | rfl | rfl <;> trivial
  obtain ⟨r₁, hr₁, r₂, hr₂, hinvariant⟩ :=
    run_chunking_invariant Resample.spectral_unfailing hreach hs hnative hgate hops₁ hops₂
  have hvalues : ((new { ringSize := 1024 } () : Context Int16 Bypass.family).run
      (Bypass.engines Int16 8000)
      [.init 1 16000 16000 0, .setFarendReady true, .setNearendReady true] >>= fun q =>
      q.1.run (Bypass.engines Int16 8000) [.pushFarend (List.replicate 320 0),
        .pushNearend (List.replicate 323 7), .tryProcess (List.replicate 400 0)] >>= fun r₁ =>
      q.1.run (Bypass.engines Int16 8000) [.pushNearend (List.replicate 101 7),
        .pushFarend (List.replicate 99 0), .pushFarend (List.replicate 221 0),
        .pushNearend (List.replicate 222 7), .tryProcess (List.replicate 7 0),
        .tryProcess (List.replicate 400 0)] >>= fun r₂ =>
      .ok (decide (q.1.stats.SameLosses r₁.1.stats), decide (q.1.stats.SameLosses r₂.1.stats),
        r₁.2.taken .nearend == r₂.2.taken .nearend, r₁.2.taken .farend == r₂.2.taken .farend,
        r₁.2.heard.length)) = .ok (true, true, true, true, 320) := by
    decide +kernel
  rw [hrun, ok_bind, hr₁, ok_bind, hr₂, ok_bind] at hvalues
  simp only [Except.ok.injEq, Prod.mk.injEq, decide_eq_true_eq, beq_iff_eq] at hvalues
  obtain ⟨hsame₁, hsame₂, hnear, hfar, hlength⟩ := hvalues
  exact ⟨c, s, r₁, r₂, hreach, hs, hnative, hgate, hadapters, hr₁, hr₂, hsame₁, hsame₂, hnear, hfar,
    hlength, (hinvariant hsame₁ hsame₂ hnear hfar).1⟩

end Context

end Duplex
