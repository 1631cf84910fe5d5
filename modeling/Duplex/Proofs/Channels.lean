import Duplex.Engine.Bypass
import Duplex.Proofs.Feeding
import Duplex.Proofs.Twins

/-!
# Channels: a stereo session is two mono sessions

Without gain control nothing passes from one lane to the next. What a stereo session makes of one
channel (`Operation.facet`, `Answer.facet`) is what a mono session of the same rates, settings and
delay makes of that channel alone, if echo cancellers and noise suppressors are made alike.
-/

namespace Duplex

open Signal Engine
open Pcm (Layout)

variable {S : Type} {F : Family} {α : Type}

/-- One channel of a stereo stream. -/
inductive Side where
  | left
  | right
  deriving DecidableEq, Repr

namespace Side

/-- The one of a pair that is on this side. -/
def pick (side : Side) (p : α × α) : α :=
  match side with
  | left => p.1
  | right => p.2

/-- The samples of one channel; an incomplete last frame is dropped. -/
def channel (side : Side) (xs : List α) : List α := (pairs xs).map side.pick

variable (side : Side)

theorem length_channel (xs : List α) : (side.channel xs).length = xs.length / 2 := by
  rw [channel, List.length_map, length_pairs]

theorem channel_append {xs : List α} (h : 2 ∣ xs.length) (ys : List α) :
    side.channel (xs ++ ys) = side.channel xs ++ side.channel ys := by
  rw [channel, pairs_append h, List.map_append]
  rfl

/-- Whole frames are taken of every channel. -/
theorem channel_take (n : Nat) (xs : List α) :
    side.channel (xs.take (2 * n)) = (side.channel xs).take n := by
  induction xs using pairs_induction generalizing n with
  | nil => simp [channel]
  | single a =>
    cases n with
    | zero => simp [channel]
    | succ n => simp [channel, Nat.mul_succ]
  | pair a b rest ih =>
    cases n with
    | zero => simp [channel]
    | succ n =>
      have hrest := ih n
      simp only [channel] at hrest
      simp [channel, Nat.mul_succ, hrest]

theorem channel_drop (n : Nat) (xs : List α) :
    side.channel (xs.drop (2 * n)) = (side.channel xs).drop n := by
  induction xs using pairs_induction generalizing n with
  | nil => simp [channel]
  | single a =>
    cases n with
    | zero => simp [channel]
    | succ n => simp [channel, Nat.mul_succ]
  | pair a b rest ih =>
    cases n with
    | zero => simp [channel]
    | succ n =>
      have hrest := ih n
      simp only [channel] at hrest
      simp [channel, Nat.mul_succ, hrest]

/-- The frames of a channel are the channels of the frames. -/
theorem blocks_channel {n : Nat} (hn : 0 < n) (xs : List α) :
    blocks n (side.channel xs) = (blocks (2 * n) xs).map side.channel := by
  have hn' : 0 < 2 * n := by omega
  induction xs using blocks_induction hn' with
  | short xs h =>
    rw [blocks_of_length_lt h, blocks_of_length_lt (by rw [length_channel]; omega), List.map_nil]
  | long xs h ih =>
    rw [blocks_of_le_length hn' h, blocks_of_le_length hn (by rw [length_channel]; omega),
      List.map_cons, ← ih, channel_take, channel_drop]

theorem length_of_even {xs : List α} (h : 2 ∣ xs.length) :
    xs.length = 2 * (side.channel xs).length := by
  rw [length_channel]
  omega

/-- The part of a farend that goes with a nearend frame, and what is left of it. -/
theorem map_take_channel {near : List α} (h : 2 ∣ near.length) (farend : Option (List α)) :
    (farend.map (·.take near.length)).map side.channel =
      (farend.map side.channel).map (·.take (side.channel near).length) := by
  cases farend with
  | none => rfl
  | some farend =>
    simp only [Option.map_some]
    rw [side.length_of_even h, channel_take]

theorem map_drop_channel {near : List α} (h : 2 ∣ near.length) (farend : Option (List α)) :
    (farend.map (·.drop near.length)).map side.channel =
      (farend.map side.channel).map (·.drop (side.channel near).length) := by
  cases farend with
  | none => rfl
  | some farend =>
    simp only [Option.map_some]
    rw [side.length_of_even h, channel_drop]

/-- What is written to the start of a stream is written to the start of each channel. -/
theorem channel_overlay {dest src : List α} (h : 2 ∣ src.length) (hle : src.length ≤ dest.length) :
    side.channel (overlay dest 0 src) = overlay (side.channel dest) 0 (side.channel src) := by
  obtain ⟨k, hk⟩ := h
  have hlength : (side.channel src).length = k := by
    rw [length_channel]
    omega
  rw [overlay_zero hle, channel_append side ⟨k, hk⟩, overlay_zero (by simp only [length_channel]; omega),
    hk, channel_drop, hlength]

/-- A channel of two that were joined. -/
theorem channel_join {left right : List α} (h : left.length = right.length) (side : Side) :
    side.channel (Layout.join [left, right]) = side.pick (left, right) := by
  rw [channel, Layout.join, pairs_unpairs]
  cases side with
  | left => exact List.map_fst_zip (Nat.le_of_eq h)
  | right => exact List.map_snd_zip (Nat.le_of_eq h.symm)

theorem split_eq (xs : List α) : Layout.stereo.split xs = [left.channel xs, right.channel xs] := rfl

end Side

/-! ### Calls -/

/-- A result for one channel: it has half of the samples. -/
def halved : Except Error Nat → Except Error Nat
  | .ok n => .ok (n / 2)
  | .error (.insufficientData available required) =>
    .error (.insufficientData (available / 2) (required / 2))
  | .error e => .error e

/-- What a call is for one channel. -/
def Operation.facet (side : Side) : Operation → Operation
  | .process farend nearend out =>
    .process (farend.map side.channel) (side.channel nearend) (side.channel out)
  | op => op

/-- What an answer is for one channel. -/
def Answer.facet (side : Side) : Answer → Answer
  | .samples out result => .samples (side.channel out) (halved result)
  | answer => answer

/-- What each call and answer are for one channel. -/
def Transcript.facet (side : Side) (t : Transcript) : Transcript :=
  t.map fun call => (call.1.facet side, call.2.facet side)

/-- The answer of a stereo session from those of the mono sessions: what these wrote is merged into
the destination. -/
def Operation.merge : Operation → (left right : Answer) → Answer
  | .process _ _ out, .samples left (.ok n), .samples right (.ok k) =>
    let merged := Pcm.mergeStereo (left.take n) (right.take k) out
    .samples merged.2 (.ok merged.1)
  | .process _ nearend out, .samples _ (.error (.insufficientData _ required)), _ =>
    .samples out (.error (.insufficientData nearend.length (2 * required)))
  | _, answer, _ => answer

/-- The transcript of a stereo session from those of the mono sessions. -/
def Transcript.merge : List Operation → (left right : Transcript) → Transcript
  | op :: ops, l :: left, r :: right => (op, op.merge l.2 r.2) :: Transcript.merge ops left right
  | _, _, _ => []

/-- What a stereo session makes of a nearend for which there is room: it is short of a frame, or
whole frames are written to the start of the destination. -/
inductive Processed (required : Nat) (nearend out : List Int16) :
    List Int16 → Except Error Nat → Prop where
  | short : Processed required nearend out out
      (.error (.insufficientData nearend.length required))
  | whole {heard : List Int16} (heven : 2 ∣ heard.length) (hroom : heard.length ≤ out.length) :
    Processed required nearend out (overlay out 0 heard) (.ok heard.length)

/-- The samples of both channels, merged, are those of the stereo session. -/
theorem Processed.merge {required : Nat} {farend : Option (List Int16)}
    {nearend out out' : List Int16} {result : Except Error Nat}
    (h : Processed required nearend out out' result) (heven : 2 ∣ required) :
    (Operation.process farend nearend out).merge ((Answer.samples out' result).facet .left)
      ((Answer.samples out' result).facet .right) = .samples out' result := by
  cases h with
  | short =>
    show Answer.samples out (.error (.insufficientData nearend.length (2 * (required / 2)))) = _
    rw [Nat.mul_div_cancel' heven]
  | @whole heard heven hroom =>
    have htake (side : Side) : (side.channel (overlay out 0 heard)).take (heard.length / 2) =
        side.channel heard := by
      rw [side.channel_overlay heven hroom, ← side.length_channel]
      refine take_overlay ?_
      simp only [Side.length_channel]
      omega
    have hzip : (Side.left.channel heard).zip (Side.right.channel heard) = pairs heard := by
      simp [Side.channel, Side.pick, List.zip_map', List.map_id']
    have hframes : min (min (heard.length / 2) (heard.length / 2)) (out.length / 2) =
        heard.length / 2 := by omega
    show Answer.samples (Pcm.mergeStereo _ _ out).2 (.ok (Pcm.mergeStereo _ _ out).1) = _
    rw [htake, htake, Pcm.mergeStereo]
    dsimp only
    rw [Side.length_channel, Side.length_channel, hframes, hzip,
      List.take_of_length_le (by rw [length_pairs]), unpairs_pairs heven, Nat.mul_div_cancel' heven]

/-! ### Sessions -/

namespace Session

variable {engines : Engines S F} {like : engines.Likeness} {side : Side}

/-- A mono session that does for one channel what a stereo session does for both: it has the same
frames and stages, and its lane is a twin of the lane of that channel. -/
structure Facet (like : engines.Likeness) (side : Side) (s m : Session F) : Prop where
  stereo : s.layout = .stereo
  mono : m.layout = .mono
  frames : m.frames = s.frames
  bands : m.bands = s.bands
  delay : m.delay = s.delay
  echo : m.healthy.echo = s.healthy.echo
  noise : m.healthy.noise = s.healthy.noise
  lanes : ∃ a b l, s.lanes = [a, b] ∧ m.lanes = [l] ∧ (side.pick (a, b)).Twin like false l ∧
    l.buffers = (side.pick (a, b)).buffers

variable {s m t : Session F}

namespace Facet

theorem frameLength (h : Facet like side s m) : s.frameLength = 2 * m.frameLength := by
  rw [Session.frameLength, Session.frameLength, h.stereo, h.mono, h.frames]
  simp only [Layout.channels]
  omega

/-- A frame of the mono session is one channel of a frame. -/
theorem deinterleave (h : Facet like side s m) (samples : List Int16) :
    m.deinterleave (side.channel samples) = [fit s.frames 0 (side.channel samples)] := by
  rw [Session.deinterleave, h.mono, h.frames]
  rfl

end Facet

theorem deinterleave_stereo (h : s.layout = .stereo) (samples : List Int16) :
    s.deinterleave samples =
      [fit s.frames 0 (Side.left.channel samples), fit s.frames 0 (Side.right.channel samples)] := by
  rw [deinterleave, h, Side.split_eq]
  rfl

variable [Sample S]

/-- A frame of a session with a single lane. -/
theorem runFrame_single {settings : FrameSettings} {l : Lane F} {bufs : Buffers}
    {farend : Option (List Int16)} {near far' near' samples : List Int16} {q : Lane.Passage S F}
    (hfar : m.deinterleave (farend.getD []) = [far']) (hnear : m.deinterleave near = [near'])
    (hq : Lane.process engines settings far' near'
      { lane := l, buffers := bufs, micLevel := m.micLevel, stats := m.stats, journal := [] } =
        .ok (q, samples)) :
    m.runFrame engines settings farend near [(l, bufs)] =
      .ok ({ m with
        lanes := [{ q.lane with buffers := some q.buffers }], micLevel := q.micLevel
        stats := q.stats }, q.journal, samples) := by
  rw [runFrame, hfar, hnear, runLanes, hq]
  rfl

/-- A frame of a session with two lanes is made by one after the other. -/
theorem runFrame_pair {settings : FrameSettings} {a b : Lane F} {bufs bufs' : Buffers}
    {farend : Option (List Int16)} {near far₁ far₂ near₁ near₂ heard : List Int16}
    {journal : Journal S} (hfar : s.deinterleave (farend.getD []) = [far₁, far₂])
    (hnear : s.deinterleave near = [near₁, near₂])
    (hrun : s.runFrame engines settings farend near [(a, bufs), (b, bufs')] =
      .ok (t, journal, heard)) :
    ∃ p q left right,
      Lane.process engines settings far₁ near₁
          { lane := a, buffers := bufs, micLevel := s.micLevel, stats := s.stats, journal := [] } =
        .ok (p, left) ∧
      Lane.process engines settings far₂ near₂
          { lane := b, buffers := bufs', micLevel := p.micLevel, stats := p.stats
            journal := p.journal } = .ok (q, right) ∧
      t = { s with
        lanes := [{ p.lane with buffers := some p.buffers },
          { q.lane with buffers := some q.buffers }]
        micLevel := q.micLevel, stats := q.stats } ∧
      journal = q.journal ∧ heard = Layout.join [left, right] := by
  rw [runFrame, hfar, hnear] at hrun
  obtain ⟨r, hlanes, ht⟩ := bind_eq_ok.mp hrun
  rw [runLanes] at hlanes
  obtain ⟨⟨p, left⟩, hp, hlanes⟩ := bind_eq_ok.mp hlanes
  obtain ⟨r', hrest, hr⟩ := bind_eq_ok.mp hlanes
  rw [runLanes] at hrest
  obtain ⟨⟨q, right⟩, hq, hrest⟩ := bind_eq_ok.mp hrest
  cases hrest
  cases hr
  cases ht
  exact ⟨p, q, left, right, hp, hq, rfl, rfl, rfl⟩

/-- The frames of two lanes. -/
theorem prepareLanes_pair {settings : FrameSettings} {a b : Lane F}
    {prepared : List (Lane F × Buffers)}
    (h : (prepareLanes settings [a, b]).run = .ok (.ok prepared)) :
    ∃ bufs bufs', (a.prepare settings).run = .ok (.ok bufs) ∧
      (b.prepare settings).run = .ok (.ok bufs') ∧ prepared = [(a, bufs), (b, bufs')] := by
  obtain ⟨bufs, ha, h⟩ := attempt_bind_eq_ok.mp h
  obtain ⟨rest, hrest, h⟩ := attempt_bind_eq_ok.mp h
  obtain ⟨bufs', hb, hrest⟩ := attempt_bind_eq_ok.mp hrest
  cases hrest
  cases h
  exact ⟨bufs, bufs', ha, hb, rfl⟩

theorem prepareLanes_single {settings : FrameSettings} {l : Lane F} {bufs : Buffers}
    (h : (l.prepare settings).run = .ok (.ok bufs)) :
    (prepareLanes settings [l]).run = .ok (.ok [(l, bufs)]) :=
  attempt_bind_eq_ok.mpr ⟨bufs, h, attempt_bind_eq_ok.mpr ⟨[], rfl, rfl⟩⟩

/-- A run over frames goes on while there is room for all of them. -/
theorem runFrames_cons [Sample.Lawful S] {settings : FrameSettings} (hs : s.Sound)
    (hframes : 0 < s.frames) (hset : settings.For s.frames s.bands) {prepared : List (Lane F × Buffers)}
    (hprepare : (prepareLanes settings s.lanes).run = .ok (.ok prepared))
    {farend : Option (List Int16)} {near heard : List Int16} {journal : Journal S}
    (hrun : s.runFrame engines settings (farend.map (·.take near.length)) near prepared =
      .ok (t, journal, heard)) {room : Nat} (hroom : s.frameLength ≤ room)
    (frames : List (List Int16)) :
    heard.length = s.frameLength ∧ s.Advanced (t.countFrame settings) ∧
      runFrames engines settings (near :: frames) farend room s =
        (runFrames engines settings frames (farend.map (·.drop near.length))
          (room - s.frameLength) (t.countFrame settings)).map fun rest =>
            { rest with journal := journal ++ rest.journal, heard := heard ++ rest.heard } := by
  obtain ⟨-, hadvanced, hlength, -⟩ := runFrame_ran engines hs hset hframes hprepare hrun
  refine ⟨hlength, hadvanced.trans (advanced_countFrame settings t), ?_⟩
  have hpos := frameLength_pos hframes
  have hchannels := Layout.channels_pos s.layout
  have htake : heard.take (room / t.layout.channels * t.layout.channels) = heard := by
    refine List.take_of_length_le ?_
    rw [hadvanced.kin.layout, hlength, frameLength]
    refine Nat.mul_le_mul_right _ ?_
    rw [Nat.le_div_iff_mul_le hchannels]
    exact hroom
  have hempty : heard.isEmpty = false := by
    rw [List.isEmpty_eq_false_iff, ← List.length_pos_iff, hlength]
    exact hpos
  rw [runFrames, if_neg (by omega), hprepare, ok_bind]
  dsimp only
  rw [hrun, ok_bind]
  dsimp only
  rw [htake, hempty, if_neg (by simp), hlength]
  cases runFrames engines settings frames _ _ _ <;> rfl

namespace Facet

/-- The frame of one lane of two, on its twin. -/
theorem lane (h : Facet like side s m) {settings : FrameSettings} (hgain : settings.gain = false)
    {l l' : Lane F} (hsingle : m.lanes = [l']) (htwin : l.Twin like false l')
    (hsame : l'.buffers = l.buffers) {bufs : Buffers}
    (hprepare : (l.prepare settings).run = .ok (.ok bufs)) {level : Int32} {stats : Stats}
    {journal : Journal S} {farend : Option (List Int16)} {near samples : List Int16}
    {p : Lane.Passage S F}
    (hp : Lane.process engines settings (fit s.frames 0 (side.channel (farend.getD [])))
      (fit s.frames 0 (side.channel near))
      { lane := l, buffers := bufs, micLevel := level, stats, journal } = .ok (p, samples)) :
    ∃ prepared u journal' l'', (prepareLanes settings m.lanes).run = .ok (.ok prepared) ∧
      m.runFrame engines settings (farend.map side.channel) (side.channel near) prepared =
        .ok (u, journal', samples) ∧
      u = { m with lanes := [l''], micLevel := u.micLevel, stats := u.stats } ∧
      ({ p.lane with buffers := some p.buffers } : Lane F).Twin like false l'' ∧
      l''.buffers = some p.buffers := by
  have hprepared : (l'.prepare settings).run = .ok (.ok bufs) := by
    rw [Lane.prepare, hsame]
    exact hprepare
  have hfar : m.deinterleave ((farend.map side.channel).getD []) =
      [fit s.frames 0 (side.channel (farend.getD []))] := by
    cases farend with
    | none => exact h.deinterleave []
    | some farend => exact h.deinterleave farend
  have hpassage : Lane.Passage.Twin like false
      { lane := l, buffers := bufs, micLevel := level, stats, journal }
      { lane := l', buffers := bufs, micLevel := m.micLevel, stats := m.stats, journal := [] } :=
    ⟨htwin, rfl, fun h => absurd h Bool.false_ne_true⟩
  obtain ⟨⟨q, samples'⟩, hq, ⟨hlane, hbuffers, -⟩, rfl⟩ :=
    Lane.process_twin (by rw [hgain]; exact id) hpassage hp
  rw [hsingle]
  exact ⟨_, _, _, _, prepareLanes_single hprepared, runFrame_single hfar (h.deinterleave near) hq,
    rfl, hlane.keep _ _, congrArg some hbuffers⟩

variable [Sample.Lawful S]

/-- What a frame makes of a channel is what the mono session makes of that channel. -/
theorem runFrame (h : Facet like side s m) {settings : FrameSettings}
    (hgain : settings.gain = false) (hs : s.Sound) (hset : settings.For s.frames s.bands)
    {prepared : List (Lane F × Buffers)}
    (hprepare : (prepareLanes settings s.lanes).run = .ok (.ok prepared))
    {farend : Option (List Int16)} {near heard : List Int16} {journal : Journal S}
    (hrun : s.runFrame engines settings farend near prepared = .ok (t, journal, heard)) :
    ∃ prepared' u journal', (prepareLanes settings m.lanes).run = .ok (.ok prepared') ∧
      m.runFrame engines settings (farend.map side.channel) (side.channel near) prepared' =
        .ok (u, journal', side.channel heard) ∧
      Facet like side t u := by
  obtain ⟨-, -, hshaped⟩ := prepareLanes_cases hs hset hprepare
  obtain ⟨r, hlanes, -⟩ := bind_eq_ok.mp hrun
  obtain ⟨hw, -⟩ := runLanes_cases engines hs hset hprepare (length_deinterleave _ _)
    (length_deinterleave _ _) hlanes
  obtain ⟨a, b, l, hpair, hsingle, htwin, hbuffers⟩ := h.lanes
  rw [hpair] at hprepare
  obtain ⟨bufs, bufs', ha, hb, rfl⟩ := prepareLanes_pair hprepare
  obtain ⟨p, q, left, right, hp, hq, rfl, -, rfl⟩ :=
    runFrame_pair (deinterleave_stereo h.stereo _) (deinterleave_stereo h.stereo _) hrun
  have hlengths : left.length = right.length := by
    have hleft := (Lane.process_returns engines (hshaped _ List.mem_cons_self) hw hset.frames _ _).elim hp
    have hright := (Lane.process_returns engines
      (hshaped _ (List.mem_cons_of_mem _ List.mem_cons_self)) hw hset.frames _ _).elim hq
    exact hleft.2.2.trans hright.2.2.symm
  rw [Side.channel_join hlengths]
  cases side with
  | left =>
    obtain ⟨prepared, u, journal, l', hprepared, hu, hsame, htwin', hbufs⟩ :=
      h.lane hgain hsingle htwin hbuffers ha hp
    refine ⟨prepared, u, journal, hprepared, hu, ?_⟩
    rw [hsame]
    exact ⟨h.stereo, h.mono, h.frames, h.bands, h.delay, h.echo, h.noise, _, _, _, rfl, rfl,
      htwin', hbufs⟩
  | right =>
    obtain ⟨prepared, u, journal, l', hprepared, hu, hsame, htwin', hbufs⟩ :=
      h.lane hgain hsingle htwin hbuffers hb hq
    refine ⟨prepared, u, journal, hprepared, hu, ?_⟩
    rw [hsame]
    exact ⟨h.stereo, h.mono, h.frames, h.bands, h.delay, h.echo, h.noise, _, _, _, rfl, rfl,
      htwin', hbufs⟩

omit [Sample S] [Sample.Lawful S] in
theorem countFrame (h : Facet like side s m) (settings : FrameSettings) :
    Facet like side (s.countFrame settings) (m.countFrame settings) :=
  ⟨h.stereo, h.mono, h.frames, h.bands, h.delay, h.echo, h.noise, h.lanes⟩

/-- So it is with all frames, if there is room for them. -/
theorem runFrames (h : Facet like side s m) {settings : FrameSettings}
    (hgain : settings.gain = false) (hs : s.Sound) (hm : m.Sound) (hpos : 0 < s.frames)
    (hset : settings.For s.frames s.bands) {frames : List (List Int16)}
    (hframes : ∀ frame ∈ frames, frame.length = s.frameLength) {farend : Option (List Int16)}
    {room room' : Nat} (hroom : frames.length * s.frameLength ≤ room)
    (hroom' : frames.length * m.frameLength ≤ room') {run : Run S F}
    (hrun : Session.runFrames engines settings frames farend room s = .ok run)
    (hnone : run.error = none) :
    ∃ run', Session.runFrames engines settings (frames.map side.channel)
        (farend.map side.channel) room' m = .ok run' ∧ run'.error = none ∧
      run'.heard = side.channel run.heard ∧
      run.heard.length = frames.length * s.frameLength ∧
      Facet like side run.session run'.session := by
  induction frames generalizing s m farend room room' run with
  | nil =>
    cases hrun
    exact ⟨_, rfl, rfl, rfl, by simp, h⟩
  | cons near frames ih =>
    have hframe_pos := frameLength_pos hpos
    rw [List.length_cons, Nat.succ_mul] at hroom hroom'
    have hstep := hrun
    rw [Session.runFrames, if_neg (by omega)] at hstep
    obtain ⟨prepared, hprepare, hstep⟩ := bind_eq_ok.mp hstep
    cases prepared with
    | error e =>
      cases hstep
      exact absurd hnone (by simp)
    | ok prepared =>
      obtain ⟨⟨t, journal, heard⟩, hframe, -⟩ := bind_eq_ok.mp hstep
      obtain ⟨hlength, hadvanced, hcons⟩ :=
        runFrames_cons hs hpos hset hprepare hframe (Nat.le_trans (Nat.le_add_left _ _) hroom) frames
      rw [hcons] at hrun
      obtain ⟨rest, hrest, rfl⟩ := map_eq_ok.mp hrun
      have hnear : near.length = s.frameLength := hframes near List.mem_cons_self
      have heven : 2 ∣ near.length := ⟨m.frameLength, hnear.trans h.frameLength⟩
      have hheard : 2 ∣ heard.length := ⟨m.frameLength, hlength.trans h.frameLength⟩
      obtain ⟨prepared', u, journal', hprepare', hframe', hnext⟩ :=
        h.runFrame hgain hs hset hprepare hframe
      rw [side.map_take_channel heven] at hframe'
      obtain ⟨hlength', hadvanced', hcons'⟩ :=
        runFrames_cons hm (h.frames ▸ hpos) (h.frames ▸ h.bands ▸ hset) hprepare' hframe'
          (Nat.le_trans (Nat.le_add_left _ _) hroom') (frames.map side.channel)
      have hlen : (t.countFrame settings).frameLength = s.frameLength := hadvanced.kin.frameLength
      have hlen' : (u.countFrame settings).frameLength = m.frameLength := hadvanced'.kin.frameLength
      obtain ⟨run', hrun', hnone', hheard', hlengths, hfacet⟩ :=
        ih (hnext.countFrame settings) (hadvanced.sound hs) (hadvanced'.sound hm)
          (hadvanced.kin.frames ▸ hpos) (hadvanced.kin.settings hset)
          (fun frame hframe => (hframes frame (List.mem_cons_of_mem _ hframe)).trans hlen.symm)
          (show frames.length * (t.countFrame settings).frameLength ≤ room - s.frameLength by
            rw [hlen]
            omega)
          (show frames.length * (u.countFrame settings).frameLength ≤ room' - m.frameLength by
            rw [hlen']
            omega) hrest hnone
      rw [side.map_drop_channel heven] at hrun'
      rw [List.map_cons, hcons', hrun']
      refine ⟨_, rfl, hnone', ?_, ?_, hfacet⟩
      · show side.channel heard ++ run'.heard = side.channel (heard ++ rest.heard)
        rw [hheard', side.channel_append hheard]
      · show (heard ++ rest.heard).length = _
        rw [List.length_append, hlength, hlengths, hlen, List.length_cons, Nat.succ_mul, Nat.add_comm]

/-- A call of `process` with room for all frames. -/
theorem process (h : Facet like side s m) {settings : FrameSettings}
    (hgain : settings.gain = false) (hs : s.Sound) (hm : m.Sound)
    (hset : settings.For s.frames s.bands) (hrate : Processable s.rate)
    {farend : Option (List Int16)} {nearend out out' : List Int16} {journal : Journal S}
    {result : Except Error Nat}
    (hroom : nearend.length / s.frameLength * s.frameLength ≤ out.length)
    (hprocess : s.process engines settings farend nearend out = .ok (t, journal, out', result)) :
    Processed s.frameLength nearend out out' result ∧
      ∃ u journal', m.process engines settings (farend.map side.channel) (side.channel nearend)
          (side.channel out) = .ok (u, journal', side.channel out', halved result) ∧
        Facet like side t u := by
  have hw := hs.works_iff.mpr hrate
  have hpos := frameLength_pos hw.frames_pos
  have hpos' : 0 < m.frameLength := frameLength_pos (h.frames ▸ hw.frames_pos)
  have hlength := h.frameLength
  by_cases hshort : nearend.length < s.frameLength
  · rw [Session.process, if_pos hshort] at hprocess
    cases hprocess
    refine ⟨.short, m, [], ?_, h⟩
    rw [Session.process, if_pos (by rw [Side.length_channel]; omega), Side.length_channel]
    have hhalf : m.frameLength = s.frameLength / 2 := by omega
    rw [hhalf]
    rfl
  · rw [Session.process, if_neg hshort, if_neg hpos.ne'] at hprocess
    obtain ⟨run, hrun, hr⟩ := bind_eq_ok.mp hprocess
    obtain ⟨-, hnone⟩ :=
      (runFrames_returns engines hs hset hw.workable hw.dvd _ farend out.length).elim hrun
    have hcount : (blocks s.frameLength nearend).length = nearend.length / s.frameLength :=
      length_blocks hpos nearend
    have hroom' : (blocks s.frameLength nearend).length * m.frameLength ≤
        (side.channel out).length := by
      rw [Side.length_channel, hcount, Nat.le_div_iff_mul_le Nat.two_pos, Nat.mul_assoc,
        Nat.mul_comm m.frameLength, ← hlength]
      exact hroom
    obtain ⟨run', hrun', hnone', hheard, hlengths, hfacet⟩ :=
      h.runFrames hgain hs hm hw.frames_pos hset (fun frame hframe => length_of_mem_blocks hpos hframe)
        (hcount ▸ hroom) hroom' hrun hnone
    have heven : 2 ∣ run.heard.length := by
      rw [hlengths, hlength, Nat.mul_left_comm]
      exact Nat.dvd_mul_right 2 _
    have hfits : run.heard.length ≤ out.length := by
      rw [hlengths, hcount]
      exact hroom
    rw [hnone] at hr
    cases hr
    refine ⟨.whole heven hfits, run'.session, run'.journal, ?_, hfacet⟩
    rw [Session.process, if_neg (by rw [Side.length_channel]; omega), if_neg hpos'.ne',
      side.blocks_channel hpos', ← hlength, hrun', ok_bind, hnone', hheard,
      side.channel_overlay heven hfits, Side.length_channel]
    rfl

end Facet

end Session

/-! ### Opening -/

/-- A rate that a stereo stream can have is one for a mono stream. -/
theorem formatOf_mono {rate : Nat} {f : StreamFormat} (h : formatOf rate 2 = .ok f) :
    f.rate = rate ∧ f.layout = .stereo ∧
      ∃ g, formatOf rate 1 = .ok g ∧ g.rate = rate ∧ g.layout = .mono := by
  obtain ⟨rfl, hchannels⟩ := formatOf_cases h
  refine ⟨rfl, Layout.channels_injective hchannels, { f with layout := .mono }, ?_, rfl, rfl⟩
  have hrange : minSampleRate ≤ f.rate ∧ f.rate ≤ maxSampleRate :=
    ⟨f.minSampleRate_le, f.le_maxSampleRate⟩
  rw [formatOf, StreamFormat.create]
  simp only [Layout.ofChannels?, dif_pos hrange, dif_pos f.dvd_rate]
  rfl

variable {R : Resampling}

/-- Where there are resamplers for fewer channels, an adapter for two channels can be made for one. -/
theorem adapterBetween_mono (hR : R.FewerChannels) {inputRate outputRate : Nat}
    {adapter : Option (RateAdapter R)}
    (h : (adapterBetween inputRate outputRate 2).run = .ok (.ok adapter)) :
    ∃ adapter' : Option (RateAdapter R),
      (adapterBetween inputRate outputRate 1).run = .ok (.ok adapter') := by
  rw [adapterBetween]
  obtain ⟨heq, -⟩ | ⟨hne, a, -, hmade⟩ := adapterBetween_cases h
  · rw [if_pos heq]
    exact ⟨none, rfl⟩
  · obtain ⟨resampler, hbuild⟩ := hR Nat.one_pos (Nat.le_succ 1) hmade.built
    rw [if_neg hne, map_eq_pure_bind, ExceptT.run_bind, RateAdapter.create, dif_pos Nat.one_pos,
      ExceptT.run_bind, ExceptT.run_adapt, hbuild]
    exact ⟨_, rfl⟩

theorem Intake.create_mono (hR : R.FewerChannels) {f g : StreamFormat} {rate : Nat}
    {ring : ByteRing} {i : Intake R} (hrate : g.rate = f.rate)
    (h : (create f rate .stereo ring).run = .ok (.ok i)) :
    ∃ j : Intake R, (create g rate .mono ring).run = .ok (.ok j) := by
  obtain ⟨adapter, hadapter, -⟩ := create_cases h
  obtain ⟨adapter', hadapter'⟩ := adapterBetween_mono hR hadapter
  exact ⟨_, attempt_bind_eq_ok.mpr ⟨adapter', hrate ▸ hadapter', rfl⟩⟩

namespace Session

/-- Where a stereo session can be made, so can a mono session of the same shape. -/
theorem create_mono (hR : F.resampling.FewerChannels) {settings : Settings}
    {limit nearRate farRate delay : Nat} {s : Session F}
    (h : (create settings limit 2 nearRate farRate delay).run = .ok (.ok s)) :
    ∃ m : Session F, (create settings limit 1 nearRate farRate delay).run = .ok (.ok m) ∧
      s.layout = .stereo ∧ m.layout = .mono ∧ m.rate = s.rate ∧ m.frames = s.frames ∧
      m.bands = s.bands ∧ m.delay = s.delay ∧ s.lanes = [.new 0, .new 1] ∧ m.lanes = [.new 0] := by
  rw [create] at h ⊢
  obtain ⟨near, hnear, h⟩ := attempt_bind_eq_ok.mp h
  obtain ⟨far, hfar, h⟩ := attempt_bind_eq_ok.mp h
  obtain ⟨hrate, hlayout, near', hnear', hrate', hlayout'⟩ :=
    formatOf_mono (attempt_except_eq_ok.mp hnear)
  obtain ⟨hfarRate, -, far', hfar', hfarRate', -⟩ := formatOf_mono (attempt_except_eq_ok.mp hfar)
  dsimp only at h
  rw [hlayout] at h
  split at h
  · exact absurd h attempt_throw_bind_eq_ok
  rename_i hframes
  split at h
  · exact absurd h attempt_throw_bind_eq_ok
  rename_i hbands
  obtain ⟨ring, hring, h⟩ := attempt_bind_eq_ok.mp h
  obtain ⟨farend, hfarend, h⟩ := attempt_bind_eq_ok.mp h
  obtain ⟨nearend, hnearend, h⟩ := attempt_bind_eq_ok.mp h
  obtain ⟨outputAdapter, hout, h⟩ := attempt_bind_eq_ok.mp h
  cases h
  obtain ⟨farend', hfarend'⟩ := Intake.create_mono hR (hfarRate'.trans hfarRate.symm)
    (attempt_adapt_eq_ok.mp hfarend)
  obtain ⟨nearend', hnearend'⟩ := Intake.create_mono hR (hrate'.trans hrate.symm)
    (attempt_adapt_eq_ok.mp hnearend)
  obtain ⟨outputAdapter', hout'⟩ := adapterBetween_mono hR (attempt_adapt_eq_ok.mp hout)
  let rate := processingRate nearRate (min settings.maxRate.hertz limit)
  let m : Session F :=
    { layout := .mono, rate, frames := frameSizeForRate rate, bands := bandCountForRate rate, delay
      healthy := .const true, micLevel := 0, farend := farend', nearend := nearend'
      outputAdapter := outputAdapter', lanes := [.new 0], pending := [], stats := {} }
  refine ⟨m, attempt_bind_eq_ok.mpr ⟨near', attempt_except_eq_ok.mpr hnear',
    attempt_bind_eq_ok.mpr ⟨far', attempt_except_eq_ok.mpr hfar', ?_⟩⟩, ?_⟩
  · dsimp only
    rw [hlayout', if_neg hframes, if_neg hbands]
    exact attempt_bind_eq_ok.mpr ⟨ring, hring, attempt_bind_eq_ok.mpr ⟨farend',
      attempt_adapt_eq_ok.mpr hfarend', attempt_bind_eq_ok.mpr ⟨nearend',
      attempt_adapt_eq_ok.mpr hnearend', attempt_bind_eq_ok.mpr ⟨outputAdapter',
      attempt_adapt_eq_ok.mpr hout', rfl⟩⟩⟩⟩
  · exact ⟨rfl, rfl, rfl, rfl, rfl, rfl, rfl, rfl⟩

/-- A stage is healthy after a reset if it has an engine on every lane. -/
theorem resetLanes_healthy (engines : Engines S F) (rate : Nat) (settings : Settings)
    (w : Workshop S F) (lanes : List (Lane F)) (stage : Stage) :
    (resetLanes engines rate settings w (.const true) lanes).2.1.get stage =
      (resetLanes engines rate settings w (.const true) lanes).2.2.all
        fun l => (l.numbers.get stage).isSome := by
  obtain ⟨-, -, -, -, -, hhealthy, -⟩ :=
    resetLanes_fitted engines rate settings w (.const true) lanes
  rw [hhealthy, PerStage.get_const, Bool.true_and]

theorem isSome_of_slots {σ : Type} {R : σ → σ → Prop} {slot slot' : Option (Numbered σ)}
    (h : Slots R slot slot') : slot'.isSome = slot.isSome := by
  cases h with
  | none => rfl
  | some => rfl

theorem mem_resetLanes {engines : Engines S F} {rate : Nat} {settings : Settings}
    {w : Workshop S F} {healthy : PerStage Bool} {lanes : List (Lane F)} {l : Lane F}
    (h : l ∈ (resetLanes engines rate settings w healthy lanes).2.2) :
    ∃ l₀ ∈ lanes, ∃ w' healthy', l = (resetLane engines rate settings w' healthy' l₀).2.2 := by
  induction lanes generalizing w healthy with
  | nil => exact absurd h List.not_mem_nil
  | cons l₀ lanes ih =>
    rcases List.mem_cons.mp h with rfl | h
    · exact ⟨l₀, List.mem_cons_self, w, healthy, rfl⟩
    · obtain ⟨l₁, hl₁, hreset⟩ := ih h
      exact ⟨l₁, List.mem_cons_of_mem _ hl₁, hreset⟩

/-- Lanes that were new before a reset are twins after it, if their engines are made alike. -/
theorem resetLanes_twins {engines : Engines S F} {like : engines.Likeness} (hmade : like.Made false)
    (rate : Nat) (settings : Settings) (w w' : Workshop S F) (healthy : PerStage Bool)
    (channels channels' : List Nat) :
    ∀ l ∈ (resetLanes engines rate settings w healthy (channels.map .new)).2.2,
      ∀ l' ∈ (resetLanes engines rate settings w' healthy (channels'.map .new)).2.2,
        l.Twin like false l' := by
  intro l hl l' hl'
  obtain ⟨l₀, hl₀, _, _, rfl⟩ := mem_resetLanes hl
  obtain ⟨l₁, hl₁, _, _, rfl⟩ := mem_resetLanes hl'
  obtain ⟨i, -, rfl⟩ := List.mem_map.mp hl₀
  obtain ⟨j, -, rfl⟩ := List.mem_map.mp hl₁
  exact resetLane_twin hmade _ _ _ _ ⟨.none, .none, nofun⟩

theorem map_eq_pair {α β : Type} {f : α → β} {xs : List α} {y z : β} (h : xs.map f = [y, z]) :
    ∃ a b, xs = [a, b] ∧ f a = y ∧ f b = z := by
  obtain ⟨a, rest, rfl, ha, hrest⟩ := List.map_eq_cons_iff.mp h
  obtain ⟨b, rest, rfl, hb, hrest⟩ := List.map_eq_cons_iff.mp hrest
  obtain rfl := List.map_eq_nil_iff.mp hrest
  exact ⟨a, b, rfl, ha, hb⟩

/-- What is healthy on one of two lanes that are twins of a third is healthy on both. -/
theorem healthy_of_twins {engines : Engines S F} {like : engines.Likeness} {a b l : Lane F}
    (ha : a.Twin like false l) (hb : b.Twin like false l) {stage : Stage} (hstage : stage ≠ .gain) :
    ([l].all fun l => (l.numbers.get stage).isSome) =
      [a, b].all fun l => (l.numbers.get stage).isSome := by
  have hslot {x : Lane F} (hx : x.Twin like false l) :
      (l.numbers.get stage).isSome = (x.numbers.get stage).isSome := by
    cases stage with
    | gain => exact absurd rfl hstage
    | echo =>
      simp only [Lane.numbers, PerStage.get, Option.isSome_map]
      exact isSome_of_slots hx.echo
    | noise =>
      simp only [Lane.numbers, PerStage.get, Option.isSome_map]
      exact isSome_of_slots hx.noise
  simp only [List.all_cons, List.all_nil, Bool.and_true, ← hslot ha, ← hslot hb, Bool.and_self]

/-- A stereo session and a mono session of the same shape, after a reset. -/
theorem resetEngines_facet {engines : Engines S F} {like : engines.Likeness}
    (hmade : like.Made false) (side : Side) (settings : Settings) (w w' : Workshop S F)
    {s m : Session F} (hstereo : s.layout = .stereo) (hmono : m.layout = .mono)
    (hrate : m.rate = s.rate) (hframes : m.frames = s.frames) (hbands : m.bands = s.bands)
    (hdelay : m.delay = s.delay) (hlanes : s.lanes = [.new 0, .new 1]) (hlane : m.lanes = [.new 0]) :
    Facet like side (s.resetEngines engines settings w).2 (m.resetEngines engines settings w').2 := by
  have htwins := resetLanes_twins hmade s.rate settings w w' (.const true) [0, 1] [0]
  have hhealthy := resetLanes_healthy engines s.rate settings w [.new 0, .new 1]
  have hhealthy' := resetLanes_healthy engines s.rate settings w' [.new 0]
  obtain ⟨a, b, hab, ha, hb⟩ :=
    map_eq_pair (resetLanes_buffers engines s.rate settings w (.const true) [.new 0, .new 1])
  obtain ⟨l, hl, hbufs⟩ := List.map_eq_singleton_iff.mp
    (resetLanes_buffers engines s.rate settings w' (.const true) [.new 0])
  rw [List.map_cons, List.map_cons, List.map_nil, List.map_cons, List.map_nil, hab, hl] at htwins
  rw [hab] at hhealthy
  rw [hl] at hhealthy'
  have hal : a.Twin like false l := htwins a (by simp) l (by simp)
  have hbl : b.Twin like false l := htwins b (by simp) l (by simp)
  have hsame (stage : Stage) (hstage : stage ≠ .gain) :
      (m.resetEngines engines settings w').2.healthy.get stage =
        (s.resetEngines engines settings w).2.healthy.get stage := by
    show (resetLanes engines m.rate settings w' (.const true) m.lanes).2.1.get stage =
      (resetLanes engines s.rate settings w (.const true) s.lanes).2.1.get stage
    rw [hlanes, hlane, hrate, hhealthy, hhealthy', healthy_of_twins hal hbl hstage]
  refine ⟨hstereo, hmono, hframes, hbands, hdelay, hsame .echo (by simp), hsame .noise (by simp),
    a, b, l, ?_, ?_, ?_, ?_⟩
  · show (resetLanes engines s.rate settings w (.const true) s.lanes).2.2 = _
    rw [hlanes, hab]
  · show (resetLanes engines m.rate settings w' (.const true) m.lanes).2.2 = _
    rw [hlane, hrate, hl]
  · cases side with
    | left => exact hal
    | right => exact hbl
  · cases side with
    | left => exact hbufs.trans ha.symm
    | right => exact hbufs.trans hb.symm

end Session

/-- The calls that a stereo session makes channel by channel, if its frames have so many samples:
frames are processed with room for all of them, and gain control stays off. -/
inductive Operation.Separable (frameLength : Nat) : Operation → Prop where
  | process {farend : Option (List Int16)} {nearend out : List Int16}
    (hroom : nearend.length / frameLength * frameLength ≤ out.length) :
    Separable frameLength (.process farend nearend out)
  | setFarendReady {ready : Bool} : Separable frameLength (.setFarendReady ready)
  | setNearendReady {ready : Bool} : Separable frameLength (.setNearendReady ready)
  | setStageEnabled {stage : Stage} {enabled : Bool} (hgain : stage = .gain → enabled = false) :
    Separable frameLength (.setStageEnabled stage enabled)
  | setDelay {delay : Nat} : Separable frameLength (.setDelay delay)

namespace Context

variable {engines : Engines S F} {like : engines.Likeness} {side : Side} {frameLength : Nat}

/-- Contexts with the same switches, of which one has a session for one channel of the other's. -/
structure Facet (like : engines.Likeness) (side : Side) (frameLength : Nat) (c d : Context S F) :
    Prop where
  requested : d.requested = c.requested
  farendReady : d.farendReady = c.farendReady
  nearendReady : d.nearendReady = c.nearendReady
  session : ∃ s m, c.session = some s ∧ d.session = some m ∧ s.Facet like side m ∧
    s.Sound ∧ m.Sound ∧ Session.Processable s.rate ∧ s.frameLength = frameLength

variable {c c' d : Context S F}

/-- While gain control is off, the same stages run on a frame. -/
theorem Facet.frameSettings (h : Facet like side frameLength c d)
    (hoff : c.requested.gain = false) {s m : Session F} (hs : c.session = some s)
    (hm : d.session = some m) (hfacet : s.Facet like side m) (farend : Bool) :
    d.frameSettings m farend = c.frameSettings s farend ∧
      (c.frameSettings s farend).gain = false := by
  have hgain : c.stageEnabled .gain = false := by
    rw [stageEnabled, PerStage.get, hoff, Bool.false_and]
  have hgain' : d.stageEnabled .gain = false := by
    rw [stageEnabled, PerStage.get, h.requested, hoff, Bool.false_and]
  have hnoise : d.stageEnabled .noise = c.stageEnabled .noise := by
    simp only [stageEnabled, PerStage.get, h.requested, hs, hm, Option.any_some, hfacet.noise]
  have hecho : d.stageEnabled .echo = c.stageEnabled .echo := by
    simp only [stageEnabled, PerStage.get, h.requested, hs, hm, Option.any_some, hfacet.echo]
  refine ⟨?_, hgain⟩
  simp only [Context.frameSettings, shouldRunEcho, hgain, hgain', hnoise, hecho, h.farendReady,
    h.nearendReady, hfacet.frames, hfacet.bands, hfacet.delay]

variable [Sample S] [Sample.Lawful S]

theorem Facet.process (h : Facet like side frameLength c d) (hoff : c.requested.gain = false)
    {farend : Option (List Int16)} {nearend out out' : List Int16} {result : Except Error Nat}
    (hroom : nearend.length / frameLength * frameLength ≤ out.length)
    (hprocess : c.process engines farend nearend out = .ok (c', out', result)) :
    Processed frameLength nearend out out' result ∧ c'.requested = c.requested ∧
      ∃ d', d.process engines (farend.map side.channel) (side.channel nearend)
          (side.channel out) = .ok (d', side.channel out', halved result) ∧
        Facet like side frameLength c' d' := by
  obtain ⟨s, m, hs, hm, hfacet, hsound, hsound', hrate, rfl⟩ := h.session
  obtain ⟨hnone, -⟩ | ⟨s', t, journal, hs', ht, hc'⟩ := process_cases engines hprocess
  · rw [hs] at hnone
    exact absurd hnone (by simp)
  obtain rfl : s = s' := Option.some.inj (hs.symm.trans hs')
  obtain ⟨hsettings, hgain⟩ := h.frameSettings hoff hs hm hfacet farend.isSome
  have hadvanced := Session.process_advances engines hsound (c.frameSettings_for s _) ht
  obtain ⟨hprocessed, u, journal', hu, hnext⟩ :=
    hfacet.process hgain hsound hsound' (c.frameSettings_for s _) hrate hroom ht
  have hadvanced' := Session.process_advances engines hsound' (hsettings ▸ d.frameSettings_for m _) hu
  have hsome : (farend.map side.channel).isSome = farend.isSome := by
    cases farend <;> rfl
  rw [show c' = _ from hc']
  refine ⟨hprocessed, rfl, { d with session := some u, workshop := d.workshop.log journal' }, ?_, ?_⟩
  · rw [Context.process, hm]
    dsimp only
    rw [hsome, hsettings, hu]
    rfl
  · exact ⟨h.requested, h.farendReady, h.nearendReady, t, u, rfl, rfl, hnext,
      hadvanced.sound hsound, hadvanced'.sound hsound', hadvanced.kin.rate ▸ hrate,
      hadvanced.kin.frameLength⟩

omit [Sample S] [Sample.Lawful S] in
/-- Switches that are set alike. -/
theorem Facet.congr (h : Facet like side frameLength c d) {c' d' : Context S F}
    (hsession : c'.session = c.session) (hsession' : d'.session = d.session)
    (hrequested : d'.requested = c'.requested) (hfarend : d'.farendReady = c'.farendReady)
    (hnearend : d'.nearendReady = c'.nearendReady) : Facet like side frameLength c' d' :=
  ⟨hrequested, hfarend, hnearend, by rw [hsession, hsession']; exact h.session⟩

/-- A call on a channel gives the answer for that channel, and the answers for both channels make
up the whole one, while gain control is off or when it is switched off. -/
theorem Facet.apply (h : Facet like side frameLength c d) {op : Operation}
    (hop : op.Separable frameLength)
    (hoff : c.requested.gain = false ∨ op = .setStageEnabled .gain false) {answer : Answer}
    (happly : c.apply engines op = .ok (c', answer)) :
    c'.requested.gain = false ∧ op.merge (answer.facet .left) (answer.facet .right) = answer ∧
      ∃ d', d.apply engines (op.facet side) = .ok (d', answer.facet side) ∧
        Facet like side frameLength c' d' := by
  cases hop with
  | @process farend nearend out hroom =>
    have hoff : c.requested.gain = false := hoff.resolve_right (by simp)
    obtain ⟨⟨e, out', result⟩, hprocess, hr⟩ := map_eq_ok.mp happly
    cases hr
    obtain ⟨hprocessed, hrequested, d', hd', hnext⟩ := h.process hoff hroom hprocess
    obtain ⟨s, m, -, -, hfacet, -, -, -, rfl⟩ := h.session
    refine ⟨hrequested ▸ hoff, hprocessed.merge ⟨m.frameLength, hfacet.frameLength⟩, d', ?_, hnext⟩
    exact map_eq_ok.mpr ⟨_, hd', rfl⟩
  | @setFarendReady ready =>
    cases happly
    exact ⟨hoff.resolve_right (by simp), rfl, _, rfl, h.congr rfl rfl h.requested rfl h.nearendReady⟩
  | @setNearendReady ready =>
    cases happly
    exact ⟨hoff.resolve_right (by simp), rfl, _, rfl, h.congr rfl rfl h.requested h.farendReady rfl⟩
  | @setStageEnabled stage enabled hgain =>
    cases happly
    refine ⟨?_, rfl, _, rfl, h.congr rfl rfl ?_ h.farendReady h.nearendReady⟩
    · show (c.requested.set enabled stage).gain = false
      cases stage with
      | gain => exact hgain rfl
      | echo | noise => exact hoff.resolve_right (by simp)
    · show d.requested.set enabled stage = c.requested.set enabled stage
      rw [h.requested]
  | @setDelay delay =>
    obtain ⟨s, m, hs, hm, hfacet, hsound, hsound', hrate, hlength⟩ := h.session
    rw [Context.apply, setDelay, hs] at happly
    cases happly
    refine ⟨hoff.resolve_right (by simp), rfl, { d with session := some { m with delay } }, ?_, ?_⟩
    · have hd : d.setDelay delay = ({ d with session := some { m with delay } }, .ok ()) := by
        rw [setDelay, hm]
      show Except.ok ((d.setDelay delay).1, Answer.outcome (d.setDelay delay).2) = _
      rw [hd]
      rfl
    · refine ⟨h.requested, h.farendReady, h.nearendReady, { s with delay }, { m with delay }, rfl,
        rfl, ?_, ?_, ?_, hrate, hlength⟩
      · exact ⟨hfacet.stereo, hfacet.mono, hfacet.frames, hfacet.bands, rfl, hfacet.echo,
          hfacet.noise, hfacet.lanes⟩
      · exact ⟨hsound.frames, hsound.bands, hsound.frames_le,
          hsound.bands_range, hsound.lanes, hsound.fits⟩
      · exact ⟨hsound'.frames, hsound'.bands, hsound'.frames_le,
          hsound'.bands_range, hsound'.lanes, hsound'.fits⟩

/-- Separable calls always give a result. -/
theorem Facet.apply_returns (h : Facet like side frameLength c d) {op : Operation}
    (hop : op.Separable frameLength) : Returns (c.apply engines op) fun _ => True := by
  cases hop with
  | @process farend nearend out hroom =>
    obtain ⟨s, m, hs, -, -, hsound, -, hrate, -⟩ := h.session
    rw [Context.apply, Context.process, hs]
    obtain ⟨r, hr, -⟩ := Session.process_returns engines hsound (c.frameSettings_for s farend.isSome)
      (hsound.works_iff.mpr hrate) farend nearend out
    dsimp only
    rw [hr]
    exact returns_ok trivial
  | setFarendReady => exact returns_ok trivial
  | setNearendReady => exact returns_ok trivial
  | setStageEnabled hgain => exact returns_ok trivial
  | setDelay => exact returns_ok trivial

/-- A run of separable calls on a channel is the run for that channel, and the runs for both
channels make up the whole one. -/
theorem Facet.run (h : Facet like side frameLength c d) {ops : List Operation}
    (hops : ∀ op ∈ ops, op.Separable frameLength)
    (hoff : c.requested.gain = false ∨ ops.head? = some (.setStageEnabled .gain false)) :
    ∃ c' t, c.run engines ops = .ok (c', t) ∧
      t = Transcript.merge ops (t.facet .left) (t.facet .right) ∧
      ∃ d', d.run engines (ops.map (·.facet side)) = .ok (d', t.facet side) := by
  induction ops generalizing c d with
  | nil => exact ⟨c, [], rfl, rfl, d, rfl⟩
  | cons op ops ih =>
    have hop := hops op List.mem_cons_self
    have hoff : c.requested.gain = false ∨ op = .setStageEnabled .gain false := by
      simpa using hoff
    obtain ⟨⟨c₁, answer⟩, happly, -⟩ := h.apply_returns hop
    obtain ⟨hoff₁, hmerge, d₁, hd₁, hnext⟩ := h.apply hop hoff happly
    obtain ⟨c', rest, hrest, hmerge', d', hd'⟩ :=
      ih hnext (fun op' hop' => hops op' (List.mem_cons_of_mem op hop')) (.inl hoff₁)
    refine ⟨c', (op, answer) :: rest, ?_, ?_, d', ?_⟩
    · rw [run_cons, happly, ok_bind, hrest]
      rfl
    · show (op, answer) :: rest = (op, op.merge (answer.facet .left) (answer.facet .right)) ::
        Transcript.merge ops (Transcript.facet .left rest) (Transcript.facet .right rest)
      rw [hmerge, ← hmerge']
    · rw [List.map_cons, run_cons, hd₁, ok_bind, hd']
      rfl

omit [Sample S] [Sample.Lawful S] in
/-- A session that can be made is begun, and its engines are brought up. -/
theorem init_of_create (engines : Engines S F) (c : Context S F) (hnone : c.session = none)
    {channels nearRate farRate delay : Nat} {s : Session F}
    (hcreate : (Session.create c.settings engines.maxRate channels nearRate farRate delay).run =
      .ok (.ok s)) :
    ∃ w workshop, c.init engines channels nearRate farRate delay =
      .ok ({ c with
        session := some (s.resetEngines engines c.settings w).2, references := 1, workshop },
        .ok .initialized) := by
  rw [init, if_neg (by simp [hnone]), hcreate]
  exact ⟨_, _, rfl⟩

omit [Sample S] [Sample.Lawful S] in
/-- Where a stereo session begins, so does a mono session for each of its channels. -/
theorem init_facet (hR : F.resampling.FewerChannels) (hmade : like.Made false) (side : Side)
    {settings : Settings}
    (factory factory' : F.Factory) {nearRate farRate delay : Nat} {s : Session F}
    (hinit : (new settings factory).init engines 2 nearRate farRate delay = .ok (c, .ok .initialized))
    (hs : c.session = some s) (hrate : Session.Processable s.rate) :
    c.requested.gain = settings.gain.isSome ∧
      ∃ d, (new settings factory').init engines 1 nearRate farRate delay =
          .ok (d, .ok .initialized) ∧ Facet like side s.frameLength c d := by
  have hstart := hinit
  rw [init, if_neg (by simp [new])] at hstart
  obtain ⟨made, hmade', hstart⟩ := bind_eq_ok.mp hstart
  cases made with
  | error e => cases hstart
  | ok s₀ =>
    obtain ⟨m₀, hcreate, hstereo, hmono, hrate₀, hframes, hbands, hdelay, hlanes, hlane⟩ :=
      Session.create_mono hR hmade'
    obtain ⟨w, workshop, hc⟩ := init_of_create engines (new settings factory) rfl hmade'
    obtain ⟨w', workshop', hd⟩ := init_of_create engines (new settings factory') rfl hcreate
    have hsound := init_sound engines (new_sound settings factory) hinit
    have hsound' := init_sound engines (new_sound settings factory') hd
    rw [hinit] at hc
    cases hc
    refine ⟨rfl, _, hd, rfl, rfl, rfl, s, _, hs, rfl, ?_, (hsound s hs).sound,
      (hsound' _ rfl).sound, hrate, rfl⟩
    cases hs
    exact Session.resetEngines_facet hmade side settings w w' hstereo hmono hrate₀ hframes hbands
      hdelay hlanes hlane

omit [Sample S] [Sample.Lawful S] in
/-- Only the calls that do not depend on the channel tell whether gain control is switched off. -/
theorem head_of_facets {ops ops' : List Operation}
    (hsame : ops'.map (·.facet side) = ops.map (·.facet side))
    (h : ops.head? = some (.setStageEnabled .gain false)) :
    ops'.head? = some (.setStageEnabled .gain false) := by
  cases ops with
  | nil => exact absurd h (by simp)
  | cons op ops =>
    obtain rfl : op = .setStageEnabled .gain false := by simpa using h
    obtain ⟨op', rest, rfl, hop', -⟩ := List.map_eq_cons_iff.mp hsame
    cases op' with
    | setStageEnabled stage enabled => exact congrArg some hop'
    | _ => exact absurd hop' (by simp [Operation.facet])

/-- A stereo session without gain control is two mono sessions of the same settings, rates and
delay, one for each channel, if echo cancellers and noise suppressors are made alike and a resampler
for two channels can be had for one: whatever is processed with room for all frames, the samples of the
stereo session are those of the mono sessions merged. So what is heard of a channel depends on that
channel only. -/
theorem stereo_is_two_monos (hR : F.resampling.FewerChannels) (hmade : like.Made false)
    (settings : Settings) (factory : F.Factory) (factories : Side → F.Factory)
    {nearRate farRate delay : Nat} {s : Session F}
    (hinit : (new settings factory).init engines 2 nearRate farRate delay = .ok (c, .ok .initialized))
    (hs : c.session = some s) (hrate : Session.Processable s.rate) {ops : List Operation}
    (hops : ∀ op ∈ ops, op.Separable s.frameLength)
    (hgain : settings.gain = none ∨ ops.head? = some (.setStageEnabled .gain false)) :
    ∃ c' t, c.run engines ops = .ok (c', t) ∧
      t = Transcript.merge ops (t.facet .left) (t.facet .right) ∧
      (∀ side, ∃ d d', (new settings (factories side)).init engines 1 nearRate farRate delay =
          .ok (d, .ok .initialized) ∧
        d.run engines (ops.map (·.facet side)) = .ok (d', t.facet side)) ∧
      ∀ side ops', (∀ op ∈ ops', op.Separable s.frameLength) →
        ops'.map (·.facet side) = ops.map (·.facet side) →
        ∃ c'' t', c.run engines ops' = .ok (c'', t') ∧ t'.facet side = t.facet side := by
  have hfacet (side : Side) := init_facet hR hmade side factory (factories side) hinit hs hrate
  have hoff : c.requested.gain = false ∨ ops.head? = some (.setStageEnabled .gain false) := by
    obtain ⟨hrequested, -⟩ := hfacet .left
    rw [hrequested, Option.isSome_eq_false_iff, Option.isNone_iff_eq_none]
    exact hgain
  obtain ⟨-, d, -, hd⟩ := hfacet .left
  obtain ⟨c', t, hrun, hmerge, -⟩ := hd.run hops hoff
  refine ⟨c', t, hrun, hmerge, ?_, ?_⟩
  · intro side
    obtain ⟨-, d, hinit', hd⟩ := hfacet side
    obtain ⟨c₁, t₁, hrun₁, -, d', hd'⟩ := hd.run hops hoff
    cases hrun.symm.trans hrun₁
    exact ⟨d, d', hinit', hd'⟩
  · intro side ops' hops' hsame
    obtain ⟨-, d, -, hd⟩ := hfacet side
    obtain ⟨c₁, t₁, hrun₁, -, d₁, hd₁⟩ := hd.run hops hoff
    obtain ⟨c'', t', hrun', -, d₂, hd₂⟩ := hd.run hops' (hoff.imp_right (head_of_facets hsame))
    cases hrun.symm.trans hrun₁
    rw [hsame, hd₁] at hd₂
    exact ⟨c'', t', hrun', (Prod.mk.inj (Except.ok.inj hd₂)).2.symm⟩

/-- Farend, nearend and output of a frame of 80 samples a channel, which differ between the channels,
and a sample of the next frame. There is room for more than the frame. -/
def stereoFrame : Operation :=
  .process (some (Layout.join [List.replicate 80 3, List.replicate 80 5]))
    (Layout.join [List.replicate 80 7, List.replicate 80 (-9)] ++ [1]) (List.replicate 162 0)

set_option maxRecDepth 12000 in
/-- Nearend at 8000 Hz, and farend that is resampled. -/
theorem stereo_is_two_monos_bypass :
    ∃ (c c' : Context Int16 Bypass.family) (t : Transcript) (ops : List Operation),
      ops = [.setFarendReady true, .setNearendReady true, stereoFrame] ∧
      (new { gain := none } ()).init (Bypass.engines Int16 48000) 2 8000 16000 0 =
        .ok (c, .ok .initialized) ∧
      c.run (Bypass.engines Int16 48000) ops = .ok (c', t) ∧
      t.map (·.2) = [.done, .done,
        .samples (Layout.join [List.replicate 80 7, List.replicate 80 (-9)] ++ [0, 0]) (.ok 160)] ∧
      ∀ side : Side, ∃ d d' : Context Int16 Bypass.family,
        (new { gain := none } ()).init (Bypass.engines Int16 48000) 1 8000 16000 0 =
          .ok (d, .ok .initialized) ∧
        d.run (Bypass.engines Int16 48000) (ops.map (·.facet side)) = .ok (d', t.facet side) := by
  obtain ⟨c, s, hinit, hs, hrate, hlength, hheard⟩ :
      ∃ (c : Context Int16 Bypass.family) (s : Session Bypass.family),
        (new { gain := none } ()).init (Bypass.engines Int16 48000) 2 8000 16000 0 =
          .ok (c, .ok .initialized) ∧
        c.session = some s ∧ s.rate = 8000 ∧ s.frameLength = 160 ∧
        (c.run (Bypass.engines Int16 48000)
          [.setFarendReady true, .setNearendReady true, stereoFrame]).map (·.2.map (·.2)) =
          .ok [.done, .done,
            .samples (Layout.join [List.replicate 80 7, List.replicate 80 (-9)] ++ [0, 0]) (.ok 160)] :=
    ⟨_, _, rfl, rfl, rfl, rfl, rfl⟩
  have hmade : (Engines.Likeness.refl (F := Bypass.family) (Bypass.engines Int16 48000)).Made false :=
    ⟨fun _ _ _ _ => .some rfl, fun _ _ _ _ => .some rfl, nofun⟩
  have hops : ∀ op ∈ [Operation.setFarendReady true, .setNearendReady true, stereoFrame],
      op.Separable s.frameLength := by
    rw [hlength]
    exact List.forall_mem_cons.mpr ⟨.setFarendReady, List.forall_mem_cons.mpr ⟨.setNearendReady,
      List.forall_mem_cons.mpr ⟨.process (by decide +kernel), nofun⟩⟩⟩
  obtain ⟨c', t, hrun, -, hmonos, -⟩ := stereo_is_two_monos Resample.spectral_fewerChannels hmade
    { gain := none } () (fun _ => ()) hinit hs (.inl (by rw [hrate]; decide)) hops (.inl rfl)
  rw [hrun] at hheard
  exact ⟨c, c', t, _, rfl, hinit, hrun, Except.ok.inj hheard, hmonos⟩

end Context

end Duplex
