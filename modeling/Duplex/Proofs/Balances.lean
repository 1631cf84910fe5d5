import Duplex.Engine.Bypass
import Duplex.Proofs.Spectral
import Duplex.Proofs.Streaming

/-!
# Balances: where the bytes of either direction went

A buffered frame is a `Serving`: the bytes that were taken off either ring for it. `Serves` is what
happens to one: the lanes are given the decoded bytes, with silence in the place of those that the
farend is short of. Over a run of pushes, processing and switches, the bytes that came in, converted,
are those still queued, those that were served and those that were counted as dropped; every serving
has a whole nearend frame, and what its farend is short of is counted as underrun
(`bytes_accounted`).
-/

namespace Duplex

open Signal Engine
open Pcm (Layout)

variable {S : Type} {F : Family} {R : Resampling}

/-! ### One intake -/

namespace Intake

variable {i₀ i : Intake R} {l : Layout} {taken : List UInt8} {used dropped : Nat}

/-- From one state of an intake to another, some bytes came in: what they were converted to is
queued, or was taken off, or was dropped. -/
structure Tally (i₀ : Intake R) (l : Layout) (taken : List UInt8) (used dropped : Nat)
    (i : Intake R) : Prop where
  same : Follows i₀ taken i
  aligned : i.Aligned l
  balance : (i₀.emit taken).2.length = i.avail + used + dropped

theorem tally_start (h : i.Sound l) (hi : i.Unfailing) (hempty : i.ring.toList = []) :
    i.Tally l [] 0 0 i := by
  have havail : i.avail = 0 := by
    show i.ring.avail = 0
    rw [← ByteRing.length_toList, hempty, List.length_nil]
  refine ⟨h.follows hi, h.aligned hempty, ?_⟩
  rw [emit_nil h hi, havail]
  rfl

theorem Tally.push (h : Tally i₀ l taken used dropped i) (h₀ : i₀.Sound l) (hi : i₀.Unfailing)
    (bytes : List UInt8) :
    ∃ lost, (i.push bytes).2 = .ok lost ∧
      Tally i₀ l (taken ++ bytes) used (dropped + lost) (i.push bytes).1 := by
  obtain ⟨hok, hlen⟩ := outcome_ok h.aligned.toSound (h.same.unfailing hi) bytes
  obtain ⟨k, hk, hpushed, hqueue, hdropped⟩ := (h.aligned.emit bytes).enqueue hlen
  have hpush := push_ok hok
  have hring : (i.emit bytes).1.ring = i.ring := by rw [emit_same]
  have hle : k ≤ (i.emit bytes).2.length := hk.1.2.1
  have hfollows := h.same.push h₀ hi bytes
  rw [hpush] at hfollows ⊢
  have havail : ((i.emit bytes).1.enqueue (i.emit bytes).2).1.avail = i.avail + k := by
    show ((i.emit bytes).1.enqueue (i.emit bytes).2).1.ring.avail = i.ring.avail + k
    rw [← ByteRing.length_toList, hqueue, hring, List.length_append, ByteRing.length_toList,
      List.length_take, Nat.min_eq_left hle]
  refine ⟨_, rfl, hfollows, hpushed, ?_⟩
  rw [h.same.emit_append h₀ hi, List.length_append, h.balance, havail, hdropped]
  omega

theorem Tally.read (h : Tally i₀ l taken used dropped i) {n : Nat} (hn : l.channels * 2 ∣ n) :
    Tally i₀ l taken (used + (i.ring.toList.take n).length) dropped (i.read n).1 := by
  have htaken : (i.ring.toList.take n).length = min n i.avail := by
    rw [List.length_take, ByteRing.length_toList]
    rfl
  refine ⟨h.same.read n, h.aligned.read hn, ?_⟩
  rw [h.balance, avail_read, htaken]
  omega

end Intake

/-! ### Buffered frames -/

/-- The bytes that were taken off the rings for one frame. -/
structure Serving where
  far : List UInt8
  near : List UInt8

namespace Session

section

variable [Sample S] (engines : Engines S F)

/-- The lanes ran on a buffered frame: its farend is what was taken off the ring, and silence in the
place of what is missing. -/
inductive Serves (settings : FrameSettings) (s : Session F) : Serving → Session F → Prop
  | intro {x : Serving} {prepared : List (Lane F × Buffers)} {lanes : List (Lane F)}
    {outs : List (List Int16)} {c : Carried S}
    (hfull : s.frameBytes ≤ s.nearend.avail)
    (hfar : x.far = s.farend.ring.toList.take s.frameBytes)
    (hnear : x.near = s.nearend.ring.toList.take s.frameBytes)
    (hprepare : (prepareLanes settings s.lanes).run = .ok (.ok prepared))
    (hlanes : runLanes engines settings prepared
      (s.layout.split (Pcm.decode x.far ++ List.replicate ((s.frameBytes - x.far.length) / 2) 0))
      (s.layout.split (Pcm.decode x.near))
      { micLevel := s.micLevel, journal := []
        stats := { s.stats with
          farendUnderrun := s.stats.farendUnderrun + (s.frameBytes - x.far.length) } } =
        .ok (lanes, outs, c)) :
    Serves settings s x ((({ s with
      farend := (s.farend.read s.frameBytes).1, nearend := (s.nearend.read s.frameBytes).1
      lanes, micLevel := c.micLevel, stats := c.stats }).countFrame settings).convertOutput
        (Layout.join outs)).1

/-- The lanes ran on buffered frames, one after another. -/
inductive Servings (settings : FrameSettings) : Session F → List Serving → Session F → Prop
  | nil {s : Session F} : Servings settings s [] s
  | cons {s t u : Session F} {x : Serving} {rest : List Serving}
    (hone : s.Serves engines settings x t) (hrest : Servings settings t rest u) :
    Servings settings s (x :: rest) u

variable {engines} {settings : FrameSettings} {s t u : Session F} {x : Serving}

omit [Sample S] in
/-- The farend of a frame is a whole number of samples. -/
theorem two_dvd_far (h : s.farend.Aligned s.layout) :
    2 ∣ (s.farend.ring.toList.take s.frameBytes).length := by
  have havail : 2 ∣ s.farend.ring.avail := Nat.dvd_trans (Nat.dvd_mul_left 2 _) h.avail
  have hbytes : 2 ∣ s.frameBytes := Nat.dvd_mul_left 2 _
  rw [List.length_take, ByteRing.length_toList]
  rcases Nat.le_total s.frameBytes s.farend.ring.avail with hle | hle
  · rwa [Nat.min_eq_left hle]
  · rwa [Nat.min_eq_right hle]

variable [Sample.Lawful S]

/-- What a served frame leaves behind: both intakes are read, the frame is counted, and so is what
is missing of its farend. -/
theorem Serves.rest (h : s.Serves engines settings x t) (hs : s.Sound)
    (hset : settings.For s.frames s.bands) :
    s.Kin t ∧ t.farend = (s.farend.read s.frameBytes).1 ∧
      t.nearend = (s.nearend.read s.frameBytes).1 ∧ x.near.length = s.frameBytes ∧
      x.far.length ≤ s.frameBytes ∧ t.stats.frames = s.stats.frames + 1 ∧
      t.stats.farendUnderrun = s.stats.farendUnderrun + (s.frameBytes - x.far.length) ∧
      t.stats.droppedFarend = s.stats.droppedFarend ∧
      t.stats.droppedNearend = s.stats.droppedNearend := by
  cases h with
  | @intro prepared lanes outs c hfull hfar hnear hprepare hlanes =>
    obtain ⟨-, hcount, hfits, failures, hstats⟩ := runLanes_cases engines hs hset hprepare
      (Layout.length_split _ _) (Layout.length_split _ _) hlanes
    have hread : s.Kin { s with
        farend := (s.farend.read s.frameBytes).1, nearend := (s.nearend.read s.frameBytes).1
        lanes, micLevel := c.micLevel, stats := c.stats } :=
      ⟨rfl, rfl, rfl, rfl, rfl, rfl, fun h => Intake.read_sound h _, fun h => Intake.read_sound h _,
        rfl, fun h => h, hcount, fun _ => hfits⟩
    have hkin := (hread.trans (advanced_countFrame settings _).kin).trans
      (kin_convertOutput _ (Layout.join outs))
    have hwhole : x.near.length = s.frameBytes := by
      rw [hnear, List.length_take, ByteRing.length_toList]
      exact Nat.min_eq_left hfull
    have hshort : x.far.length ≤ s.frameBytes := by
      rw [hfar]
      exact List.length_take_le _ _
    refine ⟨hkin, ?_⟩
    rw [convertOutput_same]
    refine ⟨rfl, rfl, hwhole, hshort, ?_, ?_, ?_, ?_⟩
    · show c.stats.frames + 1 = _
      rw [hstats]
    · show c.stats.farendUnderrun = _
      rw [hstats]
    · show c.stats.droppedFarend = _
      rw [hstats]
    · show c.stats.droppedNearend = _
      rw [hstats]

omit [Sample S] [Sample.Lawful S] in
/-- What is read for a frame: the farend that is there, and silence in the place of what is missing,
which is counted. -/
theorem readFrame_serving (hfarend : s.farend.Aligned s.layout) :
    (s.readFrame (S := S)).2.2.1 = Pcm.decode (s.farend.ring.toList.take s.frameBytes) ++
        List.replicate ((s.frameBytes - (s.farend.ring.toList.take s.frameBytes).length) / 2) 0 ∧
      (s.readFrame (S := S)).2.2.2 = Pcm.decode (s.nearend.ring.toList.take s.frameBytes) ∧
      (s.readFrame (S := S)).1.stats = { s.stats with
        farendUnderrun := s.stats.farendUnderrun +
          (s.frameBytes - (s.farend.ring.toList.take s.frameBytes).length) } := by
  have hmissing : s.frameBytes - s.farend.ring.avail =
      s.frameBytes - (s.farend.ring.toList.take s.frameBytes).length := by
    rw [List.length_take, ByteRing.length_toList]
    omega
  rw [readFrame_eq, hmissing]
  refine ⟨?_, rfl, rfl⟩
  exact Pcm.decode_fit (two_dvd_far hfarend) (Nat.dvd_mul_left 2 _) (List.length_take_le _ _)

/-- A buffered frame that is processed is served to the lanes. -/
theorem process_serves (hs : s.Sound) (hset : settings.For s.frames s.bands)
    (hfarend : s.farend.Aligned s.layout) (hfull : s.frameBytes ≤ s.nearend.avail)
    {journal : Journal S} {out : List Int16} {written : Nat}
    (h : (s.readFrame (S := S)).1.process engines settings (some (s.readFrame (S := S)).2.2.1)
      (s.readFrame (S := S)).2.2.2 (List.replicate s.frameLength 0) =
        .ok (u, journal, out, .ok written)) :
    ∃ x, s.Serves engines settings x (u.convertOutput (out.take written)).1 := by
  obtain ⟨hfar, hnear, hstats⟩ := readFrame_serving (S := S) hfarend
  obtain ⟨v, hv⟩ : ∃ v, (s.readFrame (S := S)).1 = v := ⟨_, rfl⟩
  have hkin : s.Kin v := hv ▸ kin_readFrame s
  have hsound := hkin.sound hs
  have hfor := hkin.settings hset
  have hlength := hkin.frameLength
  have hfarLength : (s.readFrame (S := S)).2.2.1.length = v.frameLength := by
    rw [hlength, readFrame_eq, Pcm.length_decode, length_fit, frameBytes,
      Nat.mul_div_cancel _ Nat.two_pos]
  have hnearLength : (s.readFrame (S := S)).2.2.2.length = v.frameLength :=
    hnear ▸ hlength ▸ length_nearend_frame hfull
  rw [hv, ← hlength] at h
  have hpos := frames_pos_of_process h
  -- On a shape that cannot be processed there is no count: `process` stops instead.
  by_cases hgood : Workable v.frames v.bands ∧ v.bands ∣ v.frames
  · obtain ⟨prepared, w, _, heard, hprepare, hrun, -, hheard, hprocess⟩ :=
      process_frame engines hsound hfor ⟨hpos, hgood.1, hgood.2⟩
        (some (s.readFrame (S := S)).2.2.1) hnearLength
    obtain ⟨rfl, -, rfl, rfl⟩ : w.countFrame settings = u ∧ _ ∧ heard = out ∧
        v.frameLength = written := by
      simpa only [Except.ok.injEq, Prod.mk.injEq] using hprocess.symm.trans h
    obtain ⟨⟨lanes, outs, c⟩, hlanes, hw⟩ := bind_eq_ok.mp hrun
    obtain ⟨rfl, hjoin⟩ := Prod.mk.inj (Except.ok.inj hw)
    obtain rfl : Layout.join outs = heard := (Prod.mk.inj hjoin).2
    rw [Option.map_some, Option.getD_some, List.take_of_length_le (by rw [hfarLength, hnearLength]),
      deinterleave_of_whole hfarLength, deinterleave_of_whole hnearLength, hfar, hnear] at hlanes
    rw [List.take_of_length_le (Nat.le_of_eq hheard)]
    subst hv
    rw [hstats] at hlanes
    exact ⟨⟨s.farend.ring.toList.take s.frameBytes, s.nearend.ring.toList.take s.frameBytes⟩,
      .intro hfull rfl rfl hprepare hlanes⟩
  · have hroom : 0 < (List.replicate v.frameLength (0 : Int16)).length := by
      rw [List.length_replicate]
      exact frameLength_pos hpos
    rcases process_stops engines hsound hfor hpos hgood (some (s.readFrame (S := S)).2.2.1)
      (Nat.le_of_eq hnearLength.symm) hroom with hstop | hstop
    · rw [hstop] at h
      exact absurd h (by simp)
    · rw [hstop] at h
      exact absurd h (by simp)

/-- Every frame that is served is counted. -/
theorem Servings.counted {servings : List Serving} (h : Servings engines settings s servings t)
    (hs : s.Sound) (hset : settings.For s.frames s.bands) :
    t.stats.frames = s.stats.frames + servings.length := by
  induction h with
  | nil => rfl
  | cons hone hrest ih =>
    obtain ⟨hkin, -, -, -, -, hframes, -⟩ := hone.rest hs hset
    rw [ih (hkin.sound hs) (hkin.settings hset), hframes, List.length_cons]
    omega

/-- Producing output without an error serves frames. -/
theorem produce_serves (hs : s.Sound) (hset : settings.For s.frames s.bands)
    (hfarend : s.farend.Aligned s.layout) {budget missing : Nat} {made : Produced S F}
    (h : produce engines settings budget missing s = .ok made) (hnone : made.error = none) :
    ∃ servings, Servings engines settings s servings made.session := by
  induction budget generalizing s missing made with
  | zero =>
    obtain rfl : _ = made := Except.ok.inj h
    exact ⟨[], .nil⟩
  | succ budget ih =>
    rw [produce] at h
    by_cases hstop : s.nearend.avail < s.frameBytes ∨ missing = 0
    · rw [if_pos hstop] at h
      obtain rfl : _ = made := Except.ok.inj h
      exact ⟨[], .nil⟩
    rw [if_neg hstop] at h
    have hfull : s.frameBytes ≤ s.nearend.avail := by omega
    obtain ⟨⟨u, journal, out, result⟩, hprocess, h⟩ := bind_eq_ok.mp h
    cases result with
    | error e =>
      obtain rfl : _ = made := Except.ok.inj h
      exact absurd hnone (by simp)
    | ok written =>
      obtain ⟨x, hx⟩ := process_serves hs hset hfarend hfull hprocess
      obtain ⟨hkin, hfar, -⟩ := hx.rest hs hset
      have hnext : (u.convertOutput (out.take written)).1.farend.Aligned
          (u.convertOutput (out.take written)).1.layout := by
        rw [hfar, hkin.layout]
        exact hfarend.read s.dvd_frameBytes
      dsimp only at h
      obtain ⟨⟨v, bytes, converted⟩, hv⟩ : ∃ v, u.convertOutput (out.take written) = v := ⟨_, rfl⟩
      rw [hv] at h hx hkin hnext
      cases converted with
      | error e =>
        obtain rfl : _ = made := Except.ok.inj h
        exact absurd hnone (by simp)
      | ok done =>
        obtain ⟨rest, hrest, h⟩ := bind_eq_ok.mp h
        obtain rfl : _ = made := Except.ok.inj h
        obtain ⟨servings, hservings⟩ :=
          ih (hkin.sound hs) (hkin.settings hset) hnext hrest hnone
        exact ⟨x :: servings, .cons hx hservings⟩

/-- A call of buffered processing that does not fail serves frames and touches what is pending. -/
theorem tryProcess_serves (hs : s.Sound) (hset : settings.For s.frames s.bands)
    (hfarend : s.farend.Aligned s.layout) {dest out : List UInt8} {journal : Journal S} {n : Nat}
    (h : s.tryProcess engines settings dest = .ok (t, journal, out, .ok n)) :
    ∃ servings u, Servings engines settings s servings u ∧ t = { u with pending := t.pending } := by
  obtain ⟨made, hmade, h⟩ := bind_eq_ok.mp h
  dsimp only at h
  cases hnone : made.error with
  | some e =>
    rw [hnone] at h
    exact absurd (Except.ok.inj h) (by simp)
  | none =>
    rw [hnone] at h
    obtain ⟨servings, hservings⟩ := produce_serves hs hset hfarend hmade hnone
    obtain rfl : _ = t := (Prod.mk.inj (Except.ok.inj h)).1
    exact ⟨servings, made.session, hservings, rfl⟩

end

/-! ### Balances -/

/-- Since another state of the session, these bytes of either direction came in, and these frames
were served: what came in is queued, was served or was dropped, and what was missing of the farend
is counted. -/
structure Balanced (s₀ : Session F) (far near : List UInt8) (servings : List Serving)
    (s : Session F) : Prop where
  layout : s.layout = s₀.layout
  rate : s.rate = s₀.rate
  frames : s.frames = s₀.frames
  farend : s₀.farend.Tally s₀.layout far (servings.map (·.far.length)).sum s.stats.droppedFarend
    s.farend
  nearend : s₀.nearend.Tally s₀.layout near (servings.map (·.near.length)).sum
    s.stats.droppedNearend s.nearend
  whole : ∀ x ∈ servings, x.near.length = s₀.frameBytes ∧ x.far.length ≤ s₀.frameBytes
  underrun : s.stats.farendUnderrun = (servings.map fun x => s₀.frameBytes - x.far.length).sum

namespace Balanced

variable {s₀ s t : Session F} {far near : List UInt8} {servings : List Serving}

theorem start (h : s₀.Valid) (hR : F.resampling.Unfailing) (hfar : s₀.farend.ring.toList = [])
    (hnear : s₀.nearend.ring.toList = []) (hstats : s₀.stats = {}) :
    Balanced s₀ [] [] [] s₀ := by
  refine ⟨rfl, rfl, rfl, ?_, ?_, by simp, ?_⟩
  · rw [hstats]
    exact Intake.tally_start h.farend (fun _ => hR) hfar
  · rw [hstats]
    exact Intake.tally_start h.nearend (fun _ => hR) hnear
  · rw [hstats]
    rfl

theorem frameBytes (h : Balanced s₀ far near servings s) : s.frameBytes = s₀.frameBytes := by
  unfold Session.frameBytes frameLength
  rw [h.frames, h.layout]

/-- Engines, output and other counters are of no account. -/
theorem of_same (h : Balanced s₀ far near servings s) (ht : t = { s with
    delay := t.delay, healthy := t.healthy, micLevel := t.micLevel, stats := t.stats
    outputAdapter := t.outputAdapter, lanes := t.lanes, pending := t.pending })
    (hlosses : s.stats.SameLosses t.stats) : Balanced s₀ far near servings t := by
  rw [ht]
  exact ⟨h.layout, h.rate, h.frames, hlosses.droppedFarend ▸ h.farend,
    hlosses.droppedNearend ▸ h.nearend, h.whole, hlosses.farendUnderrun.trans h.underrun⟩

/-- Farend bytes come in. -/
theorem pushFarend (h : Balanced s₀ far near servings s) (h₀ : s₀.Valid)
    (hR : F.resampling.Unfailing) (bytes : List UInt8) :
    ∃ lost, (s.farend.push bytes).2 = .ok lost ∧
      Balanced s₀ (far ++ bytes) near servings { s with
        farend := (s.farend.push bytes).1
        stats := { s.stats with droppedFarend := s.stats.droppedFarend + lost } } := by
  obtain ⟨lost, hlost, hpushed⟩ := h.farend.push h₀.farend (fun _ => hR) bytes
  exact ⟨lost, hlost, h.layout, h.rate, h.frames, hpushed, h.nearend, h.whole, h.underrun⟩

/-- Nearend bytes come in. -/
theorem pushNearend (h : Balanced s₀ far near servings s) (h₀ : s₀.Valid)
    (hR : F.resampling.Unfailing) (bytes : List UInt8) :
    ∃ lost, (s.nearend.push bytes).2 = .ok lost ∧
      Balanced s₀ far (near ++ bytes) servings { s with
        nearend := (s.nearend.push bytes).1
        stats := { s.stats with droppedNearend := s.stats.droppedNearend + lost } } := by
  obtain ⟨lost, hlost, hpushed⟩ := h.nearend.push h₀.nearend (fun _ => hR) bytes
  exact ⟨lost, hlost, h.layout, h.rate, h.frames, h.farend, hpushed, h.whole, h.underrun⟩

/-- All nearend of the frames was there. -/
theorem near_sum (h : Balanced s₀ far near servings s) :
    (servings.map (·.near.length)).sum = s.frameBytes * servings.length := by
  rw [List.map_congr_left fun x hx => (h.whole x hx).1, List.map_const',
    List.sum_replicate_nat, h.frameBytes, Nat.mul_comm]

/-- What was missing of the farend of the frames is what was counted. -/
theorem far_sum (h : Balanced s₀ far near servings s) :
    (servings.map (·.far.length)).sum + s.stats.farendUnderrun =
      s.frameBytes * servings.length := by
  have hwhole : ∀ x ∈ servings,
      x.far.length + (s₀.frameBytes - x.far.length) = s₀.frameBytes := by
    intro x hx
    exact Nat.add_sub_cancel' (h.whole x hx).2
  rw [h.underrun, ← List.sum_map_add, List.map_congr_left hwhole, List.map_const',
    List.sum_replicate_nat, h.frameBytes, Nat.mul_comm]

variable [Sample S] [Sample.Lawful S] {engines : Engines S F} {settings : FrameSettings}

/-- A frame is served. -/
theorem serve {x : Serving} (h : Balanced s₀ far near servings s) (hs : s.Sound)
    (hset : settings.For s.frames s.bands) (hx : s.Serves engines settings x t) :
    Balanced s₀ far near (servings ++ [x]) t := by
  obtain ⟨hkin, hfarend, hnearend, hwhole, hshort, -, hunderrun, hlostFar, hlostNear⟩ :=
    hx.rest hs hset
  have hfar : x.far = s.farend.ring.toList.take s.frameBytes := by cases hx; assumption
  have hnear : x.near = s.nearend.ring.toList.take s.frameBytes := by cases hx; assumption
  -- A frame is whole frames of samples, so that reading it keeps the intakes aligned.
  have hdvd : s₀.layout.channels * 2 ∣ s.frameBytes := h.layout ▸ s.dvd_frameBytes
  have hread := h.farend.read hdvd
  have hread' := h.nearend.read hdvd
  rw [← hfar, ← hfarend, ← hlostFar] at hread
  rw [← hnear, ← hnearend, ← hlostNear] at hread'
  rw [h.frameBytes] at hwhole hshort hunderrun
  refine ⟨hkin.layout.trans h.layout, hkin.rate.trans h.rate, hkin.frames.trans h.frames, ?_, ?_,
    ?_, ?_⟩
  · simpa using hread
  · simpa using hread'
  · intro y hy
    rcases List.mem_append.mp hy with hy | hy
    · exact h.whole y hy
    · obtain rfl := List.mem_singleton.mp hy
      exact ⟨hwhole, hshort⟩
  · rw [hunderrun, h.underrun, List.map_append, List.sum_append, List.map_singleton,
      List.sum_singleton]

/-- Frames are served one after another. -/
theorem serveAll {more : List Serving} (h : Balanced s₀ far near servings s) (hs : s.Sound)
    (hset : settings.For s.frames s.bands) (hmore : Servings engines settings s more t) :
    Balanced s₀ far near (servings ++ more) t := by
  induction hmore generalizing servings with
  | nil => simpa using h
  | @cons s t u x rest hone hrest ih =>
    have hkin := (hone.rest hs hset).1
    have hnext := ih (h.serve hs hset hone) (hkin.sound hs) (hkin.settings hset)
    rwa [List.append_assoc] at hnext

end Balanced

end Session

/-! ### Calls -/

/-- A call that moves bytes through the intakes, or processes, switches or resets something, and
leaves the formats as they are. -/
def Operation.KeepsFormats : Operation → Prop
  | .pushFarend _ | .pushNearend _ | .tryProcess _ | .process _ _ _ | .reset | .setStageEnabled _ _
  | .setFarendReady _ | .setNearendReady _ | .setDelay _ | .setEchoSettings _ => True
  | _ => False

/-- Whether this is the error of buffered processing. -/
def Answer.failed : Answer → Bool
  | .bytes _ (.error _) => true
  | _ => false

namespace Transcript

/-- Buffered processing never failed. -/
def Unfailing (t : Transcript) : Prop := ∀ call ∈ t, call.2.failed = false

/-- All processing was buffered. -/
def Buffered (t : Transcript) : Prop :=
  ∀ call ∈ t, ∀ farend nearend out, call.1 ≠ .process farend nearend out

end Transcript

namespace Context

section

variable [Sample S] (engines : Engines S F)

/-- The frames that buffered processing served in calls since a context. -/
inductive Attends (c₀ : Context S F) : Transcript → List Serving → Context S F → Prop
  | start : Attends c₀ [] [] c₀
  | call {t : Transcript} {servings : List Serving} {c c' : Context S F} {op : Operation}
    {answer : Answer} (h : Attends c₀ t servings c) (hop : ∀ dest, op ≠ .tryProcess dest)
    (happly : c.apply engines op = .ok (c', answer)) :
    Attends c₀ (t ++ [(op, answer)]) servings c'
  | serve {t : Transcript} {servings more : List Serving} {c c' : Context S F} {s u : Session F}
    {dest out pending : List UInt8} {n : Nat} (h : Attends c₀ t servings c)
    (hs : c.session = some s) (hprocess : c.tryProcess engines dest = .ok (c', out, .ok n))
    (hmore : Session.Servings engines (c.frameSettings s true) s more u)
    (hs' : c'.session = some { u with pending }) :
    Attends c₀ (t ++ [(.tryProcess dest, .bytes out (.ok n))]) (servings ++ more) c'

/-- Since a context with a session, calls served frames, the bytes are balanced, and if all
processing was buffered the frames are counted. -/
structure Balanced (c₀ : Context S F) (s₀ : Session F) (t : Transcript) (servings : List Serving)
    (c : Context S F) (s : Session F) : Prop where
  session : c.session = some s
  attends : Attends engines c₀ t servings c
  balance : s₀.Balanced (t.taken .farend) (t.taken .nearend) servings s
  counted : t.Buffered → s.stats.frames = servings.length

variable {engines} {c₀ c c' : Context S F} {s₀ s s' : Session F} {t : Transcript}
  {servings : List Serving}

/-- A call that takes no bytes and leaves the intakes and the losses alone. -/
theorem Balanced.quiet (h : Balanced engines c₀ s₀ t servings c s) {op : Operation}
    {answer : Answer} (hop : ∀ dest, op ≠ .tryProcess dest)
    (happly : c.apply engines op = .ok (c', answer))
    (htaken : ∀ d, Transcript.taken d [(op, answer)] = []) (hs' : c'.session = some s')
    (hsame : s' = { s with
      delay := s'.delay, healthy := s'.healthy, micLevel := s'.micLevel, stats := s'.stats
      outputAdapter := s'.outputAdapter, lanes := s'.lanes, pending := s'.pending })
    (hlosses : s.stats.SameLosses s'.stats)
    (hcounted : s'.stats.frames = s.stats.frames ∨ ∃ far near out, op = .process far near out) :
    Balanced engines c₀ s₀ (t ++ [(op, answer)]) servings c' s' := by
  refine ⟨hs', .call h.attends hop happly, ?_, ?_⟩
  · rw [Transcript.taken_append, Transcript.taken_append, htaken, htaken, List.append_nil,
      List.append_nil]
    exact h.balance.of_same hsame hlosses
  · intro hbuffered
    rcases hcounted with hframes | ⟨far, near, out, rfl⟩
    · rw [hframes]
      exact h.counted fun call hcall => hbuffered call (List.mem_append_left _ hcall)
    · exact absurd rfl (hbuffered _ (List.mem_append_right t List.mem_cons_self) far near out)

theorem Balanced.pushFarend (h : Balanced engines c₀ s₀ t servings c s) (h₀ : s₀.Valid)
    (hR : F.resampling.Unfailing) (bytes : List UInt8) :
    ∃ s', Balanced engines c₀ s₀ (t ++ [(.pushFarend bytes, .taken (c.pushFarend bytes).2)])
      servings (c.pushFarend bytes).1 s' := by
  rcases c.open_or_closed with ⟨s', hs', hrun⟩ | hclosed
  · obtain rfl : s = s' := Option.some.inj (h.session.symm.trans hs')
    have hcall : Attends engines c₀ (t ++ [(.pushFarend bytes, .taken (c.pushFarend bytes).2)])
        servings (c.pushFarend bytes).1 := .call h.attends (by simp) rfl
    obtain ⟨w, hpush⟩ := pushFarend_open h.session hrun bytes
    obtain ⟨lost, hlost, hpushed⟩ := h.balance.pushFarend h₀ hR bytes
    rw [hpush, hlost] at hcall ⊢
    refine ⟨_, rfl, hcall, ?_, ?_⟩
    · rw [takenOf, Transcript.taken_append, Transcript.taken_append, Transcript.taken_pushFarend,
        Transcript.taken_pushFarend, if_pos rfl, if_neg (by decide), List.append_nil]
      exact hpushed
    · intro hbuffered
      exact h.counted fun call hcall => hbuffered call (List.mem_append_left _ hcall)
  · have hc := (push_closed hclosed bytes).1.1
    exact ⟨s, h.quiet (by simp) rfl (fun d => (Transcript.taken_of_closed hclosed d bytes).1)
      (by rw [hc]; exact h.session) rfl (.refl _) (.inl rfl)⟩

theorem Balanced.pushNearend (h : Balanced engines c₀ s₀ t servings c s) (h₀ : s₀.Valid)
    (hR : F.resampling.Unfailing) (bytes : List UInt8) :
    ∃ s', Balanced engines c₀ s₀ (t ++ [(.pushNearend bytes, .taken (c.pushNearend bytes).2)])
      servings (c.pushNearend bytes).1 s' := by
  rcases c.open_or_closed with ⟨s', hs', hrun⟩ | hclosed
  · obtain rfl : s = s' := Option.some.inj (h.session.symm.trans hs')
    have hcall : Attends engines c₀ (t ++ [(.pushNearend bytes, .taken (c.pushNearend bytes).2)])
        servings (c.pushNearend bytes).1 := .call h.attends (by simp) rfl
    obtain ⟨w, hpush⟩ := pushNearend_open h.session hrun bytes
    obtain ⟨lost, hlost, hpushed⟩ := h.balance.pushNearend h₀ hR bytes
    rw [hpush, hlost] at hcall ⊢
    refine ⟨_, rfl, hcall, ?_, ?_⟩
    · rw [takenOf, Transcript.taken_append, Transcript.taken_append, Transcript.taken_pushNearend,
        Transcript.taken_pushNearend, if_neg (by decide), if_pos rfl, List.append_nil]
      exact hpushed
    · intro hbuffered
      exact h.counted fun call hcall => hbuffered call (List.mem_append_left _ hcall)
  · have hc := (push_closed hclosed bytes).2.1
    exact ⟨s, h.quiet (by simp) rfl (fun d => (Transcript.taken_of_closed hclosed d bytes).2)
      (by rw [hc]; exact h.session) rfl (.refl _) (.inl rfl)⟩

variable [Sample.Lawful S]

/-- Processing samples past the intakes moves no bytes. -/
theorem Balanced.process (h : Balanced engines c₀ s₀ t servings c s) (hsound : s.Sound)
    {far : Option (List Int16)} {near out : List Int16} {answer : Answer}
    (happly : c.apply engines (.process far near out) = .ok (c', answer)) :
    ∃ s', Balanced engines c₀ s₀ (t ++ [(.process far near out, answer)]) servings c' s' := by
  obtain ⟨r, hprocess, hanswer⟩ := map_eq_ok.mp happly
  obtain ⟨hc', rfl⟩ := Prod.mk.inj hanswer
  obtain ⟨hnone, -⟩ | ⟨s', u, journal, hs', hu, hr⟩ := process_cases engines hprocess
  · rw [h.session] at hnone
    exact absurd hnone (by simp)
  obtain rfl : s = s' := Option.some.inj (h.session.symm.trans hs')
  have hadvanced : s.Advanced u :=
    Session.process_advances engines hsound (c.frameSettings_for s _) hu
  have hsession : c'.session = some u := by
    rw [← hc', hr]
  refine ⟨u, h.quiet (by simp) happly (fun d => rfl) hsession ?_ hadvanced.losses
    (.inr ⟨far, near, out, rfl⟩)⟩
  rw [hadvanced.same]

theorem Balanced.tryProcess (h : Balanced engines c₀ s₀ t servings c s) (hsound : s.Sound)
    {dest out : List UInt8} {n : Nat}
    (hprocess : c.tryProcess engines dest = .ok (c', out, .ok n)) :
    ∃ more s', Balanced engines c₀ s₀ (t ++ [(.tryProcess dest, .bytes out (.ok n))])
      (servings ++ more) c' s' := by
  obtain ⟨hnone, -⟩ | ⟨s', v, journal, hs', hv, hc'⟩ := tryProcess_cases engines hprocess
  · rw [h.session] at hnone
    exact absurd hnone (by simp)
  obtain rfl : s = s' := Option.some.inj (h.session.symm.trans hs')
  have hfor := c.frameSettings_for s true
  have hfarend : s.farend.Aligned s.layout := h.balance.layout ▸ h.balance.farend.aligned
  obtain ⟨more, u, hmore, hpending⟩ := Session.tryProcess_serves hsound hfor hfarend hv
  have hs' : c'.session = some { u with pending := v.pending } := by
    rw [← hpending]
    exact congrArg Context.session hc'
  refine ⟨more, _, hs', .serve h.attends h.session hprocess hmore hs', ?_, ?_⟩
  · rw [Transcript.taken_append, Transcript.taken_append, Transcript.taken_tryProcess,
      Transcript.taken_tryProcess, List.append_nil, List.append_nil]
    exact (h.balance.serveAll hsound hfor hmore).of_same rfl (.refl _)
  · intro hbuffered
    have hframes := h.counted fun call hcall => hbuffered call (List.mem_append_left _ hcall)
    show u.stats.frames = _
    rw [hmore.counted hsound hfor, hframes, List.length_append]

/-- Every call that keeps the formats keeps the balance, unless buffered processing fails. -/
theorem Balanced.apply (h : Balanced engines c₀ s₀ t servings c s) (h₀ : s₀.Valid)
    (hR : F.resampling.Unfailing) (hsound : s.Sound) {op : Operation} {answer : Answer}
    (hop : op.KeepsFormats)
    (happly : c.apply engines op = .ok (c', answer)) (hfine : answer.failed = false) :
    ∃ more s', Balanced engines c₀ s₀ (t ++ [(op, answer)]) (servings ++ more) c' s' := by
  have hnone {s' : Session F} (hs' : Balanced engines c₀ s₀ (t ++ [(op, answer)]) servings c' s') :
      ∃ more s', Balanced engines c₀ s₀ (t ++ [(op, answer)]) (servings ++ more) c' s' :=
    ⟨[], s', by rwa [List.append_nil]⟩
  have hcall := happly
  cases op with
  | pushFarend bytes =>
    obtain ⟨rfl, rfl⟩ := Prod.mk.inj (Except.ok.inj happly)
    obtain ⟨s', hs'⟩ := h.pushFarend h₀ hR bytes
    exact hnone hs'
  | pushNearend bytes =>
    obtain ⟨rfl, rfl⟩ := Prod.mk.inj (Except.ok.inj happly)
    obtain ⟨s', hs'⟩ := h.pushNearend h₀ hR bytes
    exact hnone hs'
  | process far near out =>
    obtain ⟨s', hs'⟩ := h.process hsound happly
    exact hnone hs'
  | tryProcess dest =>
    obtain ⟨⟨d, out, result⟩, hprocess, hd⟩ := map_eq_ok.mp happly
    obtain ⟨rfl, rfl⟩ := Prod.mk.inj hd
    cases result with
    | error e => exact absurd hfine (by simp [Answer.failed])
    | ok n => exact h.tryProcess hsound hprocess
  | reset =>
    obtain ⟨rfl, rfl⟩ := Prod.mk.inj (Except.ok.inj happly)
    obtain ⟨u, hu, hrefit, -⟩ := reset_session engines h.session
    have hstats : u.stats = s.stats := by rw [hrefit.same]
    exact hnone (h.quiet (by simp) hcall (fun d => rfl) hu (by rw [hrefit.same])
      (hstats ▸ .refl _) (.inl (by rw [hstats])))
  | setStageEnabled | setFarendReady | setNearendReady =>
    obtain ⟨rfl, rfl⟩ := Prod.mk.inj (Except.ok.inj happly)
    exact hnone (h.quiet (by simp) hcall (fun d => rfl) h.session rfl (.refl _) (.inl rfl))
  | setDelay delay =>
    obtain ⟨rfl, rfl⟩ := Prod.mk.inj (Except.ok.inj happly)
    have hdelay : (c.setDelay delay).1.session = some { s with delay } := by
      simp only [setDelay, h.session]
    exact hnone (h.quiet (by simp) hcall (fun d => rfl) hdelay rfl (.refl _) (.inl rfl))
  | setEchoSettings settings =>
    obtain ⟨rfl, rfl⟩ := Prod.mk.inj (Except.ok.inj happly)
    obtain ⟨u, hu, hrefit⟩ := setEchoSettings_session engines settings h.session
    have hstats : u.stats = s.stats := by rw [hrefit.same]
    exact hnone (h.quiet (by simp) hcall (fun d => rfl) hu (by rw [hrefit.same])
      (hstats ▸ .refl _) (.inl (by rw [hstats])))
  | _ => exact hop.elim

/-- Runs of such calls keep the balance. -/
theorem run_balanced (h : Balanced engines c₀ s₀ [] [] c₀ s₀) (h₀ : s₀.Valid)
    (hR : F.resampling.Unfailing) {ops : List Operation} (hops : ∀ op ∈ ops, op.KeepsFormats)
    (hrun : c₀.run engines ops = .ok (c', t)) (hfine : t.Unfailing) :
    ∃ servings s, Balanced engines c₀ s₀ t servings c' s := by
  -- Until a call fails the bytes are balanced; so the invariant speaks of transcripts without one.
  have hkeeps := run_keeps engines (t := [])
    (I := fun c t => c.Sound ∧ (t.Unfailing → ∃ servings s, Balanced engines c₀ s₀ t servings c s))
    ?_ ⟨sound_of_session h.session h₀, fun _ => ⟨[], s₀, h⟩⟩ hrun
  · exact hkeeps.2 hfine
  · rintro c t op c' answer hmem ⟨hsound, hbalanced⟩ happly
    refine ⟨apply_sound engines hsound happly, ?_⟩
    intro hfine
    obtain ⟨servings, s, hs⟩ := hbalanced fun call hcall =>
      hfine call (List.mem_append_left _ hcall)
    obtain ⟨more, s', hs'⟩ := hs.apply h₀ hR (hsound s hs.session).sound (hops op hmem) happly
      (hfine (op, answer) (List.mem_append_right t List.mem_cons_self))
    exact ⟨servings ++ more, s', hs'⟩

/-- From the beginning of a session, whatever is pushed, processed, reset and switched, as long as
no resampler refuses a block and no buffered processing fails: in either direction the conversion of
the bytes that were taken in is as long as what is queued, what was taken off for frames and what was
counted as dropped together. Each frame that was served had a whole nearend frame, and what was missing
of its farend is silent and counted. If all processing was buffered, the frames that are counted are
those that were served. -/
theorem bytes_accounted {c c₀ c' : Context S F} {channels nearRate farRate delay : Nat}
    {ops : List Operation} {t : Transcript} (hR : F.resampling.Unfailing)
    (hinit : c.init engines channels nearRate farRate delay = .ok (c₀, .ok .initialized))
    (hops : ∀ op ∈ ops, op.KeepsFormats) (hrun : c₀.run engines ops = .ok (c', t))
    (hfine : t.Unfailing) :
    ∃ (servings : List Serving) (s : Session F)
      (farAdapter nearAdapter : Option (RateAdapter F.resampling)),
      c'.session = some s ∧ Attends engines c₀ t servings c' ∧
      (t.Buffered → s.stats.frames = servings.length) ∧
      (adapterBetween farRate s.rate channels).run = .ok (.ok farAdapter) ∧
      (adapterBetween nearRate s.rate channels).run = .ok (.ok nearAdapter) ∧
      (convertStream s.layout s.layout farAdapter (t.taken .farend)).length =
        s.farend.avail + (servings.map (·.far.length)).sum + s.stats.droppedFarend ∧
      (convertStream s.layout s.layout nearAdapter (t.taken .nearend)).length =
        s.nearend.avail + (servings.map (·.near.length)).sum + s.stats.droppedNearend ∧
      (servings.map (·.near.length)).sum = s.frameBytes * servings.length ∧
      (servings.map (·.far.length)).sum + s.stats.farendUnderrun = s.frameBytes * servings.length ∧
      ∀ x ∈ servings, x.near.length = s.frameBytes ∧ x.far.length ≤ s.frameBytes := by
  obtain ⟨-, hnot⟩ | ⟨s, s₀, hopened, -, hchannels, hrefit, hs₀⟩ := init_cases engines hinit
  · exact absurd rfl hnot
  have hfarend : s₀.farend.Opened s₀.layout farRate s₀.rate := by
    rw [hrefit.same]
    exact hopened.farend
  have hnearend : s₀.nearend.Opened s₀.layout nearRate s₀.rate := by
    rw [hrefit.same]
    exact hopened.nearend
  have hstats : s₀.stats = {} := by
    rw [hrefit.same]
    exact hopened.stats
  have hlayout : s₀.layout.channels = channels := by
    rw [hrefit.same]
    exact hchannels
  have hvalid := hrefit.valid hopened.valid
  have hstart := Session.Balanced.start hvalid hR hfarend.queued hnearend.queued hstats
  obtain ⟨servings, s, hsession, hattends, hbalance, hcounted⟩ :=
    run_balanced ⟨hs₀, .start, hstart, fun _ => by rw [hstats]; rfl⟩ hvalid hR hops hrun hfine
  refine ⟨servings, s, s₀.farend.adapter, s₀.nearend.adapter, hsession, hattends, hcounted, ?_, ?_,
    ?_, ?_, hbalance.near_sum, hbalance.far_sum, ?_⟩
  · rw [hbalance.rate, ← hlayout]
    exact hfarend.adapter
  · rw [hbalance.rate, ← hlayout]
    exact hnearend.adapter
  · rw [hbalance.layout, ← hfarend.emit]
    exact hbalance.farend.balance
  · rw [hbalance.layout, ← hnearend.emit]
    exact hbalance.nearend.balance
  · rw [hbalance.frameBytes]
    exact hbalance.whole

/-- Rings of 256 bytes, and a nearend that is resampled from 16 to 8 kHz: 350 samples of it become 160
of which 33 are dropped, and the farend of the one frame is 50 samples long. -/
theorem bytes_accounted_bypass :
    ∃ (c₀ c' : Context Int16 Bypass.family) (t : Transcript) (servings : List Serving)
      (s : Session Bypass.family) (nearAdapter : RateAdapter Resample.spectral),
      (new { ringSize := 256 } ()).init (Bypass.engines Int16 8000) 1 16000 8000 0 =
        .ok (c₀, .ok .initialized) ∧
      c₀.run (Bypass.engines Int16 8000) [.setFarendReady true, .setNearendReady true,
        .pushFarend (List.replicate 100 7), .pushNearend (List.replicate 701 7),
        .tryProcess (List.replicate 160 0)] = .ok (c', t) ∧
      t.Unfailing ∧ c'.session = some s ∧
      Attends (Bypass.engines Int16 8000) c₀ t servings c' ∧
      s.frameBytes = 160 ∧ s.nearend.avail = 94 ∧ s.stats.droppedNearend = 66 ∧
      s.stats.farendUnderrun = 60 ∧
      (RateAdapter.create 16000 8000 1).run = .ok (.ok nearAdapter) ∧
      (convertStream s.layout s.layout (some nearAdapter) (t.taken .nearend)).length =
        94 + (servings.map (·.near.length)).sum + 66 ∧
      (servings.map (·.near.length)).sum = 160 * servings.length ∧
      (servings.map (·.far.length)).sum + 60 = 160 * servings.length := by
  obtain ⟨c₀, hinit⟩ : ∃ c₀ : Context Int16 Bypass.family,
      (new { ringSize := 256 } ()).init (Bypass.engines Int16 8000) 1 16000 8000 0 =
        .ok (c₀, .ok .initialized) := ⟨_, rfl⟩
  have hvalues : ((new { ringSize := 256 } () : Context Int16 Bypass.family).init
        (Bypass.engines Int16 8000) 1 16000 8000 0 >>=
      fun q => q.1.run (Bypass.engines Int16 8000) [.setFarendReady true, .setNearendReady true,
        .pushFarend (List.replicate 100 7), .pushNearend (List.replicate 701 7),
        .tryProcess (List.replicate 160 0)] >>=
      fun r => .ok (r.2.all fun call => ! call.2.failed, r.1.session.map fun s =>
        [s.rate, s.frameBytes, s.nearend.avail, s.stats.droppedNearend, s.stats.farendUnderrun])) =
      .ok (true, some [8000, 160, 94, 66, 60]) := by
    decide +kernel
  rw [hinit, ok_bind] at hvalues
  obtain ⟨⟨c', t⟩, hrun, hvalues⟩ := bind_eq_ok.mp hvalues
  obtain ⟨hfine, hvalues⟩ := Prod.mk.inj (Except.ok.inj hvalues)
  have hunfailing : t.Unfailing := by
    intro call hcall
    simpa using List.all_eq_true.mp hfine call hcall
  obtain ⟨servings, s, farAdapter, nearAdapter, hs, hattends, -, -, hadapter, -, hnear, hserved,
    hfar, -⟩ := bytes_accounted Resample.spectral_unfailing hinit (fun op hop => by
      simp only [List.mem_cons, List.not_mem_nil, or_false] at hop
      rcases hop with rfl | rfl | rfl | rfl | rfl <;> trivial) hrun hunfailing
  rw [hs, Option.map_some] at hvalues
  simp only [Option.some.injEq, List.cons.injEq] at hvalues
  obtain ⟨hrate, hbytes, havail, hdropped, hunderrun, -⟩ := hvalues
  rw [hrate, adapterBetween, if_neg (by decide), map_eq_pure_bind] at hadapter
  obtain ⟨a, ha, hsome⟩ := attempt_bind_eq_ok.mp hadapter
  obtain rfl : some a = nearAdapter := Except.ok.inj (Except.ok.inj hsome)
  rw [hbytes] at hserved hfar
  rw [hunderrun] at hfar
  rw [havail, hdropped] at hnear
  exact ⟨c₀, c', t, servings, s, a, hinit, hrun, hunfailing, hs, hattends, hbytes, havail, hdropped,
    hunderrun, ha, hnear, hserved, hfar⟩

end

end Context

end Duplex
