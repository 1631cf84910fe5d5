import Duplex.Proofs.Intake
import Duplex.Proofs.Lane
import Duplex.Proofs.Pcm
import Duplex.Session

/-!
# Sessions: what processing keeps, and when it gives a result

A session is `Sound` when its frame and its bands are those of its rate, there is a lane for each
channel, and whatever frames the lanes have made have that shape. Processing a frame replaces the
lanes, the mic level and the counters and nothing else (`Advanced`), keeps the session sound, and
gives a result whenever the shape is workable. `process` and `tryProcess` inherit this through
`runFrames` and `produce`.
-/

namespace Duplex

open Signal Engine
open Pcm (Layout)

variable {S : Type} {F : Family} {n b : Nat}

namespace Stats

/-- The counters agree on what was lost or filled in. -/
structure SameLosses (s t : Stats) : Prop where
  farendUnderrun : t.farendUnderrun = s.farendUnderrun
  droppedFarend : t.droppedFarend = s.droppedFarend
  droppedNearend : t.droppedNearend = s.droppedNearend

instance (s t : Stats) : Decidable (s.SameLosses t) :=
  decidable_of_iff
    (t.farendUnderrun = s.farendUnderrun ∧ t.droppedFarend = s.droppedFarend ∧
      t.droppedNearend = s.droppedNearend)
    ⟨fun ⟨hu, hf, hn⟩ => ⟨hu, hf, hn⟩, fun ⟨hu, hf, hn⟩ => ⟨hu, hf, hn⟩⟩

theorem SameLosses.refl (s : Stats) : s.SameLosses s := ⟨rfl, rfl, rfl⟩

theorem SameLosses.trans {s t u : Stats} (h₁ : s.SameLosses t) (h₂ : t.SameLosses u) :
    s.SameLosses u :=
  ⟨h₂.1.trans h₁.1, h₂.2.trans h₁.2, h₂.3.trans h₁.3⟩

theorem FailuresOnly.sameLosses {s t : Stats} (h : s.FailuresOnly t) : s.SameLosses t := by
  obtain ⟨failures, rfl⟩ := h
  exact ⟨rfl, rfl, rfl⟩

/-- No counter of losses fell. -/
structure LossesLe (s t : Stats) : Prop where
  farendUnderrun : s.farendUnderrun ≤ t.farendUnderrun
  droppedFarend : s.droppedFarend ≤ t.droppedFarend
  droppedNearend : s.droppedNearend ≤ t.droppedNearend

theorem LossesLe.refl (s : Stats) : s.LossesLe s := ⟨Nat.le_refl _, Nat.le_refl _, Nat.le_refl _⟩

theorem LossesLe.trans {s t u : Stats} (h₁ : s.LossesLe t) (h₂ : t.LossesLe u) : s.LossesLe u :=
  ⟨Nat.le_trans h₁.1 h₂.1, Nat.le_trans h₁.2 h₂.2, Nat.le_trans h₁.3 h₂.3⟩

/-- Between equal losses there are no others. -/
theorem SameLosses.between {s t u : Stats} (h : s.SameLosses u) (h₁ : s.LossesLe t)
    (h₂ : t.LossesLe u) : s.SameLosses t ∧ t.SameLosses u := by
  obtain ⟨hu, hf, hn⟩ := h
  obtain ⟨hu₁, hf₁, hn₁⟩ := h₁
  obtain ⟨hu₂, hf₂, hn₂⟩ := h₂
  refine ⟨⟨?_, ?_, ?_⟩, ⟨?_, ?_, ?_⟩⟩ <;> omega

end Stats

/-- Whatever frames the lane has made have the given shape. -/
def Lane.Fits (l : Lane F) (n b : Nat) : Prop := ∀ bufs, l.buffers = some bufs → bufs.Shaped n b

/-- The settings are those of frames of the given shape. -/
structure FrameSettings.For (settings : FrameSettings) (n b : Nat) : Prop where
  frames : settings.frames = n
  bands : settings.bands = b

namespace Session

/-! ### What a session keeps -/

/-- What every session keeps: its frame and bands are those of its rate and can be made, and there
is a lane for each channel, whose frames have that shape. -/
structure Sound (s : Session F) : Prop where
  frames : s.frames = frameSizeForRate s.rate
  bands : s.bands = bandCountForRate s.rate
  frames_le : s.frames ≤ maxFrameSize
  bands_range : 1 ≤ s.bands ∧ s.bands ≤ 3
  lanes : s.lanes.length = s.layout.channels
  fits : ∀ l ∈ s.lanes, l.Fits s.frames s.bands

/-- The frames of a session can be processed: they are not empty, the filters take them, and they are
cut evenly into bands. -/
structure Works (s : Session F) : Prop where
  frames_pos : 0 < s.frames
  workable : Workable s.frames s.bands
  dvd : s.bands ∣ s.frames

theorem frameLength_pos {s : Session F} (h : 0 < s.frames) : 0 < s.frameLength :=
  Nat.mul_pos h (Layout.channels_pos s.layout)

theorem frameBytes_pos {s : Session F} (h : 0 < s.frames) : 0 < s.frameBytes :=
  Nat.mul_pos (frameLength_pos h) Nat.two_pos

/-- The bytes of a frame are whole frames of samples. -/
theorem dvd_frameBytes (s : Session F) : s.layout.channels * 2 ∣ s.frameBytes := by
  rw [frameBytes, frameLength, Nat.mul_assoc]
  exact Nat.dvd_mul_left _ _

/-- What processing changes: the lanes, which keep their number and their shape, the mic level, and
counters other than those of losses. -/
structure Advanced (s t : Session F) : Prop where
  same : t = { s with lanes := t.lanes, micLevel := t.micLevel, stats := t.stats }
  losses : s.stats.SameLosses t.stats
  lanes : t.lanes.length = s.lanes.length
  fits : (∀ l ∈ s.lanes, l.Fits s.frames s.bands) → ∀ l ∈ t.lanes, l.Fits s.frames s.bands

theorem Advanced.refl (s : Session F) : s.Advanced s := ⟨rfl, .refl _, rfl, fun h => h⟩

theorem Advanced.trans {s t u : Session F} (h₁ : s.Advanced t) (h₂ : t.Advanced u) :
    s.Advanced u := by
  obtain ⟨hst, hl₁, hn₁, hf₁⟩ := h₁
  obtain ⟨htu, hl₂, hn₂, hf₂⟩ := h₂
  have hframes : t.frames = s.frames := by rw [hst]
  have hbands : t.bands = s.bands := by rw [hst]
  rw [hframes, hbands] at hf₂
  refine ⟨?_, hl₁.trans hl₂, hn₂.trans hn₁, fun h => hf₂ (hf₁ h)⟩
  rw [htu, hst]

theorem Advanced.sound {s t : Session F} (h : s.Advanced t) (hs : s.Sound) : t.Sound := by
  obtain ⟨hst, -, hn, hf⟩ := h
  have hl : t.lanes.length = s.layout.channels := hn.trans hs.lanes
  have hfits := hf hs.fits
  rw [hst]
  exact ⟨hs.frames, hs.bands, hs.frames_le, hs.bands_range, hl, hfits⟩

theorem advanced_countFrame (settings : FrameSettings) (s : Session F) :
    s.Advanced (s.countFrame settings) := ⟨rfl, ⟨rfl, rfl, rfl⟩, rfl, fun h => h⟩

/-- The size of a frame is one that can be stored. -/
theorem Sound.frames_lt {s : Session F} (hs : s.Sound) : s.frames < storageLimit := by
  have hle : s.frames ≤ 480 := hs.frames_le
  have hlimit : storageLimit = 0x10000000000 := rfl
  omega

/-- The way back leads from the processing rate to that of the nearend stream. -/
def Way (s : Session F) : Prop :=
  Leads s.outputAdapter s.rate s.nearend.format.rate s.layout.channels

/-- What buffered processing keeps: the processing format, the settings of the stages, the soundness
of the intakes, the way back, and the number and shape of the lanes. -/
structure Kin (s t : Session F) : Prop where
  layout : t.layout = s.layout
  rate : t.rate = s.rate
  frames : t.frames = s.frames
  bands : t.bands = s.bands
  delay : t.delay = s.delay
  healthy : t.healthy = s.healthy
  farend : s.farend.Sound s.layout → t.farend.Sound s.layout
  nearend : s.nearend.Sound s.layout → t.nearend.Sound s.layout
  stream : t.nearend.format = s.nearend.format
  way : s.Way → t.Way
  lanes : t.lanes.length = s.lanes.length
  fits : (∀ l ∈ s.lanes, l.Fits s.frames s.bands) → ∀ l ∈ t.lanes, l.Fits s.frames s.bands

theorem Kin.refl (s : Session F) : s.Kin s :=
  ⟨rfl, rfl, rfl, rfl, rfl, rfl, fun h => h, fun h => h, rfl, fun h => h, rfl, fun h => h⟩

theorem Kin.trans {s t u : Session F} (h₁ : s.Kin t) (h₂ : t.Kin u) : s.Kin u where
  layout := h₂.layout.trans h₁.layout
  rate := h₂.rate.trans h₁.rate
  frames := h₂.frames.trans h₁.frames
  bands := h₂.bands.trans h₁.bands
  delay := h₂.delay.trans h₁.delay
  healthy := h₂.healthy.trans h₁.healthy
  farend h := h₁.layout ▸ h₂.farend (h₁.layout ▸ h₁.farend h)
  nearend h := h₁.layout ▸ h₂.nearend (h₁.layout ▸ h₁.nearend h)
  stream := h₂.stream.trans h₁.stream
  way h := h₂.way (h₁.way h)
  lanes := h₂.lanes.trans h₁.lanes
  fits h := h₁.frames ▸ h₁.bands ▸ h₂.fits (h₁.frames ▸ h₁.bands ▸ h₁.fits h)

theorem Advanced.kin {s t : Session F} (h : s.Advanced t) : s.Kin t where
  layout := by rw [h.same]
  rate := by rw [h.same]
  frames := by rw [h.same]
  bands := by rw [h.same]
  delay := by rw [h.same]
  healthy := by rw [h.same]
  farend hf := by rw [h.same]; exact hf
  nearend hn := by rw [h.same]; exact hn
  stream := by rw [h.same]
  way hway := by rw [h.same]; exact hway
  lanes := h.lanes
  fits := h.fits

theorem Kin.sound {s t : Session F} (h : s.Kin t) (hs : s.Sound) : t.Sound where
  frames := by rw [h.frames, h.rate, hs.frames]
  bands := by rw [h.bands, h.rate, hs.bands]
  frames_le := h.frames ▸ hs.frames_le
  bands_range := h.bands ▸ hs.bands_range
  lanes := by rw [h.lanes, h.layout, hs.lanes]
  fits := by
    rw [h.frames, h.bands]
    exact h.fits hs.fits

theorem Kin.works {s t : Session F} (h : s.Kin t) (hw : s.Works) : t.Works :=
  ⟨h.frames ▸ hw.frames_pos, h.frames ▸ h.bands ▸ hw.workable, h.frames ▸ h.bands ▸ hw.dvd⟩

theorem Kin.frameLength {s t : Session F} (h : s.Kin t) : t.frameLength = s.frameLength := by
  unfold Session.frameLength
  rw [h.frames, h.layout]

theorem Kin.frameBytes {s t : Session F} (h : s.Kin t) : t.frameBytes = s.frameBytes := by
  unfold Session.frameBytes
  rw [h.frameLength]

/-- The settings of frames stay those of the session. -/
theorem Kin.settings {s t : Session F} (h : s.Kin t) {settings : FrameSettings}
    (hset : settings.For s.frames s.bands) : settings.For t.frames t.bands :=
  h.frames ▸ h.bands ▸ hset

/-- Pending output is of no account. -/
theorem kin_pending (s : Session F) (pending : List UInt8) : s.Kin { s with pending } :=
  ⟨rfl, rfl, rfl, rfl, rfl, rfl, fun h => h, fun h => h, rfl, fun h => h, rfl, fun h => h⟩

/-- So are the counters, and the intakes as long as they stay sound and the nearend stream the same. -/
theorem kin_intakes (s : Session F) (farend nearend : Intake F.resampling) (stats : Stats)
    (hfar : s.farend.Sound s.layout → farend.Sound s.layout)
    (hnear : s.nearend.Sound s.layout → nearend.Sound s.layout)
    (hstream : nearend.format = s.nearend.format) : s.Kin { s with farend, nearend, stats } := by
  refine ⟨rfl, rfl, rfl, rfl, rfl, rfl, hfar, hnear, hstream, fun hway => ?_, rfl, fun h => h⟩
  unfold Way
  rw [hstream]
  exact hway

/-- Taking a frame off the intakes leaves everything else. -/
theorem kin_readFrame (s : Session F) : s.Kin (s.readFrame (S := S)).1 :=
  s.kin_intakes _ _ _ (fun h => Intake.read_sound h _) (fun h => Intake.read_sound h _) rfl

/-- Output touches nothing but its own adapter. -/
theorem convertOutput_same (s : Session F) (samples : List Int16) :
    (s.convertOutput samples).1 =
      { s with outputAdapter := (s.convertOutput samples).1.outputAdapter } := by
  unfold convertOutput
  split <;> rfl

theorem Way.convertOutput {s : Session F} (h : s.Way) (samples : List Int16) :
    (s.convertOutput samples).1.Way := by
  cases hout : s.outputAdapter with
  | none =>
    simp only [Session.convertOutput, hout]
    exact h
  | some a =>
    unfold Way at h ⊢
    rw [hout] at h
    simp only [Session.convertOutput, hout]
    exact h.after_process samples

theorem kin_convertOutput (s : Session F) (samples : List Int16) :
    s.Kin (s.convertOutput samples).1 := by
  refine ⟨?_, ?_, ?_, ?_, ?_, ?_, ?_, ?_, ?_, fun h => h.convertOutput samples, ?_, ?_⟩
  all_goals rw [convertOutput_same]
  all_goals exact fun h => h

/-- The way back leads to the nearend rate, and on it no block is refused. -/
structure Returning (s : Session F) : Prop where
  way : s.Way
  unfailing : s.outputAdapter.isSome → F.resampling.Unfailing

/-- There is a way back to another rate or not, whatever was processed. -/
theorem Kin.outputAdapter_eq_none {s t : Session F} (h : s.Kin t) (hway : s.Way) :
    t.outputAdapter = none ↔ s.outputAdapter = none := by
  rw [hway.none_iff, (h.way hway).none_iff, h.rate, h.stream]

/-- Without a way back no block is refused on it. -/
theorem Way.returning {s : Session F} (h : s.Way) (hout : s.outputAdapter = none) : s.Returning := by
  refine ⟨h, fun hsome => ?_⟩
  rw [hout] at hsome
  exact absurd hsome nofun

theorem Kin.returning {s t : Session F} (h : s.Kin t) (hs : s.Returning) : t.Returning := by
  refine ⟨h.way hs.way, fun hsome => hs.unfailing ?_⟩
  rw [Option.isSome_iff_ne_none] at hsome ⊢
  exact fun hout => hsome ((h.outputAdapter_eq_none hs.way).mpr hout)

theorem Returning.convertOutput_ok {s : Session F} (h : s.Returning) (samples : List Int16) :
    (s.convertOutput samples).2.2 = .ok () := by
  cases hout : s.outputAdapter with
  | none => simp only [convertOutput, hout]
  | some a =>
    have hR : F.resampling.Unfailing := h.unfailing (by rw [hout]; rfl)
    simp only [convertOutput, hout]
    exact ((h.way.serves a hout).process_ok hR samples).1

/-- Taking a frame of either direction off its intake. -/
theorem readFrame_eq (s : Session F) :
    s.readFrame (S := S) =
      ({ s with
          farend := (s.farend.read s.frameBytes).1, nearend := (s.nearend.read s.frameBytes).1
          stats := { s.stats with
            farendUnderrun := s.stats.farendUnderrun + (s.frameBytes - s.farend.ring.avail) } },
        (if 0 < s.frameBytes - s.farend.ring.avail then
          [.noticed (.farendUnderrun (s.frameBytes - s.farend.ring.avail))] else []),
        Pcm.decode (fit s.frameBytes 0 (s.farend.ring.toList.take s.frameBytes)),
        Pcm.decode (s.nearend.ring.toList.take s.frameBytes)) := by
  have hmissing : s.frameBytes - (s.farend.ring.toList.take s.frameBytes).length =
      s.frameBytes - s.farend.ring.avail := by
    rw [List.length_take, ByteRing.length_toList]
    omega
  simp only [readFrame, Intake.read_eq, hmissing]

/-- A nearend frame that is taken off a filled intake is whole. -/
theorem length_nearend_frame {s : Session F} (h : s.frameBytes ≤ s.nearend.avail) :
    (Pcm.decode (s.nearend.ring.toList.take s.frameBytes)).length = s.frameLength := by
  have hfull : s.frameBytes ≤ s.nearend.ring.avail := h
  rw [Pcm.length_decode, List.length_take, ByteRing.length_toList, Nat.min_eq_left hfull,
    frameBytes, Nat.mul_div_cancel _ (by omega)]

/-! ### Lanes -/

/-- Frames are made for the lanes that have none. -/
theorem prepareLanes_returns {settings : FrameSettings} (hset : settings.For n b)
    (hb : 1 ≤ b ∧ b ≤ 3) (hd : b ∣ n) (hn : n < storageLimit) (lanes : List (Lane F))
    (hl : ∀ l ∈ lanes, l.Fits n b) :
    ∃ prepared, (prepareLanes settings lanes).run = .ok (.ok prepared) ∧
      prepared.map (·.1) = lanes ∧ ∀ x ∈ prepared, x.2.Shaped n b := by
  induction lanes with
  | nil => exact ⟨[], rfl, rfl, by simp⟩
  | cons l lanes ih =>
    obtain ⟨rest, hrest, hlanes, hshaped⟩ := ih fun x hx => hl x (List.mem_cons_of_mem l hx)
    have hbufs : ∃ bufs, (l.prepare settings).run = .ok (.ok bufs) ∧ bufs.Shaped n b := by
      cases hbuf : l.buffers with
      | none =>
        rw [Lane.prepare, hbuf, hset.frames, hset.bands]
        exact Buffers.create_returns hb hd hn
      | some bufs =>
        rw [Lane.prepare, hbuf]
        exact ⟨bufs, rfl, hl l List.mem_cons_self bufs hbuf⟩
    obtain ⟨bufs, hprepare, hshape⟩ := hbufs
    refine ⟨(l, bufs) :: rest, ?_, by simp [hlanes], ?_⟩
    · exact attempt_bind_eq_ok.mpr ⟨bufs, hprepare, attempt_bind_eq_ok.mpr ⟨rest, hrest, rfl⟩⟩
    · simpa [hshape] using hshaped

/-- Where frames cannot be cut into bands, no lane has frames and none can be made. -/
theorem prepareLanes_refuses {settings : FrameSettings} (hset : settings.For n b)
    (hd : ¬ b ∣ n) {l : Lane F} (hl : l.Fits n b) (lanes : List (Lane F)) :
    (prepareLanes settings (l :: lanes)).run = .ok (.error (.unsupportedBandCount b)) := by
  have hnone : l.buffers = none := by
    cases hbuf : l.buffers with
    | none => rfl
    | some bufs => exact absurd (hl bufs hbuf).nearend.storage.ints.bands_dvd hd
  have hprepare : (l.prepare settings).run = .ok (.error (.unsupportedBandCount b)) := by
    rw [Lane.prepare, hnone, hset.frames, hset.bands]
    exact Buffers.create_refuses (by simp [hd])
  rw [prepareLanes, ExceptT.run_bind, hprepare]
  rfl

variable [Sample S] (engines : Engines S F)

/-- The lanes of a frame one after another, with a frame of samples for each. -/
inductive LanesRan (settings : FrameSettings) :
    List (Lane F × Buffers) → (farend nearend : List (List Int16)) → Carried S →
      List (Lane F) → (outs : List (List Int16)) → Carried S → Prop
  | nil (c : Carried S) : LanesRan settings [] [] [] c [] [] c
  | cons {lane : Lane F} {buffers : Buffers} {prepared : List (Lane F × Buffers)}
    {far near samples : List Int16} {farend nearend outs : List (List Int16)}
    {c c' : Carried S} {p : Lane.Passage S F} {lanes : List (Lane F)}
    (hlane : Lane.process engines settings far near
      { lane, buffers, micLevel := c.micLevel, stats := c.stats, journal := c.journal } =
        .ok (p, samples))
    (rest : LanesRan settings prepared farend nearend
      { micLevel := p.micLevel, stats := p.stats, journal := p.journal } lanes outs c') :
    LanesRan settings ((lane, buffers) :: prepared) (far :: farend) (near :: nearend) c
      ({ p.lane with buffers := some p.buffers } :: lanes) (samples :: outs) c'

variable {engines} in
theorem runLanes_ran {settings : FrameSettings} {prepared : List (Lane F × Buffers)}
    {farend nearend : List (List Int16)} (hf : farend.length = prepared.length)
    (hn : nearend.length = prepared.length) {c : Carried S}
    {r : List (Lane F) × List (List Int16) × Carried S}
    (h : runLanes engines settings prepared farend nearend c = .ok r) :
    LanesRan engines settings prepared farend nearend c r.1 r.2.1 r.2.2 := by
  induction prepared generalizing farend nearend c r with
  | nil =>
    obtain rfl := List.length_eq_zero_iff.mp hf
    obtain rfl := List.length_eq_zero_iff.mp hn
    rw [runLanes] at h
    · obtain rfl := Except.ok.inj h
      exact .nil c
    · simp
  | cons x prepared ih =>
    obtain ⟨far, farend, rfl⟩ := List.exists_cons_of_length_eq_add_one hf
    obtain ⟨near, nearend, rfl⟩ := List.exists_cons_of_length_eq_add_one hn
    obtain ⟨lane, bufs⟩ := x
    rw [runLanes] at h
    obtain ⟨⟨p, samples⟩, hlane, h⟩ := bind_eq_ok.mp h
    obtain ⟨⟨lanes, outs, c'⟩, hlanes, h⟩ := bind_eq_ok.mp h
    obtain rfl := Except.ok.inj h
    exact .cons hlane (ih (by simpa using hf) (by simpa using hn) hlanes)

/-- On a shape that is not workable the first lane stops the run. -/
theorem runLanes_fault {settings : FrameSettings} (hw : ¬ Workable n b) {x : Lane F × Buffers}
    (hx : x.2.Shaped n b) (prepared : List (Lane F × Buffers)) (far near : List Int16)
    (farend nearend : List (List Int16)) (c : Carried S) :
    runLanes engines settings (x :: prepared) (far :: farend) (near :: nearend) c =
      .error .outOfRange := by
  rw [runLanes, Lane.process_fault engines hx hw]
  rfl

variable [Sample.Lawful S]

/-- On a workable shape every lane makes a frame and keeps its shape. -/
theorem runLanes_returns {settings : FrameSettings} (hw : Workable n b) (hset : settings.For n b)
    (prepared : List (Lane F × Buffers)) (hs : ∀ x ∈ prepared, x.2.Shaped n b)
    (farend nearend : List (List Int16)) (hf : farend.length = prepared.length)
    (hn : nearend.length = prepared.length) (c : Carried S) :
    Returns (runLanes engines settings prepared farend nearend c) fun r =>
      r.1.length = prepared.length ∧ (∀ l ∈ r.1, l.Fits n b) ∧
        r.2.1.length = prepared.length ∧ (∀ out ∈ r.2.1, out.length = n) ∧
        c.stats.FailuresOnly r.2.2.stats := by
  induction prepared generalizing farend nearend c with
  | nil =>
    rw [runLanes]
    · exact returns_ok ⟨rfl, by simp, rfl, by simp, .refl _⟩
    · simp
  | cons x prepared ih =>
    obtain ⟨far, farend, rfl⟩ := List.exists_cons_of_length_eq_add_one hf
    obtain ⟨near, nearend, rfl⟩ := List.exists_cons_of_length_eq_add_one hn
    obtain ⟨lane, bufs⟩ := x
    rw [runLanes]
    refine (Lane.process_returns engines (hs _ List.mem_cons_self) hw hset.frames far near).bind
      fun r ⟨hshape, hstats, hlen⟩ => ?_
    refine (ih (fun y hy => hs y (List.mem_cons_of_mem _ hy)) farend nearend (by simpa using hf)
      (by simpa using hn) _).bind fun q ⟨hlanes, hfits, houts, hlens, hstats'⟩ => ?_
    refine returns_ok ⟨by simp [hlanes], ?_, by simp [houts], ?_, hstats.trans hstats'⟩
    · intro l hl
      rcases List.mem_cons.mp hl with rfl | hl
      · rintro bufs ⟨⟩
        exact hshape
      · exact hfits l hl
    · intro out hout
      rcases List.mem_cons.mp hout with rfl | hout
      · exact hlen
      · exact hlens out hout

/-! ### Frames -/

theorem length_deinterleave (s : Session F) (samples : List Int16) :
    (s.deinterleave samples).length = s.layout.channels := by
  simp [deinterleave]

/-- A whole frame is neither cut nor padded. -/
theorem deinterleave_of_whole {s : Session F} {samples : List Int16}
    (h : samples.length = s.frameLength) : s.deinterleave samples = s.layout.split samples := by
  unfold deinterleave
  rw [List.map_congr_left (g := id), List.map_id]
  intro column hcolumn
  refine fit_of_length_eq ?_
  rw [Layout.length_of_mem_split hcolumn, h, frameLength,
    Nat.mul_div_cancel _ (Layout.channels_pos s.layout)]

omit [Sample.Lawful S] in
variable {engines} in
/-- The lanes run on the channels of a frame, and the session takes over what they make. -/
theorem runFrame_lanes {s : Session F} (hlanes : s.lanes.length = s.layout.channels)
    {settings : FrameSettings} {prepared : List (Lane F × Buffers)}
    (hprepared : prepared.map (·.1) = s.lanes) {farend : Option (List Int16)}
    {nearend : List Int16} {r : Session F × Journal S × List Int16}
    (h : s.runFrame engines settings farend nearend prepared = .ok r) :
    ∃ (lanes : List (Lane F)) (outs : List (List Int16)) (c : Carried S),
      LanesRan engines settings prepared (s.deinterleave (farend.getD []))
        (s.deinterleave nearend)
        { micLevel := s.micLevel, stats := s.stats, journal := [] } lanes outs c ∧
      r = ({ s with lanes, micLevel := c.micLevel, stats := c.stats }, c.journal,
        Layout.join outs) := by
  have hlen : s.layout.channels = prepared.length := by
    rw [← hlanes, ← hprepared, List.length_map]
  obtain ⟨⟨lanes, outs, c⟩, hrun, h⟩ := bind_eq_ok.mp h
  exact ⟨lanes, outs, c, runLanes_ran ((length_deinterleave _ _).trans hlen)
    ((length_deinterleave _ _).trans hlen) hrun, (Except.ok.inj h).symm⟩

omit [Sample.Lawful S] in
variable {engines} in
/-- Processing stops on a frame that is empty. -/
theorem frames_pos_of_process {s : Session F} {settings : FrameSettings} {farend : Option (List Int16)}
    {nearend out : List Int16} {r : Session F × Journal S × List Int16 × Except Error Nat}
    (h : s.process engines settings farend nearend out = .ok r) : 0 < s.frames := by
  refine Nat.pos_of_ne_zero fun hzero => ?_
  have hempty : s.frameLength = 0 := by rw [frameLength, hzero, Nat.zero_mul]
  rw [process, if_neg (hempty ▸ Nat.not_lt_zero _), if_pos hempty] at h
  exact absurd h nofun

section Frames

variable {s : Session F} {settings : FrameSettings} (hs : s.Sound)
  (hset : settings.For s.frames s.bands)

include hs hset

theorem runFrame_returns (hw : Workable s.frames s.bands) (farend : Option (List Int16))
    (nearend : List Int16) {prepared : List (Lane F × Buffers)}
    (hlanes : prepared.map (·.1) = s.lanes)
    (hshaped : ∀ x ∈ prepared, x.2.Shaped s.frames s.bands) :
    Returns (s.runFrame engines settings farend nearend prepared) fun r =>
      s.Advanced r.1 ∧ r.2.2.length = s.frameLength := by
  have hlen : prepared.length = s.lanes.length := by rw [← hlanes, List.length_map]
  have hchannels : prepared.length = s.layout.channels := hlen.trans hs.lanes
  unfold runFrame
  refine (runLanes_returns engines hw hset prepared hshaped _ _
    ((length_deinterleave _ _).trans hchannels.symm)
    ((length_deinterleave _ _).trans hchannels.symm) _).bind
    fun r ⟨hnumber, hfits, houts, hlens, hstats⟩ => ?_
  refine returns_ok ⟨⟨rfl, hstats.sameLosses, hnumber.trans hlen, fun _ => hfits⟩, ?_⟩
  exact Layout.length_join (houts.trans hchannels) hlens

/-- Frames of a workable shape are processed one after another, and no error ends the run. -/
theorem runFrames_returns (hw : Workable s.frames s.bands) (hd : s.bands ∣ s.frames)
    (frames : List (List Int16)) (farend : Option (List Int16)) (room : Nat) :
    Returns (runFrames engines settings frames farend room s) fun r =>
      s.Advanced r.session ∧ r.error = none := by
  induction frames generalizing s farend room with
  | nil => exact returns_ok ⟨.refl s, rfl⟩
  | cons near frames ih =>
    rw [runFrames]
    split
    · exact returns_ok ⟨.refl s, rfl⟩
    obtain ⟨prepared, hprepared, hlanes, hshaped⟩ :=
      prepareLanes_returns hset hs.bands_range hd hs.frames_lt s.lanes hs.fits
    rw [hprepared, ok_bind]
    dsimp only
    refine (runFrame_returns engines hs hset hw (farend.map (·.take near.length)) near hlanes
      hshaped).bind fun r ⟨hr, hlen⟩ => ?_
    split
    · exact returns_ok ⟨hr, rfl⟩
    have hcount := hr.trans (advanced_countFrame settings r.1)
    obtain ⟨hframes, hbands⟩ : (r.1.countFrame settings).frames = s.frames ∧
        (r.1.countFrame settings).bands = s.bands := by rw [hcount.same]; exact ⟨rfl, rfl⟩
    refine (ih (hcount.sound hs) (hframes ▸ hbands ▸ hset) (hframes ▸ hbands ▸ hw)
      (hframes ▸ hbands ▸ hd) _ _).bind fun rest ⟨hrest, herror⟩ => ?_
    exact returns_ok ⟨hcount.trans hrest, herror⟩

/-- Processing answers how many samples it wrote, unless there was no whole frame. -/
theorem process_returns (hw : s.Works) (farend : Option (List Int16)) (nearend out : List Int16) :
    Returns (s.process engines settings farend nearend out) fun r =>
      s.Advanced r.1 ∧
        ((∃ n, r.2.2.2 = .ok n) ∨
          ∃ available required, r.2.2.2 = .error (.insufficientData available required)) := by
  rw [process, if_neg (frameLength_pos hw.frames_pos).ne']
  split
  · exact returns_ok ⟨.refl s, .inr ⟨_, _, rfl⟩⟩
  refine (runFrames_returns engines hs hset hw.workable hw.dvd _ farend out.length).bind
    fun run ⟨hrun, herror⟩ => ?_
  refine returns_ok ⟨hrun, .inl ⟨run.heard.length, ?_⟩⟩
  rw [herror]

/-- A single frame of samples fills a destination of its size. -/
theorem process_frame (hw : s.Works) (farend : Option (List Int16)) {near : List Int16}
    (hnear : near.length = s.frameLength) :
    ∃ prepared t journal heard, (prepareLanes settings s.lanes).run = .ok (.ok prepared) ∧
      s.runFrame engines settings (farend.map (·.take near.length)) near prepared =
        .ok (t, journal, heard) ∧
      s.Advanced t ∧ heard.length = s.frameLength ∧
      s.process engines settings farend near (List.replicate s.frameLength 0) =
        .ok (t.countFrame settings, journal, heard, .ok s.frameLength) := by
  have hpos := frameLength_pos hw.frames_pos
  obtain ⟨prepared, hprepared, hlanes, hshaped⟩ :=
    prepareLanes_returns hset hs.bands_range hw.dvd hs.frames_lt s.lanes hs.fits
  obtain ⟨⟨t, journal, heard⟩, hrun, ht, hlen⟩ := runFrame_returns engines hs hset hw.workable
    (farend.map (·.take near.length)) near hlanes hshaped
  dsimp only at ht hlen
  refine ⟨prepared, t, journal, heard, hprepared, hrun, ht, hlen, ?_⟩
  have hchannels : t.layout.channels = s.layout.channels := by rw [ht.same]
  have htake : heard.take (s.frameLength / t.layout.channels * t.layout.channels) = heard := by
    rw [hchannels, frameLength, Nat.mul_div_cancel _ (Layout.channels_pos s.layout)]
    exact List.take_of_length_le (by rw [hlen, frameLength])
  have hempty : heard.isEmpty = false := by
    rw [List.isEmpty_eq_false_iff, ← List.length_pos_iff, hlen]
    exact hpos
  rw [process, if_neg (by omega), if_neg hpos.ne', blocks_of_length_eq hpos hnear, runFrames,
    if_neg (by simp [hpos.ne'])]
  simp only [hprepared, ok_bind, hrun, List.length_replicate, htake, hempty, Bool.false_eq_true,
    if_false, runFrames, pure_bind, List.append_nil, hlen]
  rw [overlay_all (by rw [hlen, List.length_replicate])]
  rfl

end Frames

/-! ### Any shape -/

section AnyShape

variable {s : Session F} {settings : FrameSettings} (hs : s.Sound)
  (hset : settings.For s.frames s.bands)

include hs

/-- There is a first lane. -/
theorem Sound.exists_lane : ∃ l lanes, s.lanes = l :: lanes := by
  have hpos := Layout.channels_pos s.layout
  obtain ⟨n, hn⟩ := Nat.exists_eq_add_of_lt hpos
  exact List.exists_cons_of_length_eq_add_one (n := n) (by rw [hs.lanes, hn, Nat.zero_add])

omit [Sample.Lawful S] in
/-- On a shape that is not workable the lanes of a session do not run. -/
theorem runLanes_stops (hw : ¬ Workable s.frames s.bands) {prepared : List (Lane F × Buffers)}
    (hlanes : prepared.map (·.1) = s.lanes)
    (hshaped : ∀ x ∈ prepared, x.2.Shaped s.frames s.bands) {farend nearend : List (List Int16)}
    (hf : farend.length = s.layout.channels) (hn : nearend.length = s.layout.channels)
    (c : Carried S) : runLanes engines settings prepared farend nearend c = .error .outOfRange := by
  have hpos := Layout.channels_pos s.layout
  obtain ⟨l, lanes, hl⟩ := hs.exists_lane
  rw [hl] at hlanes
  obtain ⟨x, prepared, rfl, -, -⟩ := List.map_eq_cons_iff.mp hlanes
  obtain ⟨far, fars, rfl⟩ := List.exists_cons_of_length_pos (hf ▸ hpos)
  obtain ⟨near, nears, rfl⟩ := List.exists_cons_of_length_pos (hn ▸ hpos)
  exact runLanes_fault engines hw (hshaped x List.mem_cons_self) prepared far near fars nears c

omit [Sample.Lawful S] in
theorem runFrame_fault (hw : ¬ Workable s.frames s.bands) (farend : Option (List Int16))
    (nearend : List Int16) {prepared : List (Lane F × Buffers)}
    (hlanes : prepared.map (·.1) = s.lanes)
    (hshaped : ∀ x ∈ prepared, x.2.Shaped s.frames s.bands) :
    s.runFrame engines settings farend nearend prepared = .error .outOfRange := by
  rw [runFrame, runLanes_stops engines hs hw hlanes hshaped (length_deinterleave _ _)
    (length_deinterleave _ _)]
  rfl

include hset

omit [Sample S] [Sample.Lawful S] in
/-- Frames that were made for the lanes have the session's shape. -/
theorem prepareLanes_cases {prepared : List (Lane F × Buffers)}
    (h : (prepareLanes settings s.lanes).run = .ok (.ok prepared)) :
    s.bands ∣ s.frames ∧ prepared.map (·.1) = s.lanes ∧
      ∀ x ∈ prepared, x.2.Shaped s.frames s.bands := by
  have hd : s.bands ∣ s.frames := by
    by_contra hd
    obtain ⟨l, lanes, hl⟩ := hs.exists_lane
    rw [hl, prepareLanes_refuses hset hd (hs.fits l (hl ▸ List.mem_cons_self))] at h
    exact absurd h (by simp)
  obtain ⟨prepared', hprepare, hlanes, hshaped⟩ :=
    prepareLanes_returns hset hs.bands_range hd hs.frames_lt s.lanes hs.fits
  obtain rfl : prepared' = prepared := Except.ok.inj (Except.ok.inj (hprepare.symm.trans h))
  exact ⟨hd, hlanes, hshaped⟩

/-- Lanes that ran keep their number and their shape, and count failures only. -/
theorem runLanes_cases {prepared : List (Lane F × Buffers)}
    (hprepare : (prepareLanes settings s.lanes).run = .ok (.ok prepared))
    {farend nearend : List (List Int16)} (hf : farend.length = s.layout.channels)
    (hn : nearend.length = s.layout.channels) {c : Carried S}
    {r : List (Lane F) × List (List Int16) × Carried S}
    (h : runLanes engines settings prepared farend nearend c = .ok r) :
    Workable s.frames s.bands ∧ r.1.length = s.lanes.length ∧
      (∀ l ∈ r.1, l.Fits s.frames s.bands) ∧ c.stats.FailuresOnly r.2.2.stats := by
  obtain ⟨-, hlanes, hshaped⟩ := prepareLanes_cases hs hset hprepare
  have hw : Workable s.frames s.bands := by
    by_contra hw
    rw [runLanes_stops engines hs hw hlanes hshaped hf hn] at h
    exact absurd h (by simp)
  have hlen : prepared.length = s.lanes.length := by rw [← hlanes, List.length_map]
  have hnumber : prepared.length = s.layout.channels := hlen.trans hs.lanes
  obtain ⟨hcount, hfits, -, -, hstats⟩ := (runLanes_returns engines hw hset prepared hshaped _ _
    (hf.trans hnumber.symm) (hn.trans hnumber.symm) _).elim h
  exact ⟨hw, hcount.trans hlen, hfits, hstats⟩

omit [Sample.Lawful S] in
/-- On a shape that is not workable the first frame for which there is room stops the run: with an
error if it cannot be cut into bands, and with a fault if its filter does not take it. -/
theorem runFrames_stops (hbad : ¬ (Workable s.frames s.bands ∧ s.bands ∣ s.frames))
    (near : List Int16) (frames : List (List Int16)) (farend : Option (List Int16)) {room : Nat}
    (hroom : 0 < room) :
    runFrames engines settings (near :: frames) farend room s = .error .outOfRange ∨
      runFrames engines settings (near :: frames) farend room s =
        .ok { session := s, journal := [], heard := [],
              error := some (.unsupportedBandCount s.bands) } := by
  rw [runFrames, if_neg (Nat.ne_of_gt hroom)]
  by_cases hd : s.bands ∣ s.frames
  · left
    obtain ⟨prepared, hprepared, hlanes, hshaped⟩ :=
      prepareLanes_returns hset hs.bands_range hd hs.frames_lt s.lanes hs.fits
    rw [hprepared, ok_bind]
    dsimp only
    rw [runFrame_fault engines hs (fun hw => hbad ⟨hw, hd⟩) _ _ hlanes hshaped]
    rfl
  · right
    obtain ⟨l, lanes, hl⟩ := hs.exists_lane
    have hfits : l.Fits s.frames s.bands := hs.fits l (hl ▸ List.mem_cons_self)
    rw [hl, prepareLanes_refuses hset hd hfits]
    rfl

/-- Whatever the shape, a run over frames that gives a result only advances the session. -/
theorem runFrames_advances (frames : List (List Int16)) (farend : Option (List Int16)) (room : Nat)
    {run : Run S F} (h : runFrames engines settings frames farend room s = .ok run) :
    s.Advanced run.session := by
  by_cases hgood : Workable s.frames s.bands ∧ s.bands ∣ s.frames
  · exact ((runFrames_returns engines hs hset hgood.1 hgood.2 frames farend room).elim h).1
  cases frames with
  | nil =>
    obtain rfl : _ = run := Except.ok.inj h
    exact .refl s
  | cons near frames =>
    rcases Nat.eq_zero_or_pos room with rfl | hroom
    · rw [runFrames, if_pos rfl] at h
      obtain rfl : _ = run := Except.ok.inj h
      exact .refl s
    · rcases runFrames_stops engines hs hset hgood near frames farend hroom with hstop | hstop
      · rw [hstop] at h
        simp at h
      · rw [hstop] at h
        obtain rfl : _ = run := Except.ok.inj h
        exact .refl s

theorem process_advances {farend : Option (List Int16)} {nearend out : List Int16}
    {r : Session F × Journal S × List Int16 × Except Error Nat}
    (h : s.process engines settings farend nearend out = .ok r) : s.Advanced r.1 := by
  rw [process] at h
  split at h
  · obtain rfl : _ = r := Except.ok.inj h
    exact .refl s
  split at h
  · simp at h
  obtain ⟨run, hrun, hr⟩ := bind_eq_ok.mp h
  obtain rfl : _ = r := Except.ok.inj hr
  exact runFrames_advances engines hs hset _ _ _ hrun

omit [Sample.Lawful S] in
/-- A whole frame of another shape, and a destination that is not empty, stop processing. -/
theorem process_stops (hpos : 0 < s.frames)
    (hbad : ¬ (Workable s.frames s.bands ∧ s.bands ∣ s.frames)) (farend : Option (List Int16))
    {nearend out : List Int16}
    (hnear : s.frameLength ≤ nearend.length) (hout : 0 < out.length) :
    s.process engines settings farend nearend out = .error .outOfRange ∨
      s.process engines settings farend nearend out =
        .ok (s, [], out, .error (.invalidConfiguration (.unsupportedBandCount s.bands))) := by
  have hpos := frameLength_pos hpos
  rw [process, if_neg (by omega), if_neg (Nat.ne_of_gt hpos), blocks_of_le_length hpos hnear]
  rcases runFrames_stops engines hs hset hbad (nearend.take s.frameLength)
    (blocks s.frameLength (nearend.drop s.frameLength)) farend hout with hstop | hstop
  · exact .inl (by rw [hstop]; rfl)
  · exact .inr (by rw [hstop, ok_bind, overlay_nil]; rfl)

end AnyShape

theorem produce_kin {s : Session F} {settings : FrameSettings} (hs : s.Sound)
    (hset : settings.For s.frames s.bands) {budget missing : Nat} {made : Produced S F}
    (h : produce engines settings budget missing s = .ok made) : s.Kin made.session := by
  induction budget generalizing s missing made with
  | zero =>
    obtain rfl : _ = made := Except.ok.inj h
    exact .refl s
  | succ budget ih =>
    rw [produce] at h
    split at h
    · obtain rfl : _ = made := Except.ok.inj h
      exact .refl s
    have hread : s.Kin (s.readFrame (S := S)).1 := kin_readFrame s
    obtain ⟨r, hr⟩ : ∃ r, s.readFrame (S := S) = r := ⟨_, rfl⟩
    rw [hr] at h hread
    obtain ⟨⟨t, run, out, result⟩, hprocess, h⟩ := bind_eq_ok.mp h
    have ht : s.Kin t := hread.trans (process_advances engines (hread.sound hs)
      (hread.settings hset) hprocess).kin
    cases result with
    | error e =>
      obtain rfl : _ = made := Except.ok.inj h
      exact ht
    | ok written =>
      have hnext := ht.trans (kin_convertOutput t (out.take written))
      obtain ⟨⟨u, bytes, converted⟩, hc⟩ : ∃ c, t.convertOutput (out.take written) = c := ⟨_, rfl⟩
      dsimp only at h
      rw [hc] at h hnext
      cases converted with
      | error e =>
        obtain rfl : _ = made := Except.ok.inj h
        exact hnext
      | ok done =>
        obtain ⟨rest, hrest, h⟩ := bind_eq_ok.mp h
        obtain rfl : _ = made := Except.ok.inj h
        have hkin := ih (hnext.sound hs) (hnext.settings hset) hrest
        exact hnext.trans hkin

/-- Whatever the shape, buffered processing keeps the session what it is. -/
theorem tryProcess_kin {s : Session F} {settings : FrameSettings} (hs : s.Sound)
    (hset : settings.For s.frames s.bands) {dest : List UInt8}
    {r : Session F × Journal S × List UInt8 × Except Error Nat}
    (h : s.tryProcess engines settings dest = .ok r) : s.Kin r.1 := by
  obtain ⟨made, hmade, h⟩ := bind_eq_ok.mp h
  have hkin := produce_kin engines hs hset hmade
  dsimp only at h
  split at h
  · obtain rfl : _ = r := Except.ok.inj h
    exact hkin.trans (kin_pending _ _)
  · obtain rfl : _ = r := Except.ok.inj h
    exact hkin.trans (kin_pending _ _)

/-! ### Buffered frames -/

section Buffered

variable {s : Session F} {settings : FrameSettings} (hs : s.Sound)
  (hset : settings.For s.frames s.bands) (hw : s.Works)

include hs hset hw

/-- While bytes are missing and there is a nearend frame, one frame is taken off the intakes and
processed. Processing goes on from there if the frame is converted, and is over if that fails. -/
theorem produce_succ (budget : Nat) {missing : Nat} (hfull : s.frameBytes ≤ s.nearend.avail)
    (hmissing : 0 < missing) :
    ∃ t journal out,
      (s.readFrame (S := S)).1.process engines settings (some (s.readFrame (S := S)).2.2.1)
          (s.readFrame (S := S)).2.2.2 (List.replicate s.frameLength 0) =
        .ok (t, journal, out, .ok s.frameLength) ∧
      (s.readFrame (S := S)).1.Advanced t ∧ out.length = s.frameLength ∧
      produce engines settings (budget + 1) missing s =
        match (t.convertOutput out).2.2 with
        | .error e => .ok {
            session := (t.convertOutput out).1
            journal := (s.readFrame (S := S)).2.1 ++ journal
            bytes := [], error := some (.rateAdapter e) }
        | .ok () =>
          (produce engines settings budget (missing - (t.convertOutput out).2.1.length)
            (t.convertOutput out).1).map fun rest =>
              { rest with
                journal := (s.readFrame (S := S)).2.1 ++ journal ++ rest.journal
                bytes := (t.convertOutput out).2.1 ++ rest.bytes } := by
  obtain ⟨r, hr⟩ : ∃ r, s.readFrame (S := S) = r := ⟨_, rfl⟩
  have hkin : s.Kin r.1 := hr ▸ kin_readFrame s
  have hnear : r.2.2.2.length = r.1.frameLength := by
    rw [← hr, readFrame_eq]
    exact length_nearend_frame hfull
  have hlen : r.1.frameLength = s.frameLength := by rw [← hr]; rfl
  obtain ⟨_, t, journal, out, _, _, ht, hout, hprocess⟩ :=
    process_frame engines (hkin.sound hs) (hkin.settings hset) (hkin.works hw) (some r.2.2.1) hnear
  rw [hlen] at hprocess hout
  have hcount := ht.trans (advanced_countFrame settings t)
  refine ⟨t.countFrame settings, journal, out, hr ▸ hprocess, hr ▸ hcount, hout, ?_⟩
  have hgo : ¬ (s.nearend.avail < s.frameBytes ∨ missing = 0) := by omega
  have htake : out.take s.frameLength = out := List.take_of_length_le (by rw [hout])
  rw [produce, if_neg hgo, hr]
  dsimp only
  rw [hlen, hprocess]
  simp only [ok_bind, htake]
  cases ((t.countFrame settings).convertOutput out).2.2 with
  | error e => rfl
  | ok done => cases produce engines settings budget _ _ <;> rfl

/-- So it does where no block is refused on the way back. -/
theorem produce_succ_of_returning (hback : s.Returning) (budget : Nat) {missing : Nat}
    (hfull : s.frameBytes ≤ s.nearend.avail) (hmissing : 0 < missing) :
    ∃ t journal out,
      (s.readFrame (S := S)).1.process engines settings (some (s.readFrame (S := S)).2.2.1)
          (s.readFrame (S := S)).2.2.2 (List.replicate s.frameLength 0) =
        .ok (t, journal, out, .ok s.frameLength) ∧
      (s.readFrame (S := S)).1.Advanced t ∧ out.length = s.frameLength ∧
      produce engines settings (budget + 1) missing s =
        (produce engines settings budget (missing - (t.convertOutput out).2.1.length)
          (t.convertOutput out).1).map fun rest =>
            { rest with
              journal := (s.readFrame (S := S)).2.1 ++ journal ++ rest.journal
              bytes := (t.convertOutput out).2.1 ++ rest.bytes } := by
  obtain ⟨t, journal, out, hprocess, ht, hout, hproduce⟩ :=
    produce_succ engines hs hset hw budget hfull hmissing
  have hreturns : t.Returning := ((kin_readFrame (S := S) s).trans ht.kin).returning hback
  rw [hreturns.convertOutput_ok out] at hproduce
  exact ⟨t, journal, out, hprocess, ht, hout, hproduce⟩

/-- Buffered frames of a workable shape are processed; only a resampler that fails on the way back
ends that with an error. -/
theorem produce_returns (budget missing : Nat) :
    Returns (produce engines settings budget missing s) fun r =>
      s.Kin r.session ∧ (r.error = none ∨ ∃ e, r.error = some (.rateAdapter e)) ∧
        (s.Returning → r.error = none) := by
  induction budget generalizing s missing with
  | zero => exact returns_ok ⟨.refl s, .inl rfl, fun _ => rfl⟩
  | succ budget ih =>
    by_cases hgo : s.frameBytes ≤ s.nearend.avail ∧ 0 < missing
    · obtain ⟨t, journal, out, -, ht, -, hproduce⟩ :=
        produce_succ engines hs hset hw budget hgo.1 hgo.2
      have hbefore := (kin_readFrame (S := S) s).trans ht.kin
      have hkin : s.Kin (t.convertOutput out).1 := hbefore.trans (kin_convertOutput t out)
      rw [hproduce]
      cases hconverted : (t.convertOutput out).2.2 with
      | error e =>
        refine returns_ok ⟨hkin, .inr ⟨e, rfl⟩, fun hback => ?_⟩
        rw [(hbefore.returning hback).convertOutput_ok out] at hconverted
        exact absurd hconverted nofun
      | ok done =>
        refine (ih (hkin.sound hs) (hkin.settings hset) (hkin.works hw) _).map
          fun r ⟨hr, herror, hnone⟩ => ⟨hkin.trans hr, herror, fun hback => ?_⟩
        exact hnone (hkin.returning hback)
    · rw [produce, if_pos (by omega)]
      exact returns_ok ⟨.refl s, .inl rfl, fun _ => rfl⟩

/-- Buffered processing on a workable shape answers how many bytes it handed out, unless the
resampler fails on the way back. -/
theorem tryProcess_returns (dest : List UInt8) :
    Returns (s.tryProcess engines settings dest) fun r =>
      s.Kin r.1 ∧ ((∃ n, r.2.2.2 = .ok n) ∨ ∃ e, r.2.2.2 = .error (.rateAdapter e)) ∧
        (s.Returning → ∃ n, r.2.2.2 = .ok n) := by
  rw [tryProcess]
  refine (produce_returns engines hs hset hw _ _).bind fun made ⟨hmade, herror, hnone⟩ => ?_
  have hkin := hmade.trans (kin_pending _ (made.session.pending ++ made.bytes))
  rcases herror with herror | ⟨e, herror⟩
  · rw [herror]
    exact returns_ok ⟨hkin.trans (kin_pending _ _), .inl ⟨_, rfl⟩, fun _ => ⟨_, rfl⟩⟩
  · rw [herror]
    refine returns_ok ⟨hkin, .inr ⟨e, rfl⟩, fun hback => ?_⟩
    rw [hnone hback] at herror
    exact absurd herror nofun

end Buffered

end Session

end Duplex
