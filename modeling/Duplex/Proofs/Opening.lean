import Duplex.Proofs.Conversion
import Duplex.Proofs.Session

/-!
# Opening a session

What a session is made of when `Session.create` succeeds (`create_cases`), and that it is `Valid`
then: it is sound, both intakes map to its layout, and the way back leads to the nearend rate.
Bringing up or reconfiguring engines does not touch the frames of the lanes.
-/

namespace Duplex

open Signal Engine
open Pcm (Layout)

variable {S : Type} {F : Family}

namespace StreamFormat

theorem create_cases {rate channels : Nat} {f : StreamFormat} (h : create rate channels = .ok f) :
    f.rate = rate ∧ f.channels = channels := by
  rw [create] at h
  split at h
  · simp at h
  rename_i layout hlayout
  split at h
  · split at h
    · obtain rfl : _ = f := Except.ok.inj h
      exact ⟨rfl, Layout.channels_of_ofChannels? hlayout⟩
    · simp at h
  · simp at h

end StreamFormat

theorem formatOf_cases {rate channels : Nat} {f : StreamFormat} (h : formatOf rate channels = .ok f) :
    f.rate = rate ∧ f.channels = channels := by
  rw [formatOf] at h
  cases hcreate : StreamFormat.create rate channels with
  | error e =>
    rw [hcreate] at h
    simp [Except.mapError] at h
  | ok g =>
    rw [hcreate] at h
    obtain rfl : g = f := Except.ok.inj h
    exact StreamFormat.create_cases hcreate

theorem ofCapacity_of_allocateRing {size : Nat} {ring : ByteRing}
    (h : allocateRing size = .ok ring) : ByteRing.ofCapacity size = .ok ring := by
  rw [allocateRing] at h
  cases hring : ByteRing.ofCapacity size with
  | error e =>
    rw [hring] at h
    cases e <;> simp at h
  | ok r =>
    rw [hring] at h
    exact congrArg Except.ok (Except.ok.inj h)

namespace Session

/-- What every session of a context keeps: it is sound, both intakes map to its layout, and the way
back leads to the nearend rate. -/
structure Valid (s : Session F) : Prop where
  sound : s.Sound
  farend : s.farend.Sound s.layout
  nearend : s.nearend.Sound s.layout
  way : s.Way

/-- Delay, pending output and counters are of no account, and intakes and the way back may be others
for the same layout. -/
theorem Valid.of_same {s t : Session F} (hs : s.Valid)
    (h : t = { s with
      delay := t.delay, farend := t.farend, nearend := t.nearend
      outputAdapter := t.outputAdapter, pending := t.pending, stats := t.stats })
    (hfarend : t.farend.Sound s.layout) (hnearend : t.nearend.Sound s.layout)
    (hway : Leads t.outputAdapter s.rate t.nearend.format.rate s.layout.channels) : t.Valid := by
  obtain ⟨⟨h₁, h₂, h₃, h₄, h₅, h₆⟩, -, -, -⟩ := hs
  rw [h]
  exact ⟨⟨h₁, h₂, h₃, h₄, h₅, h₆⟩, hfarend, hnearend, hway⟩

/-- Intakes may be others for the same layout and the same nearend stream. -/
theorem Valid.of_intakes {s t : Session F} (hs : s.Valid)
    (h : t = { s with
      delay := t.delay, farend := t.farend, nearend := t.nearend
      pending := t.pending, stats := t.stats })
    (hfarend : t.farend.Sound s.layout) (hnearend : t.nearend.Sound s.layout)
    (hstream : t.nearend.format = s.nearend.format) : t.Valid := by
  refine hs.of_same (by rw [h]) hfarend hnearend ?_
  rw [h]
  dsimp only
  rw [hstream]
  exact hs.way

theorem Kin.valid {s t : Session F} (h : s.Kin t) (hs : s.Valid) : t.Valid :=
  ⟨h.sound hs.sound, h.layout ▸ h.farend hs.farend, h.layout ▸ h.nearend hs.nearend, h.way hs.way⟩

/-- Where no block is refused, the way back is free. -/
theorem Valid.returning {s : Session F} (hs : s.Valid) (hR : F.resampling.Unfailing) :
    s.Returning := ⟨hs.way, fun _ => hR⟩

/-! ### Making a session -/

/-- What a session for a nearend and a farend rate is before it is used. -/
structure Opened (s : Session F) (nearRate farRate : Nat) : Prop where
  frames : s.frames = frameSizeForRate s.rate
  bands : s.bands = bandCountForRate s.rate
  frames_le : s.frames ≤ maxFrameSize
  bands_range : 1 ≤ s.bands ∧ s.bands ≤ 3
  lanes : s.lanes = (List.range s.layout.channels).map Lane.new
  farend : s.farend.Opened s.layout farRate s.rate
  nearend : s.nearend.Opened s.layout nearRate s.rate
  /-- The way back leads to the nearend rate. -/
  way : (adapterBetween s.rate nearRate s.layout.channels).run = .ok (.ok s.outputAdapter)
  pending : s.pending = []
  stats : s.stats = {}

/-- What a session is made of: two formats, a ring for each of them, and the way back to the nearend
rate. -/
theorem create_cases {settings : Settings} {limit channels nearRate farRate delay : Nat}
    {s : Session F}
    (h : (create settings limit channels nearRate farRate delay).run = .ok (.ok s)) :
    ∃ (near far : StreamFormat) (ring : ByteRing) (farend nearend : Intake F.resampling)
      (outputAdapter : Option (RateAdapter F.resampling)),
      formatOf nearRate channels = .ok near ∧ formatOf farRate channels = .ok far ∧
      frameSizeForRate s.rate ≤ maxFrameSize ∧
      (1 ≤ bandCountForRate s.rate ∧ bandCountForRate s.rate ≤ 3) ∧
      ByteRing.ofCapacity settings.ringSize = .ok ring ∧
      (Intake.create far s.rate near.layout ring).run = .ok (.ok farend) ∧
      (Intake.create near s.rate near.layout ring).run = .ok (.ok nearend) ∧
      (adapterBetween s.rate nearRate near.layout.channels).run = .ok (.ok outputAdapter) ∧
      s.rate = processingRate nearRate (min settings.maxRate.hertz limit) ∧
      s = { layout := near.layout, rate := s.rate, frames := frameSizeForRate s.rate
            bands := bandCountForRate s.rate, delay, healthy := .const true, micLevel := 0
            farend, nearend, outputAdapter
            lanes := (List.range near.layout.channels).map Lane.new, pending := [], stats := {} } := by
  rw [create] at h
  obtain ⟨near, hnear, h⟩ := attempt_bind_eq_ok.mp h
  obtain ⟨far, hfar, h⟩ := attempt_bind_eq_ok.mp h
  dsimp only at h
  split at h
  · exact absurd h attempt_throw_bind_eq_ok
  rename_i hframes
  split at h
  · exact absurd h attempt_throw_bind_eq_ok
  rename_i hbands
  obtain ⟨ring, hring, h⟩ := attempt_bind_eq_ok.mp h
  obtain ⟨farend, hfarend, h⟩ := attempt_bind_eq_ok.mp h
  obtain ⟨nearend, hnearend, h⟩ := attempt_bind_eq_ok.mp h
  obtain ⟨outputAdapter, hout, h⟩ := attempt_bind_eq_ok.mp h
  rw [run_pure, Except.ok.injEq, Except.ok.injEq] at h
  subst h
  exact ⟨near, far, ring, farend, nearend, outputAdapter, attempt_except_eq_ok.mp hnear,
    attempt_except_eq_ok.mp hfar, Nat.le_of_not_lt hframes, Decidable.not_not.mp hbands,
    ofCapacity_of_allocateRing (attempt_except_eq_ok.mp hring), attempt_adapt_eq_ok.mp hfarend,
    attempt_adapt_eq_ok.mp hnearend, attempt_adapt_eq_ok.mp hout, rfl, rfl⟩

theorem create_opened {settings : Settings} {limit channels nearRate farRate delay : Nat}
    {s : Session F}
    (h : (create settings limit channels nearRate farRate delay).run = .ok (.ok s)) :
    s.Opened nearRate farRate ∧
      s.rate = processingRate nearRate (min settings.maxRate.hertz limit) ∧
      s.layout.channels = channels := by
  obtain ⟨near, far, ring, farend, nearend, outputAdapter, hnear, hfar, hframes, hbands, hring,
    hfarend, hnearend, hout, hrate, hsame⟩ := create_cases h
  obtain ⟨rfl, hchannels⟩ := formatOf_cases hnear
  obtain ⟨rfl, hchannels'⟩ := formatOf_cases hfar
  have hlayout : far.layout = near.layout :=
    Layout.channels_injective (hchannels'.trans hchannels.symm)
  have hfaropened := Intake.opened_of_create hring hfarend hlayout
  have hopened := Intake.opened_of_create hring hnearend rfl
  obtain ⟨rate, hs⟩ : ∃ rate, s.rate = rate := ⟨_, rfl⟩
  rw [hs] at hsame hframes hbands hout hfaropened hopened hrate
  subst hsame
  exact ⟨⟨rfl, rfl, hframes, hbands, rfl, hfaropened, hopened, hout, rfl, rfl⟩, hrate, hchannels⟩

theorem Opened.outputAdapter_eq_none {s : Session F} {nearRate farRate : Nat}
    (h : s.Opened nearRate farRate) (hrate : nearRate = s.rate) : s.outputAdapter = none :=
  (Leads.of_adapterBetween h.way).none_iff.mpr hrate.symm

/-- Without a change of the rate the nearend has no adapter. -/
theorem Opened.adapter_eq_none {s : Session F} {nearRate farRate : Nat}
    (h : s.Opened nearRate farRate) (hrate : nearRate = s.rate) : s.nearend.adapter = none :=
  (Leads.of_adapterBetween h.nearend.adapter).none_iff.mpr hrate

theorem Opened.valid {s : Session F} {nearRate farRate : Nat} (h : s.Opened nearRate farRate) :
    s.Valid := by
  refine ⟨⟨h.frames, h.bands, h.frames_le, h.bands_range, by simp [h.lanes], ?_⟩,
    h.farend.used.sound, h.nearend.used.sound, ?_⟩
  case refine_2 =>
    unfold Way
    rw [h.nearend.stream]
    exact .of_adapterBetween h.way
  intro l hl bufs hbufs
  rw [h.lanes] at hl
  obtain ⟨channel, -, rfl⟩ := List.mem_map.mp hl
  simp [Lane.new] at hbufs

/-! ### Other formats -/

theorem changeFarend_eq_ok {s t : Session F} {rate channels : Nat}
    (h : (s.changeFarend rate channels).run = .ok (.ok t)) :
    ∃ format farend, formatOf rate channels = .ok format ∧
      (s.farend.setFormat format).run = .ok (.ok farend) ∧ t = { s with farend } := by
  obtain ⟨format, hformat, h⟩ := attempt_bind_eq_ok.mp h
  obtain ⟨farend, hfarend, h⟩ := attempt_bind_eq_ok.mp h
  rw [run_pure, Except.ok.injEq, Except.ok.injEq] at h
  exact ⟨format, farend, attempt_except_eq_ok.mp hformat, attempt_adapt_eq_ok.mp hfarend, h.symm⟩

theorem changeFarend_cases {s t : Session F} {rate channels : Nat}
    (h : (s.changeFarend rate channels).run = .ok (.ok t)) :
    ∃ farend, t = { s with farend } ∧ (s.farend.Sound s.layout → farend.Sound s.layout) := by
  obtain ⟨format, farend, -, hfarend, ht⟩ := changeFarend_eq_ok h
  exact ⟨farend, ht, fun hs => Intake.setFormat_sound hs hfarend⟩

theorem changeNearend_eq_ok {s t : Session F} {rate channels : Nat} :
    (s.changeNearend rate channels).run = .ok (.ok t) ↔
      ∃ format nearend outputAdapter, formatOf rate channels = .ok format ∧
        (s.nearend.setFormat format).run = .ok (.ok nearend) ∧
        (adapterBetween s.rate rate s.layout.channels).run = .ok (.ok outputAdapter) ∧
        t = { s with nearend, outputAdapter, pending := [] } := by
  constructor
  · intro h
    obtain ⟨format, hformat, h⟩ := attempt_bind_eq_ok.mp h
    obtain ⟨nearend, hnearend, h⟩ := attempt_bind_eq_ok.mp h
    obtain ⟨outputAdapter, hout, h⟩ := attempt_bind_eq_ok.mp h
    rw [run_pure, Except.ok.injEq, Except.ok.injEq] at h
    exact ⟨format, nearend, outputAdapter, attempt_except_eq_ok.mp hformat,
      attempt_adapt_eq_ok.mp hnearend, attempt_adapt_eq_ok.mp hout, h.symm⟩
  · rintro ⟨format, nearend, outputAdapter, hformat, hnearend, hout, rfl⟩
    refine attempt_bind_eq_ok.mpr ⟨format, attempt_except_eq_ok.mpr hformat, ?_⟩
    refine attempt_bind_eq_ok.mpr ⟨nearend, attempt_adapt_eq_ok.mpr hnearend, ?_⟩
    exact attempt_bind_eq_ok.mpr ⟨outputAdapter, attempt_adapt_eq_ok.mpr hout, rfl⟩

theorem changeNearend_cases {s t : Session F} {rate channels : Nat}
    (h : (s.changeNearend rate channels).run = .ok (.ok t)) :
    ∃ nearend outputAdapter, t = { s with nearend, outputAdapter, pending := [] } ∧
      (s.nearend.Sound s.layout → nearend.Sound s.layout) ∧
      Leads outputAdapter s.rate nearend.format.rate s.layout.channels := by
  obtain ⟨format, nearend, outputAdapter, hformat, hnearend, hway, ht⟩ := changeNearend_eq_ok.mp h
  refine ⟨nearend, outputAdapter, ht, fun hs => Intake.setFormat_sound hs hnearend, ?_⟩
  obtain ⟨adapter, -, rfl⟩ := Intake.setFormat_eq_ok.mp hnearend
  rw [← (formatOf_cases hformat).1] at hway
  exact .of_adapterBetween hway

/-- Another farend format is taken or refused. -/
theorem changeFarend_answers (s : Session F) (rate channels : Nat) :
    Returns (s.changeFarend rate channels).run fun _ => True := by
  refine attempt_bind_answers (attempt_except_answers _) fun format => ?_
  exact attempt_bind_answers (attempt_adapt_answers _ (s.farend.setFormat_answers format))
    fun farend => returns_ok trivial

/-- So is another nearend format, where the processing rate is one that a stream can have. -/
theorem changeNearend_answers {s : Session F} (hmin : minSampleRate ≤ s.rate)
    (rate channels : Nat) : Returns (s.changeNearend rate channels).run fun _ => True := by
  refine attempt_bind_answers (attempt_except_answers _) fun format => ?_
  refine attempt_bind_answers (attempt_adapt_answers _ (s.nearend.setFormat_answers format))
    fun nearend => ?_
  exact attempt_bind_answers
    (attempt_adapt_answers _ (adapterBetween_answers rate hmin s.layout.channels_le_two))
    fun outputAdapter => returns_ok trivial

/-! ### Engines -/

section Engines

variable (engines : Engines S F)

theorem resetLane_buffers (rate : Nat) (settings : Settings) (w : Workshop S F)
    (healthy : PerStage Bool) (l : Lane F) :
    (resetLane engines rate settings w healthy l).2.2.buffers = l.buffers := rfl

theorem resetLanes_buffers (rate : Nat) (settings : Settings) (w : Workshop S F)
    (healthy : PerStage Bool) (lanes : List (Lane F)) :
    (resetLanes engines rate settings w healthy lanes).2.2.map (·.buffers) =
      lanes.map (·.buffers) := by
  induction lanes generalizing w healthy with
  | nil => rfl
  | cons l lanes ih =>
    simp only [resetLanes, List.map_cons, resetLane_buffers, ih]

theorem reconfigureEcho_buffers (settings : EchoSettings) (w : Workshop S F) (l : Lane F) :
    (l.reconfigureEcho engines settings w).2.1.buffers = l.buffers := by
  rw [Lane.reconfigureEcho]
  split <;> rfl

theorem reconfigureLanes_buffers (settings : EchoSettings) (w : Workshop S F) (healthy : Bool)
    (lanes : List (Lane F)) :
    (reconfigureLanes engines settings w healthy lanes).2.2.map (·.buffers) =
      lanes.map (·.buffers) := by
  induction lanes generalizing w healthy with
  | nil => rfl
  | cons l lanes ih =>
    simp only [reconfigureLanes, List.map_cons, reconfigureEcho_buffers, ih]

end Engines

/-- What new engines change: the lanes, but not their frames, what is healthy and the mic level. -/
structure Refitted (s t : Session F) : Prop where
  same : t = { s with lanes := t.lanes, healthy := t.healthy, micLevel := t.micLevel }
  buffers : t.lanes.map (·.buffers) = s.lanes.map (·.buffers)

theorem resetEngines_refitted (engines : Engines S F) (settings : Settings) (w : Workshop S F)
    (s : Session F) : s.Refitted (s.resetEngines engines settings w).2 :=
  ⟨rfl, resetLanes_buffers engines s.rate settings w _ s.lanes⟩

theorem reconfigureEcho_refitted (engines : Engines S F) (settings : EchoSettings)
    (w : Workshop S F) (s : Session F) : s.Refitted (s.reconfigureEcho engines settings w).2 :=
  ⟨rfl, reconfigureLanes_buffers engines settings w _ s.lanes⟩

theorem Refitted.valid {s t : Session F} (h : s.Refitted t) (hs : s.Valid) : t.Valid := by
  obtain ⟨hst, hbuffers⟩ := h
  have hlen : t.lanes.length = s.lanes.length := by simpa using congrArg List.length hbuffers
  have hlanes : t.lanes.length = s.layout.channels := hlen.trans hs.sound.lanes
  have hfits : ∀ l ∈ t.lanes, l.Fits s.frames s.bands := by
    intro l hl bufs hbufs
    have hmem : some bufs ∈ s.lanes.map (·.buffers) := hbuffers ▸ hbufs ▸ List.mem_map_of_mem hl
    obtain ⟨l', hl', hbufs'⟩ := List.mem_map.mp hmem
    exact hs.sound.fits l' hl' bufs hbufs'
  rw [hst]
  exact ⟨⟨hs.sound.frames, hs.sound.bands, hs.sound.frames_le, hs.sound.bands_range, hlanes, hfits⟩,
    hs.farend, hs.nearend, hs.way⟩

end Session

end Duplex
