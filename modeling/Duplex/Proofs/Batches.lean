import Duplex.Engine.Bypass
import Duplex.Proofs.Channels
import Duplex.Proofs.Pacing

/-!
# Batches: many frames in one call

`Batch` is the processing of frames one after another with all that is heard of each, whatever room
there is. A call of `process` with room for its frames is the batch of them, and so are the calls
that are given one of the frames each (`process_frame_by_frame`): in between nothing but the lanes,
the mic level and the counters is handed on, and what a frame lacks of farend is silent either way.
With less room the same samples are cut off at a whole number of samples for each channel
(`process_truncates`).
-/

namespace Duplex

open Signal Engine
open Pcm (Layout)

variable {S : Type} {F : Family} {α : Type}

namespace Signal

/-- What is filled in behind a signal is of no account where it is filled in anyway. -/
theorem fit_append_replicate (n k : Nat) (a : α) (xs : List α) :
    fit n a (xs ++ List.replicate k a) = fit n a xs := by
  rw [fit, fit, List.take_append, List.take_replicate, List.append_assoc, List.replicate_append_replicate,
    List.length_append, List.length_replicate]
  congr 2
  omega

end Signal

namespace Side

theorem channel_replicate (side : Side) (n : Nat) (a : α) :
    side.channel (List.replicate (2 * n) a) = List.replicate n a := by
  have hpairs : pairs (List.replicate (2 * n) a) = List.replicate n (a, a) := by
    induction n with
    | zero => rfl
    | succ n ih => rw [Nat.mul_succ, List.replicate_succ, List.replicate_succ, pairs_cons_cons, ih]; rfl
  rw [channel, hpairs, List.map_replicate]
  cases side <;> rfl

end Side

namespace Session

/-- What a frame lacks of farend is silent, whether it is filled in or not. -/
theorem deinterleave_fit {s : Session F} {samples : List Int16}
    (h : s.layout.channels ∣ samples.length) :
    s.deinterleave (fit s.frameLength 0 samples) = s.deinterleave (samples.take s.frameLength) := by
  show s.deinterleave (samples.take s.frameLength ++
    List.replicate (s.frameLength - samples.length) 0) = _
  cases hlayout : s.layout with
  | mono =>
    simp only [deinterleave, hlayout, Layout.split, List.map_cons, List.map_nil,
      fit_append_replicate]
  | stereo =>
    have hframe : s.frameLength = 2 * s.frames := by
      rw [frameLength, hlayout, Nat.mul_comm]
      rfl
    have heven : 2 ∣ samples.length := by rwa [hlayout] at h
    have htaken : 2 ∣ (samples.take s.frameLength).length := by
      rw [List.length_take]
      omega
    obtain ⟨k, hk⟩ : 2 ∣ s.frameLength - samples.length := by omega
    rw [deinterleave_stereo hlayout, deinterleave_stereo hlayout, hk]
    simp only [Side.channel_append _ htaken, Side.channel_replicate, fit_append_replicate]

section

variable [Sample S] (engines : Engines S F)

/-- Frames that are processed one after another, with what the engines did and all that is heard of
each. -/
inductive Batch (settings : FrameSettings) : List (List Int16) → Option (List Int16) →
    Session F → List (Feed S) → Session F → Prop
  | nil {farend : Option (List Int16)} {s : Session F} : Batch settings [] farend s [] s
  | cons {near heard : List Int16} {frames : List (List Int16)} {farend : Option (List Int16)}
    {s t u : Session F} {prepared : List (Lane F × Buffers)} {journal : Journal S}
    {feeds : List (Feed S)}
    (hprepare : (prepareLanes settings s.lanes).run = .ok (.ok prepared))
    (hrun : s.runFrame engines settings (farend.map (·.take near.length)) near prepared =
      .ok (t, journal, heard))
    (rest : Batch settings frames (farend.map (·.drop near.length)) (t.countFrame settings)
      feeds u) :
    Batch settings (near :: frames) farend s (⟨journal, heard⟩ :: feeds) u

variable {engines} [Sample.Lawful S] {settings : FrameSettings} {s u : Session F}

omit [Sample S] [Sample.Lawful S] in
/-- Of a room for whole samples of every channel, what is left behind a frame or what fits of it. -/
theorem cut_room (channels frames room : Nat) :
    (room - min (room / channels * channels) (frames * channels)) / channels * channels =
      room / channels * channels - frames * channels := by
  rw [Nat.mul_min_mul_right, Nat.mul_comm (min _ _), Nat.sub_mul_div, ← Nat.sub_mul]
  congr 1
  omega

/-- Frames of a workable shape can be processed one after another. -/
theorem exists_batch (hs : s.Sound) (hset : settings.For s.frames s.bands)
    (hw : Workable s.frames s.bands) (hd : s.bands ∣ s.frames) (frames : List (List Int16))
    (farend : Option (List Int16)) :
    ∃ feeds u, Batch engines settings frames farend s feeds u := by
  induction frames generalizing s farend with
  | nil => exact ⟨[], s, .nil⟩
  | cons near frames ih =>
    obtain ⟨prepared, hprepare, hlanes, hshaped⟩ :=
      prepareLanes_returns hset hs.bands_range hd hs.frames_lt s.lanes hs.fits
    obtain ⟨⟨t, journal, heard⟩, hrun, hadvanced, -⟩ := runFrame_returns engines hs hset hw
      (farend.map (·.take near.length)) near hlanes hshaped
    have hkin := (hadvanced.trans (advanced_countFrame settings t)).kin
    obtain ⟨feeds, u, hbatch⟩ := ih (hkin.sound hs) (hkin.settings hset)
      (hkin.frames ▸ hkin.bands ▸ hw) (hkin.frames ▸ hkin.bands ▸ hd)
      (farend.map (·.drop near.length))
    exact ⟨_, u, .cons hprepare hrun hbatch⟩

namespace Batch

variable {frames : List (List Int16)} {farend : Option (List Int16)} {feeds : List (Feed S)}

/-- Of each frame a frame is heard. -/
theorem delivered (h : Batch engines settings frames farend s feeds u) (hs : s.Sound)
    (hframes : 0 < s.frames) (hset : settings.For s.frames s.bands) :
    feeds.length = frames.length ∧ ∀ feed ∈ feeds, feed.delivered.length = s.frameLength := by
  induction h with
  | nil => exact ⟨rfl, nofun⟩
  | cons hprepare hrun _ ih =>
    obtain ⟨-, hadvanced, hlength, -⟩ := runFrame_ran engines hs hset hframes hprepare hrun
    have hkin := (hadvanced.trans (advanced_countFrame settings _)).kin
    obtain ⟨hnumber, hall⟩ := ih (hkin.sound hs) (hkin.frames ▸ hframes) (hkin.settings hset)
    rw [hkin.frameLength] at hall
    exact ⟨congrArg (· + 1) hnumber, List.forall_mem_cons.mpr ⟨hlength, hall⟩⟩

theorem length_heard (h : Batch engines settings frames farend s feeds u) (hs : s.Sound)
    (hframes : 0 < s.frames) (hset : settings.For s.frames s.bands) :
    (feeds.flatMap (·.delivered)).length = frames.length * s.frameLength := by
  obtain ⟨hnumber, hall⟩ := h.delivered hs hframes hset
  rw [List.length_flatMap, List.map_congr_left hall, List.map_const', List.sum_replicate_nat, hnumber]

/-- With room for its frames a run over them is the batch. -/
theorem runFrames (h : Batch engines settings frames farend s feeds u) (hs : s.Sound)
    (hframes : 0 < s.frames) (hset : settings.For s.frames s.bands) {room : Nat}
    (hroom : frames.length * s.frameLength ≤ room) :
    Session.runFrames engines settings frames farend room s =
      .ok { session := u, journal := feeds.flatMap (·.journal)
            heard := feeds.flatMap (·.delivered), error := none } := by
  induction h generalizing room with
  | nil => rfl
  | cons hprepare hrun _ ih =>
    rw [List.length_cons, Nat.succ_mul] at hroom
    obtain ⟨-, hadvanced, hcons⟩ := runFrames_cons hs hframes hset hprepare hrun
      ((Nat.le_add_left _ _).trans hroom) _
    have hkin := hadvanced.kin
    rw [hcons, ih (hkin.sound hs) (hkin.frames ▸ hframes) (hkin.settings hset)]
    · rfl
    · rw [hkin.frameLength]
      exact Nat.le_sub_of_add_le hroom

/-- With any room the same is heard, as far as there is room for samples of every channel. -/
theorem runFrames_cut (h : Batch engines settings frames farend s feeds u) (hs : s.Sound)
    (hframes : 0 < s.frames) (hset : settings.For s.frames s.bands) (room : Nat) :
    ∃ t journal, Session.runFrames engines settings frames farend room s =
      .ok { session := t, journal
            heard := (feeds.flatMap (·.delivered)).take
              (room / s.layout.channels * s.layout.channels), error := none } := by
  induction h generalizing room with
  | @nil farend s =>
    refine ⟨s, [], ?_⟩
    rw [List.flatMap_nil, List.take_nil]
    rfl
  | @cons near heard frames farend s t u prepared journal feeds hprepare hrun _ ih =>
    obtain ⟨-, hadvanced, hlength, -⟩ := runFrame_ran engines hs hset hframes hprepare hrun
    have hkin := (hadvanced.trans (advanced_countFrame settings t)).kin
    obtain ⟨t', journal', hrest⟩ := ih (hkin.sound hs) (hkin.frames ▸ hframes) (hkin.settings hset)
      (room - (heard.take (room / s.layout.channels * s.layout.channels)).length)
    rw [hkin.layout] at hrest
    rw [List.flatMap_cons, List.take_append, Session.runFrames]
    by_cases hzero : room = 0
    · rw [if_pos hzero, hzero]
      refine ⟨s, [], ?_⟩
      rw [Nat.zero_div, Nat.zero_mul, Nat.zero_sub, List.take_zero, List.take_zero]
      rfl
    rw [if_neg hzero, hprepare, ok_bind]
    dsimp only
    rw [hrun, ok_bind]
    dsimp only
    rw [hadvanced.kin.layout]
    by_cases hnone : heard.take (room / s.layout.channels * s.layout.channels) = []
    · -- A frame is not empty, so there is no room for a sample of every channel.
      have hshort : room / s.layout.channels * s.layout.channels = 0 := by
        rcases List.take_eq_nil_iff.mp hnone with hshort | hempty
        · exact hshort
        · exact absurd (hlength.symm.trans (congrArg List.length hempty)) (frameLength_pos hframes).ne'
      refine ⟨t, journal, ?_⟩
      rw [hshort, Nat.zero_sub, List.take_zero, List.take_zero]
      rfl
    · refine ⟨t', journal ++ journal', ?_⟩
      rw [if_neg (by simpa using hnone), hrest, hlength, List.length_take, hlength,
        frameLength, cut_room]
      rfl

/-- A call with room for its frames is the batch of them. -/
theorem process {nearend : List Int16}
    (h : Batch engines settings (blocks s.frameLength nearend) farend s feeds u) (hs : s.Sound)
    (hframes : 0 < s.frames) (hset : settings.For s.frames s.bands)
    (hnear : s.frameLength ≤ nearend.length)
    (out : List Int16) (hroom : nearend.length / s.frameLength * s.frameLength ≤ out.length) :
    s.process engines settings farend nearend out =
      .ok (u, feeds.flatMap (·.journal), feeds.flatMap (·.delivered) ++
          out.drop (nearend.length / s.frameLength * s.frameLength),
        .ok (nearend.length / s.frameLength * s.frameLength)) := by
  have hpos := frameLength_pos hframes
  have hlength := h.length_heard hs hframes hset
  rw [length_blocks hpos] at hlength
  rw [Session.process, if_neg (by omega), if_neg hpos.ne',
    h.runFrames hs hframes hset (by rwa [length_blocks hpos]), ok_bind, ← hlength,
    overlay_zero (by rwa [hlength])]
  rfl

/-- A call with any room writes the same as far as there is room. -/
theorem process_cut {nearend : List Int16}
    (h : Batch engines settings (blocks s.frameLength nearend) farend s feeds u) (hs : s.Sound)
    (hframes : 0 < s.frames) (hset : settings.For s.frames s.bands)
    (hnear : s.frameLength ≤ nearend.length)
    {out : List Int16} {n : Nat} (hn : n = min (out.length - out.length % s.layout.channels)
      (nearend.length / s.frameLength * s.frameLength)) :
    ∃ t journal, s.process engines settings farend nearend out =
      .ok (t, journal, (feeds.flatMap (·.delivered)).take n ++ out.drop n, .ok n) := by
  have hpos := frameLength_pos hframes
  have hlength := h.length_heard hs hframes hset
  rw [length_blocks hpos] at hlength
  have hroom : out.length / s.layout.channels * s.layout.channels =
      out.length - out.length % s.layout.channels := Nat.div_mul_self_eq_mod_sub_self
  have htake : (feeds.flatMap (·.delivered)).take
      (out.length / s.layout.channels * s.layout.channels) =
        (feeds.flatMap (·.delivered)).take n := by
    rw [hroom, hn, ← hlength, List.take_eq_take_min]
  have hcut : ((feeds.flatMap (·.delivered)).take n).length = n := by
    rw [List.length_take, hlength]
    omega
  obtain ⟨t, journal, hrun⟩ := h.runFrames_cut hs hframes hset out.length
  refine ⟨t, journal, ?_⟩
  rw [Session.process, if_neg (by omega), if_neg hpos.ne', hrun, ok_bind, htake,
    overlay_zero (hcut.trans_le (by omega)), hcut]
  rfl

end Batch

end

end Session

namespace Session

/-- Farend that is filled in up to a frame is heard as the farend there is. -/
theorem runFrame_fit [Sample S] (engines : Engines S F) {settings : FrameSettings} {s : Session F}
    {farend : Option (List Int16)} (hfar : ∀ far ∈ farend, s.layout.channels ∣ far.length)
    (near : List Int16) (prepared : List (Lane F × Buffers)) :
    s.runFrame engines settings (farend.map (fit s.frameLength 0)) near prepared =
      s.runFrame engines settings (farend.map (·.take s.frameLength)) near prepared := by
  cases farend with
  | none => rfl
  | some far =>
    rw [runFrame, runFrame, Option.map_some, Option.map_some, Option.getD_some, Option.getD_some,
      deinterleave_fit (hfar far rfl)]

end Session

namespace Context

/-- The calls that are given one frame each, with room for it: of the farend the samples that go with
the frame, and silence where there are none. -/
def frameCalls (n : Nat) (farend : Option (List Int16)) (nearend out : List Int16) :
    List Operation :=
  (List.range (nearend.length / n)).map fun i =>
    .process (farend.map fun far => fit n 0 (far.drop (i * n))) ((nearend.drop (i * n)).take n)
      ((out.drop (i * n)).take n)

theorem frameCalls_of_lt {n : Nat} (farend : Option (List Int16)) {nearend : List Int16}
    (h : nearend.length < n) (out : List Int16) : frameCalls n farend nearend out = [] := by
  rw [frameCalls, Nat.div_eq_of_lt h]
  rfl

theorem frameCalls_of_le {n : Nat} (hn : 0 < n) (farend : Option (List Int16))
    {nearend : List Int16} (h : n ≤ nearend.length) (out : List Int16) :
    frameCalls n farend nearend out =
      .process (farend.map (fit n 0)) (nearend.take n) (out.take n) ::
        frameCalls n (farend.map (·.drop n)) (nearend.drop n) (out.drop n) := by
  rw [frameCalls, frameCalls, List.length_drop, Nat.div_eq_sub_div hn h, List.range_succ_eq_map,
    List.map_cons, List.map_map]
  congr 1
  · simp
  · refine List.map_congr_left ?_
    intro i _
    have hnext : (i + 1) * n = n + i * n := by rw [Nat.succ_mul, Nat.add_comm]
    simp only [Function.comp_apply, Nat.succ_eq_add_one, hnext, ← List.drop_drop, Option.map_map]
    rfl

variable {c : Context S F} {s t u : Session F}

/-- What runs on a frame is the same after a frame. -/
theorem frameSettings_advanced (hs : c.session = some s) (h : s.Advanced t) (w : Workshop S F)
    (farend : Bool) :
    ({ c with session := some t, workshop := w } : Context S F).frameSettings t farend =
      c.frameSettings s farend := by
  have hstage (stage : Stage) :
      ({ c with session := some t, workshop := w } : Context S F).stageEnabled stage =
        c.stageEnabled stage := by
    rw [stageEnabled, stageEnabled, hs, Option.any_some, Option.any_some, h.kin.healthy]
  simp only [frameSettings, shouldRunEcho, hstage, h.kin.frames, h.kin.bands, h.kin.delay]

variable [Sample S] [Sample.Lawful S] {engines : Engines S F}

/-- A call that is given a frame, with room for it. -/
theorem process_single {n : Nat} {settings : FrameSettings} {farend : Option (List Int16)}
    {near heard out : List Int16} {prepared : List (Lane F × Buffers)} {journal : Journal S}
    (hs : c.session = some s) (hsound : s.Sound) (hframes : 0 < s.frames) (hn : s.frameLength = n)
    (hsettings : c.frameSettings s farend.isSome = settings)
    (hfar : ∀ far ∈ farend, s.layout.channels ∣ far.length) (hnear : near.length = n)
    (hout : out.length = n)
    (hprepare : (Session.prepareLanes settings s.lanes).run = .ok (.ok prepared))
    (hrun : s.runFrame engines settings (farend.map (·.take n)) near prepared =
      .ok (t, journal, heard)) :
    c.process engines (farend.map (fit n 0)) near out =
      .ok ({ c with session := some (t.countFrame settings), workshop := c.workshop.log journal },
        heard, .ok n) := by
  subst hn
  have hpos := Session.frameLength_pos hframes
  have hset : settings.For s.frames s.bands := hsettings ▸ c.frameSettings_for s _
  have hwhole : (farend.map (fit s.frameLength 0)).map (·.take near.length) =
      farend.map (fit s.frameLength 0) := by
    rw [Option.map_map]
    refine Option.map_congr ?_
    intro far _
    exact List.take_of_length_le (by rw [length_fit, hnear])
  have hbatch : s.Batch engines settings (blocks s.frameLength near)
      (farend.map (fit s.frameLength 0)) [⟨journal, heard⟩] (t.countFrame settings) := by
    rw [blocks_of_length_eq hpos hnear]
    refine .cons hprepare ?_ .nil
    rw [hwhole, Session.runFrame_fit engines hfar, hrun]
  have hprocess := hbatch.process hsound hframes hset hnear.ge out
    (by rw [hnear, Nat.div_self hpos, Nat.one_mul, hout])
  rw [hnear, Nat.div_self hpos, Nat.one_mul, List.drop_of_length_le hout.le] at hprocess
  rw [process, hs]
  dsimp only
  rw [Option.isSome_map, hsettings, hprocess]
  simp

/-- One call for each frame of a batch makes what the batch makes. -/
theorem run_batch {n : Nat} {settings : FrameSettings} {farend : Option (List Int16)}
    {nearend out : List Int16} {feeds : List (Feed S)} (hs : c.session = some s) (hsound : s.Sound)
    (hframes : 0 < s.frames) (hn : s.frameLength = n)
    (hsettings : c.frameSettings s farend.isSome = settings)
    (hfar : ∀ far ∈ farend, s.layout.channels ∣ far.length)
    (hroom : nearend.length / n * n ≤ out.length)
    (h : s.Batch engines settings (blocks n nearend) farend feeds u) :
    c.run engines (frameCalls n farend nearend out) =
      .ok ({ c with session := some u, workshop := c.workshop.log (feeds.flatMap (·.journal)) },
        (frameCalls n farend nearend out).zip
          (feeds.map fun feed => .samples feed.delivered (.ok n))) := by
  have hpos : 0 < n := hn ▸ Session.frameLength_pos hframes
  induction nearend using blocks_induction hpos generalizing c s farend out feeds with
  | short nearend hshort =>
    rw [blocks_of_length_lt hshort] at h
    cases h
    rw [frameCalls_of_lt farend hshort, ← hs]
    show Except.ok (c, []) = Except.ok ({ c with workshop := c.workshop.log [] }, [])
    rw [Workshop.log, List.append_nil]
  | long nearend hlong ih =>
    rw [blocks_of_le_length hpos hlong] at h
    cases h with
    | @cons _ heard _ _ _ t _ prepared journal rest hprepare hrun hrest =>
      have hset : settings.For s.frames s.bands := hsettings ▸ c.frameSettings_for s _
      have hnear : (nearend.take n).length = n := by rw [List.length_take, Nat.min_eq_left hlong]
      have hmore : nearend.length / n = (nearend.drop n).length / n + 1 := by
        rw [List.length_drop, Nat.div_eq_sub_div hpos hlong]
      rw [hmore, Nat.succ_mul] at hroom
      have hout : (out.take n).length = n := by
        rw [List.length_take]
        omega
      have hroom' : (nearend.drop n).length / n * n ≤ (out.drop n).length :=
        (Nat.le_sub_of_add_le hroom).trans_eq List.length_drop.symm
      rw [hnear] at hrun hrest
      obtain ⟨-, hran, -, -⟩ := Session.runFrame_ran engines hsound hset hframes hprepare hrun
      have hadvanced := hran.trans (Session.advanced_countFrame settings t)
      have hprocess := process_single hs hsound hframes hn hsettings hfar hnear hout hprepare hrun
      have hrun := ih (c := { c with
          session := some (t.countFrame settings), workshop := c.workshop.log journal })
        rfl (hadvanced.sound hsound) (hadvanced.kin.frames ▸ hframes)
        (hadvanced.kin.frameLength.trans hn)
        (by rw [Option.isSome_map, frameSettings_advanced hs hadvanced, hsettings]) ?_ hroom' hrest
      · rw [frameCalls_of_le hpos farend hlong, run_cons, apply, hprocess]
        show (Context.run engines _ _).map _ = _
        rw [hrun]
        simp [Workshop.log, Except.map]
      · intro far hdrop
        obtain ⟨whole, hwhole, rfl⟩ := Option.mem_map.mp hdrop
        rw [hadvanced.kin.layout, List.length_drop, ← hn]
        exact Nat.dvd_sub (hfar whole hwhole) (Nat.dvd_mul_left _ _)

/-- In a reachable state at a rate at which processing works, the native rates among them, a nearend of
at least a frame is a batch. -/
theorem Reachable.exists_batch (h : c.Reachable engines) (hs : c.session = some s)
    (hrate : Session.Processable s.rate) (farend : Option (List Int16)) (nearend : List Int16) :
    s.Sound ∧ 0 < s.frames ∧ ∃ feeds u, s.Batch engines (c.frameSettings s farend.isSome)
      (blocks s.frameLength nearend) farend feeds u := by
  have hsound := (h.sound engines s hs).sound
  have hw := hsound.works_iff.mpr hrate
  exact ⟨hsound, hw.frames_pos,
    Session.exists_batch hsound (c.frameSettings_for s _) hw.workable hw.dvd _ farend⟩

/-- In every reachable state one call with room for all whole frames makes the same as one call for
each frame: the context that is left, with the lanes, the counters and the journal of what was asked
of the engines, and the samples. Each of these calls is given its frame of the farend, filled in with
silence; the farend may be of any length. -/
theorem process_frame_by_frame (h : c.Reachable engines) (hs : c.session = some s)
    (hrate : Session.Processable s.rate) (farend : Option (List Int16))
    (hfar : ∀ far ∈ farend, s.layout.channels ∣ far.length) (nearend out : List Int16)
    (hnear : s.frameLength ≤ nearend.length)
    (hroom : nearend.length / s.frameLength * s.frameLength ≤ out.length) :
    ∃ (c' : Context S F) (heard : List (List Int16)),
      heard.length = nearend.length / s.frameLength ∧
      (∀ frame ∈ heard, frame.length = s.frameLength) ∧
      c.process engines farend nearend out =
        .ok (c', heard.flatten ++ out.drop (nearend.length / s.frameLength * s.frameLength),
          .ok (nearend.length / s.frameLength * s.frameLength)) ∧
      c.run engines (frameCalls s.frameLength farend nearend out) =
        .ok (c', (frameCalls s.frameLength farend nearend out).zip
          (heard.map fun frame => .samples frame (.ok s.frameLength))) := by
  obtain ⟨hsound, hframes, feeds, u, hbatch⟩ := h.exists_batch hs hrate farend nearend
  have hset := c.frameSettings_for s farend.isSome
  obtain ⟨hnumber, hlengths⟩ := hbatch.delivered hsound hframes hset
  rw [length_blocks (Session.frameLength_pos hframes)] at hnumber
  refine ⟨{ c with session := some u, workshop := c.workshop.log (feeds.flatMap (·.journal)) },
    feeds.map (·.delivered), ?_, ?_, ?_, ?_⟩
  · rw [List.length_map, hnumber]
  · intro frame hframe
    obtain ⟨feed, hfeed, rfl⟩ := List.mem_map.mp hframe
    exact hlengths feed hfeed
  · rw [process, hs]
    dsimp only
    rw [hbatch.process hsound hframes hset hnear out hroom, ← List.flatMap_def]
    rfl
  · rw [List.map_map]
    exact run_batch hs hsound hframes rfl rfl hfar hroom hbatch

set_option maxRecDepth 12000 in
/-- Two frames at 8000 Hz with farend for one and a quarter of them, and a few samples and some room
left over. -/
theorem process_frame_by_frame_bypass :
    ∃ (c c' : Context Int16 Bypass.family) (heard : List (List Int16)),
      c.Reachable (Bypass.engines Int16 48000) ∧ c.shouldRunEcho ∧ heard.length = 2 ∧
      c.process (Bypass.engines Int16 48000) (some (List.replicate 100 3)) (List.replicate 170 7)
        (List.replicate 165 1) = .ok (c', heard.flatten ++ List.replicate 5 1, .ok 160) ∧
      c.run (Bypass.engines Int16 48000) (frameCalls 80 (some (List.replicate 100 3))
        (List.replicate 170 7) (List.replicate 165 1)) =
          .ok (c', (frameCalls 80 (some (List.replicate 100 3)) (List.replicate 170 7)
            (List.replicate 165 1)).zip (heard.map fun frame => .samples frame (.ok 80))) := by
  obtain ⟨c, t, s, hrun, hecho, hs, hrate, hlayout, hlength⟩ :
      ∃ (c : Context Int16 Bypass.family) (t : Transcript) (s : Session Bypass.family),
        (new {} ()).run (Bypass.engines Int16 48000)
          [.init 1 8000 8000 0, .setFarendReady true, .setNearendReady true] = .ok (c, t) ∧
        c.shouldRunEcho = true ∧ c.session = some s ∧ s.rate = 8000 ∧ s.layout = .mono ∧
        s.frameLength = 80 :=
    ⟨_, _, _, rfl, rfl, rfl, rfl, rfl, rfl⟩
  have hreach : c.Reachable (Bypass.engines Int16 48000) := ⟨{}, (), _, t, hrun⟩
  obtain ⟨c', heard, hnumber, -, hprocess, hcalls⟩ := process_frame_by_frame hreach hs
    (.inl (by rw [hrate]; decide)) (some (List.replicate 100 3))
    (by rw [hlayout]; exact fun far _ => Nat.one_dvd _) (List.replicate 170 7)
    (List.replicate 165 1) (by rw [hlength]; decide) (by rw [hlength]; decide)
  rw [hlength] at hnumber hprocess hcalls
  exact ⟨c, c', heard, hreach, hecho, hnumber, hprocess, hcalls⟩

/-- In every reachable state the room there is cuts off what a call writes, and nothing else: of the
samples that it writes into a destination for all whole frames, it writes as many as there is room
for with samples of every channel, and leaves the rest of the destination alone. -/
theorem process_truncates (h : c.Reachable engines) (hs : c.session = some s)
    (hrate : Session.Processable s.rate) (farend : Option (List Int16)) (nearend : List Int16)
    (hnear : s.frameLength ≤ nearend.length) (out : List Int16) {n : Nat}
    (hn : n = min (out.length - out.length % s.layout.channels)
      (nearend.length / s.frameLength * s.frameLength)) :
    ∃ (c₁ c₂ : Context S F) (full : List Int16),
      full.length = nearend.length / s.frameLength * s.frameLength ∧
      (∀ roomy : List Int16, roomy.length = nearend.length / s.frameLength * s.frameLength →
        c.process engines farend nearend roomy = .ok (c₁, full, .ok full.length)) ∧
      c.process engines farend nearend out = .ok (c₂, full.take n ++ out.drop n, .ok n) := by
  obtain ⟨hsound, hframes, feeds, u, hbatch⟩ := h.exists_batch hs hrate farend nearend
  have hset := c.frameSettings_for s farend.isSome
  have hlength := hbatch.length_heard hsound hframes hset
  rw [length_blocks (Session.frameLength_pos hframes)] at hlength
  obtain ⟨t, journal, hcut⟩ := hbatch.process_cut hsound hframes hset hnear hn
  refine ⟨{ c with session := some u, workshop := c.workshop.log (feeds.flatMap (·.journal)) },
    { c with session := some t, workshop := c.workshop.log journal },
    feeds.flatMap (·.delivered), hlength, ?_, ?_⟩
  · intro roomy hroomy
    rw [process, hs]
    dsimp only
    rw [hbatch.process hsound hframes hset hnear roomy hroomy.ge, ← hroomy, List.drop_length,
      List.append_nil,
      hlength, hroomy]
    rfl
  · rw [process, hs]
    dsimp only
    rw [hcut]
    rfl

set_option maxRecDepth 12000 in
/-- Two stereo frames, and an odd room for a little more than one of them. -/
theorem process_truncates_bypass :
    ∃ (c c₁ c₂ : Context Int16 Bypass.family) (full : List Int16),
      c.Reachable (Bypass.engines Int16 48000) ∧ full.length = 320 ∧
      c.process (Bypass.engines Int16 48000) none (List.replicate 330 7) (List.replicate 320 1) =
        .ok (c₁, full, .ok full.length) ∧
      c.process (Bypass.engines Int16 48000) none (List.replicate 330 7) (List.replicate 167 1) =
        .ok (c₂, full.take 166 ++ [1], .ok 166) := by
  obtain ⟨c, t, s, hrun, hs, hrate, hlayout, hlength⟩ :
      ∃ (c : Context Int16 Bypass.family) (t : Transcript) (s : Session Bypass.family),
        (new {} ()).run (Bypass.engines Int16 48000) [.init 2 8000 8000 0] = .ok (c, t) ∧
        c.session = some s ∧ s.rate = 8000 ∧ s.layout = .stereo ∧ s.frameLength = 160 :=
    ⟨_, _, _, rfl, rfl, rfl, rfl, rfl⟩
  have hreach : c.Reachable (Bypass.engines Int16 48000) := ⟨{}, (), _, t, hrun⟩
  obtain ⟨c₁, c₂, full, hfull, hroomy, hcut⟩ := process_truncates hreach hs
    (.inl (by rw [hrate]; decide)) none (List.replicate 330 7)
    (by rw [hlength]; decide) (List.replicate 167 1) (n := 166)
    (by rw [hlength, hlayout]; decide)
  rw [hlength] at hfull hroomy
  exact ⟨c, c₁, c₂, full, hreach, hfull, hroomy _ (by decide), hcut⟩

end Context

end Duplex
