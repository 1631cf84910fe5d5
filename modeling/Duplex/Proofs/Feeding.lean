import Duplex.Engine.Bypass
import Duplex.Proofs.Rates
import Duplex.Proofs.Turns

/-!
# Feeding: the frames that the lanes ran on, and those that are counted

`Feeds` lists the frames that a call of `process` feeds to the lanes, with what the engines did and
what was delivered of each. A frame is counted when something of it is delivered. With two channels
the lanes also run on a frame for which there is room for one sample only, of which nothing is
delivered, and which is not counted (`Starves`); that happens exactly if the destination has an odd
length and the nearend has a whole frame left when it is full but for one sample
(`frames_counted_unless_starved`).
-/

namespace Duplex

open Signal Engine
open Pcm (Layout)

variable {S : Type} {F : Family}

/-- What became of one frame that the lanes ran on: what the engines were asked and answered, and
the samples that were delivered. -/
structure Feed (S : Type) where
  journal : Journal S
  delivered : List Int16

namespace Session

section

variable [Sample S] (engines : Engines S F)

/-- The frames that are fed to the lanes, from the frames there are and the room there is. -/
inductive Feeds (settings : FrameSettings) : List (List Int16) → Option (List Int16) →
    (room : Nat) → Session F → List (Feed S) → Session F → Prop
  | done {farend : Option (List Int16)} {room : Nat} {s : Session F} :
    Feeds settings [] farend room s [] s
  | full {near : List Int16} {frames : List (List Int16)} {farend : Option (List Int16)}
    {s : Session F} : Feeds settings (near :: frames) farend 0 s [] s
  /-- The lanes cannot have frames of this shape. -/
  | refused {near : List Int16} {frames : List (List Int16)} {farend : Option (List Int16)}
    {room : Nat} {s : Session F} {e : ConfigError} (hroom : 0 < room)
    (hprepare : (prepareLanes settings s.lanes).run = .ok (.error e)) :
    Feeds settings (near :: frames) farend room s [] s
  /-- The lanes run on a frame of which nothing can be delivered, and which is not counted. -/
  | starved {near : List Int16} {frames : List (List Int16)} {farend : Option (List Int16)}
    {room : Nat} {s u : Session F} {prepared : List (Lane F × Buffers)} {journal : Journal S}
    {heard : List Int16} (hroom : 0 < room)
    (hprepare : (prepareLanes settings s.lanes).run = .ok (.ok prepared))
    (hrun : s.runFrame engines settings (farend.map (·.take near.length)) near prepared =
      .ok (u, journal, heard))
    (hnone : heard.take (room / u.layout.channels * u.layout.channels) = []) :
    Feeds settings (near :: frames) farend room s [⟨journal, []⟩] u
  /-- The lanes run on a frame of which some samples are delivered, and which is counted. -/
  | fed {near delivered : List Int16} {frames : List (List Int16)} {farend : Option (List Int16)}
    {room : Nat} {s u t : Session F} {prepared : List (Lane F × Buffers)} {journal : Journal S}
    {heard : List Int16} {feeds : List (Feed S)} (hroom : 0 < room)
    (hprepare : (prepareLanes settings s.lanes).run = .ok (.ok prepared))
    (hrun : s.runFrame engines settings (farend.map (·.take near.length)) near prepared =
      .ok (u, journal, heard))
    (hdelivered : heard.take (room / u.layout.channels * u.layout.channels) = delivered)
    (hsome : delivered ≠ [])
    (hrest : Feeds settings frames (farend.map (·.drop near.length)) (room - delivered.length)
      (u.countFrame settings) feeds t) :
    Feeds settings (near :: frames) farend room s (⟨journal, delivered⟩ :: feeds) t

/-- A run over frames feeds them to the lanes, and hears what is delivered. -/
theorem runFrames_feeds {settings : FrameSettings} {frames : List (List Int16)}
    {farend : Option (List Int16)} {room : Nat} {s : Session F} {run : Run S F}
    (h : runFrames engines settings frames farend room s = .ok run) :
    ∃ feeds, Feeds engines settings frames farend room s feeds run.session ∧
      run.journal = feeds.flatMap (·.journal) ∧ run.heard = feeds.flatMap (·.delivered) := by
  induction frames generalizing s farend room run with
  | nil =>
    obtain rfl := Except.ok.inj h
    exact ⟨[], .done, rfl, rfl⟩
  | cons near frames ih =>
    rw [runFrames] at h
    by_cases hzero : room = 0
    · rw [if_pos hzero] at h
      obtain rfl := Except.ok.inj h
      subst hzero
      exact ⟨[], .full, rfl, rfl⟩
    rw [if_neg hzero] at h
    have hroom : 0 < room := Nat.pos_of_ne_zero hzero
    obtain ⟨prepared, hprepare, h⟩ := bind_eq_ok.mp h
    cases prepared with
    | error e =>
      obtain rfl := Except.ok.inj h
      exact ⟨[], .refused hroom hprepare, rfl, rfl⟩
    | ok prepared =>
      obtain ⟨⟨u, journal, heard⟩, hrun, h⟩ := bind_eq_ok.mp h
      dsimp only at h
      generalize hdelivered :
        heard.take (room / u.layout.channels * u.layout.channels) = delivered at h
      by_cases hnone : delivered = []
      · rw [if_pos (by rw [hnone]; rfl)] at h
        obtain rfl := Except.ok.inj h
        refine ⟨[⟨journal, []⟩], .starved hroom hprepare hrun (hdelivered.trans hnone), ?_, rfl⟩
        show journal = [⟨journal, []⟩].flatMap Feed.journal
        rw [List.flatMap_singleton]
      · rw [if_neg (by simpa using hnone)] at h
        obtain ⟨rest, hrest, h⟩ := bind_eq_ok.mp h
        obtain rfl := Except.ok.inj h
        obtain ⟨feeds, hfeeds, hjournal, hheard⟩ := ih hrest
        refine ⟨⟨journal, delivered⟩ :: feeds, .fed hroom hprepare hrun hdelivered hnone hfeeds,
          ?_, ?_⟩
        · rw [List.flatMap_cons, ← hjournal]
        · rw [List.flatMap_cons, ← hheard]

/-- Processing feeds the whole frames of the nearend, and writes what is delivered. -/
theorem process_feeds {settings : FrameSettings} {farend : Option (List Int16)}
    {nearend out : List Int16} {s t : Session F} {journal : Journal S} {out' : List Int16}
    {result : Except Error Nat}
    (h : s.process engines settings farend nearend out = .ok (t, journal, out', result)) :
    ∃ feeds, Feeds engines settings (blocks s.frameLength nearend) farend out.length s feeds t ∧
      journal = feeds.flatMap (·.journal) ∧ out' = overlay out 0 (feeds.flatMap (·.delivered)) ∧
      ∀ n, result = .ok n → n = (feeds.flatMap (·.delivered)).length := by
  unfold process at h
  by_cases hshort : nearend.length < s.frameLength
  · rw [if_pos hshort] at h
    obtain ⟨rfl, rfl, rfl, rfl⟩ : s = t ∧ [] = journal ∧ out = out' ∧ _ = result := by
      simpa only [Except.ok.injEq, Prod.mk.injEq] using h
    rw [blocks_of_length_lt hshort]
    refine ⟨[], .done, rfl, (overlay_nil out 0).symm, ?_⟩
    intro n hn
    exact absurd hn (by simp)
  rw [if_neg hshort] at h
  by_cases hzero : s.frameLength = 0
  · rw [if_pos hzero] at h
    exact absurd h (by simp)
  rw [if_neg hzero] at h
  obtain ⟨run, hrun, h⟩ := bind_eq_ok.mp h
  obtain ⟨feeds, hfeeds, hjournal, hheard⟩ := runFrames_feeds engines hrun
  obtain ⟨rfl, rfl, rfl, rfl⟩ : run.session = t ∧ run.journal = journal ∧
      overlay out 0 run.heard = out' ∧ _ = result := by
    simpa only [pure, Except.pure, Except.ok.injEq, Prod.mk.injEq] using h
  refine ⟨feeds, hfeeds, hjournal, by rw [hheard], ?_⟩
  intro n hn
  cases herror : run.error with
  | none =>
    rw [herror] at hn
    rw [← hheard]
    exact (Except.ok.inj hn).symm
  | some e =>
    rw [herror] at hn
    exact absurd hn (by simp)

/-! ### Counting -/

variable [Sample.Lawful S] {settings : FrameSettings} {s t u : Session F}

/-- The whole frames of a shape that the lanes ran on: frames and filters have it. -/
theorem runFrame_ran {prepared : List (Lane F × Buffers)} {farend : Option (List Int16)}
    {near heard : List Int16} {journal : Journal S} (hs : s.Sound)
    (hset : settings.For s.frames s.bands) (hpos : 0 < s.frames)
    (hprepare : (prepareLanes settings s.lanes).run = .ok (.ok prepared))
    (hrun : s.runFrame engines settings farend near prepared = .ok (u, journal, heard)) :
    Processable s.rate ∧ s.Advanced u ∧ heard.length = s.frameLength ∧
      s.stats.FailuresOnly u.stats := by
  obtain ⟨hd, hlanes, hshaped⟩ := prepareLanes_cases hs hset hprepare
  obtain ⟨⟨lanes, outs, c⟩, hr, hu⟩ := bind_eq_ok.mp hrun
  obtain ⟨rfl, -⟩ := Prod.mk.inj (Except.ok.inj hu)
  obtain ⟨hw, -, -, hstats⟩ := runLanes_cases engines hs hset hprepare (length_deinterleave _ _)
    (length_deinterleave _ _) hr
  obtain ⟨hadvanced, hlength⟩ :=
    (runFrame_returns engines hs hset hw farend near hlanes hshaped).elim hrun
  exact ⟨hs.works_iff.mp ⟨hpos, hw, hd⟩, hadvanced, hlength, hstats⟩

/-- Every frame of these was delivered and counted, with the echo if that was cancelled. -/
structure Counts (settings : FrameSettings) (s : Session F) (feeds : List (Feed S))
    (t : Session F) : Prop where
  delivered : ∀ feed ∈ feeds, feed.delivered ≠ []
  frames : t.stats.frames = s.stats.frames + feeds.length
  echoFrames : t.stats.echoFrames = s.stats.echoFrames + if settings.echo then feeds.length else 0

/-- With so many frames for a room, one is left for a room of a single sample. -/
def Starves (s : Session F) (frames room : Nat) : Prop :=
  Processable s.rate ∧ s.layout = .stereo ∧ room % 2 = 1 ∧ 1 ≤ frames ∧
    room - 1 ≤ s.frameLength * (frames - 1)

omit [Sample S] [Sample.Lawful S] in
/-- Where no frame was counted, there was none to count. -/
theorem counts_nil (hstats : s.stats.FailuresOnly t.stats) :
    Counts settings s ([] : List (Feed S)) t := by
  obtain ⟨failures, ht⟩ := hstats
  refine ⟨by simp, ?_, ?_⟩
  · rw [ht]
    rfl
  · rw [ht]
    simp

omit [Sample S] [Sample.Lawful S] in
theorem Counts.cons {journal : Journal S} {delivered : List Int16} {feeds : List (Feed S)}
    (hstats : s.stats.FailuresOnly u.stats) (hsome : delivered ≠ [])
    (h : Counts settings (u.countFrame settings) feeds t) :
    Counts settings s (⟨journal, delivered⟩ :: feeds) t := by
  obtain ⟨failures, hu⟩ := hstats
  have hframes : (u.countFrame settings).stats.frames = s.stats.frames + 1 := by
    show u.stats.frames + 1 = _
    rw [hu]
  have hecho : (u.countFrame settings).stats.echoFrames =
      s.stats.echoFrames + if settings.echo then 1 else 0 := by
    show u.stats.echoFrames + _ = _
    rw [hu]
  refine ⟨?_, ?_, ?_⟩
  · intro feed hfeed
    rcases List.mem_cons.mp hfeed with rfl | hfeed
    · exact hsome
    · exact h.delivered feed hfeed
  · rw [h.frames, hframes, List.length_cons]
    omega
  · rw [h.echoFrames, hecho, List.length_cons]
    split_ifs <;> omega

/-- Something of a frame is delivered exactly if there is room for a sample of every channel. -/
theorem delivers_iff (hpos : 0 < s.frames) {heard : List Int16} (hlength : heard.length = s.frameLength)
    {room : Nat} :
    heard.take (room / s.layout.channels * s.layout.channels) ≠ [] ↔ s.layout.channels ≤ room := by
  have hchannels := Layout.channels_pos s.layout
  have hheard : heard ≠ [] := List.ne_nil_of_length_pos (hlength ▸ frameLength_pos hpos)
  rw [ne_eq, List.take_eq_nil_iff, or_iff_left hheard, Nat.mul_eq_zero,
    or_iff_left hchannels.ne', Nat.div_eq_zero_iff_lt hchannels, Nat.not_lt]

/-- A frame for which there is room, but not for a sample of every channel. -/
theorem starves_of_short (hrate : Processable s.rate) {frames room : Nat} (hframes : 1 ≤ frames)
    (hroom : 0 < room) (hshort : room < s.layout.channels) : s.Starves frames room := by
  cases hlayout : s.layout with
  | mono =>
    rw [hlayout, Layout.channels] at hshort
    omega
  | stereo =>
    rw [hlayout, Layout.channels] at hshort
    obtain rfl : room = 1 := by omega
    exact ⟨hrate, hlayout, rfl, hframes, Nat.zero_le _⟩

/-- A frame more, and the room that it takes. -/
theorem starves_succ (hlayout : u.layout = s.layout) (hrate : u.rate = s.rate)
    (hframes : u.frames = s.frames) {frames room : Nat}
    (hroom : s.layout.channels ≤ room) :
    u.Starves frames
        (room - min (room / s.layout.channels * s.layout.channels) s.frameLength) ↔
      s.Starves (frames + 1) room := by
  unfold Starves
  rw [hrate, hlayout]
  refine and_congr_right ?_
  intro _
  refine and_congr_right ?_
  intro hstereo
  have hlength : u.frameLength = s.frames * 2 := by
    rw [frameLength, hlayout, hframes, hstereo]
    rfl
  have hlength' : s.frameLength = s.frames * 2 := by
    rw [frameLength, hstereo]
    rfl
  rw [hstereo] at hroom ⊢
  rw [hlength, hlength']
  simp only [Layout.channels] at hroom ⊢
  cases frames with
  | zero =>
    rw [Nat.zero_add, Nat.sub_self, Nat.mul_zero]
    omega
  | succ frames =>
    rw [Nat.add_sub_cancel, Nat.add_sub_cancel, Nat.mul_succ (s.frames * 2) frames]
    generalize s.frames * 2 * frames = rest
    omega

/-- Every frame that was fed is counted, but for a last one if one is left for a single sample. -/
theorem Feeds.counted {frames : List (List Int16)} {farend : Option (List Int16)} {room : Nat}
    {feeds : List (Feed S)} (h : Feeds engines settings frames farend room s feeds t) (hs : s.Sound)
    (hset : settings.For s.frames s.bands) (hpos : 0 < s.frames) :
    ¬ s.Starves frames.length room ∧ Counts settings s feeds t ∨
      s.Starves frames.length room ∧
        ∃ fed journal, feeds = fed ++ [⟨journal, []⟩] ∧ Counts settings s fed t := by
  -- The induction is on the frames that were fed; each takes its room from the frames after it, and
  -- what is left for those starves one of them exactly if the whole room starves one of all.
  induction h with
  | done =>
    refine .inl ⟨?_, counts_nil (.refl _)⟩
    rintro ⟨-, -, -, hnone, -⟩
    exact absurd hnone (by simp)
  | full =>
    refine .inl ⟨?_, counts_nil (.refl _)⟩
    rintro ⟨-, -, hodd, -, -⟩
    exact absurd hodd (by simp)
  | @refused near frames farend room s e hroom hprepare =>
    refine .inl ⟨?_, counts_nil (.refl _)⟩
    rintro ⟨hrate, -⟩
    obtain ⟨prepared, hprepared, -⟩ := prepareLanes_returns hset hs.bands_range
      (hs.works_iff.mpr hrate).dvd hs.frames_lt s.lanes hs.fits
    rw [hprepared] at hprepare
    exact absurd hprepare (by simp)
  | @starved near frames farend room s u prepared journal heard hroom hprepare hrun hnone =>
    obtain ⟨hrate, hadvanced, hlength, hstats⟩ := runFrame_ran engines hs hset hpos hprepare hrun
    rw [hadvanced.kin.layout] at hnone
    have hshort : room < s.layout.channels := by
      by_contra henough
      exact (delivers_iff hpos hlength).mpr (Nat.le_of_not_lt henough) hnone
    exact .inr ⟨starves_of_short hrate (by simp) hroom hshort, [], journal, rfl, counts_nil hstats⟩
  | @fed near delivered frames farend room s u t prepared journal heard feeds hroom hprepare hrun
      hdelivered hsome hrest ih =>
    obtain ⟨-, hadvanced, hlength, hstats⟩ := runFrame_ran engines hs hset hpos hprepare hrun
    have hkin := (hadvanced.trans (advanced_countFrame settings u)).kin
    rw [hadvanced.kin.layout] at hdelivered
    have hchannels : s.layout.channels ≤ room := (delivers_iff hpos hlength).mp (hdelivered ▸ hsome)
    have hsucc : (u.countFrame settings).Starves frames.length (room - delivered.length) ↔
        s.Starves (frames.length + 1) room := by
      rw [← hdelivered, List.length_take, hlength]
      exact starves_succ hkin.layout hkin.rate hkin.frames hchannels
    rw [List.length_cons, ← hsucc]
    rcases ih (hkin.sound hs) (hkin.settings hset) (hkin.frames.symm ▸ hpos) with
      ⟨hnot, h⟩ | ⟨hstarves, fed, last, rfl, h⟩
    · exact .inl ⟨hnot, h.cons hstats hsome⟩
    · exact .inr ⟨hstarves, ⟨journal, delivered⟩ :: fed, last, rfl, h.cons hstats hsome⟩

end

end Session

namespace Context

variable [Sample S] [Sample.Lawful S] {engines : Engines S F} {c c' : Context S F} {s : Session F}

/-- In every reachable state a call of `process` counts the frames that it feeds to the lanes, and
delivers something of each, unless one is left for a single sample of a stereo destination: then the
last frame that was fed is neither delivered nor counted. -/
theorem frames_counted_unless_starved (h : c.Reachable engines) (hs : c.session = some s)
    {farend : Option (List Int16)} {nearend out out' : List Int16} {result : Except Error Nat}
    (hprocess : c.process engines farend nearend out = .ok (c', out', result)) :
    ∃ (feeds : List (Feed S)) (t : Session F), c'.session = some t ∧
      c'.workshop.journal = c.workshop.journal ++ feeds.flatMap (·.journal) ∧
      s.Feeds engines (c.frameSettings s farend.isSome) (Signal.blocks s.frameLength nearend) farend
        out.length feeds t ∧
      out' = Signal.overlay out 0 (feeds.flatMap (·.delivered)) ∧
      (∀ n, result = .ok n → n = (feeds.flatMap (·.delivered)).length) ∧
      (Session.Counts (c.frameSettings s farend.isSome) s feeds t ↔
        ¬ s.Starves (nearend.length / s.frameLength) out.length) ∧
      (s.Starves (nearend.length / s.frameLength) out.length →
        ∃ fed journal, feeds = fed ++ [⟨journal, []⟩] ∧
          Session.Counts (c.frameSettings s farend.isSome) s fed t) := by
  have hsound := (h.sound engines s hs).sound
  obtain ⟨hnone, -⟩ | ⟨s', t, journal, hs', ht, hc'⟩ := process_cases engines hprocess
  · rw [hs] at hnone
    exact absurd hnone (by simp)
  obtain rfl : s = s' := Option.some.inj (hs.symm.trans hs')
  have hpos := Session.frames_pos_of_process ht
  obtain ⟨feeds, hfeeds, hjournal, hout, hresult⟩ := Session.process_feeds engines ht
  have hcounted := hfeeds.counted engines hsound (c.frameSettings_for s farend.isSome) hpos
  rw [Signal.length_blocks (Session.frameLength_pos hpos)] at hcounted
  obtain rfl : c' = { c with session := some t, workshop := c.workshop.log journal } := hc'
  refine ⟨feeds, t, rfl, congrArg (c.workshop.journal ++ ·) hjournal, hfeeds, hout, hresult, ?_, ?_⟩
  · rcases hcounted with ⟨hnot, hcounts⟩ | ⟨hstarves, fed, last, rfl, -⟩
    · exact iff_of_true hcounts hnot
    · refine iff_of_false ?_ (not_not_intro hstarves)
      intro hcounts
      exact hcounts.delivered _ (List.mem_append_right fed List.mem_cons_self) rfl
  · intro hstarves
    rcases hcounted with ⟨hnot, -⟩ | ⟨-, hfed⟩
    · exact absurd hstarves hnot
    · exact hfed

set_option maxRecDepth 12000 in
/-- A stereo frame and room for two frames of samples of it: it is fed, delivered and counted. -/
theorem frames_counted_unless_starved_bypass :
    ∃ (c c' : Context Int16 Bypass.family) (s t : Session Bypass.family)
      (feeds : List (Feed Int16)),
      c.Reachable (Bypass.engines Int16 48000) ∧ c.session = some s ∧
      c.process (Bypass.engines Int16 48000) none (List.replicate 160 7) [0, 0, 0, 0, 0] =
        .ok (c', [7, 7, 7, 7, 0], .ok 4) ∧
      c'.session = some t ∧ ¬ s.Starves 1 5 ∧ Session.Counts (c.frameSettings s false) s feeds t := by
  obtain ⟨c, c', t, s, u, hrun, hs, hprocess, hu, hone⟩ :
      ∃ (c c' : Context Int16 Bypass.family) (t : Transcript) (s u : Session Bypass.family),
        (new {} ()).run (Bypass.engines Int16 48000) [.init 2 8000 8000 0] = .ok (c, t) ∧
          c.session = some s ∧
          c.process (Bypass.engines Int16 48000) none (List.replicate 160 7) [0, 0, 0, 0, 0] =
            .ok (c', [7, 7, 7, 7, 0], .ok 4) ∧
          c'.session = some u ∧ (List.replicate 160 (7 : Int16)).length / s.frameLength = 1 :=
    ⟨_, _, _, _, _, rfl, rfl, rfl, rfl, rfl⟩
  have hreach : c.Reachable (Bypass.engines Int16 48000) := ⟨{}, (), _, t, hrun⟩
  obtain ⟨feeds, t, ht, -, -, -, -, hiff, -⟩ := frames_counted_unless_starved hreach hs hprocess
  rw [hone] at hiff
  have hnot : ¬ s.Starves 1 5 := by
    rintro ⟨-, -, -, -, hroom⟩
    exact absurd hroom (by simp)
  exact ⟨c, c', s, t, feeds, hreach, hs, hprocess, ht, hnot, hiff.mpr hnot⟩

set_option maxRecDepth 12000 in
/-- A stereo frame and room for one sample: the engines of both channels are called on the frame,
and nothing of it is delivered or counted. -/
theorem stereo_frame_discarded :
    ∃ (c c' : Context Int16 Bypass.family) (s t : Session Bypass.family) (feed : Feed Int16),
      c.Reachable (Bypass.engines Int16 48000) ∧ c.session = some s ∧
      c.process (Bypass.engines Int16 48000) none (List.replicate 160 7) [0] = .ok (c', [0], .ok 0) ∧
      c'.session = some t ∧
      s.Feeds (Bypass.engines Int16 48000) (c.frameSettings s false)
        (Signal.blocks s.frameLength (List.replicate 160 7)) none 1 [feed] t ∧
      feed.journal.calls.length = 8 ∧ feed.delivered = [] ∧ t.stats.frames = s.stats.frames := by
  obtain ⟨c, c', t, s, u, hrun, hs, hprocess, hu, hframes, hone, hroom, hcalls⟩ :
      ∃ (c c' : Context Int16 Bypass.family) (t : Transcript) (s u : Session Bypass.family),
        (new {} ()).run (Bypass.engines Int16 48000) [.init 2 8000 8000 0] = .ok (c, t) ∧
          c.session = some s ∧
          c.process (Bypass.engines Int16 48000) none (List.replicate 160 7) [0] =
            .ok (c', [0], .ok 0) ∧
          c'.session = some u ∧ u.stats.frames = s.stats.frames ∧
          (s.rate, s.layout) = (8000, .stereo) ∧
          (Signal.blocks s.frameLength (List.replicate 160 (7 : Int16))).length = 1 ∧
          (Journal.calls (c'.workshop.journal.drop c.workshop.journal.length)).length = 8 :=
    ⟨_, _, _, _, _, rfl, rfl, rfl, rfl, rfl, rfl, rfl, rfl⟩
  have hreach : c.Reachable (Bypass.engines Int16 48000) := ⟨{}, (), _, t, hrun⟩
  obtain ⟨hrate, hlayout⟩ := Prod.mk.inj hone
  obtain ⟨hnone, -⟩ | ⟨s', u', journal, hs', ht, hc'⟩ := process_cases _ hprocess
  · rw [hs] at hnone
    exact absurd hnone (by simp)
  obtain rfl : s = s' := Option.some.inj (hs.symm.trans hs')
  obtain ⟨feeds, hfeeds, hjournal, -, -⟩ := Session.process_feeds _ ht
  have hstarves : s.Starves 1 1 := by
    refine ⟨?_, hlayout, rfl, le_rfl, Nat.zero_le _⟩
    rw [hrate]
    exact .inl (by decide)
  rcases hfeeds.counted _ (hreach.sound _ s hs).sound (c.frameSettings_for s false)
      (Session.frames_pos_of_process ht) with
    ⟨hnot, -⟩ | ⟨-, fed, last, rfl, hcounts⟩
  · rw [hroom] at hnot
    exact absurd hstarves hnot
  obtain rfl : c' = { c with session := some u', workshop := c.workshop.log journal } := hc'
  obtain rfl : u' = u := Option.some.inj hu
  obtain rfl : fed = [] := by
    have hsum := hcounts.frames
    rw [hframes] at hsum
    exact List.length_eq_zero_iff.mp (by omega)
  have hlast : journal = last := by
    rw [hjournal]
    exact List.append_nil last
  have hdrop : (c.workshop.log journal).journal.drop c.workshop.journal.length = journal :=
    List.drop_left
  rw [hdrop, hlast] at hcalls
  exact ⟨c, _, s, u', ⟨last, []⟩, hreach, hs, hprocess, rfl, hfeeds, hcalls, rfl, hframes⟩

end Context

end Duplex
