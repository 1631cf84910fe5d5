import Duplex.Engine.Bypass
import Duplex.Proofs.Spectral
import Duplex.Proofs.Wiring

/-!
# Backlog: what is left for the next call

Buffered processing stops as soon as its destination can be filled, so that less is left pending
than one frame can give (`Session.Backlog`). Without an output adapter that is less than the bytes of
a frame, and nothing if all destinations are whole frames.
-/

namespace Duplex

open Signal Engine

variable {S : Type} {F : Family}

namespace Session

/-- The session with another way back. -/
def bridged (s : Session F) (outputAdapter : Option (RateAdapter F.resampling)) : Session F :=
  { s with outputAdapter }

/-- The states of the way back from processing to the nearend: it is made, whole frames are sent back
and it is reset. -/
inductive Ways (s : Session F) : Option (RateAdapter F.resampling) → Prop
  | made {way : Option (RateAdapter F.resampling)}
    (h : (adapterBetween s.rate s.nearend.format.rate s.layout.channels).run = .ok (.ok way)) :
    Ways s way
  | frame {way : Option (RateAdapter F.resampling)} {frame : List Int16} (h : Ways s way)
    (hlen : frame.length = s.frameLength) :
    Ways s ((s.bridged way).convertOutput frame).1.outputAdapter
  | reset {way : Option (RateAdapter F.resampling)} (h : Ways s way) : Ways s (way.map (·.reset))

/-- The bytes that one frame of samples can give on the way back. -/
def Gives (s : Session F) (bytes : List UInt8) : Prop :=
  ∃ way frame, s.Ways way ∧ frame.length = s.frameLength ∧
    bytes = ((s.bridged way).convertOutput frame).2.1

/-- Less is pending than one frame can give. -/
def Backlog (s : Session F) : Prop := ∃ bytes, s.Gives bytes ∧ s.pending.length < bytes.length

section Gives

variable {s t : Session F} {bytes : List UInt8} {way : Option (RateAdapter F.resampling)}

/-- The rates, the layout and the length of frames are those of another session. -/
structure SameWay (s t : Session F) : Prop where
  rate : t.rate = s.rate
  stream : t.nearend.format.rate = s.nearend.format.rate
  layout : t.layout = s.layout
  frames : t.frames = s.frames

theorem Kin.sameWay (h : s.Kin t) : s.SameWay t :=
  ⟨h.rate, congrArg StreamFormat.rate h.stream, h.layout, h.frames⟩

theorem SameWay.frameLength (h : s.SameWay t) : t.frameLength = s.frameLength := by
  unfold Session.frameLength
  rw [h.frames, h.layout]

/-- The states of the way back are a matter of these. -/
theorem Ways.congr (h : s.Ways way) (hsame : s.SameWay t) : t.Ways way := by
  induction h with
  | made h => exact .made (by rw [hsame.rate, hsame.stream, hsame.layout, h])
  | @frame way frame _ hlen ih =>
    have hnext := (convertOutput_congr (s := s.bridged way) (t := t.bridged way) rfl frame).2
    rw [← hnext]
    exact .frame ih (hlen.trans hsame.frameLength.symm)
  | reset _ ih => exact .reset ih

/-- Some way back was made. -/
theorem Ways.exists_made (h : s.Ways way) :
    ∃ made : Option (RateAdapter F.resampling),
      (adapterBetween s.rate s.nearend.format.rate s.layout.channels).run = .ok (.ok made) := by
  induction h with
  | made h => exact ⟨_, h⟩
  | frame _ _ ih => exact ih
  | reset _ ih => exact ih

/-- What a frame can give is a matter of these too. -/
theorem Gives.congr (h : s.Gives bytes) (hsame : s.SameWay t) : t.Gives bytes := by
  obtain ⟨way, frame, hway, hframe, rfl⟩ := h
  refine ⟨way, frame, hway.congr hsame, hframe.trans hsame.frameLength.symm, ?_⟩
  rw [(convertOutput_congr (s := s.bridged way) (t := t.bridged way) rfl frame).1]

theorem Backlog.congr (h : s.Backlog) (hsame : s.SameWay t)
    (hpending : t.pending.length ≤ s.pending.length) : t.Backlog := by
  obtain ⟨bytes, hgives, hlt⟩ := h
  exact ⟨bytes, hgives.congr hsame, Nat.lt_of_le_of_lt hpending hlt⟩

/-- Without an output adapter a frame can give its bytes. -/
theorem gives_of_none (hway : s.Way) (hout : s.outputAdapter = none) :
    ∃ bytes, s.Gives bytes ∧ bytes.length = s.frameBytes := by
  have hnone : s.Ways none := .made (by
    rw [adapterBetween, if_pos (hway.none_iff.mp hout)]
    rfl)
  refine ⟨_, ⟨none, List.replicate s.frameLength 0, hnone, List.length_replicate, rfl⟩, ?_⟩
  simp only [convertOutput, bridged, Pcm.length_encode, List.length_replicate]
  rw [frameBytes, Nat.mul_comm]

variable (hR : F.resampling.Unfailing) (hF : F.resampling.Fixed)

include hR hF

/-- On a way back that was made, frames go at its pace. -/
theorem exists_ways_fed {p : Pace} {kept : F.resampling.State → Nat}
    (hmade : (adapterBetween s.rate s.nearend.format.rate s.layout.channels).run = .ok (.ok way))
    (hfed : AdapterFed p kept s.rate s.nearend.format.rate s.layout.channels way 0) (j : Nat) :
    ∃ way, s.Ways way ∧
      AdapterFed p kept s.rate s.nearend.format.rate s.layout.channels way (j * s.frames) := by
  induction j with
  | zero => exact ⟨way, .made hmade, by rwa [Nat.zero_mul]⟩
  | succ j ih =>
    obtain ⟨way, hway, hfed⟩ := ih
    have hlen : (List.replicate s.frameLength (0 : Int16)).length = s.frames * s.layout.channels :=
      List.length_replicate
    refine ⟨_, hway.frame hlen, ?_⟩
    rw [Nat.succ_mul]
    exact (convertOutput_fed (s := s.bridged way) hR hF hfed hlen).1

/-- Whatever the way back, a frame can give something. -/
theorem Ways.exists_gives (hP : F.resampling.Proportional) (h : s.Ways way)
    (hpos : 0 < s.frames) : ∃ bytes, s.Gives bytes ∧ 0 < bytes.length := by
  have hstream : 0 < s.nearend.format.rate :=
    Nat.lt_of_lt_of_le (by decide) s.nearend.format.minSampleRate_le
  obtain ⟨made, hmade⟩ := h.exists_made
  obtain ⟨p, kept, hfed⟩ := AdapterFed.of_adapterBetween hP hmade
  obtain ⟨j, hj⟩ := hfed.exists_yield_lt hstream hpos
  obtain ⟨way, hway, hnext⟩ := exists_ways_fed hR hF hmade hfed j
  have hlen : (List.replicate s.frameLength (0 : Int16)).length = s.frames * s.layout.channels :=
    List.length_replicate
  obtain ⟨-, hout⟩ := convertOutput_fed (s := s.bridged way) hR hF hnext hlen
  refine ⟨_, ⟨way, _, hway, hlen, rfl⟩, ?_⟩
  -- What is due after the frame is more than what was due before it.
  have hless := Nat.mul_lt_mul_of_pos_right hj (Nat.mul_pos s.layout.channels_pos Nat.two_pos)
  rw [Nat.succ_mul] at hless
  exact Nat.pos_of_lt_add_right (hout ▸ hless)

end Gives

variable [Sample S] {engines : Engines S F} {settings : FrameSettings} {missing : Nat}
  {s t : Session F} {bytes : List UInt8} {outs : List (List UInt8)}

/-- A step sends a frame back. -/
theorem FrameStep.ways (hs : s.Ways s.outputAdapter) (h : s.FrameStep engines settings bytes t) :
    s.Gives bytes ∧ t.Ways t.outputAdapter := by
  obtain ⟨out, hlen, rfl, -, hout⟩ := h.converts
  refine ⟨⟨s.outputAdapter, out, hs, hlen, rfl⟩, ?_⟩
  rw [hout]
  exact (hs.frame hlen).congr h.kin.sameWay

/-- Every step gives what a frame can give. -/
theorem Drains.gives (hs : s.Ways s.outputAdapter) (h : Drains engines settings missing s outs t) :
    (∀ bytes ∈ outs, s.Gives bytes) ∧ t.Ways t.outputAdapter := by
  induction h with
  | done stop => exact ⟨by simp, hs⟩
  | @frame missing s t u bytes outs wanted step rest ih =>
    obtain ⟨hgives, hnext⟩ := step.ways hs
    obtain ⟨hrest, hlast⟩ := ih hnext
    refine ⟨List.forall_mem_cons.mpr ⟨hgives, fun later hlater => ?_⟩, hlast⟩
    have hback := step.kin.sameWay
    exact (hrest later hlater).congr ⟨hback.rate.symm, hback.stream.symm, hback.layout.symm,
      hback.frames.symm⟩

/-- If there is more than was missing, the last frame gave it. -/
theorem Drains.leftover (h : Drains engines settings missing s outs t)
    (hmore : missing < outs.flatten.length) :
    0 < missing ∧ ∃ bytes ∈ outs, outs.flatten.length < missing + bytes.length := by
  induction h with
  | done stop => exact absurd hmore (Nat.not_lt_zero _)
  | @frame missing s t u bytes outs wanted step rest ih =>
    rw [List.flatten_cons, List.length_append] at hmore ⊢
    refine ⟨wanted, ?_⟩
    by_cases hrest : missing - bytes.length < outs.flatten.length
    · obtain ⟨hstill, last, hlast, hlt⟩ := ih hrest
      exact ⟨last, List.mem_cons_of_mem bytes hlast, by omega⟩
    · exact ⟨bytes, List.mem_cons_self, by omega⟩

/-- After a call nothing is pending, or no more than before it, or less than one of its frames gave. -/
theorem Drains.left {dest : List UInt8} {n : Nat}
    (h : Drains engines settings (dest.length - s.pending.length) s outs t)
    (hn : n = min dest.length (s.pending ++ outs.flatten).length) :
    (s.pending ++ outs.flatten).drop n = [] ∨
      ((s.pending ++ outs.flatten).drop n).length ≤ s.pending.length ∨
        ∃ bytes ∈ outs, ((s.pending ++ outs.flatten).drop n).length < bytes.length := by
  rw [List.length_append] at hn
  have hlen : ((s.pending ++ outs.flatten).drop n).length =
      s.pending.length + outs.flatten.length - n := by
    rw [List.length_drop, List.length_append]
  by_cases hmore : dest.length - s.pending.length < outs.flatten.length
  · obtain ⟨hmissing, bytes, hbytes, hlt⟩ := h.leftover hmore
    exact .inr (.inr ⟨bytes, hbytes, by rw [hlen]; omega⟩)
  by_cases hfits : s.pending.length ≤ dest.length
  · -- Everything is handed out.
    exact .inl (List.eq_nil_of_length_eq_zero (by rw [hlen]; omega))
  · exact .inr (.inl (by rw [hlen]; omega))

/-- Whatever a call does to the audio, less is pending after it than one frame can give. -/
theorem Moved.backlog {op : Operation} {answer : Answer} (hvalid : s.Valid)
    (hR : F.resampling.Unfailing) (hF : F.resampling.Fixed) (hP : F.resampling.Proportional)
    (hpos : 0 < s.frames) (hs : s.Ways s.outputAdapter) (hb : s.Backlog)
    (h : s.Moved engines op answer t) : t.Ways t.outputAdapter ∧ t.Backlog := by
  cases h with
  | quiet same =>
    rw [same.same]
    exact ⟨hs.congr ⟨rfl, rfl, rfl, rfl⟩, hb.congr ⟨rfl, rfl, rfl, rfl⟩ (Nat.le_refl _)⟩
  | pushFarend bytes =>
    exact ⟨hs.congr ⟨rfl, rfl, rfl, rfl⟩, hb.congr ⟨rfl, rfl, rfl, rfl⟩ (Nat.le_refl _)⟩
  | pushNearend bytes =>
    have hstream := congrArg StreamFormat.rate (s.nearend.push_format bytes)
    exact ⟨hs.congr ⟨rfl, hstream, rfl, rfl⟩, hb.congr ⟨rfl, hstream, rfl, rfl⟩ (Nat.le_refl _)⟩
  | @tryProcess settings dest outs u n shape drains count =>
    have hkin := (drains.frames.kin.trans (kin_pending u ((s.pending ++ outs.flatten).drop n))).sameWay
    obtain ⟨hgives, hlast⟩ := drains.gives hs
    refine ⟨hlast.congr ⟨rfl, rfl, rfl, rfl⟩, ?_⟩
    obtain hnil | hless | ⟨bytes, hbytes, hlt⟩ := drains.left count
    · obtain ⟨bytes, hsome, hlt⟩ := hs.exists_gives hR hF hP hpos
      exact ⟨bytes, hsome.congr hkin, by rw [hnil]; exact hlt⟩
    · exact hb.congr hkin hless
    · exact ⟨bytes, (hgives bytes hbytes).congr hkin, hlt⟩
  | held failing => exact absurd (hvalid.returning hR) failing
  | flush =>
    have hflush : s.SameWay s.flush := ⟨rfl, rfl, rfl, rfl⟩
    obtain ⟨bytes, hgives, hlt⟩ := hs.exists_gives hR hF hP hpos
    exact ⟨hs.reset.congr hflush, bytes, hgives.congr hflush, hlt⟩
  | setFarendInfo taken changed same =>
    rw [same.same]
    exact ⟨hs.congr ⟨rfl, rfl, rfl, rfl⟩, hb.congr ⟨rfl, rfl, rfl, rfl⟩ (Nat.le_refl _)⟩
  | @setNearendInfo rate channels format nearend outputAdapter t taken changed way same =>
    obtain ⟨adapter, -, rfl⟩ := Intake.setFormat_eq_ok.mp changed
    rw [← (formatOf_cases taken).1] at way
    rw [same.same]
    have hmade : Ways { s with
        nearend := { s.nearend with format, adapter }.flush, outputAdapter, pending := [] }
      outputAdapter := .made way
    obtain ⟨bytes, hgives, hlt⟩ := hmade.exists_gives hR hF hP hpos
    exact ⟨hmade.congr ⟨rfl, rfl, rfl, rfl⟩, bytes, hgives.congr ⟨rfl, rfl, rfl, rfl⟩, hlt⟩

/-! ### Without an output adapter -/

section Plain

variable {dest : List UInt8} (hpos : 0 < s.frameBytes) (hout : s.outputAdapter = none)
  (h : Drains engines settings (dest.length - s.pending.length) s outs t)

include hpos hout h

/-- What is pending and all whole frames are handed out, as far as the destination goes. -/
theorem Drains.count_plain :
    min dest.length (s.pending ++ outs.flatten).length =
      min dest.length
        (s.pending.length + s.frameBytes * (s.nearend.ring.avail / s.frameBytes)) := by
  obtain ⟨m, hm⟩ : ∃ m, s.frameBytes = m := ⟨_, rfl⟩
  obtain ⟨missing, hmissing⟩ : ∃ missing, dest.length - s.pending.length = missing := ⟨_, rfl⟩
  rw [hm] at hpos ⊢
  rw [hmissing] at h
  obtain ⟨hcount, hlens, -⟩ := h.plain hm hpos hout
  rw [List.length_append, length_flatten_of_forall hlens, hcount, Nat.mul_comm]
  have hceil : missing ≤ m * ((missing + m - 1) / m) := by
    have := Nat.div_add_mod (missing + m - 1) m
    have := Nat.mod_lt (missing + m - 1) hpos
    omega
  rcases Nat.le_total (s.nearend.ring.avail / m) ((missing + m - 1) / m) with hle | hle
  · rw [Nat.min_eq_left hle]
  · have := Nat.mul_le_mul_left m hle
    rw [Nat.min_eq_right hle]
    omega

/-- Into whole frames go whole frames, and nothing is left. -/
theorem Drains.whole {m : Nat} (hm : s.frameBytes = m) (hpending : s.pending = [])
    (hdvd : m ∣ dest.length) :
    (s.pending ++ outs.flatten).length ≤ dest.length ∧ m ∣ (s.pending ++ outs.flatten).length := by
  obtain ⟨q, hq⟩ := hdvd
  rw [hm] at hpos
  rw [hpending, List.length_nil, Nat.sub_zero] at h
  obtain ⟨hcount, hlens, -⟩ := h.plain hm hpos hout
  have hframes : (dest.length + m - 1) / m = q := by
    rw [hq]
    exact Nat.div_eq_of_lt_le (by rw [Nat.mul_comm]; omega) (by rw [Nat.succ_mul, Nat.mul_comm]; omega)
  rw [hpending, List.nil_append, length_flatten_of_forall hlens]
  refine ⟨?_, Nat.dvd_mul_left _ _⟩
  rw [hq, Nat.mul_comm]
  exact Nat.mul_le_mul_left m (by omega)

end Plain

/-- Without an output adapter less is pending than the bytes of a frame. -/
def Short (s : Session F) : Prop := s.outputAdapter = none → s.pending.length < s.frameBytes

/-- Every call keeps it so. -/
theorem Moved.short {op : Operation} {answer : Answer} (hvalid : s.Valid) (hpos : 0 < s.frames)
    (hs : s.Short) (h : s.Moved engines op answer t) : t.Short := by
  have hbytes : 0 < s.frameBytes := frameBytes_pos hpos
  cases h with
  | quiet same =>
    rw [same.same]
    exact hs
  | pushFarend | pushNearend => exact hs
  | @tryProcess settings dest outs u n shape drains count =>
    intro hout
    have hkin := drains.frames.kin
    have hnone := (hkin.outputAdapter_eq_none hvalid.way).mp hout
    obtain ⟨-, hlens, -⟩ := drains.plain rfl hbytes hnone
    show ((s.pending ++ outs.flatten).drop n).length < u.frameBytes
    rw [hkin.frameBytes]
    obtain hnil | hless | ⟨bytes, hmem, hlt⟩ := drains.left count
    · rw [hnil]
      exact hbytes
    · exact Nat.lt_of_le_of_lt hless (hs hnone)
    · exact hlens bytes hmem ▸ hlt
  | held failing kin =>
    intro hout
    exact absurd (hvalid.way.returning ((kin.outputAdapter_eq_none hvalid.way).mp hout)) failing
  | flush => exact fun _ => hbytes
  | setFarendInfo taken changed same =>
    rw [same.same]
    exact hs
  | setNearendInfo taken changed way same =>
    rw [same.same]
    exact fun _ => hbytes

/-- Nothing is pending if frames have so many bytes and there is no output adapter. -/
def Clear (m : Nat) (s : Session F) : Prop :=
  s.frameBytes = m → s.outputAdapter = none → s.pending = []

/-- Calls keep it so that ask for whole frames only. -/
theorem Moved.clear {m : Nat} {op : Operation} {answer : Answer} (hvalid : s.Valid)
    (hpos : 0 < s.frames) (hs : s.Clear m) (hop : ∀ dest, op = .tryProcess dest → m ∣ dest.length)
    (h : s.Moved engines op answer t) : t.Clear m := by
  cases h with
  | quiet same =>
    rw [same.same]
    exact hs
  | pushFarend | pushNearend => exact hs
  | @tryProcess settings dest outs u n shape drains count =>
    intro hm hout
    have hkin := drains.frames.kin
    have hnone := (hkin.outputAdapter_eq_none hvalid.way).mp hout
    have hbytes : s.frameBytes = m := hkin.frameBytes.symm.trans hm
    obtain ⟨hle, -⟩ :=
      drains.whole (frameBytes_pos hpos) hnone hbytes (hs hbytes hnone) (hop dest rfl)
    exact List.drop_of_length_le (by omega)
  | held failing kin =>
    intro _ hout
    exact absurd (hvalid.way.returning ((kin.outputAdapter_eq_none hvalid.way).mp hout)) failing
  | flush => exact fun _ _ => rfl
  | setFarendInfo taken changed same =>
    rw [same.same]
    exact hs
  | setNearendInfo taken changed way same =>
    rw [same.same]
    exact fun _ _ => rfl

end Session

namespace Context

variable [Sample S] [Sample.Lawful S] (engines : Engines S F) {c₀ c : Context S F} {s : Session F}
  {ops : List Operation} {t : Transcript}

section Runs

variable (h₀ : c₀.session = none) (hrun : c₀.run engines ops = .ok (c, t))
  (hs : c.session = some s) (hrate : Session.Processable s.rate)

include h₀ hrun hs hrate

/-- Between calls less is pending than one frame can give. -/
theorem run_backlog (hR : F.resampling.Unfailing) (hF : F.resampling.Fixed)
    (hP : F.resampling.Proportional) : s.Backlog := by
  refine (run_session engines (J := fun s => s.Ways s.outputAdapter ∧ s.Backlog) ?_ ?_ h₀ hrun hs
    hrate).2
  · intro settings channels nearRate farRate delay s u hsize hmade hrate hquiet
    have hopened := (Session.create_opened hmade).1
    have hsound := hopened.valid.sound
    have hmade : s.Ways s.outputAdapter := .made (hopened.nearend.stream.symm ▸ hopened.way)
    obtain ⟨bytes, hgives, hsome⟩ := hmade.exists_gives hR hF hP
      (hsound.works_iff.mpr hrate).frames_pos
    rw [hquiet.same]
    refine ⟨hmade.congr ⟨rfl, rfl, rfl, rfl⟩, bytes, hgives.congr ⟨rfl, rfl, rfl, rfl⟩, ?_⟩
    rw [hopened.pending]
    exact hsome
  · rintro s op answer u - hvalid hrate ⟨hways, hbacklog⟩ hmoved
    exact hmoved.backlog hvalid hR hF hP (hvalid.sound.works_iff.mpr hrate).frames_pos hways hbacklog

/-- Without an output adapter that is less than a frame. -/
theorem run_short : s.Short := by
  refine run_session engines ?_ ?_ h₀ hrun hs hrate
  · intro settings channels nearRate farRate delay s u _ hmade hrate hquiet
    have hopened := (Session.create_opened hmade).1
    have hpos := (hopened.valid.sound.works_iff.mpr hrate).frames_pos
    rw [hquiet.same]
    intro _
    rw [show Session.pending _ = s.pending from rfl, hopened.pending]
    exact Session.frameBytes_pos hpos
  · intro s op answer u _ hvalid hrate hshort hmoved
    exact hmoved.short hvalid (hvalid.sound.works_iff.mpr hrate).frames_pos hshort

/-- If all destinations were whole frames, nothing is. -/
theorem run_clear {m : Nat} (hops : ∀ dest, .tryProcess dest ∈ ops → m ∣ dest.length) :
    s.Clear m := by
  refine run_session engines ?_ ?_ h₀ hrun hs hrate
  · intro settings channels nearRate farRate delay s u _ hmade _ hquiet
    have hempty : s.pending = [] := (Session.create_opened hmade).1.pending
    rw [hquiet.same]
    exact fun _ _ => hempty
  · intro s op answer u hmem hvalid hrate hclear hmoved
    refine hmoved.clear hvalid (hvalid.sound.works_iff.mpr hrate).frames_pos hclear ?_
    rintro dest rfl
    exact hops dest hmem

/-- A call of buffered processing always returns. Let resamplers refuse no block, take blocks of one
size and gather their input if there is an output adapter. Between calls less is pending than one frame
can give, which is less than a frame without an output adapter. A call for more processes frame after
frame until the destination can be filled or the nearend runs short, writes what was pending and the new
output over the front of the destination and keeps the rest. Without an output adapter it hands out as
much as there is in whole frames, processes no more frames than that takes, and hands out whole frames if
all calls so far asked for such. -/
theorem tryProcess_greedy :
    (∀ dest, Returns (c.tryProcess engines dest) fun _ => True) ∧
    ((s.outputAdapter ≠ none →
        F.resampling.Unfailing ∧ F.resampling.Fixed ∧ F.resampling.Proportional) →
      s.Backlog ∧ (s.outputAdapter = none → s.pending.length < s.frameBytes) ∧
      ∀ dest, Returns (c.tryProcess engines dest) fun r =>
        ∃ (outs : List (List UInt8)) (u : Session F) (n : Nat),
          Session.Drains engines (c.frameSettings s true) (dest.length - s.pending.length) s outs u ∧
          u.stats.frames = s.stats.frames + outs.length ∧
          n = min dest.length (s.pending ++ outs.flatten).length ∧
          r.2 = ((s.pending ++ outs.flatten).take n ++ dest.drop n, .ok n) ∧
          r.1.session = some { u with pending := (s.pending ++ outs.flatten).drop n } ∧
          (s.outputAdapter = none →
            n = min dest.length
              (s.pending.length + s.frameBytes * (s.nearend.avail / s.frameBytes)) ∧
            outs.length = min (s.nearend.avail / s.frameBytes)
              ((dest.length - s.pending.length + s.frameBytes - 1) / s.frameBytes) ∧
            (∀ out ∈ outs, out.length = s.frameBytes) ∧
            ((∀ d, .tryProcess d ∈ ops → s.frameBytes ∣ d.length) → s.frameBytes ∣ dest.length →
              s.frameBytes ∣ n))) := by
  have hvalid := run_sound engines (sound_of_none h₀) hrun s hs
  have hsound := hvalid.sound
  have hset := c.frameSettings_for s true
  have hw := hsound.works_iff.mpr hrate
  have hpos := Session.frameBytes_pos hw.frames_pos
  constructor
  · intro dest
    rw [tryProcess, hs]
    exact (Session.tryProcess_returns engines hsound hset hw dest).bind fun _ _ => returns_ok trivial
  intro hlaws
  have hshort := run_short engines h₀ hrun hs hrate
  have hback : s.Returning := by
    by_cases hout : s.outputAdapter = none
    · exact hvalid.way.returning hout
    · exact hvalid.returning (hlaws hout).1
  have hbacklog : s.Backlog := by
    by_cases hout : s.outputAdapter = none
    · obtain ⟨bytes, hgives, hlen⟩ := Session.gives_of_none hvalid.way hout
      exact ⟨bytes, hgives, hlen ▸ hshort hout⟩
    · obtain ⟨hR, hF, hP⟩ := hlaws hout
      exact run_backlog engines h₀ hrun hs hrate hR hF hP
  refine ⟨hbacklog, hshort, fun dest => ?_⟩
  refine (tryProcess_drains engines hs hsound hw hback dest).mono ?_
  rintro r ⟨u, outs, n, hdrains, hn, hcontext, hanswer⟩
  have hsession := congrArg Context.session hcontext
  refine ⟨outs, u, n, hdrains, hdrains.counts hsound hset hw, hn, hanswer, hsession, ?_⟩
  intro hout
  obtain ⟨hcount, hlens, -⟩ := hdrains.plain rfl hpos hout
  refine ⟨hn.trans (hdrains.count_plain hpos hout), hcount, hlens, ?_⟩
  intro hops hdvd
  have hempty := run_clear engines h₀ hrun hs hrate hops rfl hout
  obtain ⟨hle, hwhole⟩ := hdrains.whole hpos hout rfl hempty hdvd
  rw [hn, Nat.min_eq_right hle]
  exact hwhole

end Runs

/-- The nearend is resampled from 16 to 8 kHz and back. Of 701 bytes a call for 100 processes one frame,
which makes 320 bytes, and 220 of them are pending for the next call. -/
theorem tryProcess_greedy_bypass :
    ∃ (c : Context Int16 Bypass.family) (t : Transcript) (s : Session Bypass.family),
      (new { ringSize := 1024 } () : Context Int16 Bypass.family).run (Bypass.engines Int16 8000)
          [.init 1 16000 8000 0, .setFarendReady true, .setNearendReady true,
            .pushNearend (List.replicate 701 7), .tryProcess (List.replicate 100 0)] = .ok (c, t) ∧
        c.session = some s ∧ Session.Processable s.rate ∧ s.outputAdapter ≠ none ∧
        s.pending.length = 220 ∧ s.Backlog ∧
        Returns (c.tryProcess (Bypass.engines Int16 8000) (List.replicate 300 0)) fun r =>
          ∃ (outs : List (List UInt8)) (u : Session Bypass.family) (n : Nat),
            Session.Drains (Bypass.engines Int16 8000) (c.frameSettings s true) 80 s outs u ∧
            n = min 300 (220 + outs.flatten.length) ∧ r.2.2 = .ok n ∧
            r.1.session = some { u with pending := (s.pending ++ outs.flatten).drop n } := by
  have hvalues : ((new { ringSize := 1024 } () : Context Int16 Bypass.family).run
      (Bypass.engines Int16 8000) [.init 1 16000 8000 0, .setFarendReady true,
        .setNearendReady true, .pushNearend (List.replicate 701 7),
        .tryProcess (List.replicate 100 0)] >>= fun q => .ok (q.1.session.map fun s =>
          (s.rate, s.pending.length, s.outputAdapter.isSome))) =
      .ok (some (8000, 220, true)) := by decide +kernel
  obtain ⟨⟨c, t⟩, hrun, hvalues⟩ := bind_eq_ok.mp hvalues
  rw [Except.ok.injEq] at hvalues
  obtain ⟨s, hs, hvalues⟩ := Option.map_eq_some_iff.mp hvalues
  simp only [Prod.mk.injEq] at hvalues
  obtain ⟨hrate, hpending, hout⟩ := hvalues
  have hprocessable : Session.Processable s.rate := by
    rw [hrate]
    exact .inl (by decide)
  obtain ⟨-, hgreedy⟩ := tryProcess_greedy (Bypass.engines Int16 8000) rfl hrun hs hprocessable
  obtain ⟨hbacklog, -, hcall⟩ := hgreedy fun _ =>
    ⟨Resample.spectral_unfailing, Resample.spectral_fixed, Resample.spectral_proportional⟩
  refine ⟨c, t, s, hrun, hs, hprocessable, Option.ne_none_iff_isSome.mpr hout, hpending, hbacklog,
    (hcall _).mono ?_⟩
  rintro r ⟨outs, u, n, hdrains, -, hn, hanswer, hsession, -⟩
  rw [List.length_append, hpending, List.length_replicate] at hn
  rw [List.length_replicate, hpending] at hdrains
  exact ⟨outs, u, n, hdrains, hn, by rw [hanswer], hsession⟩

end Context

end Duplex
