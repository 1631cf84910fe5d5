import Duplex.Proofs.Copying
import Duplex.Proofs.Draining

/-!
# Pass-through: a session of one band hands out its nearend stream

With copying engines, one band and no resampling, a frame step hands out the bytes that it took off
the nearend intake (`FrameStep.passes`). So all accepted nearend bytes are, in order, handed out,
pending, queued or carried (`Passing`), and every call keeps this that neither begins nor ends the
session, nor touches the nearend format.
-/

namespace Duplex

open Signal Engine
open Pcm (Layout)

variable {S : Type} {F : Family} [Sample S] [Sample.Exact S] {engines : Engines S F} {n : Nat}

namespace Session

/-- From the least rate of streams on, a whole frame is one that can be processed. -/
theorem Sound.works_of_one {s : Session F} (hs : s.Sound) (hone : s.bands = 1)
    (hmin : minSampleRate ≤ s.rate) : s.Works := by
  have hframes : s.frames = 80 * s.rate / 8000 := hs.frames
  have hmin : 8000 ≤ s.rate := hmin
  exact ⟨by omega, .inl hone, hone ▸ Nat.one_dvd _⟩

/-! ### One frame -/

theorem LanesRan.heard (hcopies : engines.Copies) {settings : FrameSettings}
    (hn : settings.frames = n) {prepared : List (Lane F × Buffers)}
    (hs : ∀ x ∈ prepared, x.2.Shaped n 1) {farend nearend outs : List (List Int16)}
    {c c' : Carried S} {lanes : List (Lane F)}
    (h : LanesRan engines settings prepared farend nearend c lanes outs c') :
    outs = nearend.map (fit n 0) := by
  induction h with
  | nil => rfl
  | cons hlane _ ih =>
    obtain ⟨-, -, hout⟩ :=
      (Lane.process_passes hcopies (hs _ List.mem_cons_self) hn _ _).elim hlane
    have hmore := ih fun y hy => hs y (List.mem_cons_of_mem _ hy)
    rw [List.map_cons, ← hout, ← hmore]

/-- A whole frame is heard as it is. -/
theorem runFrame_heard (hcopies : engines.Copies) {settings : FrameSettings} {s : Session F}
    (hs : s.Sound) (hn : settings.frames = s.frames) {farend : Option (List Int16)}
    {near : List Int16} (hnear : near.length = s.frameLength) {prepared : List (Lane F × Buffers)}
    (hlanes : prepared.map (·.1) = s.lanes) (hshaped : ∀ x ∈ prepared, x.2.Shaped s.frames 1)
    {t : Session F} {journal : Journal S} {heard : List Int16}
    (h : s.runFrame engines settings farend near prepared = .ok (t, journal, heard)) :
    heard = near := by
  obtain ⟨lanes, outs, c, hran, h⟩ := runFrame_lanes hs.lanes hlanes h
  have hheard := hran.heard hcopies hn hshaped
  have hdvd : s.layout.channels ∣ near.length := hnear ▸ Nat.dvd_mul_left _ _
  have hcolumns : (s.deinterleave near).map (fit s.frames 0) = s.layout.split near := by
    rw [deinterleave_of_whole hnear]
    exact deinterleave_of_whole hnear
  obtain rfl : heard = Layout.join outs := congrArg (·.2.2) h
  rw [hheard, hcolumns, Layout.join_split _ hdvd]

/-- What a frame step hands out is made of the frame that it takes off the nearend intake. -/
theorem FrameStep.hears (hcopies : engines.Copies) {settings : FrameSettings} {s t : Session F}
    {bytes : List UInt8} (hs : s.Sound) (hset : settings.For s.frames s.bands) (hw : s.Works)
    (hone : s.bands = 1) (h : s.FrameStep engines settings bytes t) :
    bytes = (s.convertOutput (Pcm.decode (s.nearend.ring.toList.take s.frameBytes))).2.1 ∧
      t.outputAdapter =
        (s.convertOutput (Pcm.decode (s.nearend.ring.toList.take s.frameBytes))).1.outputAdapter := by
  have hkin : s.Kin (s.readFrame (S := S)).1 := kin_readFrame s
  cases h with
  | @intro u journal out full process advanced length converted =>
    have hnear : (s.readFrame (S := S)).2.2.2.length = (s.readFrame (S := S)).1.frameLength := by
      rw [readFrame_eq]
      exact length_nearend_frame full
    obtain ⟨prepared, v, journal', heard, hprepare, hrun, -, -, hprocess⟩ :=
      process_frame engines (hkin.sound hs) (hkin.settings hset) (hkin.works hw)
        (some (s.readFrame (S := S)).2.2.1) hnear
    obtain ⟨-, hlanes, hshaped⟩ :=
      prepareLanes_cases (hkin.sound hs) (hkin.settings hset) hprepare
    rw [hkin.bands, hone] at hshaped
    have hheard := runFrame_heard hcopies (hkin.sound hs) (hset.frames.trans hkin.frames.symm) hnear
      hlanes hshaped hrun
    have hlen : (s.readFrame (S := S)).1.frameLength = s.frameLength := by
      rw [readFrame_eq]
      rfl
    rw [hlen, process] at hprocess
    obtain ⟨-, -, rfl⟩ : u = countFrame settings v ∧ journal = journal' ∧ out = heard := by
      simpa using hprocess
    have hadapter : u.outputAdapter = s.outputAdapter := by
      rw [advanced.same, readFrame_eq]
    obtain ⟨hbytes, hnext⟩ := convertOutput_congr hadapter out
    rw [hbytes, hnext, hheard, readFrame_eq]
    exact ⟨rfl, rfl⟩

/-- Without an output adapter a frame step hands out the bytes that it takes off. -/
theorem FrameStep.passes (hcopies : engines.Copies) {settings : FrameSettings} {s t : Session F}
    {bytes : List UInt8} (hs : s.Sound) (hset : settings.For s.frames s.bands) (hw : s.Works)
    (hone : s.bands = 1) (hout : s.outputAdapter = none) (h : s.FrameStep engines settings bytes t) :
    bytes = s.nearend.ring.toList.take s.frameBytes ∧ t.outputAdapter = none := by
  obtain ⟨hbytes, hadapter⟩ := h.hears hcopies hs hset hw hone
  have hwhole : 2 ∣ (s.nearend.ring.toList.take s.frameBytes).length := by
    rw [List.length_take, ByteRing.length_toList, Nat.min_eq_left h.full]
    exact Nat.dvd_mul_left _ _
  simp only [convertOutput, hout] at hbytes hadapter
  exact ⟨hbytes.trans (Pcm.encode_decode hwhole), hadapter⟩

/-! ### Many frames -/

/-- A session of one band with the nearend rate and layout, and frames of so many bytes. -/
structure Transparent (s : Session F) (m : Nat) : Prop where
  valid : s.Valid
  works : s.Works
  one : s.bands = 1
  frameBytes : s.frameBytes = m
  layout : s.nearend.format.layout = s.layout
  adapter : s.nearend.adapter = none
  outputAdapter : s.outputAdapter = none

/-- Frame steps hand out the front of the nearend queue, in whole frames. -/
theorem Frames.passes (hcopies : engines.Copies) {settings : FrameSettings} {m : Nat}
    {s t : Session F} {bytes : List UInt8} (hs : s.Transparent m)
    (hset : settings.For s.frames s.bands) (h : Frames engines settings s bytes t) :
    t.Transparent m ∧ s.nearend.ring.toList = bytes ++ t.nearend.ring.toList ∧ m ∣ bytes.length ∧
      t.nearend.carry = s.nearend.carry ∧ t.stats.droppedNearend = s.stats.droppedNearend := by
  induction h with
  | nil s => exact ⟨hs, rfl, Nat.dvd_zero m, rfl, rfl⟩
  | @cons s t u bytes rest step more ih =>
    obtain ⟨hbytes, hout⟩ := step.passes hcopies hs.valid.sound hset hs.works hs.one hs.outputAdapter
    obtain ⟨-, hnear, -, -, hdropped, -⟩ := step.rest
    have hkin := step.kin
    have hsize : t.frameBytes = m := hkin.frameBytes.trans hs.frameBytes
    have ht : t.Transparent m := ⟨hkin.valid hs.valid, hkin.works hs.works, hkin.bands.trans hs.one, hsize,
      by rw [hnear, hkin.layout]; exact hs.layout, by rw [hnear]; exact hs.adapter, hout⟩
    obtain ⟨hu, hqueue, hdvd, hcarry, hlost⟩ := ih ht (hkin.settings hset)
    have hfull : bytes.length = m := by
      rw [hbytes, List.length_take, ByteRing.length_toList, ← hs.frameBytes]
      cases step with
      | intro full => exact Nat.min_eq_left full
    refine ⟨hu, ?_, ?_, by rw [hcarry, hnear]; rfl, hlost.trans hdropped⟩
    · rw [List.append_assoc, ← hqueue, hnear, Intake.toList_read, hbytes, List.take_append_drop]
    · rw [List.length_append, hfull]
      exact Nat.dvd_add (Nat.dvd_refl m) hdvd

end Session

namespace Intake

/-- Without resampling and between equal layouts, the whole frames are emitted as they come. -/
theorem emit_of_plain {R : Resampling} {i : Intake R} (hlayout : i.format.layout = i.layout)
    (hadapter : i.adapter = none)
    (bytes : List UInt8) :
    i.emit bytes = (i.recarry (residue (i.format.channels * 2) (i.carry ++ bytes)),
      (blocks (i.format.channels * 2) (i.carry ++ bytes)).flatten) := by
  have hconvert (samples : List Int16) : i.convert samples = (i, samples, .ok ()) := by
    simp only [convert, hadapter, hlayout, Layout.remap_self]
  have heven : 2 ∣ (blocks (i.format.channels * 2) (i.carry ++ bytes)).flatten.length :=
    Nat.dvd_trans (Nat.dvd_mul_left 2 _) (i.dvd_length_flatten_blocks _)
  rw [emit_eq, hconvert, Pcm.encode_decode heven]

end Intake

/-! ### Calls -/

/-- A call that leaves the session and the nearend format as they are, and does not flush or process
samples past the intakes. -/
def Operation.Streams : Operation → Prop
  | .pushFarend _ | .pushNearend _ | .tryProcess _ | .reset | .setStageEnabled _ _
  | .setFarendReady _ | .setNearendReady _ | .setDelay _ | .setEchoSettings _
  | .setFarendInfo _ _ => True
  | _ => False

namespace Context

/-- Where the accepted nearend bytes are, as long as none was dropped: handed out, pending, queued
or carried. What was handed out or is pending makes whole frames of so many bytes. -/
structure Passing (m : Nat) (c : Context S F) (t : Transcript) (s : Session F) : Prop where
  session : c.session = some s
  transparent : s.Transparent m
  whole : m ∣ (t.heard ++ s.pending).length
  accepted : s.stats.droppedNearend = 0 →
    t.taken .nearend = t.heard ++ s.pending ++ s.nearend.ring.toList ++ s.nearend.carry ∧
      s.layout.channels * 2 ∣ s.nearend.ring.avail
  drained : t.Drained → s.pending = [] ∧ s.nearend.ring.avail < m

variable {m : Nat} {c c' : Context S F} {t : Transcript} {s s' : Session F}

omit [Sample S] [Sample.Exact S] in
/-- A call that moves no bytes keeps where the bytes are. -/
theorem Passing.quiet (h : Passing m c t s) {op : Operation} {answer : Answer}
    (hop : ∀ dest, op ≠ .tryProcess dest)
    (htaken : Transcript.taken .nearend [(op, answer)] = [])
    (hheard : Transcript.heard [(op, answer)] = []) (hc' : c'.session = some s') (hs' : s'.Valid)
    (hsame : s' = { s with
      delay := s'.delay, healthy := s'.healthy, micLevel := s'.micLevel, farend := s'.farend
      lanes := s'.lanes, stats := s'.stats })
    (hdropped : s'.stats.droppedNearend = s.stats.droppedNearend) :
    Passing m c' (t ++ [(op, answer)]) s' := by
  have hnear : s'.nearend = s.nearend := by rw [hsame]
  have hpending : s'.pending = s.pending := by rw [hsame]
  have hlayout : s'.layout = s.layout := by rw [hsame]
  obtain ⟨hone, hbytes, hadapter⟩ : s'.bands = s.bands ∧ s'.frameBytes = s.frameBytes ∧
      s'.outputAdapter = s.outputAdapter := by rw [hsame]; exact ⟨rfl, rfl, rfl⟩
  have hworks : s.Works → s'.Works := by
    rw [hsame]
    exact fun h => ⟨h.frames_pos, h.workable, h.dvd⟩
  have htr := h.transparent
  refine ⟨hc', ⟨hs', hworks htr.works, hone.trans htr.one, hbytes.trans htr.frameBytes, ?_, ?_, ?_⟩, ?_, ?_, ?_⟩
  · rw [hnear, hlayout]
    exact htr.layout
  · rw [hnear]
    exact htr.adapter
  · exact hadapter.trans htr.outputAdapter
  · simpa only [Transcript.heard_append, hheard, List.append_nil, hpending] using h.whole
  · intro hzero
    simpa only [Transcript.taken_append, Transcript.heard_append, htaken, hheard, List.append_nil,
      hpending, hnear, hlayout] using h.accepted (hdropped ▸ hzero)
  · exact fun hdrained => absurd hdrained (Transcript.not_drained_concat hop)

omit [Sample S] [Sample.Exact S] in
/-- Accepted nearend bytes are queued or carried. -/
theorem Passing.pushNearend (h : Passing m c t s) (bytes : List UInt8) :
    ∃ s', Passing m (c.pushNearend bytes).1
      (t ++ [(.pushNearend bytes, .taken (c.pushNearend bytes).2)]) s' := by
  have hvalid := h.transparent.valid
  rcases c.open_or_closed with ⟨s', hs', hrun⟩ | hclosed
  · obtain rfl : s = s' := by
      rw [h.session] at hs'
      exact Option.some.inj hs'
    obtain ⟨w, hpush⟩ := pushNearend_open h.session hrun bytes
    obtain ⟨hok, -⟩ :=
      Intake.outcome_ok hvalid.nearend (Intake.unfailing_of_none h.transparent.adapter) bytes
    have htaken : takenOf bytes (s.nearend.push bytes).2 = .ok bytes.length := by
      rw [Intake.push_ok hok]
      rfl
    rw [hpush, htaken]
    have hplain := Intake.emit_of_plain (h.transparent.layout.trans hvalid.nearend.layout.symm)
      h.transparent.adapter bytes
    have hsound := Intake.push_sound hvalid.nearend bytes
    have hformat : (s.nearend.push bytes).1.format = s.nearend.format ∧
        (s.nearend.push bytes).1.adapter = s.nearend.adapter ∧
        (s.nearend.push bytes).1.carry =
          residue (s.nearend.format.channels * 2) (s.nearend.carry ++ bytes) := by
      rw [Intake.push_ok hok, hplain]
      exact ⟨rfl, rfl, rfl⟩
    obtain ⟨hformat, hadapter, hcarry⟩ := hformat
    have htr := h.transparent
    obtain ⟨hpos, hworkable, hdvd⟩ := htr.works
    refine ⟨_, rfl, ⟨hvalid.of_intakes rfl hvalid.farend hsound hformat,
      ⟨hpos, hworkable, hdvd⟩, htr.one, htr.frameBytes, ?_, ?_,
      htr.outputAdapter⟩, ?_, ?_, ?_⟩
    · show (s.nearend.push bytes).1.format.layout = s.layout
      rw [hformat]
      exact htr.layout
    · exact hadapter.trans htr.adapter
    · rw [Transcript.heard_append, Transcript.heard_pushNearend, List.append_nil]
      exact h.whole
    · intro hzero
      have hzero : s.stats.droppedNearend = 0 ∧ lostOf (s.nearend.push bytes).2 = 0 :=
        Nat.add_eq_zero_iff.mp hzero
      obtain ⟨haccepted, haligned⟩ := h.accepted hzero.1
      have hqueue : (s.nearend.push bytes).1.ring.toList = s.nearend.ring.toList ++
          (blocks (s.nearend.format.channels * 2) (s.nearend.carry ++ bytes)).flatten := by
        have hkept := hzero.2
        rw [Intake.push_ok hok] at hkept
        rw [Intake.push_ok hok, Intake.enqueue_of_kept _ hkept, hplain]
        rfl
      refine ⟨?_, ?_⟩
      · rw [Transcript.taken_append, Transcript.heard_append, Transcript.taken_pushNearend,
          Transcript.heard_pushNearend, if_pos rfl, List.append_nil, haccepted]
        dsimp only
        rw [hqueue, hcarry]
        simp only [List.append_assoc, flatten_blocks s.nearend.frame_pos]
      · have hchannels : s.nearend.format.channels = s.layout.channels := by
          rw [StreamFormat.channels, htr.layout]
        rw [← hchannels] at haligned
        dsimp only
        rw [← ByteRing.length_toList, hqueue, List.length_append, ByteRing.length_toList, ← hchannels]
        exact Nat.dvd_add haligned (s.nearend.dvd_length_flatten_blocks _)
    · exact fun hdrained => absurd hdrained (Transcript.not_drained_concat (by simp))
  · have hc := (push_closed hclosed bytes).2.1
    exact ⟨s, h.quiet (by simp) (Transcript.taken_of_closed hclosed _ bytes).2 rfl
      (by rw [hc]; exact h.session) hvalid rfl rfl⟩

/-- Buffered processing hands out the front of what is pending and queued. -/
theorem Passing.tryProcess (hcopies : engines.Copies) (h : Passing m c t s) (dest : List UInt8) :
    Returns (c.tryProcess engines dest) fun r =>
      ∃ s', Passing m r.1 (t ++ [(.tryProcess dest, .bytes r.2.1 r.2.2)]) s' := by
  have htr := h.transparent
  rw [Context.tryProcess, h.session]
  refine (Session.tryProcess_frames htr.valid.sound (c.frameSettings_for s _) htr.works
    (htr.valid.way.returning htr.outputAdapter) dest).bind fun r hr => ?_
  obtain ⟨u, bytes, n, hframes, hn, hresult, hsession, hout, hshort⟩ := hr
  obtain ⟨hu, hqueue, hdvd, hcarry, hdropped⟩ :=
    hframes.passes hcopies htr (c.frameSettings_for s _)
  have hpending := hframes.pending
  have hlayout : u.layout = s.layout := hframes.kin.layout
  have hheard : Transcript.heard [(.tryProcess dest, .bytes r.2.2.1 r.2.2.2)] =
      (u.pending ++ bytes).take n := by
    rw [hresult, Transcript.heard_tryProcess, hout]
  refine returns_ok ⟨r.1, rfl, ?_, ?_, ?_, ?_⟩
  · rw [hsession]
    obtain ⟨hpos, hworkable, hbands⟩ := hu.works
    exact ⟨hu.valid.of_intakes rfl hu.valid.farend hu.valid.nearend rfl, ⟨hpos, hworkable, hbands⟩,
      hu.one, hu.frameBytes, hu.layout, hu.adapter, hu.outputAdapter⟩
  · rw [Transcript.heard_append, hheard, hsession, List.append_assoc, List.take_append_drop, hpending,
      ← List.append_assoc, List.length_append]
    exact Nat.dvd_add h.whole hdvd
  · intro hzero
    have hzero : s.stats.droppedNearend = 0 := by
      rw [hsession] at hzero
      exact hdropped ▸ hzero
    obtain ⟨haccepted, haligned⟩ := h.accepted hzero
    have hframe : s.layout.channels * 2 ∣ m := htr.frameBytes ▸ s.dvd_frameBytes
    have havail : s.nearend.ring.avail = bytes.length + u.nearend.ring.avail := by
      simpa using congrArg List.length hqueue
    rw [hsession]
    refine ⟨?_, ?_⟩
    · rw [Transcript.taken_append, Transcript.heard_append, hheard, Transcript.taken_tryProcess,
        List.append_nil, haccepted, hqueue, ← hpending, ← hcarry]
      dsimp only
      rw [List.append_assoc t.heard (List.take _ _), List.take_append_drop]
      simp only [List.append_assoc]
    · dsimp only
      rw [hlayout]
      exact (Nat.dvd_add_right (Nat.dvd_trans hframe hdvd)).mp (havail ▸ haligned)
  · intro hdrained
    obtain ⟨dest', out, n', hdest, hanswer, hless⟩ := (Transcript.drained_concat _ _ _).mp hdrained
    obtain rfl : dest = dest' := by simpa using hdest
    obtain rfl : n = n' := by
      rw [Answer.bytes.injEq, hresult] at hanswer
      exact Except.ok.inj hanswer.2
    obtain ⟨hall, havail⟩ := hshort hless
    rw [hsession]
    exact ⟨List.drop_of_length_le (Nat.le_of_eq hall.symm), htr.frameBytes ▸ havail⟩

omit [Sample S] [Sample.Exact S] in
theorem Passing.pushFarend (h : Passing m c t s) (bytes : List UInt8) :
    ∃ s', Passing m (c.pushFarend bytes).1
      (t ++ [(.pushFarend bytes, .taken (c.pushFarend bytes).2)]) s' := by
  have hvalid := h.transparent.valid
  have htaken : Transcript.taken .nearend [(.pushFarend bytes, .taken (c.pushFarend bytes).2)] =
      [] := by
    cases (c.pushFarend bytes).2 <;> rfl
  rcases c.open_or_closed with ⟨s', hs', hrun⟩ | hclosed
  · obtain rfl : s = s' := by
      rw [h.session] at hs'
      exact Option.some.inj hs'
    obtain ⟨w, hpush⟩ := pushFarend_open h.session hrun bytes
    have hfar := Intake.push_sound hvalid.farend bytes
    rw [hpush] at htaken ⊢
    exact ⟨_, h.quiet (by simp) htaken rfl rfl
      (hvalid.of_intakes rfl hfar hvalid.nearend rfl) rfl rfl⟩
  · have hc := (push_closed hclosed bytes).1.1
    exact ⟨s, h.quiet (by simp) htaken rfl (by rw [hc]; exact h.session) hvalid rfl rfl⟩

/-- Every call that leaves the nearend alone keeps where its bytes are. -/
theorem Passing.apply (hcopies : engines.Copies) (h : Passing m c t s) {op : Operation}
    (hop : op.Streams) :
    Returns (c.apply engines op) fun r => ∃ s', Passing m r.1 (t ++ [(op, r.2)]) s' := by
  have hvalid := h.transparent.valid
  cases op with
  | pushFarend bytes => exact returns_ok (h.pushFarend bytes)
  | pushNearend bytes => exact returns_ok (h.pushNearend bytes)
  | tryProcess dest => exact (h.tryProcess hcopies dest).map fun r hr => hr
  | reset =>
    obtain ⟨u, hu, hrefit, -⟩ := reset_session engines h.session
    refine returns_ok ⟨u, h.quiet (by simp) rfl rfl hu (hrefit.valid hvalid) ?_ ?_⟩
    · rw [hrefit.same]
    · rw [hrefit.same]
  | setStageEnabled stage enabled =>
    exact returns_ok ⟨s, h.quiet (by simp) rfl rfl h.session hvalid rfl rfl⟩
  | setFarendReady ready =>
    exact returns_ok ⟨s, h.quiet (by simp) rfl rfl h.session hvalid rfl rfl⟩
  | setNearendReady ready =>
    exact returns_ok ⟨s, h.quiet (by simp) rfl rfl h.session hvalid rfl rfl⟩
  | setDelay delay =>
    have hdelay : (c.setDelay delay).1.session = some { s with delay } := by
      simp only [setDelay, h.session]
    exact returns_ok ⟨_, h.quiet (by simp) rfl rfl hdelay
      (hvalid.of_intakes rfl hvalid.farend hvalid.nearend rfl) rfl rfl⟩
  | setEchoSettings settings =>
    obtain ⟨u, hu, hrefit⟩ := setEchoSettings_session engines settings h.session
    refine returns_ok ⟨u, h.quiet (by simp) rfl rfl hu (hrefit.valid hvalid) ?_ ?_⟩
    · rw [hrefit.same]
    · rw [hrefit.same]
  | setFarendInfo rate channels =>
    obtain ⟨⟨c', answer⟩, hset, -⟩ := setFarendInfo_answers engines c rate channels
    have happly : c.apply engines (.setFarendInfo rate channels) = .ok (c', .outcome answer) := by
      rw [Context.apply, hset]
      rfl
    rw [happly]
    obtain rfl | ⟨s', farend, u, hs', hfarend, hrefit, hu⟩ := setFarendInfo_cases engines hset
    · exact returns_ok ⟨s, h.quiet (by simp) rfl rfl h.session hvalid rfl rfl⟩
    · obtain rfl : s = s' := by
        rw [h.session] at hs'
        exact Option.some.inj hs'
      have hu' := hrefit.valid (hvalid.of_intakes rfl (hfarend hvalid.farend) hvalid.nearend rfl)
      refine returns_ok ⟨u, h.quiet (by simp) rfl rfl hu hu' ?_ ?_⟩
      · rw [hrefit.same]
      · rw [hrefit.same]
  | _ => exact hop.elim

omit [Sample S] [Sample.Exact S] in
/-- What was handed out is a prefix of what was accepted. -/
theorem Passing.heard_prefix (h : Passing m c t s) (hzero : s.stats.droppedNearend = 0) :
    t.heard <+: t.taken .nearend := by
  rw [(h.accepted hzero).1, List.append_assoc, List.append_assoc]
  exact List.prefix_append _ _

omit [Sample S] [Sample.Exact S] in
/-- After a call that ran short, all whole frames of what was accepted are handed out. -/
theorem Passing.length_heard (h : Passing m c t s) (hzero : s.stats.droppedNearend = 0)
    (hdrained : t.Drained) : t.heard.length = (t.taken .nearend).length / m * m := by
  obtain ⟨haccepted, havail⟩ := h.accepted hzero
  obtain ⟨hpending, hshort⟩ := h.drained hdrained
  have htr := h.transparent
  have hcarry := htr.valid.nearend.carry_lt
  rw [StreamFormat.channels, htr.layout] at hcarry
  have hframe : s.layout.channels * 2 ∣ m := htr.frameBytes ▸ s.dvd_frameBytes
  -- Queued and carried bytes together make no whole frame.
  have hrest : s.nearend.ring.avail + s.nearend.carry.length < m := by
    obtain ⟨j, hj⟩ := havail
    obtain ⟨k, hk⟩ := hframe
    rw [hj, hk] at hshort
    have hjk : j + 1 ≤ k := Nat.lt_of_mul_lt_mul_left hshort
    have hle := Nat.mul_le_mul_left (s.layout.channels * 2) hjk
    rw [hj, hk]
    rw [Nat.mul_add, Nat.mul_one] at hle
    omega
  have hwhole := h.whole
  rw [hpending, List.append_nil] at hwhole
  obtain ⟨k, hk⟩ := hwhole
  have hpos : 0 < m := Nat.zero_lt_of_lt hrest
  rw [haccepted, hpending]
  simp only [List.length_append, List.length_nil, ByteRing.length_toList, Nat.add_zero]
  rw [Nat.add_assoc, hk, Nat.mul_add_div hpos, Nat.div_eq_of_lt hrest, Nat.add_zero, Nat.mul_comm]

omit [Sample S] [Sample.Exact S] in
/-- A session that was just opened at the nearend rate with one band passes what it will be given. -/
theorem passing_init {channels nearRate farRate delay : Nat}
    (hinit : c.init engines channels nearRate farRate delay = .ok (c', .ok .initialized))
    (hs : c'.session = some s) (hrate : s.rate = nearRate) (hone : s.bands = 1) :
    Passing s.frameBytes c' [] s := by
  obtain ⟨-, hnot⟩ | ⟨o, t, hopened, -, -, hrefit, ht⟩ := init_cases engines hinit
  · exact absurd rfl hnot
  obtain rfl : t = s := by
    rw [hs] at ht
    exact (Option.some.inj ht).symm
  have hvalid := hrefit.valid hopened.valid
  have hsame := hrefit.same
  have hnear : t.nearend = o.nearend := by rw [hsame]
  have hlayout : t.layout = o.layout := by rw [hsame]
  have hout : t.outputAdapter = o.outputAdapter := by rw [hsame]
  have hpending : t.pending = [] := by rw [hsame]; exact hopened.pending
  have hrate' : nearRate = o.rate := by rw [← hrate, hsame]
  have hmin : minSampleRate ≤ t.rate := by
    rw [hrate, ← hopened.nearend.stream]
    exact o.nearend.format.minSampleRate_le
  refine ⟨hs, ⟨hvalid, hvalid.sound.works_of_one hone hmin, hone, rfl, ?_, ?_, ?_⟩, ?_, ?_, ?_⟩
  · rw [hnear, hlayout]
    exact hopened.nearend.layout
  · rw [hnear]
    exact hopened.adapter_eq_none hrate'
  · rw [hout]
    exact hopened.outputAdapter_eq_none hrate'
  · simp [hpending]
  · intro
    rw [hnear, ← ByteRing.length_toList, hopened.nearend.queued, hopened.nearend.carried, hpending]
    simp
  · rintro ⟨_, _, _, hlast, -⟩
    simp at hlast

/-- At one band and the nearend rate, with engines that copy, a run hands out what it accepted: a
prefix of it, and after a call that handed out less than it was asked for all whole frames. -/
theorem run_passes_through (hcopies : engines.Copies) {channels nearRate farRate delay : Nat}
    (hinit : c.init engines channels nearRate farRate delay = .ok (c', .ok .initialized))
    (hs : c'.session = some s) (hrate : s.rate = nearRate) (hone : s.bands = 1)
    {ops : List Operation} (hops : ∀ op ∈ ops, op.Streams) :
    Returns (c'.run engines ops) fun r => r.1.stats.droppedNearend = 0 →
      r.2.heard <+: r.2.taken .nearend ∧
        (r.2.Drained → r.2.heard.length =
          (r.2.taken .nearend).length / c'.frameBytes * c'.frameBytes) := by
  have hstart := passing_init hinit hs hrate hone
  have hbytes : c'.frameBytes = s.frameBytes := by rw [frameBytes, hs]; rfl
  refine (run_returns engines (I := fun c t => ∃ s', Passing s.frameBytes c t s')
    (fun c t op ⟨s', h⟩ hop => h.apply hcopies hop) ⟨s, hstart⟩ hops).mono fun r ⟨s', h⟩ hzero => ?_
  rw [List.nil_append] at h
  rw [stats, h.session] at hzero
  rw [hbytes]
  exact ⟨h.heard_prefix hzero, h.length_heard hzero⟩

/-- At 8 kHz, of one frame and three bytes the frame is handed out. -/
theorem run_passes_through_bypass :
    ∃ (c : Context Int16 Bypass.family) (s : Session Bypass.family)
      (r : Context Int16 Bypass.family × Transcript),
      (new { ringSize := 1024 } ()).init (Bypass.engines Int16 48000) 1 8000 8000 0 =
          .ok (c, .ok .initialized) ∧
        c.session = some s ∧ s.rate = 8000 ∧ s.bands = 1 ∧
        c.run (Bypass.engines Int16 48000) [.setFarendReady true, .setNearendReady true,
          .pushNearend (List.replicate 163 7), .tryProcess (List.replicate 200 0)] = .ok r ∧
        r.1.stats.droppedNearend = 0 ∧ r.2.heard.length = 160 ∧
        r.2.heard <+: r.2.taken .nearend := by
  obtain ⟨c, s, hinit, hs, hrate, hone⟩ : ∃ (c : Context Int16 Bypass.family)
      (s : Session Bypass.family),
      (new { ringSize := 1024 } ()).init (Bypass.engines Int16 48000) 1 8000 8000 0 =
          .ok (c, .ok .initialized) ∧
        c.session = some s ∧ s.rate = 8000 ∧ s.bands = 1 := ⟨_, _, rfl, rfl, rfl, rfl⟩
  have hstreams : ∀ op ∈ [Operation.setFarendReady true, .setNearendReady true,
      .pushNearend (List.replicate 163 7), .tryProcess (List.replicate 200 0)], op.Streams := by
    simp [Operation.Streams]
  obtain ⟨r, hr, hpasses⟩ :=
    run_passes_through (Bypass.engines_copies Int16 48000) hinit hs hrate hone hstreams
  have hvalues : ((new { ringSize := 1024 } () : Context Int16 Bypass.family).init
      (Bypass.engines Int16 48000) 1 8000 8000 0 >>=
      fun q => q.1.run (Bypass.engines Int16 48000) [.setFarendReady true, .setNearendReady true,
        .pushNearend (List.replicate 163 7), .tryProcess (List.replicate 200 0)] >>=
      fun r => .ok (r.1.stats.droppedNearend, r.2.heard.length)) = .ok (0, 160) := by
    decide +kernel
  rw [hinit, ok_bind, hr, ok_bind, Except.ok.injEq, Prod.mk.injEq] at hvalues
  exact ⟨c, s, r, hinit, hs, hrate, hone, hr, hvalues.1, hvalues.2, (hpasses hvalues.1).1⟩

end Context

end Duplex
