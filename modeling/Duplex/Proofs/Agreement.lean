import Duplex.Proofs.Chunking
import Duplex.Proofs.Moving
import Duplex.Proofs.PassThrough

/-!
# Agreement: what answers depend on

Two sessions are alike if the same is queued, carried, on its way and pending in both, wherever in
the ring it is, and whatever else there is in their lanes, their farend and their counters
(`Session.Alike`). With copying engines and one band, calls that move audio are answered alike in
both and leave them alike (`Alike.apply`), and so are runs of such calls (`Alike.run`).
-/

namespace Duplex

open Signal Engine

variable {S : Type} {F : Family} {R : Resampling}

/-- Rings of the same size that queue the same, wherever in their regions. -/
structure ByteRing.Alike (r r' : ByteRing) : Prop where
  capacity : r'.capacity = r.capacity
  toList : r'.toList = r.toList

namespace ByteRing.Alike

variable {r r' : ByteRing}

theorem avail (h : r.Alike r') : r'.avail = r.avail := by
  rw [← length_toList, ← length_toList, h.toList]

theorem free (h : r.Alike r') : r'.free = r.free := by
  rw [ByteRing.free, ByteRing.free, h.capacity, h.avail]

theorem write (h : r.Alike r') (bytes : List UInt8) : (r.write bytes).2.Alike (r'.write bytes).2 := by
  refine ⟨h.capacity, ?_⟩
  rw [toList_write, toList_write, h.toList, h.free]

end ByteRing.Alike

namespace Intake

/-- Intakes that differ in nothing but where in the ring the bytes are. -/
structure Alike (i i' : Intake R) : Prop where
  same : i' = i.rering i'.ring
  ring : i.ring.Alike i'.ring

variable {i i' : Intake R}

theorem Alike.push (h : i.Alike i') (bytes : List UInt8) : (i.push bytes).1.Alike (i'.push bytes).1 := by
  have hring : (i.emit bytes).1.ring = i.ring := by rw [emit_same]
  have hemit : i'.emit bytes = ((i.emit bytes).1.rering i'.ring, (i.emit bytes).2) := by
    rw [← emit_rering, ← h.same]
  have houtcome : i'.outcome bytes = i.outcome bytes := by
    rw [h.same]
    exact i.outcome_rering i'.ring bytes
  cases hout : i.outcome bytes with
  | error e =>
    rw [push_failed hout, push_failed (houtcome.trans hout), hemit]
    exact ⟨rfl, hring ▸ h.ring⟩
  | ok done =>
    rw [push_ok hout, push_ok (houtcome.trans hout), hemit]
    refine ⟨rfl, ?_⟩
    show ByteRing.Alike ((i.emit bytes).1.ring.write _).2 (i'.ring.write _).2
    rw [show ((i.emit bytes).1.rering i'.ring).ring = i'.ring from rfl, hring, h.ring.free]
    exact h.ring.write _

theorem Alike.read (h : i.Alike i') (n : Nat) : (i.read n).1.Alike (i'.read n).1 := by
  refine ⟨?_, ?_, ?_⟩
  · rw [read_eq, read_eq]
    show i'.rering _ = _
    rw [h.same]
    rfl
  · rw [read_eq, read_eq]
    exact h.ring.capacity
  · rw [toList_read, toList_read, h.ring.toList]

/-- A flush leaves no difference but in how a stream is converted. -/
theorem flush_alike (hformat : i'.format = i.format) (hrate : i'.rate = i.rate)
    (hlayout : i'.layout = i.layout)
    (hadapter : i'.adapter.map (·.reset) = i.adapter.map (·.reset))
    (hcapacity : i'.ring.capacity = i.ring.capacity) : i.flush.Alike i'.flush := by
  refine ⟨?_, hcapacity, ?_⟩
  · unfold flush rering
    rw [hformat, hrate, hlayout, hadapter]
  · exact (ByteRing.toList_flush _).trans (ByteRing.toList_flush _).symm

end Intake

namespace Session

/-- Sessions in which the same nearend audio is buffered in the same formats. -/
structure Alike (s s' : Session F) : Prop where
  layout : s'.layout = s.layout
  frames : s'.frames = s.frames
  bands : s'.bands = s.bands
  nearend : s.nearend.Alike s'.nearend
  outputAdapter : s'.outputAdapter = s.outputAdapter
  pending : s'.pending = s.pending

variable {s s' t t' : Session F}

theorem Alike.frameBytes (h : s.Alike s') : s'.frameBytes = s.frameBytes := by
  rw [Session.frameBytes, Session.frameBytes, frameLength, frameLength, h.layout, h.frames]

theorem Alike.works (h : s.Alike s') (hw : s.Works) : s'.Works :=
  ⟨h.frames ▸ hw.frames_pos, h.frames ▸ h.bands ▸ hw.workable, h.frames ▸ h.bands ▸ hw.dvd⟩

/-- Nothing else matters. -/
theorem Alike.of_same (h : s.Alike s')
    (ht : t = { s with
      rate := t.rate, delay := t.delay, healthy := t.healthy, micLevel := t.micLevel
      farend := t.farend, lanes := t.lanes, stats := t.stats })
    (ht' : t' = { s' with
      rate := t'.rate, delay := t'.delay, healthy := t'.healthy, micLevel := t'.micLevel
      farend := t'.farend, lanes := t'.lanes, stats := t'.stats }) : t.Alike t' := by
  rw [ht, ht']
  exact ⟨h.layout, h.frames, h.bands, h.nearend, h.outputAdapter, h.pending⟩

variable [Sample S] [Sample.Exact S] {engines : Engines S F} {settings settings' : FrameSettings}
  {bytes bytes' : List UInt8} {outs outs' : List (List UInt8)} {missing : Nat}

/-- Steps give the same. -/
theorem FrameStep.alike (hcopies : engines.Copies) (hs : s.Sound) (hs' : s'.Sound)
    (hset : settings.For s.frames s.bands) (hset' : settings'.For s'.frames s'.bands)
    (hw : s.Works) (hone : s.bands = 1) (ha : s.Alike s') (h : s.FrameStep engines settings bytes t)
    (h' : s'.FrameStep engines settings' bytes' t') : bytes' = bytes ∧ t.Alike t' := by
  obtain ⟨hbytes, hout⟩ := h.hears hcopies hs hset hw hone
  obtain ⟨hbytes', hout'⟩ := h'.hears hcopies hs' hset' (ha.works hw) (ha.bands.trans hone)
  obtain ⟨-, hnear, hpending, -⟩ := h.rest
  obtain ⟨-, hnear', hpending', -⟩ := h'.rest
  have hkin := h.kin
  have hkin' := h'.kin
  rw [ha.nearend.ring.toList, ha.frameBytes] at hbytes' hout'
  obtain ⟨hsame, hnext⟩ := convertOutput_congr ha.outputAdapter
    (Pcm.decode (s.nearend.ring.toList.take s.frameBytes))
  refine ⟨by rw [hbytes', hbytes, hsame], ?_, ?_, ?_, ?_, by rw [hout', hout, hnext], ?_⟩
  · rw [hkin'.layout, hkin.layout, ha.layout]
  · rw [hkin'.frames, hkin.frames, ha.frames]
  · rw [hkin'.bands, hkin.bands, ha.bands]
  · rw [hnear', hnear, ha.frameBytes]
    exact ha.nearend.read _
  · rw [hpending', hpending, ha.pending]

/-- So does the loop of buffered processing. -/
theorem Drains.alike (hcopies : engines.Copies) (hs : s.Sound) (hs' : s'.Sound)
    (hset : settings.For s.frames s.bands) (hset' : settings'.For s'.frames s'.bands)
    (hw : s.Works) (hone : s.bands = 1) (ha : s.Alike s') (h : Drains engines settings missing s outs t)
    (h' : Drains engines settings' missing s' outs' t') : outs' = outs ∧ t.Alike t' := by
  have hstop : s'.nearend.ring.avail < s'.frameBytes ↔ s.nearend.ring.avail < s.frameBytes := by
    rw [ha.nearend.ring.avail, ha.frameBytes]
  induction h generalizing s' outs' with
  | done stop =>
    cases h' with
    | done => exact ⟨rfl, ha⟩
    | frame wanted step =>
      have hfull := step.full
      omega
  | @frame missing s t u bytes outs wanted step rest ih =>
    cases h' with
    | done stop =>
      have hfull := step.full
      omega
    | @frame _ _ v _ bytes' outs' _ step' rest' =>
      obtain ⟨rfl, hnext⟩ := step.alike hcopies hs hs' hset hset' hw hone ha step'
      have hkin := step.kin
      have hkin' := step'.kin
      obtain ⟨rfl, hlast⟩ := ih (hkin.sound hs) (hkin'.sound hs') (hkin.settings hset)
        (hkin'.settings hset') (hkin.works hw) (hkin.bands.trans hone) hnext rest'
        (by rw [hnext.nearend.ring.avail, hnext.frameBytes])
      exact ⟨rfl, hlast⟩

end Session

namespace Context

/-- A session with other audio, and as healthy, takes audio as before. -/
theorem shouldRunEcho_congr {c d : Context S F} {s t : Session F} (hs : c.session = some s)
    (hd : d = { c with session := some t, workshop := d.workshop }) (hhealthy : t.healthy = s.healthy) :
    d.shouldRunEcho = c.shouldRunEcho := by
  unfold shouldRunEcho stageEnabled
  rw [hd, hs, Option.any_some, Option.any_some, hhealthy]

/-- While audio is not taken, a push does nothing. -/
theorem push_shut {c : Context S F} {s : Session F} (hs : c.session = some s)
    (hgate : c.shouldRunEcho = false) (bytes : List UInt8) :
    c.pushFarend bytes = (c, .ok 0) ∧ c.pushNearend bytes = (c, .ok 0) := by
  unfold pushFarend pushNearend
  simp only [hs, hgate, Bool.false_eq_true, if_false]
  exact ⟨trivial, trivial⟩

/-- Contexts with sessions of one band that are alike and work, and which both take audio or both do
not. -/
structure Alike (c c' : Context S F) : Prop where
  sound : c.Sound
  sound' : c'.Sound
  gate : c'.shouldRunEcho = c.shouldRunEcho
  session : ∃ s s', c.session = some s ∧ c'.session = some s' ∧ s.Works ∧ s.bands = 1 ∧ s.Alike s'

variable [Sample S] [Sample.Exact S] {engines : Engines S F} {c c' : Context S F}

omit [Sample.Exact S] in
/-- Calls that only change the audio of sessions, and leave the sessions alike, leave the contexts
alike. -/
theorem Alike.of_sessions [Sample.Lawful S] (h : c.Alike c') {op : Operation}
    {answer answer' : Answer} {d d' : Context S F} {s s' t t' : Session F}
    (happly : c.apply engines op = .ok (d, answer)) (happly' : c'.apply engines op = .ok (d', answer'))
    (hs : c.session = some s) (hs' : c'.session = some s')
    (hd : d = { c with session := some t, workshop := d.workshop })
    (hd' : d' = { c' with session := some t', workshop := d'.workshop })
    (hkin : s.Kin t) (hkin' : s'.Kin t') (hw : s.Works) (hone : s.bands = 1) (ha : t.Alike t') :
    d.Alike d' := by
  refine ⟨apply_sound engines h.sound happly, apply_sound engines h.sound' happly', ?_, t, t', ?_, ?_,
    hkin.works hw, hkin.bands.trans hone, ha⟩
  · rw [shouldRunEcho_congr hs hd hkin.healthy, shouldRunEcho_congr hs' hd' hkin'.healthy, h.gate]
  · rw [hd]
  · rw [hd']

/-- As long as no resampler refuses a block, calls that move audio are answered alike and leave
contexts alike. -/
theorem Alike.apply (hR : F.resampling.Unfailing) (hcopies : engines.Copies) (h : c.Alike c')
    {op : Operation} (hop : op.MovesAudio) :
    Returns (c.apply engines op) fun r => Returns (c'.apply engines op) fun r' =>
      r'.2 = r.2 ∧ r.1.Alike r'.1 := by
  obtain ⟨s, s', hs, hs', hw, hone, ha⟩ := h.session
  have hvalid := h.sound s hs
  have hvalid' := h.sound' s' hs'
  cases op with
  | pushFarend bytes =>
    rcases hgate : c.shouldRunEcho
    · rw [Context.apply, Context.apply, (push_shut hs hgate bytes).1,
        (push_shut hs' (h.gate.trans hgate) bytes).1]
      exact returns_ok (returns_ok ⟨rfl, h⟩)
    · obtain ⟨w, hpush⟩ := pushFarend_open hs hgate bytes
      obtain ⟨w', hpush'⟩ := pushFarend_open hs' (h.gate.trans hgate) bytes
      obtain ⟨dropped, hok⟩ := Intake.push_answers hvalid.farend (fun _ => hR) bytes
      obtain ⟨dropped', hok'⟩ := Intake.push_answers hvalid'.farend (fun _ => hR) bytes
      rw [hok] at hpush
      rw [hok'] at hpush'
      have happly (c : Context S F) : c.apply engines (.pushFarend bytes) =
          .ok ((c.pushFarend bytes).1, .taken (c.pushFarend bytes).2) := rfl
      have hopen := hpush ▸ happly c
      have hopen' := hpush' ▸ happly c'
      rw [hopen, hopen']
      refine returns_ok (returns_ok ⟨rfl, ?_⟩)
      exact h.of_sessions hopen hopen' hs hs' rfl rfl
        (s.kin_intakes _ _ _ (fun hs => Intake.push_sound hs bytes) (fun hs => hs) rfl)
        (s'.kin_intakes _ _ _ (fun hs => Intake.push_sound hs bytes) (fun hs => hs) rfl) hw hone
        (ha.of_same rfl rfl)
  | pushNearend bytes =>
    rcases hgate : c.shouldRunEcho
    · rw [Context.apply, Context.apply, (push_shut hs hgate bytes).2,
        (push_shut hs' (h.gate.trans hgate) bytes).2]
      exact returns_ok (returns_ok ⟨rfl, h⟩)
    · obtain ⟨w, hpush⟩ := pushNearend_open hs hgate bytes
      obtain ⟨w', hpush'⟩ := pushNearend_open hs' (h.gate.trans hgate) bytes
      obtain ⟨dropped, hok⟩ := Intake.push_answers hvalid.nearend (fun _ => hR) bytes
      obtain ⟨dropped', hok'⟩ := Intake.push_answers hvalid'.nearend (fun _ => hR) bytes
      rw [hok] at hpush
      rw [hok'] at hpush'
      have happly (c : Context S F) : c.apply engines (.pushNearend bytes) =
          .ok ((c.pushNearend bytes).1, .taken (c.pushNearend bytes).2) := rfl
      have hopen := hpush ▸ happly c
      have hopen' := hpush' ▸ happly c'
      rw [hopen, hopen']
      refine returns_ok (returns_ok ⟨rfl, ?_⟩)
      exact h.of_sessions hopen hopen' hs hs' rfl rfl
        (s.kin_intakes _ _ _ (fun hs => hs) (fun hs => Intake.push_sound hs bytes)
          (s.nearend.push_format bytes))
        (s'.kin_intakes _ _ _ (fun hs => hs) (fun hs => Intake.push_sound hs bytes)
          (s'.nearend.push_format bytes)) hw hone
        ⟨ha.layout, ha.frames, ha.bands, ha.nearend.push bytes, ha.outputAdapter, ha.pending⟩
  | tryProcess dest =>
    have hsound := hvalid.sound
    have hsound' := hvalid'.sound
    obtain ⟨⟨d, out, result⟩, hr, u, outs, n, hdrains, hn, hd, hanswer⟩ :=
      tryProcess_drains engines hs hsound hw (hvalid.returning hR) dest
    obtain ⟨⟨d', out', result'⟩, hr', u', outs', n', hdrains', hn', hd', hanswer'⟩ :=
      tryProcess_drains engines hs' hsound' (ha.works hw) (hvalid'.returning hR) dest
    rw [ha.pending] at hdrains' hn' hd' hanswer'
    obtain ⟨rfl, hlast⟩ := hdrains.alike hcopies hsound hsound' (c.frameSettings_for s true)
      (c'.frameSettings_for s' true) hw hone ha hdrains'
    obtain rfl : n' = n := hn'.trans hn.symm
    have happly : c.apply engines (.tryProcess dest) = .ok (d, .bytes out result) := by
      rw [Context.apply, hr]
      rfl
    have happly' : c'.apply engines (.tryProcess dest) = .ok (d', .bytes out' result') := by
      rw [Context.apply, hr']
      rfl
    obtain ⟨rfl, rfl⟩ := Prod.mk.inj (hanswer'.trans hanswer.symm)
    rw [happly, happly']
    refine returns_ok (returns_ok ⟨rfl, ?_⟩)
    exact h.of_sessions happly happly' hs hs' hd hd'
      (hdrains.frames.kin.trans (Session.kin_pending u _))
      (hdrains'.frames.kin.trans (Session.kin_pending u' _)) hw hone
      ⟨hlast.layout, hlast.frames, hlast.bands, hlast.nearend, hlast.outputAdapter, rfl⟩
  | _ => exact hop.elim

/-- So are runs of such calls. -/
theorem Alike.run (hR : F.resampling.Unfailing) (hcopies : engines.Copies) (h : c.Alike c')
    {ops : List Operation}
    (hops : ∀ op ∈ ops, op.MovesAudio) :
    Returns (c.run engines ops) fun r => Returns (c'.run engines ops) fun r' =>
      r'.2 = r.2 ∧ r.1.Alike r'.1 := by
  induction ops generalizing c c' with
  | nil => exact returns_ok (returns_ok ⟨rfl, h⟩)
  | cons op ops ih =>
    rw [List.forall_mem_cons] at hops
    obtain ⟨d, hd, d', hd', hanswer, hnext⟩ := h.apply hR hcopies hops.1
    obtain ⟨r, hr, r', hr', hanswers, hlast⟩ := ih hnext hops.2
    rw [run_cons, run_cons, hd, hd', ok_bind, ok_bind, hr, hr']
    refine returns_ok (returns_ok ⟨?_, hlast⟩)
    show (op, d'.2) :: r'.2 = (op, d.2) :: r.2
    rw [hanswer, hanswers]

end Context

end Duplex
