import Duplex.Proofs.ByteCodec
import Duplex.Proofs.Conversion
import Duplex.Proofs.Remapping
import Duplex.Proofs.Spectral

/-!
# Intakes that use their buffers again

`Intake.push` decodes, maps and resamples into lists of its own. A `Workspace` keeps three buffers for
that from one push to the next: two are brought to the size that is needed, with whatever they hold,
and written over, and the third is emptied and appended to. Since the sizes are just right, nothing of
an earlier push is left in them (`push_eq`). So whatever the buffers hold, from a flush on pushes of any
length convert the stream that they are cut from, and queue as many whole frames of it as fit
(`performAll_converts`).
-/

namespace Duplex

open Signal
open Pcm (Layout)

namespace Intake

variable {R : Resampling} {l : Layout}

/-- An intake with the buffers that it decodes, maps and resamples into. -/
structure Workspace (R : Resampling) where
  intake : Intake R
  decoded : List Int16
  mapped : List Int16
  adapted : List Int16

namespace Workspace

/-- Convert the whole frames through the buffers, and queue them. -/
def push (w : Workspace R) (bytes : List UInt8) :
    Checked (Workspace R × Except RateAdapter.Error Nat) := do
  let i := w.intake
  let carry := i.carry ++ bytes
  let whole := carry.length - carry.length % (i.format.channels * 2)
  let (_, decoded) := Pcm.decodeInto (carry.take whole) (fit (whole / 2) 0 w.decoded)
  let frames := decoded.length / i.format.channels
  let (_, mapped) ← Pcm.remapInto decoded i.format.channels i.layout.channels
    (fit (frames * i.layout.channels) 0 w.mapped)
  let w := { w with intake := { i with carry := carry.drop whole }, decoded, mapped }
  match i.adapter with
  | none =>
    let (intake, dropped) := w.intake.enqueue (Pcm.encode mapped)
    return ({ w with intake }, .ok dropped)
  | some a =>
    let (a, made, result) := a.process mapped
    let w := { w with
      intake := { w.intake with adapter := some a }, adapted := w.adapted.take 0 ++ made }
    match result with
    | .error e => return (w, .error e)
    | .ok () =>
      let (intake, dropped) := w.intake.enqueue (Pcm.encode w.adapted)
      return ({ w with intake }, .ok dropped)

/-- Make one call. -/
def perform (w : Workspace R) : Call → Checked (Workspace R × Reply)
  | .push bytes => do
    let (w, result) ← w.push bytes
    return (w, .dropped result)
  | .read n =>
    let (intake, bytes) := w.intake.read n
    return ({ w with intake }, .taken bytes)

/-- Drop everything that is queued or on its way. The buffers stay as they are. -/
def flush (w : Workspace R) : Workspace R := { w with intake := w.intake.flush }

/-- A push leaves nothing in the buffers but its own samples. -/
theorem push_eq (w : Workspace R) (bytes : List UInt8) :
    ∃ w', w.push bytes = .ok (w', (w.intake.push bytes).2) ∧ w'.intake = (w.intake.push bytes).1 := by
  obtain ⟨i, old, older, oldest⟩ := w
  obtain ⟨carry, hcarry⟩ : ∃ carry, i.carry ++ bytes = carry := ⟨_, rfl⟩
  obtain ⟨whole, hwhole⟩ : ∃ whole, carry.length / (i.format.channels * 2) * (i.format.channels * 2) =
    whole := ⟨_, rfl⟩
  have hcut : carry.length - carry.length % (i.format.channels * 2) = whole := by
    have := Nat.div_add_mod' carry.length (i.format.channels * 2)
    omega
  have hframes : i.format.layout.channels ∣ (Pcm.decode (carry.take whole)).length := by
    rw [← hwhole, take_eq_flatten_blocks i.frame_pos]
    exact i.dvd_length_decode_blocks carry
  have hsize : (fit (whole / 2) 0 old).length = (carry.take whole).length / 2 := by
    rw [length_fit, List.length_take, Nat.min_eq_left (by omega)]
  have hmapped := Pcm.becomesIn_remap (t := i.layout) hframes (fit _ 0 older) (length_fit _ _ _)
  simp only [push, Intake.push, convert, hcarry, hcut, hwhole, Pcm.decodeInto_whole hsize]
  rw [StreamFormat.channels, hmapped, ok_bind]
  cases i.adapter with
  | none => exact ⟨_, rfl, rfl⟩
  | some a =>
    dsimp only
    rw [List.take_zero, List.nil_append]
    obtain ⟨a', made, result, hprocess⟩ : ∃ a' made result,
        a.process (i.format.layout.remap i.layout (Pcm.decode (carry.take whole))) =
          (a', made, result) := ⟨_, _, _, rfl⟩
    rw [hprocess]
    cases result with
    | error e => exact ⟨_, rfl, rfl⟩
    | ok => exact ⟨_, rfl, rfl⟩

/-- Nor does any other call look at them. -/
theorem perform_eq (w : Workspace R) (call : Call) :
    ∃ w', w.perform call = .ok (w', (w.intake.perform call).2) ∧
      w'.intake = (w.intake.perform call).1 := by
  cases call with
  | push bytes =>
    obtain ⟨w', hpush, hintake⟩ := w.push_eq bytes
    exact ⟨w', by rw [perform, hpush]; rfl, hintake⟩
  | read n => exact ⟨_, rfl, rfl⟩

/-- Whatever the buffers hold, a run of calls faults nowhere, and answers and queues what it does
without them. -/
theorem run_eq (w : Workspace R) (calls : List Call) :
    ∃ w', runChecked perform w calls = .ok (w', (runAll Intake.perform w.intake calls).2) ∧
      w'.intake = (runAll Intake.perform w.intake calls).1 := by
  have hstep (w : Workspace R) (i : Intake R) (call : Call) (hw : w.intake = i) (_ : True) :
      ∃ w', w.perform call = .ok (w', (i.perform (id call)).2) ∧
        w'.intake = (i.perform (id call)).1 := hw ▸ w.perform_eq call
  have hrun := runChecked_simulates hstep (rfl : w.intake = w.intake)
    fun call (_ : call ∈ calls) => trivial
  rwa [List.map_id] at hrun

end Workspace

/-- Take a resampler that refuses no block, and an intake with any buffers. From a flush on, whatever is
pushed and whole frames are read, no call faults or fails: what the pushes are converted to, one after
another, is the conversion of all pushed bytes as one stream by the adapter that the flush leaves; of
each piece the longest run of whole frames that fits is queued behind what is there and the rest is
counted as dropped; less than a frame is carried and only whole frames are queued. The frames taken off
and still queued are frames of the converted stream, in order. Where a reset renews resamplers, the
adapter is a new one between the two rates. -/
theorem performAll_converts (hR : R.Unfailing) {w : Workspace R} (hw : Used l w.intake)
    {calls : List Call} (hreads : ∀ n, .read n ∈ calls → l.channels * 2 ∣ n) :
    ∃ w' pieces replies, runChecked Workspace.perform w.flush calls = .ok (w', replies) ∧
      pieces.flatten =
        convertStream w.intake.format.layout l w.flush.intake.adapter (pushed calls) ∧
      w.flush.intake.ring.toList = [] ∧
      Served l w.flush.intake calls pieces replies w'.intake ∧
      (blocks (l.channels * 2) (delivered replies ++ w'.intake.ring.toList)).Sublist
        (blocks (l.channels * 2) pieces.flatten) ∧
      (R.Renewed → (adapterBetween w.intake.format.rate w.intake.rate l.channels).run =
        .ok (.ok w.flush.intake.adapter)) := by
  have hempty : w.flush.intake.ring.toList = [] := ByteRing.toList_flush _
  have haligned := hw.sound.flush.aligned hempty
  obtain ⟨pieces, hpieces, hserved⟩ := haligned.run (fun _ => hR) hreads
  obtain ⟨w', hrun, hw'⟩ := w.flush.run_eq calls
  change Served l w.flush.intake calls pieces (runAll perform w.flush.intake calls).2
    (runAll perform w.flush.intake calls).1 at hserved
  rw [← hw'] at hserved
  refine ⟨w', pieces, _, hrun, ?_, hempty, hserved, ?_, fun hN => hw.sound.renewed hN⟩
  · rw [hpieces]
    exact emit_of_carry hw.sound.flush rfl _
  · have hframes := hserved.frames_sublist hreads
    rwa [hempty, List.nil_append] at hframes

/-- Stereo from 8 kHz to 16 kHz in a ring of 256 bytes, which has room for 63 frames, with something in
the buffers. Eighty frames in two pushes, cut within a frame, and a byte become 160 frames, of which 63
are queued; two of them are read. -/
theorem performAll_converts_stereo :
    ∃ (w w' : Workspace Resample.spectral) (calls : List Call) (pieces : List (List UInt8))
        (replies : List Reply),
      Used .stereo w.intake ∧ w.decoded = [1, 2, 3] ∧ w.mapped = [4] ∧ w.adapted = [5, 6] ∧
      calls = [.push [1, 2, 3], .push (List.replicate 318 0), .read 8] ∧
      (∀ n, .read n ∈ calls → Layout.stereo.channels * 2 ∣ n) ∧
      runChecked Workspace.perform w.flush calls = .ok (w', replies) ∧
      (delivered replies).length = 8 ∧ w'.intake.avail = 244 ∧
      (adapterBetween 8000 16000 2).run = .ok (.ok w.flush.intake.adapter) ∧
      pieces.flatten = convertStream .stereo .stereo w.flush.intake.adapter (pushed calls) ∧
      Served .stereo w.flush.intake calls pieces replies w'.intake := by
  let calls : List Call := [.push [1, 2, 3], .push (List.replicate 318 0), .read 8]
  obtain ⟨ring, i, hring, hi, hlayout, hrate, hcounts⟩ :
      ∃ (ring : ByteRing) (i : Intake Resample.spectral), ByteRing.ofCapacity 256 = .ok ring ∧
        (create ⟨8000, .stereo, by decide, by decide, by decide⟩ 16000 .stereo ring).run =
          .ok (.ok i) ∧
        i.format.layout = .stereo ∧ (i.format.rate, i.rate) = (8000, 16000) ∧
        (runChecked Workspace.perform (Workspace.flush ⟨i, [1, 2, 3], [4], [5, 6]⟩) calls).map
          (fun r => ((delivered r.2).length, r.1.intake.avail)) = .ok (8, 244) :=
    ⟨_, _, rfl, rfl, rfl, rfl, by decide +kernel⟩
  have hused : Used .stereo i := .create hring hi
  have hreads : ∀ n, .read n ∈ calls → Layout.stereo.channels * 2 ∣ n := by
    intro n hn
    simp only [calls, List.mem_cons, List.not_mem_nil, or_false, reduceCtorEq, false_or,
      Call.read.injEq] at hn
    subst hn
    decide
  obtain ⟨w', pieces, replies, hrun, hpieces, -, hserved, -, hadapter⟩ :=
    performAll_converts Resample.spectral_unfailing (w := ⟨i, [1, 2, 3], [4], [5, 6]⟩) hused hreads
  rw [hrun] at hcounts
  obtain ⟨hdelivered, havail⟩ := Prod.mk.inj (Except.ok.inj hcounts)
  obtain ⟨hformat, hprocessing⟩ := Prod.mk.inj hrate
  have hnew := hadapter Resample.spectral_renewed
  rw [hformat, hprocessing] at hnew
  rw [hlayout] at hpieces
  exact ⟨_, w', calls, pieces, replies, hused, rfl, rfl, rfl, rfl, hreads, hrun, hdelivered, havail,
    hnew, hpieces, hserved⟩

end Intake

end Duplex
