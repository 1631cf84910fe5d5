import Duplex.Proofs.Intake
import Duplex.Proofs.Runs
import Mathlib.Order.Bounds.Basic

/-!
# Intakes: the conversion of a whole stream

`convertStream` decodes, maps and resamples a stream in one go, without a ring, carried bytes or
pushes. With an unfailing resampler an intake that carries nothing makes of any pushes, however they
are cut, what `convertStream` makes of their concatenation; each push queues the longest run of whole
frames that fits, and between calls only whole frames are queued (`Aligned.run`). A frame is queued or
dropped as a whole, so the channels keep their places (`Served.frames_sublist`).
-/

namespace Duplex

open Signal
open Pcm (Layout)

variable {R : Resampling}

/-- What a stream of one layout is converted to as a whole: its whole frames, mapped and resampled,
and encoded again. -/
def convertStream (source target : Layout) (adapter : Option (RateAdapter R)) (bytes : List UInt8) :
    List UInt8 :=
  let frame := source.channels * 2
  let mapped := source.remap target (Pcm.decode (bytes.take (bytes.length / frame * frame)))
  Pcm.encode (match adapter with
    | none => mapped
    | some a => (a.process mapped).2.1)

namespace Intake

variable {i j : Intake R} {l : Layout}

/-! ### Intakes in use -/

/-- An intake for the given layout that was made with an empty ring of some size and used since. -/
inductive Used (l : Layout) : Intake R → Prop
  | create {format : StreamFormat} {rate size : Nat} {ring : ByteRing} {i : Intake R}
    (hring : ByteRing.ofCapacity size = .ok ring)
    (hi : (create format rate l ring).run = .ok (.ok i)) : Used l i
  | setFormat {format : StreamFormat} {i j : Intake R} (hi : Used l i)
    (hj : (i.setFormat format).run = .ok (.ok j)) : Used l j
  | flush {i : Intake R} (hi : Used l i) : Used l i.flush
  | push {i : Intake R} (hi : Used l i) (bytes : List UInt8) : Used l (i.push bytes).1
  | read {i : Intake R} (hi : Used l i) (n : Nat) : Used l (i.read n).1

theorem Used.sound (h : Used l i) : i.Sound l := by
  induction h with
  | create hring hi => exact create_sound hi
  | setFormat hi hj ih => exact setFormat_sound ih hj
  | flush hi ih => exact ih.flush
  | push hi bytes ih => exact push_sound ih bytes
  | read hi n ih => exact read_sound ih n

/-- Where a reset renews resamplers, the adapter of a flushed intake is a new one between the rate of
the stream and that of processing. -/
theorem Sound.renewed (hR : R.Renewed) (h : i.Sound l) :
    (adapterBetween i.format.rate i.rate l.channels).run = .ok (.ok i.flush.adapter) :=
  h.adapter.renewed hR

/-- An intake for a stream of a rate, with the layout of processing, that was not used yet. -/
structure Opened (i : Intake R) (l : Layout) (streamRate rate : Nat) : Prop where
  used : Used l i
  adapter : (adapterBetween streamRate rate l.channels).run = .ok (.ok i.adapter)
  stream : i.format.rate = streamRate
  layout : i.format.layout = l
  rate : i.rate = rate
  queued : i.ring.toList = []
  carried : i.carry = []

theorem opened_of_create {format : StreamFormat} {rate size : Nat} {ring : ByteRing}
    (hring : ByteRing.ofCapacity size = .ok ring)
    (hi : (create format rate l ring).run = .ok (.ok i)) (hlayout : format.layout = l) :
    i.Opened l format.rate rate := by
  have hused : Used l i := .create hring hi
  have hempty := ByteRing.toList_eq_nil (ByteRing.meet_of_ofCapacity hring)
  obtain ⟨adapter, hadapter, rfl⟩ := create_cases hi
  exact ⟨hused, hadapter, rfl, hlayout, rfl, hempty, rfl⟩

/-! ### Whole frames in the queue -/

/-- Where nothing is carried, what is emitted is the conversion of the whole stream. -/
theorem emit_of_carry (h : i.Sound l) (hcarry : i.carry = []) (bytes : List UInt8) :
    (i.emit bytes).2 = convertStream i.format.layout l i.adapter bytes := by
  rw [emit_eq, ← take_eq_flatten_blocks i.frame_pos, hcarry, List.nil_append]
  show Pcm.encode (i.convert _).2.1 = _
  unfold convertStream convert
  rw [h.layout]
  cases i.adapter <;> rfl

/-- What an intake that was not used yet emits is the conversion of the whole stream. -/
theorem Opened.emit {streamRate rate : Nat} (h : i.Opened l streamRate rate) (bytes : List UInt8) :
    (i.emit bytes).2 = convertStream l l i.adapter bytes := by
  rw [emit_of_carry h.used.sound h.carried, h.layout]

/-- What holds between calls: only whole frames are queued, and less than a frame is carried. -/
def Whole (l : Layout) (i : Intake R) : Prop :=
  i.carry.length < i.format.channels * 2 ∧ l.channels * 2 ∣ i.avail

/-- A sound intake that queues only whole frames. -/
structure Aligned (i : Intake R) (l : Layout) : Prop extends i.Sound l where
  avail : l.channels * 2 ∣ i.avail

theorem Aligned.whole (h : i.Aligned l) : i.Whole l := ⟨h.carry_lt, h.avail⟩

/-- An empty queue has whole frames. -/
theorem Sound.aligned (h : i.Sound l) (hempty : i.ring.toList = []) : i.Aligned l := by
  refine ⟨h, ?_⟩
  show _ ∣ i.ring.avail
  rw [← ByteRing.length_toList, hempty]
  exact Nat.dvd_zero _

/-- Emitting leaves the queue alone. -/
theorem Aligned.emit (h : i.Aligned l) (bytes : List UInt8) : (i.emit bytes).1.Aligned l := by
  refine ⟨emit_sound h.toSound bytes, ?_⟩
  rw [emit_same]
  exact h.avail

/-- The longest run of whole frames that are there and fit. -/
def Fits (frame length room : Nat) (k : Nat) : Prop :=
  IsGreatest {m | frame ∣ m ∧ m ≤ length ∧ m ≤ room} k

theorem fits_min {frame length room : Nat} (hframe : 0 < frame) (h : frame ∣ length) :
    Fits frame length room (min (room / frame * frame) length) := by
  refine ⟨⟨?_, Nat.min_le_right _ _, ?_⟩, ?_⟩
  · rcases Nat.le_total (room / frame * frame) length with hle | hle
    · rw [Nat.min_eq_left hle]
      exact Nat.dvd_mul_left _ _
    · rwa [Nat.min_eq_right hle]
  · exact (Nat.min_le_left _ _).trans (Nat.div_mul_le_self room frame)
  · rintro m ⟨⟨q, rfl⟩, hlength, hroom⟩
    refine Nat.le_min.mpr ⟨?_, hlength⟩
    rw [Nat.mul_comm]
    have hq : q ≤ room / frame := (Nat.le_div_iff_mul_le hframe).mpr (Nat.mul_comm q frame ▸ hroom)
    exact Nat.mul_le_mul_right frame hq

/-- Queueing writes the whole frames for which there is room. -/
theorem Sound.enqueue_eq (h : i.Sound l) (bytes : List UInt8) {k : Nat}
    (hk : min (i.ring.free / (l.channels * 2) * (l.channels * 2)) bytes.length = k) :
    i.enqueue bytes = (i.rering (i.ring.write (bytes.take k)).2, bytes.length - k) := by
  obtain rfl : i.layout = l := h.layout
  have hfree := Nat.div_mul_le_self i.ring.free (i.layout.channels * 2)
  have hcount : min (min k bytes.length) i.ring.free = k := by omega
  unfold enqueue
  dsimp only
  rw [List.take_eq_take_min, hk, ByteRing.write_count, List.length_take, hcount]
  rfl

/-- Queueing whole frames takes the longest run of them that fits, and drops the rest. -/
theorem Aligned.enqueue (h : i.Aligned l) {bytes : List UInt8}
    (hbytes : l.channels * 2 ∣ bytes.length) :
    ∃ k, Fits (l.channels * 2) bytes.length i.ring.free k ∧ (i.enqueue bytes).1.Aligned l ∧
      (i.enqueue bytes).1.ring.toList = i.ring.toList ++ bytes.take k ∧
      (i.enqueue bytes).2 = bytes.length - k := by
  have hframe : 0 < l.channels * 2 := Nat.mul_pos l.channels_pos Nat.two_pos
  obtain ⟨k, hk⟩ : ∃ k, min (i.ring.free / (l.channels * 2) * (l.channels * 2)) bytes.length = k :=
    ⟨_, rfl⟩
  have hfits : Fits (l.channels * 2) bytes.length i.ring.free k := hk ▸ fits_min hframe hbytes
  have hlen : (bytes.take k).length = k := by
    rw [List.length_take, Nat.min_eq_left hfits.1.2.1]
  have hroom : (bytes.take k).length ≤ i.ring.free := by
    rw [hlen]
    exact hfits.1.2.2
  rw [h.enqueue_eq bytes hk]
  refine ⟨k, hfits, ⟨⟨h.layout, h.adapter, h.carry_lt⟩, ?_⟩, ?_, rfl⟩
  · show _ ∣ (i.ring.write (bytes.take k)).2.avail
    rw [ByteRing.write_avail, Nat.min_eq_left hroom, hlen]
    exact Nat.dvd_add h.avail hfits.1.1
  · exact ByteRing.toList_write_of_le hroom

/-- Taking whole frames off leaves whole frames. -/
theorem Aligned.read (h : i.Aligned l) {n : Nat} (hn : l.channels * 2 ∣ n) :
    (i.read n).1.Aligned l := by
  refine ⟨read_sound h.toSound n, ?_⟩
  rw [avail_read]
  exact Nat.dvd_sub h.avail hn

/-! ### Runs of pushes and reads -/

/-- A call on an intake. -/
inductive Call where
  | push (bytes : List UInt8)
  | read (n : Nat)
  deriving DecidableEq, Repr

/-- What a call answers: how many converted bytes were dropped, or the bytes taken off. -/
inductive Reply where
  | dropped (result : Except RateAdapter.Error Nat)
  | taken (bytes : List UInt8)
  deriving DecidableEq

/-- Make one call. -/
def perform (i : Intake R) : Call → Intake R × Reply
  | .push bytes => let (i, result) := i.push bytes; (i, .dropped result)
  | .read n => let (i, bytes) := i.read n; (i, .taken bytes)

/-- The bytes that are pushed. -/
def pushed (calls : List Call) : List UInt8 :=
  calls.flatMap fun
    | .push bytes => bytes
    | .read _ => []

/-- The bytes that were taken off. -/
def delivered (replies : List Reply) : List UInt8 :=
  replies.flatMap fun
    | .taken bytes => bytes
    | .dropped _ => []

/-- How calls go if each push is converted to its piece: the longest run of whole frames of the
piece that fits goes behind the queue, the rest is counted as dropped, and reads take bytes off the
front. -/
inductive Served (l : Layout) :
    Intake R → List Call → List (List UInt8) → List Reply → Intake R → Prop
  | nil {i : Intake R} (hi : i.Whole l) : Served l i [] [] [] i
  | push {i j i' : Intake R} {bytes piece : List UInt8} {k : Nat} {calls : List Call}
    {pieces : List (List UInt8)} {replies : List Reply} (hi : i.Whole l)
    (hpiece : l.channels * 2 ∣ piece.length)
    (hk : Fits (l.channels * 2) piece.length i.ring.free k)
    (hqueue : j.ring.toList = i.ring.toList ++ piece.take k)
    (hrest : Served l j calls pieces replies i') :
    Served l i (.push bytes :: calls) (piece :: pieces)
      (.dropped (.ok (piece.length - k)) :: replies) i'
  | read {i j i' : Intake R} {n : Nat} {calls : List Call} {pieces : List (List UInt8)}
    {replies : List Reply} (hi : i.Whole l) (hqueue : j.ring.toList = i.ring.toList.drop n)
    (hrest : Served l j calls pieces replies i') :
    Served l i (.read n :: calls) pieces (.taken (i.ring.toList.take n) :: replies) i'

/-- With an unfailing resampler calls serve the bytes that are pushed as the intake emits them
together. -/
theorem Aligned.run (h : i.Aligned l) (hi : i.Unfailing) {calls : List Call}
    (hreads : ∀ n, .read n ∈ calls → l.channels * 2 ∣ n) :
    ∃ pieces, pieces.flatten = (i.emit (pushed calls)).2 ∧
      Served l i calls pieces (runAll perform i calls).2 (runAll perform i calls).1 := by
  induction calls generalizing i with
  | nil =>
    refine ⟨[], ?_, .nil h.whole⟩
    show [] = (i.emit []).2
    rw [emit_nil h.toSound hi]
  | cons call calls ih =>
    have hreads' : ∀ n, .read n ∈ calls → l.channels * 2 ∣ n := by
      intro n hn
      exact hreads n (List.mem_cons_of_mem call hn)
    rw [runAll_cons]
    cases call with
    | push bytes =>
      obtain ⟨hok, hlen⟩ := outcome_ok h.toSound hi bytes
      obtain ⟨k, hk, haligned, hqueue, hdropped⟩ := (h.emit bytes).enqueue hlen
      have hpush := push_ok hok
      rw [hdropped] at hpush
      have hnext : (i.push bytes).1 = ((i.emit bytes).1.enqueue (i.emit bytes).2).1 := by rw [hpush]
      rw [← hnext] at haligned hqueue
      have hunfailing : (i.push bytes).1.Unfailing := by
        rw [push_same]
        exact hi.emit bytes
      obtain ⟨pieces, hpieces, hserved⟩ := ih haligned hunfailing hreads'
      refine ⟨(i.emit bytes).2 :: pieces, ?_, ?_⟩
      · show _ = (i.emit (bytes ++ pushed calls)).2
        rw [List.flatten_cons, hpieces, push_same, emit_rering, emit_append h.toSound hi]
      · have hring : (i.emit bytes).1.ring = i.ring := by rw [emit_same]
        rw [hring] at hk hqueue
        show Served l i _ _ (.dropped (i.push bytes).2 :: _) _
        rw [show (i.push bytes).2 = _ from congrArg Prod.snd hpush]
        exact .push h.whole hlen hk hqueue hserved
    | read n =>
      obtain ⟨pieces, hpieces, hserved⟩ := ih (h.read (hreads n List.mem_cons_self)) hi hreads'
      refine ⟨pieces, ?_, ?_⟩
      · rw [hpieces]
        show ((i.rering (i.read n).1.ring).emit _).2 = _
        rw [emit_rering]
        rfl
      · show Served l i _ _ (.taken (i.read n).2 :: _) _
        rw [show (i.read n).2 = i.ring.toList.take n from congrArg Prod.snd (i.read_eq n)]
        exact .read h.whole (i.toList_read n) hserved

/-- Frames stay frames: those taken off and those still queued are among the frames that were
queued before and that were pushed, in order. -/
theorem Served.frames_sublist {calls : List Call} {pieces : List (List UInt8)}
    {replies : List Reply} (h : Served l i calls pieces replies j)
    (hreads : ∀ n, .read n ∈ calls → l.channels * 2 ∣ n) :
    (blocks (l.channels * 2) (delivered replies ++ j.ring.toList)).Sublist
      (blocks (l.channels * 2) (i.ring.toList ++ pieces.flatten)) := by
  have hframe : 0 < l.channels * 2 := Nat.mul_pos l.channels_pos Nat.two_pos
  induction h with
  | nil hi =>
    rw [List.flatten_nil, List.append_nil]
    exact List.Sublist.refl _
  | @push i j i' bytes piece k calls pieces replies hi hpiece hk hqueue hrest ih =>
    have hframes := ih fun n hn => hreads n (List.mem_cons_of_mem _ hn)
    have hqueued : l.channels * 2 ∣ i.ring.toList.length := ByteRing.length_toList i.ring ▸ hi.2
    have hkept : l.channels * 2 ∣ (piece.take k).length := by
      rw [List.length_take, Nat.min_eq_left hk.1.2.1]
      exact hk.1.1
    have hlost : l.channels * 2 ∣ (piece.drop k).length := by
      rw [List.length_drop]
      exact Nat.dvd_sub hpiece hk.1.1
    -- The frames of the piece that are not kept are passed over.
    refine hframes.trans ?_
    rw [hqueue, List.flatten_cons, ← List.take_append_drop k piece, List.append_assoc,
      List.append_assoc, blocks_append_of_dvd hframe hqueued, blocks_append_of_dvd hframe hqueued,
      List.take_append_drop, blocks_append_of_dvd hframe hkept, blocks_append_of_dvd hframe hkept,
      blocks_append_of_dvd hframe hlost]
    exact ((List.sublist_append_right _ _).append_left _).append_left _
  | @read i j i' n calls pieces replies hi hqueue hrest ih =>
    have hframes := ih fun n hn => hreads n (List.mem_cons_of_mem _ hn)
    have htaken : l.channels * 2 ∣ (i.ring.toList.take n).length := by
      rw [List.length_take, ByteRing.length_toList]
      rcases Nat.le_total n i.ring.avail with hle | hle
      · rw [Nat.min_eq_left hle]
        exact hreads n List.mem_cons_self
      · rw [Nat.min_eq_right hle]
        exact hi.2
    show (blocks _ ((i.ring.toList.take n ++ delivered replies) ++ _)).Sublist _
    rw [hqueue] at hframes
    rw [List.append_assoc, blocks_append_of_dvd hframe htaken,
      ← List.take_append_drop n i.ring.toList, List.append_assoc, List.take_append_drop,
      blocks_append_of_dvd hframe htaken]
    exact hframes.append_left _

end Intake

end Duplex
