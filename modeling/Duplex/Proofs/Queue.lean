import Duplex.Proofs.Guarded

/-!
# Rings are bounded queues

A `Call` on a ring is a write, a read, a drain through a callback or a flush. `Queue.Answers` says
what a call on a queue of at most so many bytes has to answer and which queue it leaves, and
`Queue.Drain` what happens between a drain and its callback, whatever that takes. Every run of calls
on a ring answers as the queue `ByteRing.toList` does (`performAll_answers`), and the same run with
every access checked meets no fault.
-/

namespace Duplex

open Signal

namespace ByteRing

/-! ### Calls -/

/-- A call on a ring. -/
inductive Call : Type 1 where
  | write (src : List UInt8)
  | read (dest : List UInt8)
  | consume {σ : Type} (dest : List UInt8) (len : Nat)
    (take : σ → List UInt8 → List UInt8 → Taken σ) (state : σ)
  | flush

/-- What a call answers: how many bytes it moved and, if it took some off, the destination. -/
inductive Reply where
  | wrote (count : Nat)
  | took (count : Nat) (dest : List UInt8)
  | flushed
  deriving DecidableEq, Repr

/-- Make one call. -/
def perform (ring : ByteRing) : Call → ByteRing × Reply
  | .write src => let (n, ring) := ring.write src; (ring, .wrote n)
  | .read dest => let (n, dest, ring) := ring.read dest; (ring, .took n dest)
  | .consume dest len take state =>
    let drained := ring.consume dest len take state
    (drained.ring, .took drained.count drained.dest)
  | .flush => (ring.flush, .flushed)

/-- Make one call with every access checked. -/
def Guarded.perform (ring : ByteRing) : Call → Checked (ByteRing × Reply)
  | .write src => do
    let (n, ring) ← write ring src
    return (ring, .wrote n)
  | .read dest => do
    let (n, dest, ring) ← read ring dest
    return (ring, .took n dest)
  | .consume dest len take state => do
    let drained ← consume ring dest len take state
    return (drained.ring, .took drained.count drained.dest)
  | .flush => return (ring.flush, .flushed)

theorem Guarded.perform_eq (ring : ByteRing) (call : Call) :
    perform ring call = .ok (ring.perform call) := by
  cases call with
  | write src => rw [perform, write_eq]; rfl
  | read dest => rw [perform, read_eq]; rfl
  | consume dest len take state => rw [perform, consume_eq]; rfl
  | flush => rfl

/-- Make calls in order, and note the ring and the answer after each. -/
def performAll (ring : ByteRing) : List Call → List (ByteRing × Reply)
  | [] => []
  | call :: calls => ring.perform call :: (ring.perform call).1.performAll calls

def Guarded.performAll (ring : ByteRing) : List Call → Checked (List (ByteRing × Reply))
  | [] => .ok []
  | call :: calls => do
    let step ← perform ring call
    let rest ← performAll step.1 calls
    return step :: rest

theorem Guarded.performAll_eq (ring : ByteRing) (calls : List Call) :
    performAll ring calls = .ok (ring.performAll calls) := by
  induction calls generalizing ring with
  | nil => rfl
  | cons call calls ih =>
    rw [performAll, perform_eq, ok_bind, ih]
    rfl

/-! ### Queues -/

namespace Queue

variable {σ : Type}

/-- A drain of a queue, from the state of the callback, the destination and the number of bytes
copied to it so far, up to the bytes copied and the destination in the end. The callback is handed
some bytes at the front of the queue, and as much of the destination, and takes a number of them;
that goes on until `remaining` bytes are taken or it takes none. -/
inductive Drain (take : σ → List UInt8 → List UInt8 → Taken σ) :
    (queue : List UInt8) → (remaining : Nat) → σ → (dest : List UInt8) → (copied : Nat) →
      (dest' : List UInt8) → (copied' : Nat) → Prop where
  | full {queue : List UInt8} {state : σ} {dest : List UInt8} {copied : Nat} :
    Drain take queue 0 state dest copied dest copied
  | refused {queue : List UInt8} {remaining run : Nat} {state : σ} {dest : List UInt8}
    {copied : Nat} {taken : Taken σ} (hrun : 0 < run ∧ run ≤ remaining)
    (htaken : take state (queue.take run) ((dest.drop copied).take run) = taken)
    (hnone : taken.count = 0) :
    Drain take queue remaining state dest copied (overlay dest copied (taken.window.take run)) copied
  | some {queue : List UInt8} {remaining run : Nat} {state : σ} {dest dest' : List UInt8}
    {copied copied' : Nat} {taken : Taken σ} (hrun : 0 < run ∧ run ≤ remaining)
    (htaken : take state (queue.take run) ((dest.drop copied).take run) = taken)
    (hsome : 0 < taken.count)
    (hrest : Drain take (queue.drop (min taken.count run)) (remaining - min taken.count run)
      taken.state (overlay dest copied (taken.window.take run)) (copied + min taken.count run)
      dest' copied') :
    Drain take queue remaining state dest copied dest' copied'

/-- What a call on a queue of at most `limit` bytes answers, and what it leaves. -/
def Answers (limit : Nat) : Call → (queue : List UInt8) → Reply → (queue' : List UInt8) → Prop
  | .write src, queue, .wrote n, queue' =>
    n = min src.length (limit - queue.length) ∧ queue' = queue ++ src.take n
  | .read dest, queue, .took n dest', queue' =>
    n = min dest.length queue.length ∧ dest' = queue.take n ++ dest.drop n ∧ queue' = queue.drop n
  | .consume dest len take state, queue, .took n dest', queue' =>
    Drain take queue (min (min len queue.length) dest.length) state dest 0 dest' n ∧
      n ≤ queue.length ∧ queue' = queue.drop n
  | .flush, _, .flushed, queue' => queue' = []
  | _, _, _, _ => False

end Queue

/-- The ring holds the queue: its counters tell the length, and its cursors are in the region. -/
structure Holds (ring : ByteRing) (queue : List UInt8) : Prop where
  length_le : queue.length ≤ ring.capacity - 1
  avail : ring.avail = queue.length
  free : ring.free = ring.capacity - 1 - queue.length
  isEmpty : ring.isEmpty ↔ queue = []
  isFull : ring.isFull ↔ queue.length = ring.capacity - 1
  readPos_lt : ring.readPos < ring.capacity
  writePos_lt : ring.writePos < ring.capacity

namespace Queue

/-- Each call is answered as the queue answers it, and leaves a ring of the same size that holds
what the queue has become. -/
inductive AnswersAll (size : Nat) : (queue : List UInt8) → List Call → List (ByteRing × Reply) → Prop
  | nil {queue : List UInt8} : AnswersAll size queue [] []
  | cons {queue queue' : List UInt8} {call : Call} {calls : List Call} {ring : ByteRing}
    {reply : Reply} {steps : List (ByteRing × Reply)}
    (hcall : Answers (size - 1) call queue reply queue') (hsize : ring.capacity = size)
    (hring : ring.Holds queue') (hcalls : AnswersAll size queue' calls steps) :
    AnswersAll size queue (call :: calls) ((ring, reply) :: steps)

end Queue

/-! ### The queue of a ring -/

variable {ring : ByteRing}

theorem isEmpty_iff : ring.isEmpty ↔ ring.toList = [] := by
  rw [isEmpty, beq_iff_eq]
  constructor
  · exact toList_eq_nil
  · intro h
    have hnone : ring.avail = 0 := by rw [← length_toList, h, List.length_nil]
    have hmeet := ring.readPos_add_avail
    rwa [hnone, Nat.add_zero, Nat.mod_eq_of_lt ring.readPos_lt] at hmeet

/-- A ring holds its queue. -/
theorem holds_toList (ring : ByteRing) : ring.Holds ring.toList := by
  have hsum := ring.avail_add_free
  have hlen := length_toList ring
  refine ⟨by omega, hlen.symm, by omega, isEmpty_iff, ?_, ring.readPos_lt, ring.writePos_lt⟩
  rw [isFull, beq_iff_eq]
  omega

theorem skip_capacity (ring : ByteRing) (n : Nat) : (ring.skip n).capacity = ring.capacity := rfl

/-- A drain takes bytes off the front of the queue, as many as it counts. -/
theorem consumeFrom_drain {σ : Type} (ring : ByteRing)
    (take : σ → List UInt8 → List UInt8 → Taken σ) (dest : List UInt8) (copied : Nat)
    {remaining : Nat} (h : remaining ≤ ring.avail) (state : σ) :
    ∃ n ≤ remaining, ∃ drained, consumeFrom take ring dest copied remaining state = drained ∧
      drained.count = copied + n ∧ drained.ring = ring.skip n ∧
      Queue.Drain take ring.toList remaining state dest copied drained.dest (copied + n) := by
  induction remaining using Nat.strongRecOn generalizing ring dest copied state with
  | ind remaining ih =>
    rcases Nat.eq_zero_or_pos remaining with rfl | hpos
    · exact ⟨0, Nat.le_refl 0, _, rfl, by simp, by simp, by simpa using .full⟩
    have hread := ring.readPos_lt
    obtain ⟨run, hrun⟩ : ∃ run, min remaining (ring.capacity - ring.readPos) = run := ⟨_, rfl⟩
    have hbounds : 0 < run ∧ run ≤ remaining := by omega
    have hsrc : ring.region.slice ring.readPos run = ring.toList.take run :=
      slice_readPos (by omega) (by omega)
    obtain ⟨taken, htaken⟩ : ∃ taken,
      take state (ring.toList.take run) ((dest.drop copied).take run) = taken := ⟨_, rfl⟩
    rcases Nat.eq_zero_or_pos taken.count with hnone | hsome
    · refine ⟨0, Nat.zero_le _, _, rfl, ?_, ?_, ?_⟩
      all_goals
        rw [consumeFrom, dif_neg (by omega)]
        simp only [hrun, hsrc, htaken, hnone, Nat.zero_min, dif_pos]
      · simp
      · simp
      · exact .refused hbounds htaken hnone
    · obtain ⟨k, hk⟩ : ∃ k, min taken.count run = k := ⟨_, rfl⟩
      obtain ⟨n, hn, drained, hdrained, hcount, hring, hdrain⟩ :=
        ih (remaining - k) (by omega) (ring.skip k) (overlay dest copied (taken.window.take run))
          (copied + k) (by rw [skip_avail (by omega)]; omega) taken.state
      rw [toList_skip (by omega), Nat.add_assoc] at hdrain
      refine ⟨k + n, by omega, drained, ?_, by omega, by rw [hring, skip_skip], ?_⟩
      · rw [consumeFrom_of_taken hpos hrun (hsrc.symm ▸ htaken) (by omega), hk, hdrained]
      · exact .some hbounds htaken hsome (hk.symm ▸ hdrain)

theorem perform_capacity (ring : ByteRing) (call : Call) :
    (ring.perform call).1.capacity = ring.capacity := by
  cases call with
  | write src => rfl
  | read dest => rw [perform, read_eq]; rfl
  | consume dest len take state =>
    have hle : min (min len ring.avail) dest.length ≤ ring.avail := by omega
    obtain ⟨n, -, drained, hdrained, -, hring, -⟩ := consumeFrom_drain ring take dest 0 hle state
    rw [perform, consume, hdrained, hring, skip_capacity]
  | flush => rfl

/-- A call is answered as the queue answers it. -/
theorem perform_answers (ring : ByteRing) (call : Call) :
    Queue.Answers (ring.capacity - 1) call ring.toList (ring.perform call).2
      (ring.perform call).1.toList := by
  have hsum := ring.avail_add_free
  have hlen := length_toList ring
  cases call with
  | write src =>
    have hfree : ring.capacity - 1 - ring.toList.length = ring.free := by omega
    refine ⟨by rw [hfree], ?_⟩
    show (ring.write src).2.toList = ring.toList ++ src.take (min src.length ring.free)
    rw [toList_write, List.take_eq_take_min, Nat.min_comm]
  | read dest =>
    rw [perform, read_eq]
    refine ⟨by rw [hlen], ?_, toList_skip (by omega)⟩
    have hmin : (ring.toList.take (min dest.length ring.avail)).length =
        min dest.length ring.avail := by simp
    rw [overlay_zero (by omega), hmin]
  | consume dest len take state =>
    have hle : min (min len ring.avail) dest.length ≤ ring.avail := by omega
    obtain ⟨n, hn, drained, hdrained, hcount, hring, hdrain⟩ :=
      consumeFrom_drain ring take dest 0 hle state
    rw [Nat.zero_add] at hcount hdrain
    rw [perform, consume, hdrained]
    dsimp only
    rw [hcount, hring]
    exact ⟨hlen.symm ▸ hdrain, by omega, toList_skip (by omega)⟩
  | flush => exact toList_flush ring

theorem performAll_answers (ring : ByteRing) (calls : List Call) :
    Queue.AnswersAll ring.capacity ring.toList calls (ring.performAll calls) := by
  induction calls generalizing ring with
  | nil => exact .nil
  | cons call calls ih =>
    have hsize := perform_capacity ring call
    exact .cons (perform_answers ring call) hsize (holds_toList _) (hsize ▸ ih (ring.perform call).1)

/-- A ring in a new region is empty, whatever the region holds. -/
theorem ofRegion_returns {slots : Array UInt8} (hsize : 2 ≤ slots.size)
    (hpower : slots.size.isPowerOfTwo) :
    ∃ ring, ofRegion slots = .ok ring ∧ ring.capacity = slots.size ∧ ring.toList = [] :=
  ⟨_, dif_pos ⟨hsize, hpower⟩, rfl, toList_eq_nil rfl⟩

/-- A ring in any region whose size is a power of two, of at least two bytes, is an empty queue of at
most one byte less, and every run of calls on it answers as that queue does; with every slot, slice
and difference checked, the run gives the same. -/
theorem ofRegion_refines_queue {slots : Array UInt8} (hsize : 2 ≤ slots.size)
    (hpower : slots.size.isPowerOfTwo) :
    ∃ ring, ofRegion slots = .ok ring ∧ ring.capacity = slots.size ∧ ring.Holds [] ∧
      ∀ calls, Queue.AnswersAll slots.size [] calls (ring.performAll calls) ∧
        Guarded.performAll ring calls = .ok (ring.performAll calls) := by
  obtain ⟨ring, hring, hcapacity, hempty⟩ := ofRegion_returns hsize hpower
  refine ⟨ring, hring, hcapacity, hempty ▸ holds_toList ring, fun calls => ⟨?_, ?_⟩⟩
  · rw [← hcapacity, ← hempty]
    exact performAll_answers ring calls
  · exact Guarded.performAll_eq ring calls

/-- Three bytes are queued in a region of four that is full of other bytes, two are taken off, and
the next two go around the end. -/
theorem ofRegion_refines_queue_of_four :
    ∃ ring, ofRegion #[9, 9, 9, 9] = .ok ring ∧
      Queue.AnswersAll 4 [] [.write [1, 2, 3, 4], .read [0, 0], .write [5, 6]]
        (ring.performAll [.write [1, 2, 3, 4], .read [0, 0], .write [5, 6]]) ∧
      (ring.performAll [.write [1, 2, 3, 4], .read [0, 0], .write [5, 6]]).map (·.2) =
        [.wrote 3, .took 2 [1, 2], .wrote 2] := by
  have hsize : 2 ≤ (#[9, 9, 9, 9] : Array UInt8).size := by decide
  obtain ⟨ring, hring, -, -, hcalls⟩ := ofRegion_refines_queue hsize ⟨2, rfl⟩
  refine ⟨ring, hring, (hcalls _).1, ?_⟩
  obtain rfl := Except.ok.inj hring
  decide +kernel

end ByteRing

end Duplex
