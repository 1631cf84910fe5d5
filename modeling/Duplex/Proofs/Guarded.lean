import Duplex.Proofs.ByteRing
import Mathlib.Data.Nat.Bitwise

/-!
# Rings with every access checked

The operations of a `ByteRing` work on a region without an end and on numbers that stop at zero.
Here they are made once more in a region of `capacity` slots: cursors are masked, bytes are stored
in two stretches, one up to the end of the region and one from its start, and every slot, slice or
difference that is out of range is a fault. It never is: the guarded operations always give what the
plain ones give (`write_eq`, `consume_eq`).
-/

namespace Duplex

open Signal

/-- A difference, which must not go below zero. -/
def difference (a b : Nat) : Checked Nat := if b ≤ a then .ok (a - b) else .error .outOfRange

theorem difference_eq_ok {a b : Nat} (h : b ≤ a) : difference a b = .ok (a - b) := if_pos h

namespace Region

/-- Set the slots from `start` on. -/
def put (r : Region) (start : Nat) : List UInt8 → Region
  | [] => r
  | b :: rest => (r.set start b).put (start + 1) rest

end Region

namespace ByteRing.Guarded

/-! ### The operations -/

/-- A cursor, brought back into the region. -/
def mask (ring : ByteRing) (pos : Nat) : Nat := pos &&& (ring.capacity - 1)

theorem mask_eq_mod (ring : ByteRing) (pos : Nat) : mask ring pos = pos % ring.capacity := by
  obtain ⟨k, hk⟩ := ring.isPowerOfTwo_capacity
  rw [mask, hk, Nat.and_two_pow_sub_one_eq_mod]

theorem mask_lt (ring : ByteRing) (pos : Nat) : mask ring pos < ring.capacity := by
  rw [mask_eq_mod]
  exact Nat.mod_lt _ ring.capacity_pos

/-- The number of queued bytes. -/
def avail (ring : ByteRing) : Checked Nat := do
  let ahead ← difference (ring.writePos + ring.capacity) ring.readPos
  return mask ring ahead

/-- The number of bytes that still fit. -/
def free (ring : ByteRing) : Checked Nat := do
  let left ← difference ring.capacity (← avail ring)
  difference left 1

/-- Set the slots from `start` on, all of which have to exist. -/
def put (capacity : Nat) (region : Region) (start : Nat) (bytes : List UInt8) : Checked Region :=
  if start + bytes.length ≤ capacity then .ok (region.put start bytes) else .error .outOfRange

/-- The bytes in `n` slots from slot `start` on, all of which have to exist. -/
def get (ring : ByteRing) (start n : Nat) : Checked (List UInt8) :=
  if start + n ≤ ring.capacity then .ok (ring.region.slice start n) else .error .outOfRange

/-- Store the first `n` bytes up to the end of the region and then from its start. -/
def store (ring : ByteRing) (src : List UInt8) (n : Nat) : Checked Region := do
  let first := min n (← difference ring.capacity ring.writePos)
  let rest ← difference n first
  let region ← put ring.capacity ring.region ring.writePos (← slice src 0 first)
  put ring.capacity region 0 (← slice src first rest)

/-- Move the write cursor on behind stored bytes. -/
def advance (ring : ByteRing) (region : Region) (n : Nat) : ByteRing :=
  { ring with region, writePos := mask ring (ring.writePos + n), writePos_lt := mask_lt ring _ }

/-- Queue as many of the bytes as fit and count them. -/
def write (ring : ByteRing) (src : List UInt8) : Checked (Nat × ByteRing) := do
  let n := min src.length (← free ring)
  let region ← store ring src n
  return (n, advance ring region n)

/-- Move the read cursor on. -/
def skip (ring : ByteRing) (n : Nat) : ByteRing :=
  { ring with readPos := mask ring (ring.readPos + n), readPos_lt := mask_lt ring _ }

variable {σ : Type}

/-- Hand out runs until `remaining` bytes are taken or the callback takes none. -/
def consumeFrom (take : σ → List UInt8 → List UInt8 → Taken σ) (ring : ByteRing)
    (dest : List UInt8) (copied remaining : Nat) (state : σ) : Checked (Drained σ) :=
  if hr : remaining = 0 then
    .ok { ring, dest, count := copied, state }
  else do
    let run := min remaining (← difference ring.capacity ring.readPos)
    let src ← get ring ring.readPos run
    let window ← slice dest copied run
    let taken := take state src window
    let dest := overlay dest copied (taken.window.take run)
    let consumed := min taken.count run
    if hc : consumed = 0 then
      return { ring, dest, count := copied, state := taken.state }
    else if consumed ≤ remaining then
      have : remaining - consumed < remaining :=
        Nat.sub_lt (Nat.pos_of_ne_zero hr) (Nat.pos_of_ne_zero hc)
      consumeFrom take (skip ring consumed) dest (copied + consumed) (remaining - consumed)
        taken.state
    else .error .outOfRange
termination_by remaining
decreasing_by assumption

/-- Drain up to `len` bytes, and no more than are queued or `dest` holds, through a callback. -/
def consume (ring : ByteRing) (dest : List UInt8) (len : Nat)
    (take : σ → List UInt8 → List UInt8 → Taken σ) (state : σ) : Checked (Drained σ) := do
  consumeFrom take ring dest 0 (min (min len (← avail ring)) dest.length) state

/-- Move as many bytes into `dest` as it holds or are queued. -/
def read (ring : ByteRing) (dest : List UInt8) : Checked (Nat × List UInt8 × ByteRing) := do
  let drained ← consume ring dest dest.length
    (fun _ src _ => { window := src, count := src.length, state := () }) ()
  return (drained.count, drained.dest, drained.ring)

/-! ### Nothing is out of range -/

variable (ring : ByteRing)

theorem avail_eq : avail ring = .ok ring.avail := by
  have hread := ring.readPos_lt
  rw [avail, difference_eq_ok (by omega), ok_bind, mask_eq_mod]
  rfl

theorem free_eq : free ring = .ok ring.free := by
  have hlt := ring.avail_lt_capacity
  rw [free, avail_eq, ok_bind, difference_eq_ok (by omega), ok_bind, difference_eq_ok (by omega)]
  rfl

@[simp] theorem skip_eq (n : Nat) : skip ring n = ring.skip n := by
  simp only [skip, ByteRing.skip, mask_eq_mod]

/-- Bytes that do not go around the end are stored side by side. -/
theorem store_eq_put {capacity pos : Nat} {bytes : List UInt8} (region : Region)
    (h : pos + bytes.length ≤ capacity) :
    ByteRing.store capacity region pos bytes = region.put pos bytes := by
  induction bytes generalizing pos region with
  | nil => rfl
  | cons b rest ih =>
    rw [List.length_cons] at h
    rw [ByteRing.store, Region.put, Nat.mod_eq_of_lt (by omega), ih _ (by omega)]

theorem store_append (capacity : Nat) (region : Region) (pos : Nat) (first second : List UInt8) :
    ByteRing.store capacity region pos (first ++ second) =
      ByteRing.store capacity (ByteRing.store capacity region pos first) (pos + first.length)
        second := by
  induction first generalizing pos region with
  | nil => rfl
  | cons b first ih =>
    rw [List.cons_append, ByteRing.store, ByteRing.store, ih, List.length_cons, Nat.add_assoc,
      Nat.add_comm 1]

/-- Storing starts again after each round. -/
theorem store_add_capacity (capacity : Nat) (region : Region) (pos : Nat) (bytes : List UInt8) :
    ByteRing.store capacity region (capacity + pos) bytes =
      ByteRing.store capacity region pos bytes := by
  induction bytes generalizing pos region with
  | nil => rfl
  | cons b rest ih => rw [ByteRing.store, ByteRing.store, Nat.add_mod_left, Nat.add_assoc, ih]

/-- Storing around the end is storing two stretches. -/
theorem store_split {bytes : List UInt8} {pos : Nat} (region : Region) {capacity : Nat}
    (hpos : pos < capacity) (hlen : bytes.length ≤ capacity) :
    ByteRing.store capacity region pos bytes =
      (region.put pos (bytes.take (capacity - pos))).put 0 (bytes.drop (capacity - pos)) := by
  have hfirst : (bytes.take (capacity - pos)).length ≤ capacity - pos := List.length_take_le _ _
  have hrest : (bytes.drop (capacity - pos)).length ≤ capacity := by rw [List.length_drop]; omega
  conv_lhs => rw [← List.take_append_drop (capacity - pos) bytes]
  rw [store_append, store_eq_put region (by omega)]
  rcases Nat.lt_or_ge (capacity - pos) bytes.length with h | h
  · have hend : pos + (bytes.take (capacity - pos)).length = capacity + 0 := by
      rw [List.length_take]
      omega
    rw [hend, store_add_capacity, store_eq_put _ (by omega)]
  · rw [List.drop_of_length_le h]
    rfl

/-- Two stretches within the region are all that is stored. -/
theorem store_eq {src : List UInt8} {n : Nat} (hsrc : n ≤ src.length) (hn : n ≤ ring.capacity) :
    store ring src n =
      .ok (ByteRing.store ring.capacity ring.region ring.writePos (src.take n)) := by
  have hwrite := ring.writePos_lt
  have hlen : (src.take n).length = n := by simp [hsrc]
  obtain ⟨toEnd, htoEnd⟩ : ∃ toEnd, ring.capacity - ring.writePos = toEnd := ⟨_, rfl⟩
  have hfirst : (src.drop 0).take (min n toEnd) = (src.take n).take toEnd := by
    rw [List.drop_zero, List.take_take, Nat.min_comm]
  have hrest : (src.drop (min n toEnd)).take (n - min n toEnd) = (src.take n).drop toEnd := by
    rw [← List.drop_take]
    rcases Nat.le_total n toEnd with h | h
    · rw [Nat.min_eq_left h, List.drop_of_length_le (Nat.le_of_eq hlen),
        List.drop_of_length_le (hlen.symm ▸ h)]
    · rw [Nat.min_eq_right h]
  rw [store_split ring.region hwrite (by omega), store, difference_eq_ok (by omega), ok_bind]
  dsimp only
  rw [htoEnd, difference_eq_ok (by omega), ok_bind, slice_eq_ok (by omega), ok_bind, hfirst, put,
    if_pos (by rw [List.length_take]; omega), ok_bind, slice_eq_ok (by omega), ok_bind, hrest, put,
    if_pos (by rw [List.length_drop]; omega)]

theorem write_eq (src : List UInt8) : write ring src = .ok (ring.write src) := by
  have hlt := ring.avail_lt_capacity
  have hsum := ring.avail_add_free
  rw [write, free_eq, ok_bind]
  dsimp only
  rw [store_eq ring (by omega) (by omega), ok_bind]
  simp only [advance, mask_eq_mod]
  rfl

/-- A drain stays within the region and the destination. -/
theorem consumeFrom_eq (take : σ → List UInt8 → List UInt8 → Taken σ) {dest : List UInt8}
    {copied remaining : Nat} (hdest : copied + remaining ≤ dest.length) (state : σ) :
    consumeFrom take ring dest copied remaining state =
      .ok (ByteRing.consumeFrom take ring dest copied remaining state) := by
  induction remaining using Nat.strongRecOn generalizing ring dest copied state with
  | ind remaining ih =>
    have hread := ring.readPos_lt
    rw [consumeFrom, ByteRing.consumeFrom]
    split
    · rfl
    rename_i hr
    rw [difference_eq_ok (by omega), ok_bind]
    dsimp only
    rw [get, if_pos (by omega), ok_bind, slice_eq_ok (by omega), ok_bind]
    split
    · rfl
    rename_i hc
    rw [if_pos (by omega), skip_eq]
    exact ih _ (by omega) (ring.skip _) (by rw [length_overlay]; omega) _

theorem consume_eq (dest : List UInt8) (len : Nat)
    (take : σ → List UInt8 → List UInt8 → Taken σ) (state : σ) :
    consume ring dest len take state = .ok (ring.consume dest len take state) := by
  rw [consume, avail_eq, ok_bind, consumeFrom_eq ring take (by omega)]
  rfl

theorem read_eq (dest : List UInt8) : read ring dest = .ok (ring.read dest) := by
  rw [read, consume_eq]
  rfl

end ByteRing.Guarded

end Duplex
