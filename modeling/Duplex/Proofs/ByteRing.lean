import Duplex.ByteRing
import Duplex.Proofs.Signal

/-!
# The queue laws of a byte ring

Every operation is one equation on the queue `ByteRing.toList`: `write` appends the longest prefix
that fits, `skip` and `read` take bytes off the front, `flush` empties it. The queue is spread
around the end of the region, so the laws rest on two facts about slots: the write cursor stands
`avail` slots behind the read cursor (`readPos_add_avail`), and slots less than a round apart are
different (`slot_injective`).
-/

namespace Duplex.ByteRing

open Signal

/-! ### Going round -/

theorem mod_eq_of_lt_two_mul {a c : Nat} (h : a < 2 * c) : a % c = if a < c then a else a - c := by
  split
  case isTrue ha => exact Nat.mod_eq_of_lt ha
  case isFalse ha =>
    rw [Nat.mod_eq_sub_mod (Nat.not_lt.mp ha)]
    exact Nat.mod_eq_of_lt (by omega)

/-- Slots less than a round apart are different. -/
theorem slot_injective {c p i j : Nat} (hp : p < c) (hi : i < c) (hj : j < c)
    (h : (p + i) % c = (p + j) % c) : i = j := by
  rw [mod_eq_of_lt_two_mul (by omega), mod_eq_of_lt_two_mul (by omega)] at h
  split at h <;> split at h <;> omega

variable (ring : ByteRing)

theorem avail_lt_capacity : ring.avail < ring.capacity := Nat.mod_lt _ ring.capacity_pos

theorem avail_add_free : ring.avail + ring.free = ring.capacity - 1 := by
  have := ring.avail_lt_capacity
  rw [free]
  omega

/-- The write cursor stands `avail` slots behind the read cursor. -/
theorem readPos_add_avail : (ring.readPos + ring.avail) % ring.capacity = ring.writePos := by
  have hr := ring.readPos_lt
  have hw := ring.writePos_lt
  rw [avail, mod_eq_of_lt_two_mul (a := ring.writePos + ring.capacity - ring.readPos) (by omega)]
  split
  · rw [mod_eq_of_lt_two_mul (by omega)]
    split <;> omega
  · rw [mod_eq_of_lt_two_mul (by omega)]
    split <;> omega

theorem avail_eq {n : Nat} (hn : n < ring.capacity)
    (h : (ring.readPos + n) % ring.capacity = ring.writePos) : ring.avail = n :=
  slot_injective ring.readPos_lt ring.avail_lt_capacity hn
    (ring.readPos_add_avail.trans h.symm)

variable {ring}

@[simp] theorem length_toList (ring : ByteRing) : ring.toList.length = ring.avail := by
  simp [toList]

theorem getElem_toList {i : Nat} (h : i < ring.toList.length) :
    ring.toList[i] = ring.region.get ((ring.readPos + i) % ring.capacity) := by
  simp [toList]

/-! ### Writing -/

theorem get_store_of_ne {capacity pos j : Nat} {bytes : List UInt8} (region : Region)
    (h : ∀ i < bytes.length, j ≠ (pos + i) % capacity) :
    (store capacity region pos bytes).get j = region.get j := by
  induction bytes generalizing region pos with
  | nil => rfl
  | cons b rest ih =>
    have hj : j ≠ pos % capacity := h 0 (by simp)
    rw [store, ih, Region.get_set, if_neg hj]
    intro i hi
    have := h (i + 1) (by simpa using hi)
    rwa [Nat.add_assoc, Nat.add_comm 1 i]

theorem get_store {capacity pos i : Nat} {bytes : List UInt8} (region : Region)
    (hpos : pos < capacity) (hlen : bytes.length ≤ capacity) (hi : i < bytes.length) :
    (store capacity region pos bytes).get ((pos + i) % capacity) = bytes[i] := by
  -- The last byte that goes to a slot stays; the bytes before it go to other slots.
  suffices hstep : ∀ (start : Nat) (rest : List UInt8) (region : Region) (i : Nat)
      (hi : i < rest.length), start + rest.length ≤ capacity →
      (store capacity region (pos + start) rest).get ((pos + start + i) % capacity) = rest[i] by
    simpa using hstep 0 bytes region i hi (by omega)
  intro start rest
  induction rest generalizing start with
  | nil => intro _ i hi; simp at hi
  | cons b rest ih =>
    intro region i hi hle
    rw [List.length_cons] at hle
    cases i with
    | zero =>
      rw [store, get_store_of_ne, Region.get_set, Nat.add_zero, if_pos rfl]
      · rfl
      · intro k hk heq
        have := slot_injective (c := capacity) (p := pos) (i := start) (j := start + 1 + k) hpos
          (by omega) (by omega) (by simpa [Nat.add_assoc] using heq)
        omega
    | succ i =>
      have hi' : i < rest.length := by simpa using hi
      have := ih (start + 1) (region.set ((pos + start) % capacity) b) i hi' (by omega)
      rw [store, Nat.add_assoc pos start 1]
      simpa [Nat.add_assoc, Nat.add_comm 1 i] using this

@[simp] theorem write_count (ring : ByteRing) (src : List UInt8) :
    (ring.write src).1 = min src.length ring.free := rfl

@[simp] theorem write_capacity (ring : ByteRing) (src : List UInt8) :
    (ring.write src).2.capacity = ring.capacity := rfl

theorem write_avail (ring : ByteRing) (src : List UInt8) :
    (ring.write src).2.avail = ring.avail + min src.length ring.free := by
  have hlt := ring.avail_lt_capacity
  have hsum := ring.avail_add_free
  refine avail_eq (ring.write src).2 (by rw [write_capacity]; omega) ?_
  show (ring.readPos + _) % ring.capacity = (ring.writePos + _) % ring.capacity
  rw [← Nat.add_assoc, Nat.add_mod, ring.readPos_add_avail, ← Nat.add_mod_mod,
    Nat.add_mod ring.writePos]
  simp

/-- Writing queues the longest prefix that fits. -/
theorem toList_write (ring : ByteRing) (src : List UInt8) :
    (ring.write src).2.toList = ring.toList ++ src.take ring.free := by
  have hlt := ring.avail_lt_capacity
  have hsum := ring.avail_add_free
  apply List.ext_getElem
  · simp [write_avail, Nat.min_comm]
  intro i hi hi'
  rw [getElem_toList]
  show (store ring.capacity ring.region ring.writePos
    (src.take (min src.length ring.free))).get ((ring.readPos + i) % ring.capacity) = _
  rw [length_toList, write_avail] at hi
  have hroom : (src.take (min src.length ring.free)).length = min src.length ring.free := by simp
  rcases Nat.lt_or_ge i ring.avail with h | h
  · rw [List.getElem_append_left (by simpa using h), getElem_toList, get_store_of_ne]
    intro k hk heq
    rw [hroom] at hk
    rw [← ring.readPos_add_avail, Nat.mod_add_mod, Nat.add_assoc] at heq
    have := slot_injective ring.readPos_lt (by omega) (by omega) heq
    omega
  · have hslot : (ring.readPos + i) % ring.capacity =
        (ring.writePos + (i - ring.avail)) % ring.capacity := by
      rw [← ring.readPos_add_avail, Nat.mod_add_mod]
      congr 1
      omega
    rw [List.getElem_append_right (by simpa using h), hslot,
      get_store _ ring.writePos_lt (by omega) (by omega)]
    simp

/-- What fits is queued whole. -/
theorem toList_write_of_le {src : List UInt8} (h : src.length ≤ ring.free) :
    (ring.write src).2.toList = ring.toList ++ src := by
  rw [toList_write, List.take_of_length_le h]

/-! ### Taking off the front -/

theorem skip_avail {n : Nat} (h : n ≤ ring.avail) : (ring.skip n).avail = ring.avail - n := by
  have hlt := ring.avail_lt_capacity
  refine avail_eq (ring.skip n) (by show _ < ring.capacity; omega) ?_
  show ((ring.readPos + n) % ring.capacity + _) % ring.capacity = ring.writePos
  rw [Nat.mod_add_mod, Nat.add_assoc, Nat.add_sub_cancel' h, ring.readPos_add_avail]

theorem toList_skip {n : Nat} (h : n ≤ ring.avail) : (ring.skip n).toList = ring.toList.drop n := by
  apply List.ext_getElem
  · simp [skip_avail h]
  intro i hi hi'
  rw [getElem_toList, List.getElem_drop, getElem_toList]
  show ring.region.get (((ring.readPos + n) % ring.capacity + i) % ring.capacity) = _
  rw [Nat.mod_add_mod, Nat.add_assoc]

@[simp] theorem skip_zero (ring : ByteRing) : ring.skip 0 = ring := by
  simp [skip, Nat.mod_eq_of_lt ring.readPos_lt]

theorem skip_skip (ring : ByteRing) (m n : Nat) : (ring.skip m).skip n = ring.skip (m + n) := by
  simp [skip, Nat.add_assoc]

/-- Where the cursors meet, nothing is queued. -/
theorem toList_eq_nil (h : ring.readPos = ring.writePos) : ring.toList = [] := by
  have hempty : ring.avail = 0 :=
    avail_eq ring ring.capacity_pos (h ▸ Nat.mod_eq_of_lt ring.readPos_lt)
  rw [← List.length_eq_zero_iff, length_toList, hempty]

@[simp] theorem toList_flush (ring : ByteRing) : ring.flush.toList = [] := toList_eq_nil rfl

/-- In a new ring the cursors meet. -/
theorem meet_of_ofCapacity {size : Nat} (h : ofCapacity size = .ok ring) :
    ring.readPos = ring.writePos := by
  rw [ofCapacity, wrap] at h
  split at h
  · by_cases hlimit : allocationLimit ≤ size
    · simp [hlimit, bind, Except.bind, throw, throwThe, MonadExceptOf.throw] at h
    · simp only [bind, Except.bind, if_neg hlimit, pure, Except.pure] at h
      obtain rfl : _ = ring := Except.ok.inj h
      rfl
  · simp [bind, Except.bind] at h

theorem capacity_of_ofCapacity {size : Nat} (h : ofCapacity size = .ok ring) :
    ring.capacity = size := by
  rw [ofCapacity, wrap] at h
  split at h
  · by_cases hlimit : allocationLimit ≤ size
    · simp [hlimit, bind, Except.bind, throw, throwThe, MonadExceptOf.throw] at h
    · simp only [bind, Except.bind, if_neg hlimit, pure, Except.pure] at h
      obtain rfl : _ = ring := Except.ok.inj h
      rfl
  · simp [bind, Except.bind] at h

/-- Queued bytes that do not go around the end lie side by side in the region. -/
theorem slice_readPos {n : Nat} (h : n ≤ ring.avail) (hend : n ≤ ring.capacity - ring.readPos) :
    ring.region.slice ring.readPos n = ring.toList.take n := by
  apply List.ext_getElem
  · simp [h]
  intro i hi hi'
  rw [Region.length_slice] at hi
  rw [List.getElem_take, getElem_toList]
  simp only [Region.slice, List.getElem_map, List.getElem_range', Nat.one_mul]
  rw [Nat.mod_eq_of_lt (by omega)]

@[simp] theorem consumeFrom_zero {σ : Type} (take : σ → List UInt8 → List UInt8 → Taken σ)
    (ring : ByteRing) (dest : List UInt8) (copied : Nat) (state : σ) :
    consumeFrom take ring dest copied 0 state = { ring, dest, count := copied, state } := by
  rw [consumeFrom, dif_pos rfl]

/-- One round of a drain: the callback is handed a run and takes some of it. -/
theorem consumeFrom_of_taken {σ : Type} {take : σ → List UInt8 → List UInt8 → Taken σ}
    {ring : ByteRing} {dest : List UInt8} {copied remaining run : Nat} {state : σ}
    {taken : Taken σ} (hremaining : 0 < remaining)
    (hrun : min remaining (ring.capacity - ring.readPos) = run)
    (htaken : take state (ring.region.slice ring.readPos run) ((dest.drop copied).take run) = taken)
    (hcount : 0 < min taken.count run) :
    consumeFrom take ring dest copied remaining state =
      consumeFrom take (ring.skip (min taken.count run))
        (overlay dest copied (taken.window.take run)) (copied + min taken.count run)
        (remaining - min taken.count run) taken.state := by
  subst hrun htaken
  rw [consumeFrom, dif_neg (Nat.pos_iff_ne_zero.mp hremaining)]
  exact dif_neg (Nat.pos_iff_ne_zero.mp hcount)

/-- Draining through a callback that copies its run and takes all of it. -/
theorem consumeFrom_copy {dest : List UInt8} {copied remaining : Nat}
    (h : remaining ≤ ring.avail) (hdest : copied + remaining ≤ dest.length) :
    consumeFrom (fun _ src _ => { window := src, count := src.length, state := () }) ring dest copied
        remaining () =
      { ring := ring.skip remaining, dest := overlay dest copied (ring.toList.take remaining)
        count := copied + remaining, state := () } := by
  induction remaining using Nat.strongRecOn generalizing ring dest copied with
  | ind remaining ih =>
    rcases Nat.eq_zero_or_pos remaining with rfl | hpos
    · simp
    have hend := ring.readPos_lt
    obtain ⟨n, hrun⟩ : ∃ n, min remaining (ring.capacity - ring.readPos) = n := ⟨_, rfl⟩
    have hn : n ≤ ring.avail := by omega
    have hle : n ≤ remaining := by omega
    have hlen : (ring.toList.take n).length = n := by simp [hn]
    have hleft : remaining - n ≤ (ring.skip n).avail := by rw [skip_avail hn]; omega
    rw [consumeFrom_of_taken hpos hrun (by rw [slice_readPos hn (by omega)])
      (by simp only [hlen]; omega)]
    simp only [hlen, Nat.min_self]
    rw [ih (remaining - n) (by omega) hleft (by rw [length_overlay]; omega)]
    have hqueue : ring.toList.take n ++ (ring.skip n).toList.take (remaining - n) =
        ring.toList.take remaining := by
      rw [toList_skip hn, ← List.take_add, Nat.add_sub_cancel' hle]
    have hroom : copied + (ring.toList.take remaining).length ≤ dest.length := by simp; omega
    have hover := overlay_overlay dest (ring.toList.take n)
      ((ring.skip n).toList.take (remaining - n)) (hqueue ▸ hroom)
    rw [hlen, hqueue] at hover
    rw [skip_skip, Nat.add_assoc, Nat.add_sub_cancel' hle, List.take_of_length_le (Nat.le_of_eq hlen),
      hover]

/-- Reading moves queued bytes off the front into the destination, as many as both have. -/
theorem read_eq (ring : ByteRing) (dest : List UInt8) :
    ring.read dest =
      (min dest.length ring.avail, overlay dest 0 (ring.toList.take (min dest.length ring.avail)),
        ring.skip (min dest.length ring.avail)) := by
  have hmin : min (min dest.length ring.avail) dest.length = min dest.length ring.avail := by omega
  rw [read, consume, hmin, consumeFrom_copy (by omega) (by omega)]
  simp

end Duplex.ByteRing
