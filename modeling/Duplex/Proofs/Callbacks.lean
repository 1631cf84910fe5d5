import Duplex.Proofs.Queue

/-!
# Callbacks: what a drain hands out

A drain calls its callback again and again, and the callback may answer what it likes. `logging` makes
any callback keep a record of its calls and changes nothing else, so that the record of a drain is the
list of calls that it makes. Every call is handed the next bytes of the queue, as far as they lie side
by side, with the window of the destination beside them (`Handed`); the drain ends behind the first
call that takes nothing, or when everything is taken (`ByteRing.consume_hands_out_runs`).
-/

namespace Duplex.ByteRing

open Signal

variable {σ : Type}

/-! ### Calls of a callback -/

/-- One call of a callback: the run and the window that it was handed, and its answer. -/
structure Visit (σ : Type) where
  src : List UInt8
  window : List UInt8
  taken : Taken σ

namespace Visit

/-- How many bytes a call took: as many as it said, up to the whole run. -/
def count (v : Visit σ) : Nat := min v.taken.count v.src.length

/-- What a call left in its window. -/
def written (v : Visit σ) : List UInt8 := v.taken.window.take v.src.length

theorem count_le (v : Visit σ) : v.count ≤ v.src.length := Nat.min_le_right _ _

end Visit

/-- The same callback with a record of its calls. -/
def logging (take : σ → List UInt8 → List UInt8 → Taken σ) (s : σ × List (Visit σ))
    (src window : List UInt8) : Taken (σ × List (Visit σ)) :=
  let taken := take s.1 src window
  { window := taken.window, count := taken.count
    state := (taken.state, s.2 ++ [{ src, window, taken }]) }

/-- How many bytes calls took together. -/
def took (visits : List (Visit σ)) : Nat := (visits.map Visit.count).sum

/-- The destination after calls of which the first wrote from place `start` on, and each other one
behind what was taken before it. -/
def destAfter (dest : List UInt8) (start : Nat) : List (Visit σ) → List UInt8
  | [] => dest
  | v :: visits => destAfter (overlay dest start v.written) (start + v.count) visits

/-- What the callback remembers after calls. -/
def stateAfter (state : σ) : List (Visit σ) → σ
  | [] => state
  | v :: visits => stateAfter v.taken.state visits

@[simp] theorem took_nil : took ([] : List (Visit σ)) = 0 := rfl

@[simp] theorem took_cons (v : Visit σ) (visits : List (Visit σ)) :
    took (v :: visits) = v.count + took visits := by
  simp [took]

theorem took_take_succ (visits : List (Visit σ)) {i : Nat} (h : i < visits.length) :
    took (visits.take (i + 1)) = took (visits.take i) + visits[i].count := by
  rw [List.take_succ_eq_append_getElem h, took, List.map_append, List.sum_append]
  rfl

theorem length_destAfter (dest : List UInt8) (start : Nat) (visits : List (Visit σ)) :
    (destAfter dest start visits).length = dest.length := by
  induction visits generalizing dest start with
  | nil => rfl
  | cons v visits ih => rw [destAfter, ih, length_overlay]

/-- Calls change nothing outside their windows. -/
theorem getElem?_destAfter {dest : List UInt8} {start j : Nat} {visits : List (Visit σ)}
    (h : ∀ i (hi : i < visits.length), start + took (visits.take i) ≤ j →
      start + took (visits.take i) + visits[i].src.length ≤ j) :
    (destAfter dest start visits)[j]? = dest[j]? := by
  induction visits generalizing dest start with
  | nil => rfl
  | cons v visits ih =>
    have hfirst : start ≤ j → start + v.src.length ≤ j := h 0 (Nat.succ_pos _)
    have hwritten : v.written.length ≤ v.src.length := List.length_take_le _ _
    rw [destAfter, ih]
    · rw [getElem?_overlay, if_neg (by omega)]
    · intro i hi
      have hnext := h (i + 1) (by simpa using hi)
      rw [List.take_succ_cons, took_cons, ← Nat.add_assoc] at hnext
      simpa using hnext

/-! ### The loop -/

/-- The call with which a drain goes on: it is handed the run at the read cursor, which ends with the
region if the drain does not end before, and as long a window. -/
structure Opens (take : σ → List UInt8 → List UInt8 → Taken σ) (ring : ByteRing) (dest : List UInt8)
    (copied remaining : Nat) (state : σ) (v : Visit σ) : Prop where
  unfinished : 0 < remaining
  length : v.src.length = min remaining (ring.capacity - ring.readPos)
  src : v.src = ring.region.slice ring.readPos v.src.length
  window : v.window = (dest.drop copied).take v.src.length
  answer : v.taken = take state v.src v.window

/-- The calls of a drain that has `copied` bytes behind it and `remaining` ones to go. -/
inductive Visits (take : σ → List UInt8 → List UInt8 → Taken σ) :
    ByteRing → (dest : List UInt8) → (copied remaining : Nat) → σ → List (Visit σ) → Prop
  | full {ring : ByteRing} {dest : List UInt8} {copied : Nat} {state : σ} :
    Visits take ring dest copied 0 state []
  | refused {ring : ByteRing} {dest : List UInt8} {copied remaining : Nat} {state : σ} {v : Visit σ}
    (hopens : Opens take ring dest copied remaining state v) (hnone : v.count = 0) :
    Visits take ring dest copied remaining state [v]
  | some {ring : ByteRing} {dest : List UInt8} {copied remaining : Nat} {state : σ} {v : Visit σ}
    {visits : List (Visit σ)} (hopens : Opens take ring dest copied remaining state v)
    (hsome : 0 < v.count)
    (hrest : Visits take (ring.skip v.count) (overlay dest copied v.written) (copied + v.count)
      (remaining - v.count) v.taken.state visits) :
    Visits take ring dest copied remaining state (v :: visits)

variable {take : σ → List UInt8 → List UInt8 → Taken σ} {ring : ByteRing} {dest : List UInt8}
  {copied remaining : Nat} {state : σ} {v : Visit σ} {visits : List (Visit σ)}

theorem exists_opens (take : σ → List UInt8 → List UInt8 → Taken σ) (ring : ByteRing)
    (dest : List UInt8) (copied : Nat) (state : σ) (h : 0 < remaining) :
    ∃ v, Opens take ring dest copied remaining state v := by
  obtain ⟨run, hrun⟩ : ∃ run, min remaining (ring.capacity - ring.readPos) = run := ⟨_, rfl⟩
  obtain ⟨src, hsrc⟩ : ∃ src, ring.region.slice ring.readPos run = src := ⟨_, rfl⟩
  have hlength : src.length = run := by rw [← hsrc, Region.length_slice]
  exact ⟨⟨src, (dest.drop copied).take run, take state src ((dest.drop copied).take run)⟩, h,
    by rw [hrun, hlength], by rw [hlength, hsrc], by rw [hlength], rfl⟩

namespace Opens

variable (h : Opens take ring dest copied remaining state v)

include h

/-- A call that takes some bytes is followed by the rest of the drain. -/
theorem consumeFrom_some (hsome : 0 < v.count) :
    consumeFrom take ring dest copied remaining state =
      consumeFrom take (ring.skip v.count) (overlay dest copied v.written) (copied + v.count)
        (remaining - v.count) v.taken.state := by
  refine consumeFrom_of_taken h.unfinished h.length.symm ?_ hsome
  rw [← h.src, ← h.window]
  exact h.answer.symm

/-- A call that takes nothing is the last one. -/
theorem consumeFrom_none (hnone : v.count = 0) :
    consumeFrom take ring dest copied remaining state =
      { ring, dest := overlay dest copied v.written, count := copied, state := v.taken.state } := by
  have hanswer := h.answer
  rw [h.window] at hanswer
  rw [consumeFrom, dif_neg (Nat.pos_iff_ne_zero.mp h.unfinished)]
  simp only [← h.length, ← h.src, ← hanswer]
  exact dif_pos hnone

/-- With a record the same call is made. -/
theorem logging (log : List (Visit σ)) :
    Opens (logging take) ring dest copied remaining (state, log)
      { src := v.src, window := v.window
        taken := { window := v.taken.window, count := v.taken.count
                   state := (v.taken.state, log ++ [v]) } } := by
  refine ⟨h.unfinished, h.length, h.src, h.window, ?_⟩
  rw [ByteRing.logging, ← h.answer]

theorem count_le : v.count ≤ remaining :=
  v.count_le.trans (h.length.trans_le (Nat.min_le_left _ _))

end Opens

/-- A drain is the calls that it makes, and a record of them is the list of them. -/
theorem consumeFrom_visits (take : σ → List UInt8 → List UInt8 → Taken σ) (ring : ByteRing)
    (dest : List UInt8) (copied remaining : Nat) (state : σ) (log : List (Visit σ)) :
    ∃ visits, Visits take ring dest copied remaining state visits ∧
      consumeFrom take ring dest copied remaining state =
        { ring := ring.skip (took visits), dest := destAfter dest copied visits
          count := copied + took visits, state := stateAfter state visits } ∧
      consumeFrom (logging take) ring dest copied remaining (state, log) =
        { ring := ring.skip (took visits), dest := destAfter dest copied visits
          count := copied + took visits, state := (stateAfter state visits, log ++ visits) } := by
  induction remaining using Nat.strongRecOn generalizing ring dest copied state log with
  | ind remaining ih =>
    rcases Nat.eq_zero_or_pos remaining with rfl | hpos
    · exact ⟨[], .full, by simp [destAfter, stateAfter], by simp [destAfter, stateAfter]⟩
    obtain ⟨v, hopens⟩ := exists_opens take ring dest copied state hpos
    rcases Nat.eq_zero_or_pos v.count with hnone | hsome
    · refine ⟨[v], .refused hopens hnone, ?_, ?_⟩
      · rw [hopens.consumeFrom_none hnone]
        simp [hnone, destAfter, stateAfter]
      · rw [(hopens.logging log).consumeFrom_none hnone]
        simp [hnone, destAfter, stateAfter, Visit.written]
    · have hless : remaining - v.count < remaining := Nat.sub_lt hpos hsome
      obtain ⟨visits, hvisits, hplain, hlogged⟩ := ih _ hless (ring.skip v.count)
        (overlay dest copied v.written) (copied + v.count) v.taken.state (log ++ [v])
      refine ⟨v :: visits, .some hopens hsome hvisits, ?_, ?_⟩
      · rw [hopens.consumeFrom_some hsome, hplain, skip_skip, took_cons, Nat.add_assoc]
        rfl
      · rw [(hopens.logging log).consumeFrom_some hsome]
        show consumeFrom (ByteRing.logging take) (ring.skip v.count) (overlay dest copied v.written)
          (copied + v.count) (remaining - v.count) (v.taken.state, log ++ [v]) = _
        rw [hlogged, skip_skip, took_cons, Nat.add_assoc, List.append_assoc, List.singleton_append]
        rfl

namespace Visits

variable (h : Visits take ring dest copied remaining state visits)

include h

/-- Each call opens the drain that the calls before it have left. -/
theorem opens {i : Nat} (hi : i < visits.length) :
    Opens take (ring.skip (took (visits.take i))) (destAfter dest copied (visits.take i))
      (copied + took (visits.take i)) (remaining - took (visits.take i))
      (stateAfter state (visits.take i)) visits[i] := by
  induction h generalizing i with
  | full => exact absurd hi (Nat.not_lt_zero i)
  | refused hopens hnone =>
    obtain rfl : i = 0 := by simpa using hi
    simpa [destAfter, stateAfter] using hopens
  | some hopens hsome hrest ih =>
    cases i with
    | zero => simpa [destAfter, stateAfter] using hopens
    | succ i =>
      have hnext := ih (i := i) (by simpa using hi)
      rw [skip_skip, Nat.add_assoc, Nat.sub_sub] at hnext
      simpa [destAfter, stateAfter] using hnext

/-- Every call but the last one takes some bytes. -/
theorem count_pos {i : Nat} (hi : i + 1 < visits.length) : 0 < visits[i].count := by
  induction h generalizing i with
  | full => exact absurd hi (Nat.not_lt_zero _)
  | refused hopens hnone => simp at hi
  | some hopens hsome hrest ih =>
    cases i with
    | zero => exact hsome
    | succ i => exact ih (by simpa using hi)

/-- A drain ends when all is taken, or with a call that takes nothing. -/
theorem ends : took visits = remaining ∨ ∃ v, visits.getLast? = .some v ∧ v.count = 0 := by
  induction h with
  | full => exact .inl rfl
  | refused hopens hnone => exact .inr ⟨_, rfl, hnone⟩
  | some hopens hsome hrest ih =>
    have hle := hopens.count_le
    rcases ih with hall | ⟨v, hlast, hnone⟩
    · left
      rw [took_cons]
      omega
    · right
      exact ⟨v, by rw [List.getLast?_cons, hlast]; rfl, hnone⟩

theorem took_le : took visits ≤ remaining := by
  induction h with
  | full => exact Nat.le_refl 0
  | refused hopens hnone => simp [hnone]
  | some hopens hsome hrest ih =>
    have hle := hopens.count_le
    rw [took_cons]
    omega

/-- There are no more calls than bytes to take, so that the loop comes to its end. -/
theorem length_le : visits.length ≤ remaining := by
  induction h with
  | full => exact Nat.le_refl 0
  | refused hopens hnone => exact hopens.unfinished
  | some hopens hsome hrest ih =>
    have hle := hopens.count_le
    rw [List.length_cons]
    omega

/-- Calls that take their whole runs are at most two, the second one at the start of the region. -/
theorem of_whole_runs (hroom : remaining < ring.capacity)
    (hwhole : ∀ v ∈ visits, v.src.length ≤ v.taken.count) :
    visits.length ≤ 2 ∧
      (1 < visits.length → (ring.readPos + took (visits.take 1)) % ring.capacity = 0) := by
  have hread := ring.readPos_lt
  have hcount (i : Nat) (hi : i < visits.length) : visits[i].count = visits[i].src.length :=
    Nat.min_eq_right (hwhole _ (List.getElem_mem hi))
  rcases Nat.lt_or_ge 1 visits.length with htwo | hone
  swap
  · exact ⟨by omega, by omega⟩
  have hfirst := (h.opens (i := 0) (by omega)).length
  have hnext := (h.opens (i := 1) htwo).unfinished
  have hafter : took (visits.take 1) = visits[0].src.length := by
    rw [took_take_succ visits (by omega), hcount]
    simp
  rw [List.take_zero, took_nil, skip_zero] at hfirst
  -- The drain goes on behind the first run, so that the run ended with the region.
  have hend : ring.readPos + took (visits.take 1) = ring.capacity := by omega
  have hstart : (ring.readPos + took (visits.take 1)) % ring.capacity = 0 := by
    rw [hend, Nat.mod_self]
  refine ⟨?_, fun _ => hstart⟩
  have hsecond : visits[1].src.length = min (remaining - took (visits.take 1))
      (ring.capacity - (ring.readPos + took (visits.take 1)) % ring.capacity) :=
    (h.opens htwo).length
  have hboth : took (visits.take 2) = took (visits.take 1) + visits[1].src.length := by
    rw [took_take_succ visits htwo, hcount]
  by_contra hthree
  have hthird := (h.opens (i := 2) (by omega)).unfinished
  omega

end Visits

/-! ### What a drain hands out -/

/-- What the call behind the calls `before` is handed in a drain of up to `limit` bytes: the next bytes
of the queue, as far as they lie side by side in the region and are to be drained, and the window of
the destination that starts behind what was taken so far. -/
structure Handed (take : σ → List UInt8 → List UInt8 → Taken σ) (ring : ByteRing) (dest : List UInt8)
    (limit : Nat) (state : σ) (before : List (Visit σ)) (v : Visit σ) : Prop where
  unfinished : took before < limit
  length : v.src.length =
    min (limit - took before) (ring.capacity - (ring.readPos + took before) % ring.capacity)
  queued : v.src = (ring.toList.drop (took before)).take v.src.length
  run : v.src = ring.region.slice ((ring.readPos + took before) % ring.capacity) v.src.length
  window : v.window = ((destAfter dest 0 before).drop (took before)).take v.src.length
  length_window : v.window.length = v.src.length
  answer : v.taken = take (stateAfter state before) v.src v.window

/-- What comes of a drain of up to `limit` bytes that makes the given calls. -/
structure Drained.HandsOut (drained : Drained σ) (take : σ → List UInt8 → List UInt8 → Taken σ)
    (ring : ByteRing) (dest : List UInt8) (limit : Nat) (state : σ) (visits : List (Visit σ)) :
    Prop where
  handed : ∀ i (h : i < visits.length), Handed take ring dest limit state (visits.take i) visits[i]
  /-- Only the last call may take nothing. -/
  goes_on : ∀ i (h : i + 1 < visits.length), 0 < visits[i].count
  ends : took visits = limit ∨ ∃ v, visits.getLast? = some v ∧ v.count = 0
  calls_le : visits.length ≤ limit
  count : drained.count = took visits
  count_le : drained.count ≤ limit
  ring_eq : drained.ring = ring.skip drained.count
  queue : drained.ring.toList = ring.toList.drop drained.count
  dest_eq : drained.dest = destAfter dest 0 visits
  state_eq : drained.state = stateAfter state visits
  untouched : ∀ j, (∀ i (h : i < visits.length), ¬ (took (visits.take i) ≤ j ∧
    j < took (visits.take i) + visits[i].src.length)) → drained.dest[j]? = dest[j]?
  whole_runs : (∀ v ∈ visits, v.src.length ≤ v.taken.count) → visits.length ≤ 2 ∧
    (1 < visits.length → (ring.readPos + took (visits.take 1)) % ring.capacity = 0)

/-- The call that opens what is left of a drain is handed the next bytes of the queue. -/
theorem Opens.handed {limit : Nat} {before : List (Visit σ)} (hqueue : limit ≤ ring.avail)
    (hdest : limit ≤ dest.length)
    (h : Opens take (ring.skip (took before)) (destAfter dest 0 before) (0 + took before)
      (limit - took before) (stateAfter state before) v) :
    Handed take ring dest limit state before v := by
  have hleft := h.unfinished
  have hlength : v.src.length =
      min (limit - took before) (ring.capacity - (ring.readPos + took before) % ring.capacity) :=
    h.length
  have hwindow := h.window
  rw [Nat.zero_add] at hwindow
  refine ⟨by omega, hlength, ?_, h.src, hwindow, ?_, h.answer⟩
  · have hnext : v.src.length ≤ (ring.skip (took before)).avail := by
      rw [skip_avail (by omega)]
      omega
    have hend : v.src.length ≤ (ring.skip (took before)).capacity - (ring.skip (took before)).readPos :=
      h.length.trans_le (Nat.min_le_right _ _)
    rw [← toList_skip (by omega), ← slice_readPos hnext hend]
    exact h.src
  · rw [hwindow, List.length_take, List.length_drop, length_destAfter]
    omega

/-- What the calls of a drain say of it, if there are as many bytes queued as it is to take, and room for
them. -/
theorem Visits.handsOut {limit : Nat} (hqueue : limit ≤ ring.avail) (hdest : limit ≤ dest.length)
    (h : Visits take ring dest 0 limit state visits) :
    Drained.HandsOut
      { ring := ring.skip (took visits), dest := destAfter dest 0 visits, count := took visits
        state := stateAfter state visits } take ring dest limit state visits := by
  have htook := h.took_le
  have hcapacity := ring.avail_lt_capacity
  exact {
    handed := fun i hi => (h.opens hi).handed hqueue hdest
    goes_on := fun i hi => h.count_pos hi
    ends := h.ends
    calls_le := h.length_le
    count := rfl
    count_le := htook
    ring_eq := rfl
    queue := toList_skip (by omega)
    dest_eq := rfl
    state_eq := rfl
    untouched := fun j hj => getElem?_destAfter fun i hi hle => by
      have hout := hj i hi
      omega
    whole_runs := fun hwhole => h.of_whole_runs (by omega) hwhole }

/-- Whatever the callback answers, a drain hands it the queued bytes in contiguous runs, each with its
window of the destination, until it takes none or all are taken; what it took is counted and leaves the
queue, and the destination changes in the windows alone. With every slot, slice and difference checked,
the drain comes to the same. -/
theorem consume_hands_out_runs (ring : ByteRing) (dest : List UInt8) (len : Nat)
    (take : σ → List UInt8 → List UInt8 → Taken σ) (state : σ) :
    ∃ drained visits, ring.consume dest len take state = drained ∧
      ring.consume dest len (logging take) (state, []) =
        { ring := drained.ring, dest := drained.dest, count := drained.count
          state := (drained.state, visits) } ∧
      Guarded.consume ring dest len take state = .ok drained ∧
      drained.HandsOut take ring dest (min (min len ring.toList.length) dest.length) state visits := by
  rw [length_toList]
  obtain ⟨limit, hlimit⟩ : ∃ limit, min (min len ring.avail) dest.length = limit := ⟨_, rfl⟩
  obtain ⟨visits, hvisits, hplain, hlogged⟩ := consumeFrom_visits take ring dest 0 limit state []
  have hqueue : limit ≤ ring.avail := by omega
  have hdest : limit ≤ dest.length := by omega
  refine ⟨_, visits, rfl, ?_, Guarded.consume_eq ring dest len take state, ?_⟩
  · rw [consume, consume, hlimit, hplain, hlogged]
    rfl
  · rw [consume, hlimit, hplain, Nat.zero_add]
    exact hvisits.handsOut hqueue hdest

/-- Three bytes are queued around the end of a region of four. A callback that copies its run and takes
one byte is called three times, and its first window overlaps the second one. -/
example :
    let ring : ByteRing :=
      { region := ⟨#[3, 9, 1, 2]⟩, capacity := 4, readPos := 2, writePos := 1
        two_le_capacity := by decide, isPowerOfTwo_capacity := ⟨2, rfl⟩
        readPos_lt := by decide, writePos_lt := by decide }
    let drained := ring.consume [0, 0, 0] 3
      (logging fun (_ : Unit) src _ => { window := src, count := 1, state := () }) ((), [])
    (drained.dest, drained.state.2.map fun v => (v.src, v.window)) =
      ([1, 2, 3], [([1, 2], [0, 0]), ([2], [2]), ([3], [0])]) := by
  decide +kernel

end Duplex.ByteRing
