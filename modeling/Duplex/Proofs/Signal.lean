import Duplex.Proofs.Checked
import Duplex.Signal
import Mathlib.Data.List.Basic

/-!
# Laws of cutting and overwriting

`overlay` and `fit` where the sizes agree, and the cut of a signal into blocks: `blocks n xs` are
the whole blocks and `residue n xs` is what is left behind them. A signal that comes in two portions
is cut as it is in one, if the residue of the first portion is put in front of the second
(`blocks_append_left`, `residue_append_left`).
-/

namespace Duplex.Signal

variable {α : Type}

/-! ### Writing over -/

theorem overlay_zero {dest src : List α} (h : src.length ≤ dest.length) :
    overlay dest 0 src = src ++ dest.drop src.length := by
  simp [overlay, List.take_of_length_le h]

theorem overlay_all {dest src : List α} (h : src.length = dest.length) :
    overlay dest 0 src = src := by
  simp [overlay_zero (Nat.le_of_eq h), h]

theorem take_overlay {dest src : List α} (h : src.length ≤ dest.length) :
    (overlay dest 0 src).take src.length = src := by
  simp [overlay_zero h]

theorem overlay_of_le {dest src : List α} {start : Nat} (h : start + src.length ≤ dest.length) :
    overlay dest start src = dest.take start ++ (src ++ dest.drop (start + src.length)) := by
  have hroom : src.length ≤ dest.length - start := by omega
  rw [overlay, List.take_of_length_le hroom]

/-- Writing over a list changes the places that are written and exist, and no others. -/
theorem getElem?_overlay (dest : List α) (start : Nat) (src : List α) (j : Nat) :
    (overlay dest start src)[j]? =
      if start ≤ j ∧ j < start + src.length ∧ j < dest.length then src[j - start]? else dest[j]? := by
  by_cases hj : j < dest.length
  · rw [overlay]
    by_cases hfront : j < start
    · rw [if_neg (by omega), List.getElem?_append_left (by rw [List.length_take]; omega),
        List.getElem?_take_of_lt hfront]
    · have hlen : (dest.take start).length = start := by rw [List.length_take]; omega
      rw [List.getElem?_append_right (by omega), hlen]
      by_cases hsrc : j < start + src.length
      · rw [if_pos (by omega), List.getElem?_append_left (by rw [List.length_take]; omega),
          List.getElem?_take_of_lt (by omega)]
      · rw [if_neg (by omega), List.getElem?_append_right (by rw [List.length_take]; omega),
          List.getElem?_drop, List.length_take]
        congr 1
        omega
  · rw [if_neg (by omega), List.getElem?_eq_none (by rw [length_overlay]; omega),
      List.getElem?_eq_none (by omega)]

theorem getElem?_overlay_zero {dest src : List α} (h : src.length ≤ dest.length) (i : Nat) :
    (overlay dest 0 src)[i]? = if i < src.length then src[i]? else dest[i]? := by
  rw [getElem?_overlay, Nat.sub_zero, Nat.zero_add]
  by_cases hi : i < src.length
  · rw [if_pos (by omega), if_pos hi]
  · rw [if_neg (by omega), if_neg hi]

/-- Writing over two stretches side by side is writing over them at once. -/
theorem overlay_overlay (dest first second : List α) {start : Nat}
    (h : start + (first ++ second).length ≤ dest.length) :
    overlay (overlay dest start first) (start + first.length) second =
      overlay dest start (first ++ second) := by
  rw [List.length_append] at h
  have hfront : (dest.take start ++ first).length = start + first.length := by simp; omega
  have hrest : (overlay dest start first).drop (start + first.length + second.length) =
      dest.drop (start + (first ++ second).length) := by
    rw [overlay_of_le (by omega), ← List.append_assoc, ← hfront, List.drop_length_add_append,
      List.drop_drop, hfront, List.length_append, Nat.add_assoc]
  have hstart : (overlay dest start first).take (start + first.length) = dest.take start ++ first := by
    rw [overlay_of_le (by omega), ← List.append_assoc, ← hfront, List.take_left]
  rw [overlay_of_le (by rw [length_overlay]; omega), hrest, hstart,
    overlay_of_le (by rw [List.length_append]; omega)]
  simp

theorem take_congr {xs ys : List α} {n : Nat} (h : ∀ i < n, xs[i]? = ys[i]?) :
    xs.take n = ys.take n := by
  refine List.ext_getElem? fun i => ?_
  rw [List.getElem?_take, List.getElem?_take]
  by_cases hi : i < n
  · rw [if_pos hi, if_pos hi, h i hi]
  · rw [if_neg hi, if_neg hi]

theorem slice_eq_ok {xs : List α} {start len : Nat} (h : start + len ≤ xs.length) :
    slice xs start len = .ok ((xs.drop start).take len) := if_pos h

theorem slice_all (xs : List α) : slice xs 0 xs.length = .ok xs := by
  rw [slice_eq_ok (by simp)]
  simp

/-! ### Neighbours -/

/-- Items are taken two at a time: what holds of no item and of a single one, and passes over a
pair, holds of all signals. -/
theorem pairs_induction {motive : List α → Prop} (nil : motive []) (single : ∀ a, motive [a])
    (pair : ∀ a b rest, motive rest → motive (a :: b :: rest)) : ∀ xs, motive xs
  | [] => nil
  | [a] => single a
  | a :: b :: rest => pair a b rest (pairs_induction nil single pair rest)

theorem length_pairs (xs : List α) : (pairs xs).length = xs.length / 2 := by
  induction xs using pairs_induction with
  | nil => simp
  | single a => simp
  | pair a b rest ih =>
    simp only [pairs_cons_cons, List.length_cons, ih]
    omega

theorem unpairs_pairs {xs : List α} (h : 2 ∣ xs.length) : unpairs (pairs xs) = xs := by
  induction xs using pairs_induction with
  | nil => rfl
  | single a => simp at h
  | pair a b rest ih =>
    have hrest : 2 ∣ rest.length := by simp only [List.length_cons] at h; omega
    simp [ih hrest]

theorem unpairs_append (ps qs : List (α × α)) : unpairs (ps ++ qs) = unpairs ps ++ unpairs qs :=
  List.flatMap_append

/-- Whole pairs are taken on their own. -/
theorem pairs_append {xs : List α} (h : 2 ∣ xs.length) (ys : List α) :
    pairs (xs ++ ys) = pairs xs ++ pairs ys := by
  induction xs using pairs_induction with
  | nil => rfl
  | single a => simp at h
  | pair a b rest ih =>
    have hrest : 2 ∣ rest.length := by simp only [List.length_cons] at h; omega
    simp [ih hrest]

/-- A pair comes from two places side by side. -/
theorem getElem?_pairs {xs : List α} {i : Nat} (h : i < xs.length / 2) :
    (pairs xs)[i]?.map (·.1) = xs[2 * i]? ∧ (pairs xs)[i]?.map (·.2) = xs[2 * i + 1]? := by
  induction xs using pairs_induction generalizing i with
  | nil => simp at h
  | single a => simp at h
  | pair a b rest ih =>
    rw [pairs_cons_cons]
    cases i with
    | zero => exact ⟨rfl, rfl⟩
    | succ i =>
      refine ih ?_
      simp only [List.length_cons] at h
      omega

/-- A pair goes to two places side by side. -/
theorem getElem?_unpairs (ps : List (α × α)) (i : Nat) :
    (unpairs ps)[2 * i]? = ps[i]?.map (·.1) ∧ (unpairs ps)[2 * i + 1]? = ps[i]?.map (·.2) := by
  induction ps generalizing i with
  | nil => exact ⟨rfl, rfl⟩
  | cons p ps ih =>
    cases i with
    | zero => exact ⟨rfl, rfl⟩
    | succ i => exact ih i

/-! ### Blocks -/

/-- A block lies within as many blocks as there are. -/
theorem block_room {n a b : Nat} (h : a < b) : a * n + n ≤ b * n := by
  rw [← Nat.succ_mul]
  exact Nat.mul_le_mul_right n h

/-- Items of different blocks of one size have different places. -/
theorem block_unique {n a b r : Nat} (hr : r < n) (hle : b * n ≤ a * n + r)
    (hlt : a * n + r < b * n + n) : a = b := by
  rcases Nat.lt_trichotomy a b with h | h | h
  · have hnext := block_room (n := n) h
    omega
  · exact h
  · have hnext := block_room (n := n) h
    omega

/-- What is left of a signal behind its whole blocks. -/
def residue (n : Nat) (xs : List α) : List α := xs.drop (xs.length / n * n)

theorem residue_of_length_lt {n : Nat} {xs : List α} (h : xs.length < n) : residue n xs = xs := by
  simp [residue, Nat.div_eq_of_lt h]

theorem length_residue (n : Nat) (xs : List α) : (residue n xs).length = xs.length % n := by
  rw [residue, List.length_drop]
  have := Nat.div_add_mod' xs.length n
  omega

theorem length_residue_lt {n : Nat} (hn : 0 < n) (xs : List α) : (residue n xs).length < n := by
  rw [length_residue]
  exact Nat.mod_lt _ hn

theorem length_flatten_of_forall {n : Nat} {xss : List (List α)} (h : ∀ xs ∈ xss, xs.length = n) :
    xss.flatten.length = xss.length * n := by
  induction xss with
  | nil => exact (Nat.zero_mul n).symm
  | cons xs xss ih =>
    have hrest := ih fun ys hys => h ys (List.mem_cons_of_mem xs hys)
    rw [List.flatten_cons, List.length_append, h xs List.mem_cons_self, hrest, List.length_cons,
      Nat.succ_mul, Nat.add_comm]

/-- Whole frames that are put together are whole frames. -/
theorem dvd_length_flatten {n : Nat} {xss : List (List α)} (h : ∀ xs ∈ xss, n ∣ xs.length) :
    n ∣ xss.flatten.length := by
  induction xss with
  | nil => exact Nat.dvd_zero n
  | cons xs xss ih =>
    rw [List.flatten_cons, List.length_append]
    refine Nat.dvd_add (h xs List.mem_cons_self) (ih ?_)
    intro ys hys
    exact h ys (List.mem_cons_of_mem xs hys)

/-- An item of whole blocks that were put together. -/
theorem getElem?_flatten {n i : Nat} {xss : List (List α)} (h : ∀ xs ∈ xss, xs.length = n)
    (hi : i < n) (k : Nat) : xss.flatten[k * n + i]? = xss[k]?.bind (·[i]?) := by
  induction xss generalizing k with
  | nil => rfl
  | cons xs xss ih =>
    have hxs : xs.length = n := h xs List.mem_cons_self
    rw [List.flatten_cons]
    cases k with
    | zero =>
      rw [List.getElem?_append_left (by omega), Nat.zero_mul, Nat.zero_add]
      rfl
    | succ k =>
      have hplace : (k + 1) * n + i - xs.length = k * n + i := by
        rw [hxs, Nat.succ_mul]
        omega
      have hle : xs.length ≤ (k + 1) * n + i := by
        rw [hxs, Nat.succ_mul]
        omega
      rw [List.getElem?_append_right hle, hplace, ih fun ys hys => h ys (List.mem_cons_of_mem xs hys)]
      rfl

section Positive

variable {n : Nat} (hn : 0 < n)

include hn

theorem blocks_of_le_length {xs : List α} (h : n ≤ xs.length) :
    blocks n xs = xs.take n :: blocks n (xs.drop n) := by
  conv_lhs => rw [← List.take_append_drop n xs]
  exact blocks_append hn (by simp [h]) _

theorem residue_of_le_length {xs : List α} (h : n ≤ xs.length) :
    residue n xs = residue n (xs.drop n) := by
  have hlen : xs.length = (xs.drop n).length + n := by
    rw [List.length_drop]
    omega
  rw [residue, residue, hlen, Nat.add_div_right _ hn, Nat.succ_mul, List.drop_drop, Nat.add_comm]

/-- Cutting by blocks: it is enough to look at a signal short of a block, and at the first block of
a longer one. -/
theorem blocks_induction {motive : List α → Prop} (short : ∀ xs, xs.length < n → motive xs)
    (long : ∀ xs, n ≤ xs.length → motive (xs.drop n) → motive xs) (xs : List α) : motive xs := by
  induction hl : xs.length using Nat.strongRecOn generalizing xs with
  | ind l ih =>
    rcases Nat.lt_or_ge xs.length n with h | h
    · exact short xs h
    · refine long xs h (ih _ ?_ _ rfl)
      rw [List.length_drop]
      omega

theorem length_blocks (xs : List α) : (blocks n xs).length = xs.length / n := by
  induction xs using blocks_induction hn with
  | short xs h => rw [blocks_of_length_lt h, Nat.div_eq_of_lt h, List.length_nil]
  | long xs h ih =>
    rw [blocks_of_le_length hn h, List.length_cons, ih, List.length_drop, Nat.div_eq_sub_div hn h]

theorem getElem?_blocks {xs : List α} {k : Nat} (hk : k < xs.length / n) :
    (blocks n xs)[k]? = some ((xs.drop (k * n)).take n) := by
  induction xs using blocks_induction hn generalizing k with
  | short xs h =>
    rw [Nat.div_eq_of_lt h] at hk
    exact absurd hk (Nat.not_lt_zero k)
  | long xs h ih =>
    rw [blocks_of_le_length hn h]
    cases k with
    | zero => rw [Nat.zero_mul, List.drop_zero]; rfl
    | succ k =>
      have hrest : k < (xs.drop n).length / n := by
        rw [Nat.div_eq_sub_div hn h] at hk
        rw [List.length_drop]
        omega
      rw [List.getElem?_cons_succ, ih hrest, List.drop_drop, Nat.succ_mul, Nat.add_comm]

/-- Every block has the size of the cut. -/
theorem length_of_mem_blocks {xs block : List α} (h : block ∈ blocks n xs) : block.length = n := by
  induction xs using blocks_induction hn with
  | short xs hshort =>
    rw [blocks_of_length_lt hshort] at h
    exact absurd h List.not_mem_nil
  | long xs hlong ih =>
    rw [blocks_of_le_length hn hlong] at h
    rcases List.mem_cons.mp h with rfl | h
    · rw [List.length_take, Nat.min_eq_left hlong]
    · exact ih h

theorem blocks_append_left (xs ys : List α) :
    blocks n (xs ++ ys) = blocks n xs ++ blocks n (residue n xs ++ ys) := by
  induction xs using blocks_induction hn with
  | short xs h => simp [blocks_of_length_lt h, residue_of_length_lt h]
  | long xs h ih =>
    rw [blocks_of_le_length hn h, blocks_of_le_length hn (by simp; omega),
      residue_of_le_length hn h, List.take_append_of_le_length h, List.drop_append_of_le_length h, ih,
      List.cons_append]

theorem residue_append_left (xs ys : List α) :
    residue n (xs ++ ys) = residue n (residue n xs ++ ys) := by
  induction xs using blocks_induction hn with
  | short xs h => simp [residue_of_length_lt h]
  | long xs h ih =>
    rw [residue_of_le_length hn (by simp; omega), residue_of_le_length hn h,
      List.drop_append_of_le_length h, ih]

theorem flatten_blocks (xs : List α) : (blocks n xs).flatten ++ residue n xs = xs := by
  induction xs using blocks_induction hn with
  | short xs h => simp [blocks_of_length_lt h, residue_of_length_lt h]
  | long xs h ih =>
    rw [blocks_of_le_length hn h, residue_of_le_length hn h, List.flatten_cons, List.append_assoc,
      ih, List.take_append_drop]

theorem blocks_of_length_eq {xs : List α} (h : xs.length = n) : blocks n xs = [xs] := by
  rw [blocks_of_le_length hn (Nat.le_of_eq h.symm), List.take_of_length_le (Nat.le_of_eq h),
    blocks_of_length_lt (by simp [h, hn])]

/-- Whole blocks that were put together are cut apart again. -/
theorem blocks_flatten_append {xs : List (List α)} (h : ∀ x ∈ xs, x.length = n) (ys : List α) :
    blocks n (xs.flatten ++ ys) = xs ++ blocks n ys := by
  induction xs with
  | nil => rfl
  | cons x xs ih =>
    have hrest := ih fun y hy => h y (List.mem_cons_of_mem x hy)
    rw [List.flatten_cons, List.append_assoc, blocks_append hn (h x List.mem_cons_self), hrest,
      List.cons_append]

/-- The whole blocks of a signal, one after another. -/
theorem take_eq_flatten_blocks (xs : List α) :
    xs.take (xs.length / n * n) = (blocks n xs).flatten := by
  have h := flatten_blocks hn xs
  rw [residue] at h
  conv_rhs at h => rw [← List.take_append_drop (xs.length / n * n) xs]
  exact (List.append_cancel_right h).symm

/-- Whole blocks are cut on their own. -/
theorem blocks_append_of_dvd {xs : List α} (hxs : n ∣ xs.length) (ys : List α) :
    blocks n (xs ++ ys) = blocks n xs ++ blocks n ys := by
  have hresidue : residue n xs = [] := by
    rw [← List.length_eq_zero_iff, length_residue]
    exact Nat.mod_eq_zero_of_dvd hxs
  rw [blocks_append_left hn, hresidue, List.nil_append]

end Positive

/-! ### Rows and columns -/

section Columns

variable {β γ : Type} {n k : Nat}

theorem exists_of_mem_zipWith {f : α → β → γ} {xs : List α} {ys : List β} {z : γ}
    (h : z ∈ List.zipWith f xs ys) : ∃ x ∈ xs, ∃ y ∈ ys, f x y = z := by
  rw [← List.map_uncurry_zip_eq_zipWith] at h
  obtain ⟨p, hp, rfl⟩ := List.mem_map.mp h
  obtain ⟨hx, hy⟩ := List.of_mem_zip hp
  exact ⟨p.1, hx, p.2, hy, rfl⟩

theorem length_columns (n : Nat) (xs : List α) : (columns n xs).length = n := by
  simp [columns]

theorem length_of_mem_columns (hn : 0 < n) {xs col : List α} (h : col ∈ columns n xs) :
    col.length = xs.length / n := by
  obtain ⟨i, hi, rfl⟩ := List.mem_map.mp h
  have hi : i < n := List.mem_range.mp hi
  have hall : ∀ row ∈ blocks n xs, (row[i]?).isSome = true := by
    intro row hrow
    have hlen : row.length = n := length_of_mem_blocks hn hrow
    simp [hlen, hi]
  rw [List.length_filterMap_eq_countP, List.countP_eq_length.mpr hall, length_blocks hn]

/-- Each row has one item of every column. -/
theorem length_of_mem_rows {cols : List (List α)} {row : List α}
    (h : row ∈ cols.foldr (fun col rows => List.zipWith (· :: ·) col rows) (List.replicate k [])) :
    row.length = cols.length := by
  induction cols generalizing row with
  | nil => rw [List.eq_of_mem_replicate h]; rfl
  | cons col cols ih =>
    rw [List.foldr_cons] at h
    obtain ⟨i, hi, rfl⟩ := List.getElem_of_mem h
    rw [List.getElem_zipWith, List.length_cons, List.length_cons, ih (List.getElem_mem _)]

/-- As many rows as every column has items. -/
theorem length_rows {cols : List (List α)} (h : ∀ col ∈ cols, col.length = k) :
    (cols.foldr (fun col rows => List.zipWith (· :: ·) col rows) (List.replicate k [])).length = k := by
  induction cols with
  | nil => exact List.length_replicate
  | cons col cols ih =>
    have hrest := ih fun c hc => h c (List.mem_cons_of_mem col hc)
    rw [List.foldr_cons, List.length_zipWith, hrest, h col List.mem_cons_self, Nat.min_self]

theorem length_interleave {cols : List (List α)} (h : ∀ col ∈ cols, col.length = k) :
    (interleave cols).length = k * cols.length := by
  cases cols with
  | nil => rfl
  | cons first cols =>
    rw [interleave, h first List.mem_cons_self,
      length_flatten_of_forall fun row hrow => length_of_mem_rows hrow, length_rows h]

end Columns

end Duplex.Signal
