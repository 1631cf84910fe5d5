import Duplex.Pcm.Bytes
import Duplex.Pcm.Layout
import Duplex.Proofs.Signal

/-!
# Laws of the byte codec and of layouts

`decode` and `encode` undo each other on whole samples, and `decode` goes over an even number of
bytes as if they came alone. `Layout.split` and `Layout.join` undo each other on whole frames, and a
layout is mapped to itself without a change.
-/

namespace Duplex.Pcm

open Signal

/-! ### Bytes -/

theorem sampleOfBytes_sampleBytes (v : Int16) :
    sampleOfBytes (UInt8.ofNat (v.toUInt16.toNat % 256)) (UInt8.ofNat (v.toUInt16.toNat / 256)) =
      v := by
  have hlt : v.toUInt16.toNat < 65536 := v.toUInt16.toNat_lt
  have hlow : (UInt8.ofNat (v.toUInt16.toNat % 256)).toNat = v.toUInt16.toNat % 256 := by
    rw [UInt8.toNat_ofNat']
    omega
  have hhigh : (UInt8.ofNat (v.toUInt16.toNat / 256)).toNat = v.toUInt16.toNat / 256 := by
    rw [UInt8.toNat_ofNat']
    omega
  have hsum : v.toUInt16.toNat % 256 + 256 * (v.toUInt16.toNat / 256) = v.toUInt16.toNat := by
    omega
  rw [sampleOfBytes, hlow, hhigh, hsum, UInt16.ofNat_toNat]
  simp

theorem sampleBytes_sampleOfBytes (low high : UInt8) :
    sampleBytes (sampleOfBytes low high) = [low, high] := by
  have hl : low.toNat < 256 := low.toNat_lt
  have hh : high.toNat < 256 := high.toNat_lt
  have hn : (sampleOfBytes low high).toUInt16.toNat = low.toNat + 256 * high.toNat := by
    rw [sampleOfBytes, UInt16.toUInt16_toInt16, UInt16.toNat_ofNat']
    omega
  have hlow : (low.toNat + 256 * high.toNat) % 256 = low.toNat := by omega
  have hhigh : (low.toNat + 256 * high.toNat) / 256 = high.toNat := by omega
  simp only [sampleBytes, hn, hlow, hhigh, UInt8.ofNat_toNat]

@[simp] theorem decode_encode (xs : List Int16) : decode (encode xs) = xs := by
  induction xs with
  | nil => rfl
  | cons v vs ih =>
    simp only [encode_cons, sampleBytes, List.cons_append, List.nil_append, decode_cons_cons, ih,
      sampleOfBytes_sampleBytes]

@[simp] theorem decode_singleton (b : UInt8) : decode [b] = [] := rfl

@[simp] theorem length_decode (bytes : List UInt8) : (decode bytes).length = bytes.length / 2 := by
  induction bytes using pairs_induction with
  | nil => simp
  | single b => simp
  | pair b c rest ih =>
    simp only [decode_cons_cons, List.length_cons, ih]
    omega

theorem encode_decode {bytes : List UInt8} (h : 2 ∣ bytes.length) : encode (decode bytes) = bytes := by
  induction bytes using pairs_induction with
  | nil => rfl
  | single b => simp at h
  | pair b c rest ih =>
    have hrest : 2 ∣ rest.length := by simp only [List.length_cons] at h; omega
    rw [decode_cons_cons, encode_cons, sampleBytes_sampleOfBytes, ih hrest]
    rfl

theorem decode_append {xs : List UInt8} (h : 2 ∣ xs.length) (ys : List UInt8) :
    decode (xs ++ ys) = decode xs ++ decode ys := by
  rw [decode, pairs_append h, List.map_append]
  rfl

/-- Bytes are decoded as a whole into a destination of just the right size. -/
theorem decodeInto_whole {bytes : List UInt8} {dest : List Int16}
    (h : dest.length = bytes.length / 2) : decodeInto bytes dest = (dest.length, decode bytes) := by
  have hlength : (decode bytes).length = dest.length := by rw [length_decode, h]
  rw [decodeInto, overlay_all hlength, ← h, Nat.min_self]

/-- Zero bytes are silence. -/
theorem decode_zeros (k : Nat) : decode (List.replicate (2 * k) 0) = List.replicate k 0 := by
  induction k with
  | zero => rfl
  | succ k ih =>
    rw [Nat.mul_succ, List.replicate_succ, List.replicate_succ, decode_cons_cons, ih,
      List.replicate_succ]
    rfl

/-- Samples that are filled up with zero bytes are filled up with silence. -/
theorem decode_fit {n : Nat} {xs : List UInt8} (hxs : 2 ∣ xs.length) (hn : 2 ∣ n)
    (hle : xs.length ≤ n) :
    decode (fit n 0 xs) = decode xs ++ List.replicate ((n - xs.length) / 2) 0 := by
  obtain ⟨k, hk⟩ := Nat.dvd_sub hn hxs
  rw [fit, List.take_of_length_le hle, decode_append hxs, hk, decode_zeros,
    Nat.mul_div_cancel_left k Nat.two_pos]

/-! ### Layouts -/

namespace Layout

variable {α : Type}

@[simp] theorem remap_self (l : Layout) (xs : List Int16) : l.remap l xs = xs := by
  cases l <;> rfl

/-- Whole frames are mapped to as many whole frames. -/
theorem length_remap {s t : Layout} {xs : List Int16} (h : s.channels ∣ xs.length) :
    (s.remap t xs).length = xs.length / s.channels * t.channels := by
  cases s <;> cases t <;> simp only [remap, channels, Nat.div_one, Nat.mul_one]
  · induction xs with
    | nil => rfl
    | cons x xs ih => simp; omega
  · rw [List.length_map, length_pairs]
  · exact (Nat.div_mul_cancel h).symm

/-- Whole frames are mapped on their own. -/
theorem remap_append {s t : Layout} {xs : List Int16} (h : s.channels ∣ xs.length)
    (ys : List Int16) : s.remap t (xs ++ ys) = s.remap t xs ++ s.remap t ys := by
  cases s <;> cases t
  · rfl
  · simp [remap]
  · simp only [remap, pairs_append h, List.map_append]
  · rfl

@[simp] theorem length_split (l : Layout) (xs : List α) : (l.split xs).length = l.channels := by
  cases l <;> rfl

theorem length_of_mem_split {l : Layout} {xs column : List α} (h : column ∈ l.split xs) :
    column.length = xs.length / l.channels := by
  cases l with
  | mono =>
    simp only [split, List.mem_singleton] at h
    simp [h, channels]
  | stereo =>
    simp only [split, List.mem_cons, List.not_mem_nil, or_false] at h
    rcases h with rfl | rfl <;> simp [length_pairs, channels]

theorem join_split (l : Layout) {xs : List α} (h : l.channels ∣ xs.length) :
    join (l.split xs) = xs := by
  cases l with
  | mono => rfl
  | stereo =>
    have hzip : ((pairs xs).map (·.1)).zip ((pairs xs).map (·.2)) = pairs xs := by
      simp [List.zip_map', List.map_id']
    simp only [split, join, hzip, unpairs_pairs h]

theorem length_join {n : Nat} {l : Layout} {columns : List (List α)}
    (hl : columns.length = l.channels) (h : ∀ column ∈ columns, column.length = n) :
    (join columns).length = n * l.channels := by
  cases l with
  | mono =>
    obtain ⟨column, rfl⟩ := List.length_eq_one_iff.mp hl
    simpa [join, channels] using h column
  | stereo =>
    obtain ⟨left, right, rfl⟩ := List.length_eq_two.mp hl
    have hleft := h left (by simp)
    have hright := h right (by simp)
    simp [join, channels, hleft, hright, Nat.mul_comm]

end Layout

end Duplex.Pcm
