import Duplex.Proofs.Signal
import Duplex.Pcm.Layout

/-!
# Stereo streams in destinations of a given size

A stream is split into two destinations, and two channels are merged into one, as far as there is room
in all of them, and what lies behind is left alone (`SplitTo`, `MergedTo`). Place by place, either way
undoes the other on the frames that both take (`split_merge_restore`).
-/

namespace Duplex.Pcm

open Signal

variable {α : Type} {src left right dest out l r : List α} {n k i : Nat}

/-! ### Splitting -/

/-- The first `n` frames of a stream are split: they are written to the start of both destinations, and
the rest of these is left alone. -/
structure SplitTo (src left right : List α) (n : Nat) (l r : List α) : Prop where
  count : n = min (src.length / 2) (min left.length right.length)
  length_left : l.length = left.length
  length_right : r.length = right.length
  left : ∀ i, l[i]? = if i < n then src[2 * i]? else left[i]?
  right : ∀ i, r[i]? = if i < n then src[2 * i + 1]? else right[i]?

/-- What is picked of the first `n` frames is written to a destination. -/
theorem getElem?_overlay_picked {pick : α × α → α} {place : Nat → Nat}
    (hpick : ∀ i < src.length / 2, (pairs src)[i]?.map pick = src[place i]?) (hn : n ≤ src.length / 2)
    (hroom : n ≤ dest.length) (i : Nat) :
    (overlay dest 0 (((pairs src).take n).map pick))[i]? =
      if i < n then src[place i]? else dest[i]? := by
  have hlength : (((pairs src).take n).map pick).length = n := by
    rw [List.length_map, List.length_take, length_pairs]
    omega
  rw [getElem?_overlay_zero (by omega), hlength]
  by_cases hi : i < n
  · rw [if_pos hi, if_pos hi, List.getElem?_map, List.getElem?_take_of_lt hi, hpick i (by omega)]
  · rw [if_neg hi, if_neg hi]

theorem splitStereo_splits (src left right : List α) :
    ∃ n l r, splitStereo src left right = (n, l, r) ∧ SplitTo src left right n l r := by
  obtain ⟨n, hn⟩ : ∃ n, n = min (src.length / 2) (min left.length right.length) := ⟨_, rfl⟩
  refine ⟨n, _, _, by rw [splitStereo, ← hn], hn, length_overlay _ _ _, length_overlay _ _ _, ?_, ?_⟩
  · exact getElem?_overlay_picked (fun i hi => (getElem?_pairs hi).1) (by omega) (by omega)
  · exact getElem?_overlay_picked (fun i hi => (getElem?_pairs hi).2) (by omega) (by omega)

/-! ### Merging -/

/-- `n` samples are merged: frames of both channels are written to the start of the destination, and
the rest of it is left alone. -/
structure MergedTo (left right dest : List α) (n : Nat) (out : List α) : Prop where
  count : n = 2 * min (min left.length right.length) (dest.length / 2)
  length : out.length = dest.length
  left : ∀ i, out[2 * i]? = if 2 * i < n then left[i]? else dest[2 * i]?
  right : ∀ i, out[2 * i + 1]? = if 2 * i < n then right[i]? else dest[2 * i + 1]?

theorem getElem?_zip (hleft : i < left.length) (hright : i < right.length) :
    (left.zip right)[i]?.map (·.1) = left[i]? ∧ (left.zip right)[i]?.map (·.2) = right[i]? := by
  rw [List.getElem?_eq_getElem (by rw [List.length_zip]; omega), List.getElem_zip,
    List.getElem?_eq_getElem hleft, List.getElem?_eq_getElem hright]
  exact ⟨rfl, rfl⟩

theorem mergeStereo_merges (left right dest : List α) :
    ∃ n out, mergeStereo left right dest = (n, out) ∧ MergedTo left right dest n out := by
  obtain ⟨k, hk⟩ : ∃ k, k = min (min left.length right.length) (dest.length / 2) := ⟨_, rfl⟩
  have hlength : (unpairs ((left.zip right).take k)).length = 2 * k := by
    rw [length_unpairs, List.length_take, List.length_zip]
    omega
  refine ⟨2 * k, _, by rw [mergeStereo, ← hk], by rw [← hk], length_overlay _ _ _, fun i => ?_,
    fun i => ?_⟩
  · rw [getElem?_overlay_zero (by omega), hlength, (getElem?_unpairs _ i).1]
    by_cases hi : i < k
    · rw [if_pos (by omega), if_pos (by omega), List.getElem?_take_of_lt hi,
        (getElem?_zip (by omega) (by omega)).1]
    · rw [if_neg (by omega), if_neg (by omega)]
  · rw [getElem?_overlay_zero (by omega), hlength, (getElem?_unpairs _ i).2]
    by_cases hi : i < k
    · rw [if_pos (by omega), if_pos (by omega), List.getElem?_take_of_lt hi,
        (getElem?_zip (by omega) (by omega)).2]
    · rw [if_neg (by omega), if_neg (by omega)]

/-! ### Round trips -/

/-- Streams agree on the first `n` frames if both of their channels do. -/
theorem take_congr_frames {xs ys : List α}
    (h : ∀ i < n, xs[2 * i]? = ys[2 * i]? ∧ xs[2 * i + 1]? = ys[2 * i + 1]?) :
    xs.take (2 * n) = ys.take (2 * n) := by
  refine take_congr fun j hj => ?_
  obtain ⟨i, hi, rfl | rfl⟩ : ∃ i < n, j = 2 * i ∨ j = 2 * i + 1 := ⟨j / 2, by omega, by omega⟩
  · exact (h i hi).1
  · exact (h i hi).2

/-- Frames that were split are merged as they were, as far as there is room. -/
theorem MergedTo.restores (h : MergedTo l r dest k out) (hs : SplitTo src left right n l r) :
    out.take (2 * min n (dest.length / 2)) = src.take (2 * min n (dest.length / 2)) := by
  have hn := hs.count
  have hk := h.count
  rw [hs.length_left, hs.length_right] at hk
  refine take_congr_frames fun i hi => ⟨?_, ?_⟩
  · rw [h.left, if_pos (by omega), hs.left, if_pos (by omega)]
  · rw [h.right, if_pos (by omega), hs.right, if_pos (by omega)]

/-- Channels that were merged are split as they were, as far as there is room. -/
theorem SplitTo.restores {left' right' : List α} (h : SplitTo out left' right' n l r)
    (hm : MergedTo left right dest k out) :
    l.take (min (k / 2) (min left'.length right'.length)) =
      left.take (min (k / 2) (min left'.length right'.length)) ∧
    r.take (min (k / 2) (min left'.length right'.length)) =
      right.take (min (k / 2) (min left'.length right'.length)) := by
  have hn := h.count
  have hk := hm.count
  rw [hm.length] at hn
  refine ⟨take_congr fun i hi => ?_, take_congr fun i hi => ?_⟩
  · rw [h.left, if_pos (by omega), hm.left, if_pos (by omega)]
  · rw [h.right, if_pos (by omega), hm.right, if_pos (by omega)]

/-- A stereo stream is split into two destinations, and two channels are merged into one, as far as there
is room in all of them; nothing else is written. Merging what was split restores the frames of the
stream, and splitting what was merged restores the channels. -/
theorem split_merge_restore :
    (∀ src left right : List α, ∃ n l r, splitStereo src left right = (n, l, r) ∧
      SplitTo src left right n l r ∧ ∀ dest, ∃ k out, mergeStereo l r dest = (k, out) ∧
        out.take (2 * min n (dest.length / 2)) = src.take (2 * min n (dest.length / 2))) ∧
    ∀ left right dest : List α, ∃ k out, mergeStereo left right dest = (k, out) ∧
      MergedTo left right dest k out ∧ ∀ left' right', ∃ n l r, splitStereo out left' right' = (n, l, r) ∧
        l.take (min (k / 2) (min left'.length right'.length)) =
          left.take (min (k / 2) (min left'.length right'.length)) ∧
        r.take (min (k / 2) (min left'.length right'.length)) =
          right.take (min (k / 2) (min left'.length right'.length)) := by
  constructor
  · intro src left right
    obtain ⟨n, l, r, heq, hsplit⟩ := splitStereo_splits src left right
    refine ⟨n, l, r, heq, hsplit, fun dest => ?_⟩
    obtain ⟨k, out, hmerge, hmerged⟩ := mergeStereo_merges l r dest
    exact ⟨k, out, hmerge, hmerged.restores hsplit⟩
  · intro left right dest
    obtain ⟨k, out, heq, hmerged⟩ := mergeStereo_merges left right dest
    refine ⟨k, out, heq, hmerged, fun left' right' => ?_⟩
    obtain ⟨n, l, r, hsplit, hsplits⟩ := splitStereo_splits out left' right'
    exact ⟨n, l, r, hsplit, hsplits.restores hmerged⟩

end Duplex.Pcm
