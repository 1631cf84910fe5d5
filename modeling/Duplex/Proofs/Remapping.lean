import Duplex.Proofs.Checked
import Duplex.Proofs.Pcm
import Mathlib.Data.Rat.Floor

/-!
# Mono and stereo in destinations of a given size

Mapped into a destination, a stream is copied, doubled or averaged as far as there is room, and what
lies behind is left alone (`RemappedTo`). The mean of two samples is their exact mean cut toward zero
and lies between them (`mean_isMean`), so that it fits 16 bits and does not tell left from right. Into a
destination of just the right size whole frames are mapped as `Layout.remap` maps them
(`remapInto_whole`); the laws of that, of pieces and of the way back, are then laws of destinations too.
-/

namespace Duplex.Pcm

open Signal

variable {α : Type}

/-! ### Means -/

/-- The integer part of a number: the next integer toward zero. -/
def towardZero (q : ℚ) : ℤ := if 0 ≤ q then ⌊q⌋ else ⌈q⌉

theorem tdiv_two (n : ℤ) : n.tdiv 2 = if 0 ≤ n then n / 2 else -(-n / 2) := by
  by_cases hn : 0 ≤ n
  · rw [if_pos hn, Int.tdiv_eq_ediv_of_nonneg hn]
  · have hneg : 0 ≤ -n := by omega
    rw [if_neg hn, ← Int.tdiv_eq_ediv_of_nonneg hneg, Int.neg_tdiv, Int.neg_neg]

theorem towardZero_half (n : ℤ) : towardZero ((n : ℚ) / 2) = n.tdiv 2 := by
  have hfloor : ∀ k : ℤ, ⌊(k : ℚ) / 2⌋ = k / 2 := fun k => Rat.floor_intCast_div_natCast k 2
  rw [towardZero, tdiv_two]
  by_cases hn : 0 ≤ n
  · have hq : (0 : ℚ) ≤ n / 2 := by positivity
    rw [if_pos hq, if_pos hn, hfloor]
  · -- Below zero the next integer toward zero lies above: it is the floor on the other side of zero.
    have hq : ¬ (0 : ℚ) ≤ n / 2 := by
      intro h
      have : (0 : ℚ) ≤ n := by linarith
      exact hn (by exact_mod_cast this)
    rw [if_neg hq, if_neg hn, ← hfloor, Int.cast_neg, neg_div, Int.floor_neg, Int.neg_neg]

/-- The exact mean of two samples, cut toward zero. It lies between the two. -/
structure IsMean (left right m : Int16) : Prop where
  cut : m.toInt = towardZero (((left.toInt : ℚ) + right.toInt) / 2)
  min_le : min left.toInt right.toInt ≤ m.toInt
  le_max : m.toInt ≤ max left.toInt right.toInt

namespace Layout

/-- Half the sum of two samples is within their range. -/
theorem toInt_mean (left right : Int16) :
    (mean left right).toInt = (left.toInt + right.toInt).tdiv 2 := by
  have hleft := left.le_toInt
  have hleft' := left.toInt_lt
  have hright := right.le_toInt
  have hright' := right.toInt_lt
  have hcut := tdiv_two (left.toInt + right.toInt)
  refine Int16.toInt_ofInt_of_le ?_ ?_ <;> split at hcut <;> omega

theorem mean_isMean (left right : Int16) : IsMean left right (mean left right) := by
  have hmean := toInt_mean left right
  refine ⟨?_, ?_, ?_⟩
  · rw [hmean, ← towardZero_half, Int.cast_add]
  · rw [tdiv_two] at hmean
    split at hmean <;> omega
  · rw [tdiv_two] at hmean
    split at hmean <;> omega

theorem mean_comm (left right : Int16) : mean left right = mean right left := by
  rw [mean, mean, Int.add_comm]

@[simp] theorem mean_self (s : Int16) : mean s s = s := by
  apply Int16.toInt_inj.mp
  rw [toInt_mean, ← Int.two_mul, Int.mul_tdiv_cancel_left _ (by decide)]

/-! ### Whole streams -/

/-- Doubling writes each sample to both places of its frame. -/
theorem getElem?_remap_doubled (xs : List Int16) (i : Nat) :
    (mono.remap stereo xs)[2 * i]? = xs[i]? ∧ (mono.remap stereo xs)[2 * i + 1]? = xs[i]? := by
  have hunpairs : mono.remap stereo xs = unpairs (xs.map fun s => (s, s)) := by
    simp [remap, unpairs, List.flatMap_map]
  obtain ⟨hleft, hright⟩ := getElem?_unpairs (xs.map fun s => (s, s)) i
  rw [hunpairs, hleft, hright, List.getElem?_map, Option.map_map, Option.map_map]
  exact ⟨Option.map_id_apply, Option.map_id_apply⟩

/-- Averaging takes the mean of both places of a frame. -/
theorem getElem?_remap_averaged {xs : List Int16} {i : Nat} (h : i < xs.length / 2) :
    ∃ left right, xs[2 * i]? = some left ∧ xs[2 * i + 1]? = some right ∧
      (stereo.remap mono xs)[i]? = some (mean left right) := by
  obtain ⟨hleft, hright⟩ := getElem?_pairs h
  obtain ⟨frame, hframe⟩ : ∃ frame, (pairs xs)[i]? = some frame :=
    ⟨_, List.getElem?_eq_getElem (by rw [length_pairs]; exact h)⟩
  rw [hframe] at hleft hright
  refine ⟨frame.1, frame.2, hleft.symm, hright.symm, ?_⟩
  simp only [remap, List.getElem?_map, hframe, Option.map_some]

/-- No more samples are counted than there are, and no more than there is room for. -/
theorem remapCount_le (s t : Layout) (xs : List Int16) (room : Nat) :
    s.remapCount t xs.length room ≤ (s.remap t xs).length ∧
      s.remapCount t xs.length room ≤ room := by
  cases s with
  | mono =>
    have hlength : (mono.remap t xs).length = xs.length / 1 * t.channels :=
      length_remap (Nat.one_dvd _)
    cases t <;> simp only [channels, Nat.div_one, Nat.mul_one] at hlength <;>
      simp only [remapCount, hlength] <;> omega
  | stereo =>
    cases t with
    | mono =>
      simp only [remapCount, remap, List.length_map, length_pairs]
      omega
    | stereo =>
      simp only [remapCount, remap]
      omega

/-- What was doubled is averaged to what it was. -/
theorem remap_doubled_averaged (xs : List Int16) :
    stereo.remap mono (mono.remap stereo xs) = xs := by
  induction xs with
  | nil => rfl
  | cons x xs ih =>
    have hstep : stereo.remap mono (mono.remap stereo (x :: xs)) =
        mean x x :: stereo.remap mono (mono.remap stereo xs) := by
      simp [remap]
    rw [hstep, ih, mean_self]

theorem remap_flatten {s t : Layout} {pieces : List (List Int16)}
    (h : ∀ p ∈ pieces, s.channels ∣ p.length) :
    s.remap t pieces.flatten = (pieces.map (s.remap t)).flatten := by
  induction pieces with
  | nil => cases s <;> cases t <;> rfl
  | cons p pieces ih =>
    have hrest := ih fun q hq => h q (List.mem_cons_of_mem p hq)
    rw [List.flatten_cons, remap_append (h p List.mem_cons_self), hrest, List.map_cons,
      List.flatten_cons]

end Layout

/-- The stream with the sides of each frame swapped. -/
def swapSides : List α → List α
  | left :: right :: rest => right :: left :: swapSides rest
  | rest => rest

@[simp] theorem length_swapSides (xs : List α) : (swapSides xs).length = xs.length := by
  induction xs using pairs_induction with
  | nil => rfl
  | single a => rfl
  | pair a b rest ih => simp [swapSides, ih]

theorem remap_swapSides (xs : List Int16) :
    Layout.stereo.remap .mono (swapSides xs) = Layout.stereo.remap .mono xs := by
  induction xs using pairs_induction with
  | nil => rfl
  | single a => rfl
  | pair a b rest ih =>
    simp only [Layout.remap, swapSides, pairs_cons_cons, List.map_cons] at ih ⊢
    rw [ih, Layout.mean_comm]

/-! ### Destinations -/

/-- `n` samples are written to the start of a destination, and the rest of it is left alone. -/
structure Fills (dest : List α) (n : Nat) (out : List α) : Prop where
  count_le : n ≤ dest.length
  length : out.length = dest.length
  rest : out.drop n = dest.drop n

/-- As many samples as there are and fit are copied. -/
structure CopiedTo (src dest : List Int16) (n : Nat) (out : List Int16) : Prop
    extends Fills dest n out where
  count : n = min src.length dest.length
  samples : ∀ i < n, out[i]? = src[i]?

/-- As many samples as there are and fit twice are written to both places of a frame. -/
structure DoubledTo (src dest : List Int16) (n : Nat) (out : List Int16) : Prop
    extends Fills dest n out where
  count : n = 2 * min src.length (dest.length / 2)
  left : ∀ i, 2 * i < n → out[2 * i]? = src[i]?
  right : ∀ i, 2 * i < n → out[2 * i + 1]? = src[i]?

/-- The means of as many frames as there are and fit are written. -/
structure AveragedTo (src dest : List Int16) (n : Nat) (out : List Int16) : Prop
    extends Fills dest n out where
  count : n = min (src.length / 2) dest.length
  means : ∀ i < n, ∃ left right m, src[2 * i]? = some left ∧ src[2 * i + 1]? = some right ∧
    out[i]? = some m ∧ IsMean left right m

/-- What a stream of `source` channels comes to in a destination for `target` channels. -/
def RemappedTo : (source target : Nat) → (src dest : List Int16) → Nat → List Int16 → Prop
  | 1, 2 => DoubledTo
  | 2, 1 => AveragedTo
  | _, _ => CopiedTo

section Destinations

variable {src dest : List Int16}

theorem remapInto_eq (s t : Layout) (src dest : List Int16) :
    remapInto src s.channels t.channels dest =
      .ok (s.remapCount t src.length dest.length,
        overlay dest 0 ((s.remap t src).take (s.remapCount t src.length dest.length))) := by
  rw [remapInto, Layout.ofChannels?_channels, Layout.ofChannels?_channels]

/-- Writing the first `n` samples of a stream. -/
theorem overlay_take_fills {xs : List α} {dest : List α} {n : Nat} (hxs : n ≤ xs.length)
    (hroom : n ≤ dest.length) :
    Fills dest n (overlay dest 0 (xs.take n)) ∧
      ∀ i < n, (overlay dest 0 (xs.take n))[i]? = xs[i]? := by
  have hlength : (xs.take n).length = n := by rw [List.length_take, Nat.min_eq_left hxs]
  refine ⟨⟨hroom, length_overlay _ _ _, ?_⟩, ?_⟩
  · rw [overlay_zero (by omega), hlength]
    exact List.drop_left' hlength
  · intro i hi
    rw [getElem?_overlay_zero (by omega), hlength, if_pos hi, List.getElem?_take_of_lt hi]

theorem remapInto_remaps (s t : Layout) (src dest : List Int16) :
    Returns (remapInto src s.channels t.channels dest) fun r =>
      RemappedTo s.channels t.channels src dest r.1 r.2 := by
  obtain ⟨n, hn⟩ : ∃ n, n = s.remapCount t src.length dest.length := ⟨_, rfl⟩
  obtain ⟨hle, hroom⟩ := Layout.remapCount_le s t src dest.length
  rw [← hn] at hle hroom
  obtain ⟨hfills, hplaces⟩ := overlay_take_fills hle hroom
  rw [remapInto_eq, ← hn]
  apply returns_ok
  cases s with
  | mono =>
    cases t with
    | mono => exact ⟨hfills, hn, hplaces⟩
    | stereo =>
      have hcount : n = 2 * min src.length (dest.length / 2) := hn
      refine ⟨hfills, hcount, ?_, ?_⟩
      · intro i hi
        exact (hplaces _ hi).trans (Layout.getElem?_remap_doubled src i).1
      · intro i hi
        exact (hplaces _ (by omega)).trans (Layout.getElem?_remap_doubled src i).2
  | stereo =>
    cases t with
    | mono =>
      have hcount : n = min (src.length / 2) dest.length := hn
      refine ⟨hfills, hcount, ?_⟩
      intro i hi
      have hframe : i < src.length / 2 := by omega
      obtain ⟨left, right, hleft, hright, hmean⟩ := Layout.getElem?_remap_averaged hframe
      exact ⟨left, right, _, hleft, hright, (hplaces i hi).trans hmean,
        Layout.mean_isMean left right⟩
    | stereo => exact ⟨hfills, hn, hplaces⟩

/-- Whole frames are mapped as a whole into a destination of just the right size. -/
theorem remapInto_whole {s t : Layout} (hsrc : s.channels ∣ src.length)
    (hdest : dest.length = src.length / s.channels * t.channels) :
    remapInto src s.channels t.channels dest = .ok (dest.length, s.remap t src) := by
  have hlength : (s.remap t src).length = dest.length := by
    rw [Layout.length_remap hsrc, hdest]
  have hcount : s.remapCount t src.length dest.length = dest.length := by
    cases s <;> cases t <;> simp only [Layout.channels] at hsrc hdest <;>
      simp only [Layout.remapCount] <;> omega
  rw [remapInto_eq, hcount, List.take_of_length_le (by omega), overlay_all hlength]

end Destinations

/-! ### Destinations of just the right size -/

/-- In every destination that has just the room for its frames, a stream becomes `out`. -/
def BecomesIn (source target : Nat) (src out : List Int16) : Prop :=
  ∀ dest : List Int16, dest.length = src.length / source * target →
    remapInto src source target dest = .ok (dest.length, out)

theorem becomesIn_remap {s t : Layout} {src : List Int16} (h : s.channels ∣ src.length) :
    BecomesIn s.channels t.channels src (s.remap t src) := fun _ hdest => remapInto_whole h hdest

theorem pieces_become {s t : Layout} {pieces : List (List Int16)}
    (h : ∀ p ∈ pieces, s.channels ∣ p.length) :
    ∃ outs, List.Forall₂ (BecomesIn s.channels t.channels) pieces outs ∧
      BecomesIn s.channels t.channels pieces.flatten outs.flatten := by
  refine ⟨pieces.map (s.remap t), ?_, ?_⟩
  · rw [List.forall₂_map_right_iff, List.forall₂_same]
    intro p hp
    exact becomesIn_remap (h p hp)
  · rw [← Layout.remap_flatten h]
    exact becomesIn_remap (dvd_length_flatten h)

theorem exists_channels_eq {n : Nat} (h : n = 1 ∨ n = 2) : ∃ l : Layout, l.channels = n := by
  rcases h with rfl | rfl
  · exact ⟨.mono, rfl⟩
  · exact ⟨.stereo, rfl⟩

/-- Between one and two channels every stream is mapped into every destination: copied, doubled or
averaged as far as there is room, with nothing else written. Pieces of whole frames are mapped on their
own; what was doubled is averaged to what it was; and the average does not tell left from right. -/
theorem remap_doubles_and_averages {source target : Nat} (hsource : source = 1 ∨ source = 2)
    (htarget : target = 1 ∨ target = 2) :
    (∀ src dest, Returns (remapInto src source target dest) fun r =>
      RemappedTo source target src dest r.1 r.2) ∧
    (∀ pieces : List (List Int16), (∀ p ∈ pieces, source ∣ p.length) →
      ∃ outs, List.Forall₂ (BecomesIn source target) pieces outs ∧
        BecomesIn source target pieces.flatten outs.flatten) ∧
    (∀ src, ∃ doubled, BecomesIn 1 2 src doubled ∧ BecomesIn 2 1 doubled src) ∧
    ∀ src dest, remapInto (swapSides src) 2 1 dest = remapInto src 2 1 dest := by
  obtain ⟨s, rfl⟩ := exists_channels_eq hsource
  obtain ⟨t, rfl⟩ := exists_channels_eq htarget
  refine ⟨remapInto_remaps s t, fun pieces hpieces => pieces_become hpieces, ?_, ?_⟩
  · intro src
    have hmono : Layout.mono.channels ∣ src.length := Nat.one_dvd _
    have hstereo : Layout.stereo.channels ∣ (Layout.mono.remap .stereo src).length := by
      rw [Layout.length_remap hmono]
      exact Nat.dvd_mul_left _ _
    have hback := becomesIn_remap (t := .mono) hstereo
    rw [Layout.remap_doubled_averaged] at hback
    exact ⟨_, becomesIn_remap (t := .stereo) hmono, hback⟩
  · intro src dest
    have hswapped := remapInto_eq .stereo .mono (swapSides src) dest
    rw [length_swapSides, remap_swapSides] at hswapped
    exact hswapped.trans (remapInto_eq .stereo .mono src dest).symm

/-- The loudest samples, means that are cut, and a sample without a partner. -/
theorem remap_doubles_and_averages_loudest :
    Returns (remapInto [32767, 32767, -4, 3, 9] 2 1 [0, 0, 5]) (fun r => r = (2, [32767, 0, 5]) ∧
      AveragedTo [32767, 32767, -4, 3, 9] [0, 0, 5] r.1 r.2) ∧
    BecomesIn 2 1 [-32768, -32768] [-32768] ∧ BecomesIn 2 1 [-4, 3, -5, 0] [0, -2] ∧
      BecomesIn 2 1 [-32768, -32768, -4, 3, -5, 0] [-32768, 0, -2] := by
  obtain ⟨hmaps, hpieces, -⟩ :=
    remap_doubles_and_averages (by decide : 2 = 1 ∨ 2 = 2) (by decide : 1 = 1 ∨ 1 = 2)
  constructor
  · obtain ⟨r, hr, haveraged⟩ := hmaps [32767, 32767, -4, 3, 9] [0, 0, 5]
    exact ⟨r, hr, Except.ok.inj hr.symm, haveraged⟩
  · obtain ⟨outs, houts, hall⟩ := hpieces [[-32768, -32768], [-4, 3, -5, 0]] (by simp)
    rcases houts with _ | ⟨hfirst, _ | ⟨hsecond, _ | _⟩⟩
    -- What the pieces become is read off one destination.
    obtain rfl := congrArg Prod.snd (Except.ok.inj (hfirst [0] rfl))
    obtain rfl := congrArg Prod.snd (Except.ok.inj (hsecond [0, 0] rfl))
    exact ⟨hfirst, hsecond, hall⟩

end Duplex.Pcm
