import Duplex.Buffer.Channel
import Duplex.Proofs.Runs
import Duplex.Proofs.Signal

/-!
# Views: the bands of one channel

A view cuts a run of samples into bands of one size. Where that leaves whole bands of at least one
sample, counting the bands, taking one and going through all of them agree (`Bands.Enumerates`), and
whatever is written through the view, they still do. A sample is the last value that was written to
its place in its band, by whichever way (`Bands.Cut.edits_last`).
-/

namespace Duplex

open Signal

variable {α ε κ σ : Type}

/-! ### Places and what is written to them -/

namespace Signal

/-- What writing `src` from place `start` on puts at place `i`. -/
def placed (start : Nat) (src : List α) (i : Nat) : Option α :=
  if start ≤ i then src[i - start]? else none

theorem getElem?_overlay_placed {dest : List α} {i : Nat} (start : Nat) (src : List α)
    (h : i < dest.length) : (overlay dest start src)[i]? = (placed start src i).or dest[i]? := by
  rw [getElem?_overlay, placed]
  by_cases hle : start ≤ i
  · by_cases hlt : i < start + src.length
    · rw [if_pos ⟨hle, hlt, h⟩, if_pos hle, List.getElem?_eq_getElem (by omega)]
      rfl
    · have hend : src[i - start]? = none := List.getElem?_eq_none (by omega)
      rw [if_neg (by omega), if_pos hle, hend, Option.none_or]
  · rw [if_neg (by omega), if_neg hle, Option.none_or]

/-- Writing over a part of a list, from place `start` of that part on. -/
theorem getElem?_overlay_part {xs : List α} {offset n i : Nat} (start : Nat) (src : List α)
    (hroom : offset + n ≤ xs.length) (hi : i < xs.length) :
    (overlay xs offset (overlay ((xs.drop offset).take n) start src))[i]? =
      if offset ≤ i ∧ i < offset + n then (placed start src (i - offset)).or xs[i]? else xs[i]? := by
  have hlength : ((xs.drop offset).take n).length = n := by
    rw [List.length_take, List.length_drop]
    omega
  rw [getElem?_overlay, length_overlay, hlength]
  by_cases h : offset ≤ i ∧ i < offset + n
  · rw [if_pos ⟨h.1, h.2, hi⟩, if_pos h, getElem?_overlay_placed start src (by omega),
      List.getElem?_take_of_lt (by omega), List.getElem?_drop, Nat.add_sub_cancel' h.1]
  · rw [if_neg h, if_neg fun hin => h ⟨hin.1, hin.2.1⟩]

end Signal

/-- The last value that writes put somewhere, if one of them did. -/
def lastWritten (value? : ε → Option α) (writes : List ε) : Option α :=
  writes.reverse.findSome? value?

theorem lastWritten_cons (value? : ε → Option α) (e : ε) (writes : List ε) :
    lastWritten value? (e :: writes) = (lastWritten value? writes).or (value? e) := by
  rw [lastWritten, List.reverse_cons, List.findSome?_append, List.findSome?_singleton]
  rfl

/-- If every write puts its values in their places and leaves the others alone, then after a run of
them each place holds the last value that was written to it. -/
theorem foldlM_lastWritten {P : σ → Prop} {content : σ → κ → Option α} {within : κ → Prop}
    {step : σ → ε → Checked σ} {value? : ε → κ → Option α} {writes : List ε}
    (hstep : ∀ s, P s → ∀ e ∈ writes, Returns (step s e) fun s' =>
      P s' ∧ ∀ k, within k → content s' k = (value? e k).or (content s k)) {s : σ} (h : P s) :
    Returns (writes.foldlM step s) fun s' => P s' ∧
      ∀ k, within k → content s' k = (lastWritten (value? · k) writes).or (content s k) := by
  induction writes generalizing s with
  | nil => exact returns_ok ⟨h, fun _ _ => rfl⟩
  | cons e writes ih =>
    rw [List.foldlM_cons]
    refine (hstep s h e List.mem_cons_self).bind ?_
    rintro s₁ ⟨h₁, hone⟩
    refine (ih (fun s hs e he => hstep s hs e (List.mem_cons_of_mem _ he)) h₁).mono ?_
    rintro s' ⟨h', hrest⟩
    refine ⟨h', fun k hk => ?_⟩
    rw [hrest k hk, hone k hk, lastWritten_cons, Option.or_assoc]

namespace Bands

variable {v w : Bands α} {b p : Nat}

/-- So many bands of so many samples. -/
structure Cut (v : Bands α) (b p : Nat) : Prop where
  length : v.data.length = b * p
  perBand : v.perBand = p

/-- The sample at a place of a band. -/
def sample? (v : Bands α) (k i : Nat) : Option α := v.data[k * v.perBand + i]?

/-! ### Going through the bands -/

/-- What a view of whole bands shows: its bands are counted, taken by their numbers and gone through
to read or to write them, and that is always the same bands, one after another. -/
structure Enumerates (v : Bands α) (b : Nat) : Prop where
  perBand_pos : 0 < v.perBand
  perBand_dvd : v.perBand ∣ v.data.length
  count : v.count = .ok b
  bands : ∃ bands, v.toList = .ok bands ∧ bands.length = b ∧ bands.flatten = v.data ∧
    (∀ k (h : k < bands.length), v.band k = .ok bands[k]) ∧
    ∀ f, v.mapBands f =
      .ok { v with data := (bands.mapIdx fun k old => overlay old 0 (f k old)).flatten }

/-- Bands that are written to keep their size. -/
theorem length_of_mem_changed (hp : 0 < p) (f : Nat → List α → List α) {xs : List α} :
    ∀ band ∈ (blocks p xs).mapIdx (fun k old => overlay old 0 (f k old)), band.length = p := by
  intro band hband
  obtain ⟨k, hk, rfl⟩ := List.mem_mapIdx.mp hband
  rw [length_overlay]
  exact length_of_mem_blocks hp (List.getElem_mem hk)

namespace Cut

variable (h : v.Cut b p)

include h

theorem band_eq {k : Nat} (hk : k < b) : v.band k = .ok ((v.data.drop (k * p)).take p) := by
  rw [band, h.perBand, slice_eq_ok (by rw [h.length]; exact block_room hk)]

variable (hp : 0 < p)

include hp

theorem count_eq : v.count = .ok b := by
  rw [count, h.perBand, if_neg (Nat.pos_iff_ne_zero.mp hp), h.length, Nat.mul_div_cancel b hp]

theorem toList_eq : v.toList = .ok (blocks p v.data) := by
  rw [toList, h.perBand, if_neg (Nat.pos_iff_ne_zero.mp hp)]

theorem length_blocks : (blocks p v.data).length = b := by
  rw [Signal.length_blocks hp, h.length, Nat.mul_div_cancel b hp]

theorem flatten_blocks : (blocks p v.data).flatten = v.data := by
  rw [← take_eq_flatten_blocks hp, h.length, Nat.mul_div_cancel b hp, ← h.length, List.take_length]

theorem getElem?_blocks {k : Nat} (hk : k < b) :
    (blocks p v.data)[k]? = some ((v.data.drop (k * p)).take p) :=
  Signal.getElem?_blocks hp (by rwa [h.length, Nat.mul_div_cancel b hp])

/-- Bands that are written one after another are put together again. -/
theorem mapBands_eq (f : Nat → List α → List α) : v.mapBands f = .ok { v with
    data := ((blocks p v.data).mapIdx fun k old => overlay old 0 (f k old)).flatten } := by
  obtain ⟨changed, hchanged⟩ : ∃ changed,
    (blocks p v.data).mapIdx (fun k old => overlay old 0 (f k old)) = changed := ⟨_, rfl⟩
  have hlength : changed.flatten.length = v.data.length := by
    have hcount : changed.length = b := by rw [← hchanged, List.length_mapIdx, h.length_blocks hp]
    rw [length_flatten_of_forall (hchanged ▸ length_of_mem_changed hp f), hcount, h.length]
  rw [mapBands, h.toList_eq hp, hchanged]
  simp only [Except.map, hchanged, overlay_all hlength]

theorem enumerates : v.Enumerates b := by
  refine ⟨h.perBand ▸ hp, ?_, h.count_eq hp, blocks p v.data, h.toList_eq hp, h.length_blocks hp,
    h.flatten_blocks hp, ?_, h.mapBands_eq hp⟩
  · rw [h.perBand, h.length]
    exact Nat.dvd_mul_left p b
  · intro k hk
    have hband : k < b := by rwa [h.length_blocks hp] at hk
    have hblock := h.getElem?_blocks hp hband
    rw [List.getElem?_eq_getElem hk] at hblock
    rw [h.band_eq hband, Option.some.inj hblock]

end Cut

/-- A view that is made of a list is cut into whole bands. -/
theorem cut_of_ofList {data : List α} {perBand : Nat} (h : ofList data perBand = .ok v) :
    0 < perBand ∧ v.Cut (data.length / perBand) perBand := by
  rw [ofList] at h
  by_cases hp : perBand = 0
  · rw [if_pos hp] at h
    cases h
  rw [if_neg hp] at h
  by_cases hd : data.length % perBand ≠ 0
  · rw [if_pos hd] at h
    cases h
  rw [if_neg hd] at h
  cases h
  have hdvd : perBand ∣ data.length := Nat.dvd_of_mod_eq_zero (not_not.mp hd)
  exact ⟨Nat.pos_of_ne_zero hp, (Nat.div_mul_cancel hdvd).symm, rfl⟩

/-! ### Writing through a view -/

/-- Something that is written through a view: into one band, into the bands in order, into all of
them at once, or all samples of another view. -/
inductive Edit (α : Type) where
  | band (k start : Nat) (src : List α)
  | each (srcs : List (List α))
  | all (start : Nat) (src : List α)
  | copy (src : Bands α)

def edit (v : Bands α) : Edit α → Checked (Bands α)
  | .band k start src => v.writeBand k start src
  | .each srcs => v.mapBands fun k _ => srcs.getD k []
  | .all start src => .ok { v with data := overlay v.data start src }
  | .copy src => v.copyFrom src

namespace Edit

/-- The band that is named exists, bands that are gone through are not empty, and what is copied has
the same bands. -/
def InRange (b p : Nat) : Edit α → Prop
  | .band k _ _ => k < b
  | .each _ => 0 < p
  | .all _ _ => True
  | .copy src => src.Cut b p

/-- What an edit puts at place `i` of band `k`, if bands have `p` samples. -/
def value? (p k i : Nat) : Edit α → Option α
  | .band k' start src => if k' = k then placed start src i else none
  | .each srcs => placed 0 (srcs.getD k []) i
  | .all start src => placed start src (k * p + i)
  | .copy src => placed 0 src.data (k * p + i)

end Edit

namespace Cut

variable (h : v.Cut b p)

include h

/-- An edit puts its values in their places and leaves the other samples alone. -/
theorem edit_returns {e : Edit α} (he : e.InRange b p) : Returns (v.edit e) fun w => w.Cut b p ∧
    ∀ q : Nat × Nat, q.1 < b ∧ q.2 < p →
      w.sample? q.1 q.2 = (e.value? p q.1 q.2).or (v.sample? q.1 q.2) := by
  have hlen := h.length
  have hin {k i : Nat} (hk : k < b) (hi : i < p) : k * p + i < v.data.length := by
    have hroom := block_room (n := p) hk
    omega
  cases e with
  | band k start src =>
    rw [edit, writeBand, h.band_eq he, h.perBand]
    refine returns_ok ⟨⟨(length_overlay _ _ _).trans h.length, rfl⟩, ?_⟩
    rintro ⟨k', i⟩ ⟨hk' : k' < b, hi : i < p⟩
    have hroom := block_room (n := p) he
    simp only [sample?, h.perBand, Edit.value?]
    rw [getElem?_overlay_part start src (by omega) (hin hk' hi)]
    by_cases heq : k = k'
    · subst heq
      rw [if_pos (by omega), if_pos rfl, Nat.add_sub_cancel_left]
    · rw [if_neg fun hwithin => heq (block_unique hi hwithin.1 hwithin.2).symm, if_neg heq]
      rfl
  | each srcs =>
    have hp : 0 < p := he
    obtain ⟨w, hw⟩ : ∃ w, (blocks p v.data).mapIdx (fun k old => overlay old 0 (srcs.getD k [])) = w :=
      ⟨_, rfl⟩
    have hbands : ∀ band ∈ w, band.length = p := hw ▸ length_of_mem_changed hp fun k _ => srcs.getD k []
    have hcount : w.length = b := by rw [← hw, List.length_mapIdx, h.length_blocks hp]
    rw [edit, h.mapBands_eq hp, hw]
    refine returns_ok ⟨⟨?_, h.perBand⟩, ?_⟩
    · rw [length_flatten_of_forall hbands, hcount]
    rintro ⟨k, i⟩ ⟨hk : k < b, hi : i < p⟩
    have hroom := block_room (n := p) hk
    have hband : ((v.data.drop (k * p)).take p).length = p := by
      rw [List.length_take, List.length_drop]
      omega
    simp only [sample?, h.perBand, Edit.value?]
    rw [getElem?_flatten hbands hi, ← hw, List.getElem?_mapIdx, h.getElem?_blocks hp hk]
    show (overlay _ 0 (srcs.getD k []))[i]? = _
    rw [getElem?_overlay_placed 0 _ (by omega), List.getElem?_take_of_lt hi, List.getElem?_drop]
  | all start src =>
    refine returns_ok ⟨⟨(length_overlay _ _ _).trans h.length, h.perBand⟩, ?_⟩
    rintro ⟨k, i⟩ ⟨hk : k < b, hi : i < p⟩
    simp only [sample?, h.perBand, Edit.value?]
    exact getElem?_overlay_placed start src (hin hk hi)
  | copy src =>
    have hsrc : src.Cut b p := he
    rw [edit, copyFrom, if_neg (by simp [h.perBand, hsrc.perBand]),
      if_neg (by simp [h.length, hsrc.length])]
    refine returns_ok ⟨⟨hsrc.length, h.perBand⟩, ?_⟩
    rintro ⟨k, i⟩ ⟨hk : k < b, hi : i < p⟩
    have hplace : k * p + i < src.data.length := by
      rw [hsrc.length, ← h.length]
      exact hin hk hi
    simp only [sample?, h.perBand, Edit.value?, placed, Nat.zero_le, if_true, Nat.sub_zero,
      List.getElem?_eq_getElem hplace]
    rfl

/-- After a run of edits each sample is the last value that was written to its place. -/
theorem edits_last {edits : List (Edit α)} (hedits : ∀ e ∈ edits, e.InRange b p) :
    Returns (edits.foldlM edit v) fun w => w.Cut b p ∧ ∀ q : Nat × Nat, q.1 < b ∧ q.2 < p →
      w.sample? q.1 q.2 = (lastWritten (·.value? p q.1 q.2) edits).or (v.sample? q.1 q.2) :=
  foldlM_lastWritten (fun _ hv e he => hv.edit_returns (hedits e he)) h

end Cut

end Bands

end Duplex
