import Duplex.Proofs.Cuts
import Duplex.Proofs.Views

/-!
# Cells: which sample of a buffer is where

A channel buffer is read and written by band, by channel, through the view of a channel and as a
whole. All of these cut the same storage: each place belongs to one band of one channel
(`ChannelBuffer.Partitions`), so that a sample that is written in one way is read in every way
(`ChannelBuffer.Reads`), and what is written to a band is found in no other one. After any writes each
sample is the last value that was written to its place (`ChannelBuffer.edits_keep_last`).
-/

namespace Duplex

open Signal

variable {α : Type}

namespace Signal

/-- A list is put together from blocks of one size when it has their items in their places. -/
theorem eq_flatMap_blocks {b p : Nat} {xs : List α} {f : Nat → List α} (hx : xs.length = b * p)
    (hf : ∀ k < b, (f k).length = p) (h : ∀ k < b, ∀ i < p, xs[k * p + i]? = (f k)[i]?) :
    xs = (List.range b).flatMap f := by
  have hblocks : ∀ block ∈ (List.range b).map f, block.length = p := by
    intro block hblock
    obtain ⟨k, hk, rfl⟩ := List.mem_map.mp hblock
    exact hf k (List.mem_range.mp hk)
  have hlength : ((List.range b).map f).flatten.length = b * p := by
    rw [length_flatten_of_forall hblocks, List.length_map, List.length_range]
  rw [List.flatMap_def]
  refine List.ext_getElem? fun j => ?_
  rcases Nat.lt_or_ge j (b * p) with hj | hj
  · have hp : 0 < p := Nat.pos_of_lt_mul_left hj
    have hk : j / p < b := (Nat.div_lt_iff_lt_mul hp).mpr hj
    have hi : j % p < p := Nat.mod_lt j hp
    rw [← Nat.div_add_mod' j p, h _ hk _ hi, getElem?_flatten hblocks hi, List.getElem?_map,
      List.getElem?_range hk]
    rfl
  · rw [List.getElem?_eq_none (by omega), List.getElem?_eq_none (by omega)]

end Signal

namespace ChannelBuffer

variable {x y : ChannelBuffer α} {c d k l i : Nat}

/-! ### Places -/

/-- The sample at a place of a band of a channel. -/
def sample? (x : ChannelBuffer α) (c k i : Nat) : Option α := x.data[x.offset c k + i]?

/-- The places that a band of a channel takes in the storage. -/
def slots (x : ChannelBuffer α) (band channel : Nat) : List Nat :=
  List.range' (x.offset channel band) x.perBand

theorem bands_mul_perBand (x : ChannelBuffer α) : x.bands * x.perBand = x.frames :=
  Nat.mul_div_cancel' x.bands_dvd

theorem offset_room (hk : k < x.bands) (hc : c < x.channels) :
    x.offset c k + x.perBand ≤ x.data.length := by
  have hband := band_room hk
  have hchannel := room hc
  rw [offset]
  omega

theorem offset_add (x : ChannelBuffer α) (c k i : Nat) :
    x.offset c k + i = c * x.frames + (k * x.perBand + i) := by
  rw [offset, Nat.add_assoc]

theorem offset_add_lt (hk : k < x.bands) (hc : c < x.channels) (hi : i < x.perBand) :
    x.offset c k + i < x.data.length := by
  have hroom := offset_room hk hc
  omega

/-- A place in a channel belongs to no other channel. -/
theorem channel_unique (hk : k < x.bands) (hi : i < x.perBand) (hle : d * x.frames ≤ x.offset c k + i)
    (hlt : x.offset c k + i < d * x.frames + x.frames) : c = d := by
  have hband := band_room hk
  rw [offset_add] at hle hlt
  exact block_unique (by omega) hle hlt

/-- A place in a band of a channel belongs to no other band and no other channel. -/
theorem slot_unique (hk : k < x.bands) (hl : l < x.bands) (hi : i < x.perBand)
    (hle : x.offset d l ≤ x.offset c k + i) (hlt : x.offset c k + i < x.offset d l + x.perBand) :
    c = d ∧ k = l := by
  have hband := band_room hl
  have hstart : d * x.frames ≤ x.offset d l := Nat.le_add_right _ _
  have hend : x.offset d l + x.perBand ≤ d * x.frames + x.frames := by
    rw [offset]
    omega
  obtain rfl : c = d := channel_unique hk hi (by omega) (by omega)
  rw [offset, offset] at hle hlt
  exact ⟨rfl, block_unique hi (by omega) (by omega)⟩

theorem channel_part (hk : k < x.bands) (hc : c < x.channels) :
    x.channel k c = .ok ((x.data.drop (x.offset c k)).take x.perBand) :=
  slice_eq_ok (offset_room hk hc)

theorem getElem?_samplesOf {r : Nat} (hr : r < x.frames) :
    (x.samplesOf c)[r]? = x.data[c * x.frames + r]? := by
  rw [samplesOf, List.getElem?_take_of_lt hr, List.getElem?_drop]

theorem getElem?_samplesOf_band (hk : k < x.bands) (hi : i < x.perBand) :
    (x.samplesOf c)[k * x.perBand + i]? = x.sample? c k i := by
  have hband := band_room hk
  rw [getElem?_samplesOf (by omega), sample?, offset_add]

theorem getElem?_bandSamples (hk : k < x.bands) (hi : i < x.perBand) :
    (x.bandSamples k c)[i]? = x.sample? c k i := by
  rw [bandSamples, List.getElem?_take_of_lt hi, List.getElem?_drop, getElem?_samplesOf_band hk hi]

/-! ### The layout -/

/-- The bands of the channels are the storage: each is a stretch of it, no place belongs to two of them,
and put together they are the channels, and these the whole. -/
structure Partitions (x : ChannelBuffer α) : Prop where
  band : ∀ k < x.bands, ∀ c < x.channels, x.channel k c = .ok (x.bandSamples k c) ∧
    (x.bandSamples k c).length = x.perBand ∧
    (x.bandSamples k c).map some = (x.slots k c).map (x.data[·]?)
  disjoint : ∀ k < x.bands, ∀ c < x.channels, ∀ l < x.bands, ∀ d < x.channels, (k, c) ≠ (l, d) →
    (x.slots k c).Disjoint (x.slots l d)
  cover : ∀ j < x.data.length, ∃ k < x.bands, ∃ c < x.channels, j ∈ x.slots k c
  channel : ∀ c < x.channels, x.bandsOf c = .ok (x.samplesOf c) ∧
    x.samplesOf c = (List.range x.bands).flatMap fun k => x.bandSamples k c
  data : x.data = (List.range x.channels).flatMap x.samplesOf

theorem mem_slots {j : Nat} : j ∈ x.slots k c ↔ x.offset c k ≤ j ∧ j < x.offset c k + x.perBand :=
  List.mem_range'_1

theorem samplesOf_eq_flatMap (hc : c < x.channels) :
    x.samplesOf c = (List.range x.bands).flatMap fun k => x.bandSamples k c := by
  refine eq_flatMap_blocks (by rw [length_samplesOf hc, bands_mul_perBand])
    (fun k hk => length_bandSamples hk hc) fun k hk i hi => ?_
  rw [getElem?_bandSamples hk hi, getElem?_samplesOf_band hk hi]

theorem data_eq_flatMap (x : ChannelBuffer α) :
    x.data = (List.range x.channels).flatMap x.samplesOf :=
  eq_flatMap_blocks (by rw [x.length_data, Nat.mul_comm]) (fun _ hc => length_samplesOf hc)
    fun _ _ _ hr => (getElem?_samplesOf hr).symm

/-- Every place of the storage belongs to a band of a channel. -/
theorem exists_mem_slots {j : Nat} (hj : j < x.data.length) :
    ∃ k < x.bands, ∃ c < x.channels, j ∈ x.slots k c := by
  rw [x.length_data, Nat.mul_comm] at hj
  have hframes : 0 < x.frames := Nat.pos_of_lt_mul_left hj
  have hin : j % x.frames < x.bands * x.perBand := by
    rw [bands_mul_perBand]
    exact Nat.mod_lt j hframes
  have hp : 0 < x.perBand := Nat.pos_of_lt_mul_left hin
  have hplace : j / x.frames * x.frames + j % x.frames = j := Nat.div_add_mod' j x.frames
  have hwithin : j % x.frames / x.perBand * x.perBand + j % x.frames % x.perBand = j % x.frames :=
    Nat.div_add_mod' _ x.perBand
  have hrest : j % x.frames % x.perBand < x.perBand := Nat.mod_lt _ hp
  refine ⟨j % x.frames / x.perBand, (Nat.div_lt_iff_lt_mul hp).mpr hin, j / x.frames,
    (Nat.div_lt_iff_lt_mul hframes).mpr hj, mem_slots.mpr ?_⟩
  rw [offset]
  omega

theorem partitions (x : ChannelBuffer α) : x.Partitions where
  band k hk c hc := by
    refine ⟨channel_eq hk hc, length_bandSamples hk hc, List.ext_getElem? fun i => ?_⟩
    rw [List.getElem?_map, List.getElem?_map, slots]
    rcases Nat.lt_or_ge i x.perBand with hi | hi
    · have hlt := offset_add_lt hk hc hi
      rw [getElem?_bandSamples hk hi, sample?, List.getElem?_range' hi, Nat.one_mul,
        List.getElem?_eq_getElem hlt]
      exact congrArg some (List.getElem?_eq_getElem hlt).symm
    · rw [List.getElem?_eq_none (by rw [length_bandSamples hk hc]; exact hi),
        List.getElem?_eq_none (by rw [List.length_range']; exact hi)]
      rfl
  disjoint k hk c hc l hl d hd hne := by
    intro j hkc hld
    obtain ⟨hle, hlt⟩ := mem_slots.mp hkc
    obtain ⟨i, rfl⟩ := Nat.exists_eq_add_of_le hle
    obtain ⟨hle', hlt'⟩ := mem_slots.mp hld
    obtain ⟨rfl, rfl⟩ := slot_unique hk hl (by omega) hle' hlt'
    exact hne rfl
  cover j hj := exists_mem_slots hj
  channel c hc := ⟨bandsOf_eq hc, samplesOf_eq_flatMap hc⟩
  data := data_eq_flatMap x

/-- A place of a band of a channel is read alike by band, by channel, through the view in each of its
ways, and in the whole. -/
structure Reads (x : ChannelBuffer α) (c k i : Nat) (a : α) : Prop where
  band : (x.channel k c).map (·[i]?) = .ok (some a)
  channel : (x.bandsOf c).map (·[k * x.perBand + i]?) = .ok (some a)
  data : x.data[c * x.frames + k * x.perBand + i]? = some a
  view : (x.view c).map (·.data[k * x.perBand + i]?) = .ok (some a)
  view_band : (x.view c >>= (·.band k)).map (·[i]?) = .ok (some a)
  view_each : (x.view c >>= Bands.toList).map (fun bands => bands[k]?.bind (·[i]?)) = .ok (some a)

/-- The view of a channel has the bands of the buffer. -/
theorem view_cut (hc : c < x.channels) :
    Bands.Cut { data := x.samplesOf c, perBand := x.perBand } x.bands x.perBand :=
  ⟨by rw [length_samplesOf hc, bands_mul_perBand], rfl⟩

theorem reads_of_sample {a : α} (hk : k < x.bands) (hc : c < x.channels) (hi : i < x.perBand)
    (h : x.sample? c k i = some a) : x.Reads c k i a := by
  have hcut := view_cut hc
  have hchannel : (x.samplesOf c)[k * x.perBand + i]? = some a := by
    rw [getElem?_samplesOf_band hk hi, h]
  have hband : (x.bandSamples k c)[i]? = some a := by rw [getElem?_bandSamples hk hi, h]
  refine ⟨?_, ?_, h, ?_, ?_, ?_⟩
  · rw [channel_eq hk hc, Except.map, hband]
  · rw [bandsOf_eq hc, Except.map, hchannel]
  · rw [view_eq hc, Except.map, hchannel]
  · rw [view_eq hc, ok_bind, hcut.band_eq hk]
    exact congrArg Except.ok hband
  · rw [view_eq hc, ok_bind, hcut.toList_eq (by omega), Except.map,
      hcut.getElem?_blocks (by omega) hk]
    exact congrArg Except.ok hband

/-! ### Writing -/

/-- Something that is written to a buffer: into one band of a channel, into a channel, through the view
of a channel, or anywhere. -/
inductive Edit (α : Type) where
  | band (band channel start : Nat) (src : List α)
  | channel (channel start : Nat) (src : List α)
  | view (channel : Nat) (edits : List (Bands.Edit α))
  | data (start : Nat) (src : List α)

def edit (x : ChannelBuffer α) : Edit α → Checked (ChannelBuffer α)
  | .band band channel start src => x.writeChannel band channel start src
  | .channel channel start src => x.writeBands channel start src
  | .view channel edits => x.modifyView channel fun v => edits.foldlM Bands.edit v
  | .data start src => .ok (x.writeData start src)

namespace Edit

/-- The bands and channels that are named exist. -/
def InRange (channels bands perBand : Nat) : Edit α → Prop
  | .band k c _ _ => k < bands ∧ c < channels
  | .channel c _ _ => c < channels
  | .view c edits => c < channels ∧ ∀ e ∈ edits, e.InRange bands perBand
  | .data _ _ => True

/-- What an edit puts at place `i` of band `k` of channel `c`. -/
def value? (bands perBand c k i : Nat) : Edit α → Option α
  | .band k' c' start src => if c' = c ∧ k' = k then placed start src i else none
  | .channel c' start src => if c' = c then placed start src (k * perBand + i) else none
  | .view c' edits => if c' = c then lastWritten (·.value? perBand k i) edits else none
  | .data start src => placed start src (c * (bands * perBand) + k * perBand + i)

end Edit

/-- The given band of the given channel exists, and has the given place. -/
def Within (x : ChannelBuffer α) (q : Nat × Nat × Nat) : Prop :=
  q.1 < x.channels ∧ q.2.1 < x.bands ∧ q.2.2 < x.perBand

/-- An edit puts its values in their places and leaves the other samples alone. -/
theorem edit_returns {e : Edit α} (he : e.InRange x.channels x.bands x.perBand) :
    Returns (x.edit e) fun y => y.dims = x.dims ∧ ∀ q, x.Within q → y.sample? q.1 q.2.1 q.2.2 =
      (e.value? x.bands x.perBand q.1 q.2.1 q.2.2).or (x.sample? q.1 q.2.1 q.2.2) := by
  cases e with
  | band band channel start src =>
    obtain ⟨hband, hchannel⟩ := he
    rw [edit, writeChannel, channel_part hband hchannel]
    refine returns_ok ⟨rfl, ?_⟩
    rintro ⟨c, k, i⟩ ⟨hc : c < x.channels, hk : k < x.bands, hi : i < x.perBand⟩
    show (overlay _ _ _)[x.offset c k + i]? = _
    rw [getElem?_overlay_part start src (offset_room hband hchannel) (offset_add_lt hk hc hi),
      Edit.value?]
    by_cases heq : channel = c ∧ band = k
    · obtain ⟨rfl, rfl⟩ := heq
      rw [if_pos (by omega), if_pos ⟨rfl, rfl⟩, Nat.add_sub_cancel_left]
      rfl
    · rw [if_neg, if_neg heq]
      · rfl
      · rintro ⟨hle, hlt⟩
        obtain ⟨rfl, rfl⟩ := slot_unique hk hband hi hle hlt
        exact heq ⟨rfl, rfl⟩
  | channel channel start src =>
    have hchannel : channel < x.channels := he
    rw [edit, writeBands, bandsOf_eq hchannel]
    refine returns_ok ⟨rfl, ?_⟩
    rintro ⟨c, k, i⟩ ⟨hc : c < x.channels, hk : k < x.bands, hi : i < x.perBand⟩
    show (overlay _ _ (overlay ((x.data.drop _).take _) _ _))[x.offset c k + i]? = _
    have hband := band_room hk
    rw [getElem?_overlay_part start src (room hchannel) (offset_add_lt hk hc hi), Edit.value?]
    by_cases heq : channel = c
    · subst heq
      rw [offset_add, if_pos (by omega), if_pos rfl, Nat.add_sub_cancel_left, ← offset_add]
      rfl
    · rw [if_neg fun hin => heq (channel_unique hk hi hin.1 hin.2).symm, if_neg heq]
      rfl
  | view channel edits =>
    obtain ⟨hchannel, hedits⟩ := he
    obtain ⟨v, hv, hcut, hlast⟩ := (view_cut hchannel).edits_last hedits
    have hlength : v.data.length = x.frames := by rw [hcut.length, bands_mul_perBand]
    rw [edit, modifyView, view_eq hchannel, ok_bind, hv, ok_bind, writeBands_eq hchannel hlength]
    refine returns_ok ⟨rfl, ?_⟩
    rintro ⟨c, k, i⟩ ⟨hc : c < x.channels, hk : k < x.bands, hi : i < x.perBand⟩
    show (overlay _ _ _)[x.offset c k + i]? = _
    have hband := band_room hk
    rw [getElem?_overlay, Edit.value?]
    by_cases heq : channel = c
    · subst heq
      have hsample := hlast (k, i) ⟨hk, hi⟩
      simp only [Bands.sample?, hcut.perBand] at hsample
      rw [getElem?_samplesOf_band hk hi] at hsample
      have hlt := offset_add_lt hk hc hi
      rw [offset_add] at hlt ⊢
      rw [if_pos (by omega), if_pos rfl, Nat.add_sub_cancel_left, hsample]
    · rw [if_neg, if_neg heq]
      · rfl
      · rintro ⟨hle, hlt, -⟩
        exact heq (channel_unique hk hi hle (hlength ▸ hlt)).symm
  | data start src =>
    refine returns_ok ⟨rfl, ?_⟩
    rintro ⟨c, k, i⟩ ⟨hc : c < x.channels, hk : k < x.bands, hi : i < x.perBand⟩
    show (overlay _ _ _)[x.offset c k + i]? = _
    rw [getElem?_overlay_placed start src (offset_add_lt hk hc hi), Edit.value?, bands_mul_perBand]
    rfl

theorem eq_of_dims (h : y.dims = x.dims) :
    y.frames = x.frames ∧ y.channels = x.channels ∧ y.bands = x.bands ∧ y.perBand = x.perBand := by
  obtain ⟨hframes, hchannels, hbands⟩ :
      y.frames = x.frames ∧ y.channels = x.channels ∧ y.bands = x.bands := by
    simpa [dims] using h
  exact ⟨hframes, hchannels, hbands, by rw [perBand, perBand, hframes, hbands]⟩

/-- After a run of edits each sample is the last value that was written to its place. -/
theorem edits_last {edits : List (Edit α)}
    (hedits : ∀ e ∈ edits, e.InRange x.channels x.bands x.perBand) :
    Returns (edits.foldlM edit x) fun y => y.dims = x.dims ∧ ∀ q, x.Within q →
      y.sample? q.1 q.2.1 q.2.2 = (lastWritten (·.value? x.bands x.perBand q.1 q.2.1 q.2.2) edits).or
        (x.sample? q.1 q.2.1 q.2.2) := by
  refine foldlM_lastWritten (P := fun y : ChannelBuffer α => y.dims = x.dims)
    ?_ rfl
  intro y hy e he
  obtain ⟨hframes, hchannels, hbands, hperBand⟩ := eq_of_dims hy
  have hrange := hedits e he
  rw [← hchannels, ← hbands, ← hperBand] at hrange
  refine (edit_returns hrange).mono ?_
  rintro z ⟨hz, hsample⟩
  refine ⟨hz.trans hy, fun q hq => ?_⟩
  rw [← hbands, ← hperBand]
  exact hsample q (by rwa [Within, hchannels, hbands, hperBand])

/-- An edit that puts nothing in a band leaves it as it is. -/
theorem channel_of_untouched {e : Edit α} (he : e.InRange x.channels x.bands x.perBand)
    (hy : x.edit e = .ok y) (hk : k < x.bands) (hc : c < x.channels)
    (hnone : ∀ i < x.perBand, e.value? x.bands x.perBand c k i = none) :
    y.channel k c = x.channel k c := by
  obtain ⟨hdims, hsample⟩ := (edit_returns he).elim hy
  obtain ⟨-, hchannels, hbands, hperBand⟩ := eq_of_dims hdims
  have hk' : k < y.bands := hbands.symm ▸ hk
  have hc' : c < y.channels := hchannels.symm ▸ hc
  rw [channel_eq hk hc, channel_eq hk' hc']
  refine congrArg Except.ok (List.ext_getElem? fun i => ?_)
  rcases Nat.lt_or_ge i x.perBand with hi | hi
  · rw [getElem?_bandSamples hk hi, getElem?_bandSamples hk' (hperBand.symm ▸ hi),
      hsample (c, k, i) ⟨hc, hk, hi⟩, hnone i hi, Option.none_or]
  · rw [List.getElem?_eq_none, List.getElem?_eq_none]
    · rw [length_bandSamples hk hc]
      exact hi
    · rw [length_bandSamples hk' hc', hperBand]
      exact hi

/-- What is written to one band, of the buffer or of a view, is put in no other one. -/
theorem Edit.value?_of_ne {bands perBand start : Nat} {src : List α} {e : Edit α}
    (he : e = .band k c start src ∨ e = .view c [.band k start src]) (hne : (l, d) ≠ (k, c)) :
    e.value? bands perBand d l i = none := by
  have hother : ¬ (c = d ∧ k = l) := by
    rintro ⟨rfl, rfl⟩
    exact hne rfl
  obtain rfl | rfl := he
  · exact if_neg hother
  · rw [value?]
    by_cases hc : c = d
    · have hk : k ≠ l := fun hk => hother ⟨hc, hk⟩
      rw [if_pos hc, lastWritten, List.reverse_singleton, List.findSome?_singleton, Bands.Edit.value?,
        if_neg hk]
    · exact if_neg hc

/-- A new buffer has the shape that was asked for, and is silent. -/
theorem of_create [Zero α] {frames channels bands : Nat} (h : create frames channels bands = .ok x) :
    x.dims = (frames, channels, bands) ∧
      ∀ q, x.Within q → x.sample? q.1 q.2.1 q.2.2 = some 0 := by
  rw [create] at h
  by_cases hb : bands = 0
  · rw [dif_pos hb] at h
    cases h
  by_cases hc : channels = 0
  · rw [dif_neg hb, dif_pos hc] at h
    cases h
  by_cases hd : bands ∣ frames
  swap
  · rw [dif_neg hb, dif_neg hc, dif_neg hd] at h
    cases h
  rw [dif_neg hb, dif_neg hc, dif_pos hd] at h
  by_cases hroom : frames * channels < storageLimit
  swap
  · rw [if_neg hroom] at h
    cases h
  rw [if_pos hroom] at h
  cases h
  refine ⟨rfl, fun q hq => ?_⟩
  have hlt := offset_add_lt hq.2.1 hq.1 hq.2.2
  rw [length_data] at hlt
  exact List.getElem?_replicate_of_lt hlt

/-- A buffer is cut into its bands without a gap or an overlap. After anything is written to it, by
band, by channel, through views or anywhere, each sample is the last value that was written to its
place, or silence, however it is read; and what is written to a band changes no other band. -/
theorem edits_keep_last [Zero α] {frames channels bands : Nat} {x : ChannelBuffer α}
    (h : create frames channels bands = .ok x) {edits : List (Edit α)}
    (hedits : ∀ e ∈ edits, e.InRange channels bands (frames / bands)) :
    Returns (edits.foldlM edit x) fun y => y.dims = (frames, channels, bands) ∧ y.Partitions ∧
      (∀ c < channels, ∀ k < bands, ∀ i < frames / bands, y.Reads c k i
        ((lastWritten (·.value? bands (frames / bands) c k i) edits).getD 0)) ∧
      ∀ k < bands, ∀ c < channels, ∀ start src,
        ∀ e ∈ [.band k c start src, .view c [.band k start src]], Returns (y.edit e) fun z =>
          ∀ l < bands, ∀ d < channels, (l, d) ≠ (k, c) → z.channel l d = y.channel l d := by
  obtain ⟨hdims, hsilent⟩ := of_create h
  obtain ⟨rfl, rfl, rfl⟩ : x.frames = frames ∧ x.channels = channels ∧ x.bands = bands := by
    simpa [dims] using hdims
  refine (edits_last hedits).mono ?_
  rintro y ⟨hy, hlast⟩
  obtain ⟨-, hchannels, hbands, hperBand⟩ := eq_of_dims hy
  refine ⟨hy, y.partitions, ?_, ?_⟩
  · intro c hc k hk i hi
    refine reads_of_sample (hbands.symm ▸ hk) (hchannels.symm ▸ hc) (hperBand.symm ▸ hi) ?_
    have hsample := hlast (c, k, i) ⟨hc, hk, hi⟩
    rw [hsilent (c, k, i) ⟨hc, hk, hi⟩, Option.or_some] at hsample
    exact hsample
  · intro k hk c hc start src e he
    have hone : e = .band k c start src ∨ e = .view c [.band k start src] := by simpa using he
    have hrange : e.InRange y.channels y.bands y.perBand := by
      rw [hchannels, hbands]
      obtain rfl | rfl := hone
      · exact ⟨hk, hc⟩
      · refine ⟨hc, fun e he => ?_⟩
        obtain rfl := List.mem_singleton.mp he
        exact hk
    obtain ⟨z, hz, -⟩ := edit_returns hrange
    refine ⟨z, hz, fun l hl d hd hne => ?_⟩
    exact channel_of_untouched hrange hz (hbands.symm ▸ hl) (hchannels.symm ▸ hd) fun i _ =>
      Edit.value?_of_ne hone hne

/-- Writes of every kind to a buffer of two channels in two bands, and what is read after them. -/
theorem edits_keep_last_two_by_two : ∃ x : ChannelBuffer Int, create 4 2 2 = .ok x ∧
    Returns ([.band 1 0 0 [1, 2], .channel 0 3 [5], .view 1 [.each [[7], [8]], .band 0 1 [9]],
      .data 2 [4]].foldlM edit x) fun y => y.Partitions ∧ y.Reads 0 0 1 0 ∧ y.Reads 0 1 0 4 ∧
        y.Reads 0 1 1 5 ∧ y.Reads 1 0 0 7 ∧ y.Reads 1 0 1 9 ∧ y.Reads 1 1 0 8 := by
  obtain ⟨x, hx⟩ : ∃ x : ChannelBuffer Int, create 4 2 2 = .ok x := ⟨_, rfl⟩
  refine ⟨x, hx, (edits_keep_last hx ?_).mono ?_⟩
  · simp [Edit.InRange, Bands.Edit.InRange]
  · rintro y ⟨-, hpartitions, hreads, -⟩
    exact ⟨hpartitions, hreads 0 (by decide) 0 (by decide) 1 (by decide),
      hreads 0 (by decide) 1 (by decide) 0 (by decide), hreads 0 (by decide) 1 (by decide) 1 (by decide),
      hreads 1 (by decide) 0 (by decide) 0 (by decide), hreads 1 (by decide) 0 (by decide) 1 (by decide),
      hreads 1 (by decide) 1 (by decide) 0 (by decide)⟩

/-! ### Views -/

/-- A view that is made of a list shows its bands, also after anything is written through it. -/
theorem enumerates_of_ofList {samples : List α} {perBand : Nat} {v : Bands α}
    (h : Bands.ofList samples perBand = .ok v) {edits : List (Bands.Edit α)}
    (hedits : ∀ e ∈ edits, e.InRange (samples.length / perBand) perBand) :
    Returns (edits.foldlM Bands.edit v) (·.Enumerates (samples.length / perBand)) := by
  obtain ⟨hp, hcut⟩ := Bands.cut_of_ofList h
  refine (hcut.edits_last hedits).mono ?_
  rintro w ⟨hw, -⟩
  exact hw.enumerates hp

theorem perBand_pos_iff (x : ChannelBuffer α) : 0 < x.perBand ↔ 0 < x.frames := by
  rw [← bands_mul_perBand, Nat.mul_pos_iff_of_pos_left x.bands_pos]

/-- The view of a channel shows the bands of the buffer, also after anything is written through it, just
if the buffer has frames; without frames its bands can be neither counted nor gone through. A view that
is made of a list always shows its bands. -/
theorem views_enumerate_iff (x : ChannelBuffer α) :
    (∀ c < x.channels, Returns (x.view c) fun v => (∀ k < x.bands, v.band k = x.channel k c) ∧
      ((∀ edits : List (Bands.Edit α), (∀ e ∈ edits, e.InRange x.bands x.perBand) →
        Returns (edits.foldlM Bands.edit v) (·.Enumerates x.bands)) ↔ 0 < x.frames) ∧
      (x.frames = 0 → v.count = .error .outOfRange ∧ v.toList = .error .outOfRange)) ∧
    ∀ samples perBand (v : Bands α), Bands.ofList samples perBand = .ok v →
      ∀ edits : List (Bands.Edit α), (∀ e ∈ edits, e.InRange (samples.length / perBand) perBand) →
        Returns (edits.foldlM Bands.edit v) (·.Enumerates (samples.length / perBand)) := by
  refine ⟨fun c hc => ?_, fun samples perBand v hv edits hedits => enumerates_of_ofList hv hedits⟩
  have hcut := view_cut hc
  rw [view_eq hc]
  refine returns_ok ⟨fun k hk => ?_, ⟨?_, ?_⟩, ?_⟩
  · rw [hcut.band_eq hk, channel_eq hk hc]
    rfl
  · intro hall
    obtain ⟨v, hv, henumerates⟩ := hall [] (by simp)
    cases hv
    exact (perBand_pos_iff x).mp henumerates.perBand_pos
  · intro hframes edits hedits
    refine (hcut.edits_last hedits).mono ?_
    rintro w ⟨hw, -⟩
    exact hw.enumerates ((perBand_pos_iff x).mpr hframes)
  · intro hframes
    have hnone : x.perBand = 0 := by rw [perBand, hframes, Nat.zero_div]
    exact ⟨if_pos hnone, if_pos hnone⟩

/-- The view of the second of two channels with three bands, and a view that is made of a list. -/
theorem views_enumerate_iff_three_bands : ∃ (x : ChannelBuffer Int) (v w : Bands Int),
    create 6 2 3 = .ok x ∧ x.view 1 = .ok v ∧ v.Enumerates 3 ∧ v.band 2 = x.channel 2 1 ∧
    Bands.ofList [1, 2, 3, 4] 2 = .ok w ∧
      Returns ([.band 1 0 [5], .each [[6]]].foldlM Bands.edit w) (·.Enumerates 2) := by
  obtain ⟨x, hx⟩ : ∃ x : ChannelBuffer Int, create 6 2 3 = .ok x := ⟨_, rfl⟩
  obtain ⟨hframes, hchannels, hbands⟩ : x.frames = 6 ∧ x.channels = 2 ∧ x.bands = 3 := by
    simpa [dims] using (of_create hx).1
  obtain ⟨hviews, hlists⟩ := views_enumerate_iff x
  obtain ⟨v, hv, hband, hall, -⟩ := hviews 1 (by omega)
  obtain ⟨v', hv', henumerates⟩ := hall.mpr (by omega) [] (by simp)
  cases hv'
  refine ⟨x, v, _, hx, hv, hbands ▸ henumerates, hband 2 (by omega), rfl, ?_⟩
  exact hlists [1, 2, 3, 4] 2 _ rfl _ (by simp [Bands.Edit.InRange])

/-- A buffer without frames can be made and viewed, but its bands cannot be counted. -/
theorem view_of_empty_buffer_faults : ∃ (x : ChannelBuffer Int) (v : Bands Int),
    create 0 1 1 = .ok x ∧ x.view 0 = .ok v ∧ v.perBand = 0 ∧ v.count = .error .outOfRange ∧
      v.toList = .error .outOfRange :=
  ⟨_, _, rfl, rfl, rfl, rfl, rfl⟩

end ChannelBuffer

end Duplex
