import Duplex.Buffer.Dual
import Duplex.Proofs.Rounding
import Duplex.Proofs.Signal

/-!
# Buffers of one channel: shape and content

The buffers of a lane have one channel. `ChannelBuffer.HasShape` fixes their frames and bands; on
such a buffer the view of the channel is the whole storage and cannot fail. A `DualBuffer` is
`Shaped` when both copies are. `Sample.Lawful` says what is the same for integers and floats:
freshening and claiming a copy keep the content that is read, and storing replaces it. What is read
in the other form after that is `Holds`: the content is a list of samples, exactly, in both forms.
-/

namespace Duplex

open Signal

variable {α : Type} {n b : Nat}

namespace ChannelBuffer

@[ext] theorem ext {x y : ChannelBuffer α} (frames : x.frames = y.frames)
    (channels : x.channels = y.channels) (bands : x.bands = y.bands) (data : x.data = y.data) :
    x = y := by
  cases x
  cases y
  simp_all

/-- The frames, channels and bands. -/
def dims (x : ChannelBuffer α) : Nat × Nat × Nat := (x.frames, x.channels, x.bands)

/-- One channel with the given frames and bands. -/
structure HasShape (x : ChannelBuffer α) (n b : Nat) : Prop where
  frames : x.frames = n
  channels : x.channels = 1
  bands : x.bands = b

@[simp] theorem writeData_data (x : ChannelBuffer α) (start : Nat) (src : List α) :
    (x.writeData start src).data = overlay x.data start src := rfl

theorem HasShape.writeData {x : ChannelBuffer α} (h : x.HasShape n b) (start : Nat) (src : List α) :
    (x.writeData start src).HasShape n b := ⟨h.frames, h.channels, h.bands⟩

theorem create_hasShape [Zero α] (hb : 0 < b) (hd : b ∣ n) (hn : n < storageLimit) :
    Returns (create n 1 b : Checked (ChannelBuffer α)) (·.HasShape n b) := by
  have hroom : n * 1 < storageLimit := by omega
  simp only [create, dif_neg hb.ne', dif_neg Nat.one_ne_zero, dif_pos hd, if_pos hroom]
  exact returns_ok ⟨rfl, rfl, rfl⟩

namespace HasShape

variable {x : ChannelBuffer α} (h : x.HasShape n b)

include h

theorem length : x.data.length = n := by
  rw [x.length_data, h.frames, h.channels, Nat.mul_one]

theorem bands_dvd : b ∣ n := h.frames ▸ h.bands ▸ x.bands_dvd

theorem perBand : x.perBand = n / b := by rw [ChannelBuffer.perBand, h.frames, h.bands]

/-- All of the storage is the channel. -/
theorem bandsOf : x.bandsOf 0 = .ok x.data := by
  rw [ChannelBuffer.bandsOf, Nat.zero_mul, h.frames, ← h.length, slice_all]

theorem view : x.view 0 = .ok { data := x.data, perBand := n / b } := by
  rw [ChannelBuffer.view, h.bandsOf, h.perBand]
  rfl

theorem writeBands (src : List α) : x.writeBands 0 0 src = .ok (x.writeData 0 src) := by
  have hover : overlay x.data 0 (overlay x.data 0 src) = overlay x.data 0 src :=
    overlay_all (length_overlay _ _ _)
  rw [ChannelBuffer.writeBands, h.bandsOf, Nat.zero_mul]
  simp only [Except.map]
  congr 1
  exact ChannelBuffer.ext rfl rfl rfl hover

/-- Writing as many samples as there are replaces all. -/
theorem writeData_all {src : List α} (hs : src.length = n) : (x.writeData 0 src).data = src := by
  rw [writeData_data, overlay_all (hs.trans h.length.symm)]

end HasShape

end ChannelBuffer

namespace DualBuffer

/-- Both copies have one channel with the given frames and bands. -/
structure Shaped (d : DualBuffer) (n b : Nat) : Prop where
  ints : d.intCopy.HasShape n b
  floats : d.floatCopy.HasShape n b

theorem create_shaped (hb : 0 < b) (hd : b ∣ n) (hn : n < storageLimit) :
    Returns (create n 1 b) (·.Shaped n b) :=
  (ChannelBuffer.create_hasShape hb hd hn).bind fun _ hi =>
    (ChannelBuffer.create_hasShape hb hd hn).bind fun _ hf => returns_ok ⟨hi, hf⟩

variable {d : DualBuffer}

namespace Shaped

variable (h : d.Shaped n b)

include h

theorem ints_hasShape : d.ints.HasShape n b := by
  rw [DualBuffer.ints]
  split
  · exact h.ints.writeData _ _
  · exact h.ints

theorem floats_hasShape : d.floats.HasShape n b := by
  rw [DualBuffer.floats]
  split
  · exact h.floats.writeData _ _
  · exact h.floats

theorem syncInts : d.syncInts.Shaped n b := by
  rw [DualBuffer.syncInts]
  split
  · exact ⟨h.ints_hasShape, h.floats⟩
  · exact h

theorem syncFloats : d.syncFloats.Shaped n b := by
  rw [DualBuffer.syncFloats]
  split
  · exact ⟨h.ints, h.floats_hasShape⟩
  · exact h

theorem claimInts : d.claimInts.Shaped n b := ⟨h.syncInts.ints, h.syncInts.floats⟩

theorem claimFloats : d.claimFloats.Shaped n b := ⟨h.syncFloats.ints, h.syncFloats.floats⟩

end Shaped

@[simp] theorem ints_syncInts (d : DualBuffer) : d.syncInts.ints = d.ints := by
  obtain ⟨i, f, fresh⟩ := d
  cases fresh <;> rfl

@[simp] theorem floats_syncFloats (d : DualBuffer) : d.syncFloats.floats = d.floats := by
  obtain ⟨i, f, fresh⟩ := d
  cases fresh <;> rfl

@[simp] theorem floatCopy_syncFloats (d : DualBuffer) : d.syncFloats.floatCopy = d.floats := by
  obtain ⟨i, f, fresh⟩ := d
  cases fresh <;> rfl

@[simp] theorem ints_claimInts (d : DualBuffer) : d.claimInts.ints = d.ints := by
  obtain ⟨i, f, fresh⟩ := d
  cases fresh <;> rfl

@[simp] theorem floats_claimFloats (d : DualBuffer) : d.claimFloats.floats = d.floats := by
  obtain ⟨i, f, fresh⟩ := d
  cases fresh <;> rfl

/-- Read as integers or as floats, the content is the given samples, exactly. -/
structure Holds (d : DualBuffer) (xs : List Int16) : Prop where
  ints : d.ints.data = xs
  floats : d.floats.data = xs.map Pcm.widen

end DualBuffer

/-! ### Forms -/

/-- What reading, freshening, claiming and storing do to shape and content, whatever the form. -/
class Sample.Lawful (S : Type) [Sample S] : Prop where
  read_hasShape {d : DualBuffer} {n b : Nat} :
    d.Shaped n b → (Sample.read d : ChannelBuffer S).HasShape n b
  sync_shaped {d : DualBuffer} {n b : Nat} : d.Shaped n b → (Sample.sync S d).Shaped n b
  claim_shaped {d : DualBuffer} {n b : Nat} : d.Shaped n b → (Sample.claim S d).Shaped n b
  store_shaped {d : DualBuffer} {n b : Nat} {x : ChannelBuffer S} :
    d.Shaped n b → x.HasShape n b → (Sample.store d x).Shaped n b
  read_sync (d : DualBuffer) : (Sample.read (Sample.sync S d) : ChannelBuffer S) = Sample.read d
  read_claim (d : DualBuffer) : (Sample.read (Sample.claim S d) : ChannelBuffer S) = Sample.read d
  read_store_claim (d : DualBuffer) (x : ChannelBuffer S) :
    Sample.read (Sample.store (Sample.claim S d) x) = x

instance : Sample.Lawful Int16 where
  read_hasShape h := h.ints_hasShape
  sync_shaped h := h.syncInts
  claim_shaped h := h.claimInts
  store_shaped h hx := ⟨hx, h.floats⟩
  read_sync := DualBuffer.ints_syncInts
  read_claim := DualBuffer.ints_claimInts
  read_store_claim _ _ := rfl

instance : Sample.Lawful Float32 where
  read_hasShape h := h.floats_hasShape
  sync_shaped h := h.syncFloats
  claim_shaped h := h.claimFloats
  store_shaped h hx := ⟨h.ints, hx⟩
  read_sync := DualBuffer.floats_syncFloats
  read_claim := DualBuffer.floats_claimFloats
  read_store_claim _ _ := rfl

/-- A form that holds 16-bit samples exactly: content that was read as samples in this form, or
stored as such, is the same in every form. -/
class Sample.Exact (S : Type) [Sample S] extends Sample.Lawful S where
  /-- The sample in this form. -/
  embed : Int16 → S
  read_of_holds {d : DualBuffer} {xs : List Int16} :
    d.Holds xs → (Sample.read d : ChannelBuffer S).data = xs.map embed
  sync_holds {d : DualBuffer} {xs : List Int16} : d.Holds xs → (Sample.sync S d).Holds xs
  store_holds {d : DualBuffer} {n b : Nat} {x : ChannelBuffer S} {xs : List Int16} :
    d.Shaped n b → x.HasShape n b → x.data = xs.map embed →
      (Sample.store (Sample.claim S d) x).Holds xs

theorem map_round_map_widen (xs : List Int16) : (xs.map Pcm.widen).map Pcm.round = xs := by
  simp [Function.comp_def]

instance : Sample.Exact Int16 where
  embed v := v
  read_of_holds h := by rw [List.map_id']; exact h.ints
  sync_holds {d xs} h := by
    obtain ⟨i, f, fresh⟩ := d
    cases fresh with
    | both => exact h
    | intsOnly => exact h
    | floatsOnly => exact ⟨h.ints, h.floats⟩
  store_holds {d n b x xs} h hx hdata := by
    rw [List.map_id'] at hdata
    have hlen : (xs.map Pcm.widen).length = n := by rw [List.length_map, ← hdata, hx.length]
    exact ⟨hdata, by
      show ((d.claimInts.floatCopy).writeData 0 (x.data.map Pcm.widen)).data = _
      rw [hdata, h.claimInts.floats.writeData_all hlen]⟩

@[simp] theorem map_embed_int16 (xs : List Int16) :
    xs.map (Sample.Exact.embed (S := Int16)) = xs := List.map_id' xs

instance : Sample.Exact Float32 where
  embed := Pcm.widen
  read_of_holds h := h.floats
  sync_holds {d xs} h := by
    obtain ⟨i, f, fresh⟩ := d
    cases fresh with
    | both => exact h
    | intsOnly => exact ⟨h.ints, h.floats⟩
    | floatsOnly => exact h
  store_holds {d n b x xs} h hx hdata := by
    have hlen : xs.length = n := by rw [← List.length_map Pcm.widen, ← hdata, hx.length]
    exact ⟨by
      show ((d.claimFloats.intCopy).writeData 0 (x.data.map Pcm.round)).data = _
      rw [hdata, map_round_map_widen, h.claimFloats.ints.writeData_all hlen], hdata⟩

namespace DualBuffer

variable {S : Type} [Sample S] [Sample.Lawful S] {d : DualBuffer}

theorem Shaped.write (h : d.Shaped n b) (start : Nat) (src : List S) :
    (d.write start src).Shaped n b :=
  Sample.Lawful.store_shaped (Sample.Lawful.claim_shaped h)
    ((Sample.Lawful.read_hasShape (Sample.Lawful.claim_shaped h)).writeData start src)

theorem read_write (d : DualBuffer) (start : Nat) (src : List S) :
    (Sample.read (d.write start src) : ChannelBuffer S) =
      (Sample.read d : ChannelBuffer S).writeData start src := by
  rw [DualBuffer.write, Sample.Lawful.read_store_claim, Sample.Lawful.read_claim]

theorem Shaped.write_holds {S : Type} [Sample S] [Sample.Exact S] {xs : List Int16}
    (h : d.Shaped n b) (hxs : xs.length = n) :
    (d.write 0 (xs.map (Sample.Exact.embed (S := S)))).Holds xs := by
  have hclaim : (Sample.claim S d).Shaped n b := Sample.Lawful.claim_shaped h
  have hread : (Sample.read (Sample.claim S d) : ChannelBuffer S).HasShape n b :=
    Sample.Lawful.read_hasShape hclaim
  refine Sample.Exact.store_holds h (hread.writeData 0 _) ?_
  exact hread.writeData_all (by rw [List.length_map, hxs])

end DualBuffer

end Duplex
