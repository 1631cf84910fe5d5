import Duplex.Proofs.Pcm
import Mathlib.Data.Set.Function

/-!
# The byte codec: little-endian two's complement

The format is stated on its own, as a relation of samples and bytes (`LittleEndian`): each sample stands
in two bytes, the low one first, which write it modulo `2^16`. Encoding is that relation
(`encode_eq_iff`), and decoding inverts it on the whole pairs (`encode_decode_take`), into a destination
of any size as far as that reaches (`DecodesTo`). So the samples and the byte lists of even length are in
bijection, and bytes that come in portions are decoded one portion after another, as long as no pair is
torn apart.
-/

namespace Duplex.Pcm

open Signal

variable {low high : UInt8} {v : Int16} {samples : List Int16} {bytes : List UInt8}

/-! ### One sample -/

/-- A sample in two's complement: the number that the two bytes write is the sample modulo `2^16`. -/
def StandsFor (low high : UInt8) (v : Int16) : Prop :=
  v.toInt % 65536 = low.toNat + 256 * high.toNat

theorem toInt_emod (v : Int16) : v.toInt % 65536 = v.toUInt16.toNat := by
  have hlt : v.toBitVec.toNat < 2 ^ 16 := v.toBitVec.isLt
  have hcond : v.toInt = if 2 * v.toBitVec.toNat < 2 ^ 16 then (v.toBitVec.toNat : ℤ)
      else v.toBitVec.toNat - (2 ^ 16 : ℕ) := BitVec.toInt_eq_toNat_cond v.toBitVec
  rw [← Int16.toNat_toBitVec, hcond]
  split <;> omega

theorem standsFor_iff : StandsFor low high v ↔ sampleBytes v = [low, high] := by
  have hlow := low.toNat_lt
  have hhigh := high.toNat_lt
  unfold StandsFor sampleBytes
  rw [toInt_emod]
  constructor
  · intro h
    have hlow' : v.toUInt16.toNat % 256 = low.toNat := by omega
    have hhigh' : v.toUInt16.toNat / 256 = high.toNat := by omega
    simp only [hlow', hhigh', UInt8.ofNat_toNat]
  · intro h
    simp only [List.cons.injEq, and_true] at h
    obtain ⟨rfl, rfl⟩ := h
    have hlt := v.toUInt16.toNat_lt
    rw [UInt8.toNat_ofNat', UInt8.toNat_ofNat']
    omega

/-! ### The format -/

/-- The bytes are those of the samples in order, two for each sample and the low one first. -/
inductive LittleEndian : List Int16 → List UInt8 → Prop
  | nil : LittleEndian [] []
  | cons {low high : UInt8} {v : Int16} {samples : List Int16} {bytes : List UInt8}
      (sample : StandsFor low high v) (rest : LittleEndian samples bytes) :
      LittleEndian (v :: samples) (low :: high :: bytes)

theorem encode_eq_iff : encode samples = bytes ↔ LittleEndian samples bytes := by
  constructor
  · rintro rfl
    induction samples with
    | nil => exact .nil
    | cons v samples ih => exact .cons (standsFor_iff.mpr rfl) ih
  · intro h
    induction h with
    | nil => rfl
    | cons sample rest ih => rw [encode_cons, standsFor_iff.mp sample, ih]; rfl

/-- The whole pairs are decoded; an odd last byte is left out. -/
theorem encode_decode_take (bytes : List UInt8) :
    encode (decode bytes) = bytes.take (bytes.length - bytes.length % 2) := by
  have hwhole : 2 ∣ (bytes.take (bytes.length - bytes.length % 2)).length := by
    rw [List.length_take]
    omega
  have hodd : (bytes.drop (bytes.length - bytes.length % 2)).length < 2 := by
    rw [List.length_drop]
    omega
  have hnone : decode (bytes.drop (bytes.length - bytes.length % 2)) = [] := by
    apply List.eq_nil_of_length_eq_zero
    rw [length_decode]
    omega
  have hsplit := decode_append hwhole (bytes.drop (bytes.length - bytes.length % 2))
  rw [List.take_append_drop, hnone, List.append_nil] at hsplit
  rw [hsplit, encode_decode hwhole]

/-- Each list of samples has its own bytes, and each byte list of even length is that of some samples. -/
theorem encode_bijOn : Set.BijOn encode Set.univ {bytes | 2 ∣ bytes.length} := by
  refine ⟨?_, ?_, ?_⟩
  · intro samples _
    show 2 ∣ (encode samples).length
    rw [length_encode]
    exact Nat.dvd_mul_right 2 _
  · intro samples _ samples' _ h
    rw [← decode_encode samples, h, decode_encode]
  · intro bytes hbytes
    exact ⟨decode bytes, Set.mem_univ _, encode_decode hbytes⟩

/-! ### Destinations -/

/-- In every destination the bytes become the samples, as far as there is room; what lies behind them
is left alone. -/
def DecodesTo (bytes : List UInt8) (samples : List Int16) : Prop :=
  ∀ dest : List Int16, decodeInto bytes dest =
    (min samples.length dest.length, samples.take dest.length ++ dest.drop samples.length)

theorem decodesTo_decode (bytes : List UInt8) : DecodesTo bytes (decode bytes) := by
  intro dest
  rw [decodeInto, length_decode]
  simp [overlay]

theorem DecodesTo.of_room {dest : List Int16} (h : DecodesTo bytes samples)
    (hroom : samples.length ≤ dest.length) :
    decodeInto bytes dest = (samples.length, samples ++ dest.drop samples.length) := by
  rw [h dest, Nat.min_eq_left hroom, List.take_of_length_le hroom]

/-- Encoding writes the little-endian form of the samples, one form for each list of samples and none
left over. Where there is room, decoding takes it back to the samples and leaves what lies behind
alone, encoding takes what was decoded back to the bytes without an odd last one, and an even number of
bytes is decoded as if nothing came behind. -/
theorem byte_coding_bijective :
    Set.BijOn encode Set.univ {bytes | 2 ∣ bytes.length} ∧
    (∀ samples bytes, encode samples = bytes ↔ LittleEndian samples bytes) ∧
    (∀ samples dest : List Int16, samples.length ≤ dest.length →
      decodeInto (encode samples) dest = (samples.length, samples ++ dest.drop samples.length)) ∧
    (∀ (bytes : List UInt8) (dest : List Int16), bytes.length / 2 ≤ dest.length →
      ∃ out, decodeInto bytes dest = (bytes.length / 2, out) ∧
        encode (out.take (bytes.length / 2)) = bytes.take (bytes.length - bytes.length % 2)) ∧
    ∀ front back : List UInt8, 2 ∣ front.length → ∃ first second, DecodesTo front first ∧
      DecodesTo back second ∧ DecodesTo (front ++ back) (first ++ second) := by
  refine ⟨encode_bijOn, fun samples bytes => encode_eq_iff, ?_, ?_, ?_⟩
  · intro samples dest hroom
    have hdecodes := decodesTo_decode (encode samples)
    rw [decode_encode] at hdecodes
    exact hdecodes.of_room hroom
  · intro bytes dest hroom
    have hlength := length_decode bytes
    refine ⟨_, hlength ▸ (decodesTo_decode bytes).of_room (by omega), ?_⟩
    rw [List.take_left' (length_decode bytes), encode_decode_take]
  · intro front back hfront
    refine ⟨decode front, decode back, decodesTo_decode front, decodesTo_decode back, ?_⟩
    rw [← decode_append hfront]
    exact decodesTo_decode _

/-- Negative samples, the lowest one among them, an odd last byte, and portions of which the first is
even. -/
theorem byte_coding_bijective_lowest :
    decodeInto (encode [-2, 300, -32768]) [0, 0, 0, 7] = (3, [-2, 300, -32768, 7]) ∧
    (∃ out, decodeInto [1, 0, 7] [5, 5] = (1, out) ∧ encode (out.take 1) = [1, 0]) ∧
    ∃ first second, DecodesTo [254, 255] first ∧ DecodesTo [0, 128, 9] second ∧
      DecodesTo [254, 255, 0, 128, 9] (first ++ second) := by
  obtain ⟨-, -, hsamples, hbytes, hportions⟩ := byte_coding_bijective
  refine ⟨?_, ?_, ?_⟩
  · exact hsamples [-2, 300, -32768] [0, 0, 0, 7] (by decide)
  · exact hbytes [1, 0, 7] [5, 5] (by decide)
  · exact hportions [254, 255] [0, 128, 9] (by decide)

end Duplex.Pcm
