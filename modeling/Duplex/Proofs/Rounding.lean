import Duplex.Pcm.Sample
import Mathlib.Data.Nat.Log
import Mathlib.Tactic.Positivity
import Mathlib.Tactic.Ring

/-!
# Rounding: samples survive the way to a float and back

A 16-bit sample has at most 16 significant bits, so that it is a float exactly, and adding a half to
it is exact as well. `exactly s m e` is the float of value `m * 2 ^ e` with a sign; rounding,
packing, adding a half and comparing are computed on that form, and `round_widen` puts them
together: going to a float and coming back changes no sample.
-/

namespace Duplex.Pcm

open Float.Model Float.Model.UnpackedFloat

/-! ### The exact form of a float -/

theorem log2_mul_two_pow {m : Nat} (hm : m ≠ 0) (j : Nat) : (m * 2 ^ j).log2 = m.log2 + j := by
  induction j with
  | zero => simp
  | succ j ih =>
    have h : m * 2 ^ (j + 1) = 2 * (m * 2 ^ j) := by ring
    rw [h, Nat.log2_two_mul (by positivity), ih, Nat.add_assoc]

/-- The float `m * 2 ^ e` with a sign, in the form that has a mantissa of 24 bits. -/
def exactly (s : Sign) (m : Nat) (e : Int) (hm : 0 < m) : UnpackedFloat :=
  .finite s (m * 2 ^ (23 - m.log2)) (e - (23 - m.log2 : Nat)) (by positivity)

theorem log2_le {m : Nat} (hm : 0 < m) (hlt : m < 2 ^ 24) : m.log2 ≤ 23 := by
  have := (Nat.log2_lt hm.ne').mpr hlt
  omega

/-- Halving goes through even mantissas without a remainder. -/
theorem repeat_shiftRightOne (m r : Nat) :
    r.repeat ExtendedMantissa.shiftRightOne ⟨m * 2 ^ r, false, false⟩ = ⟨m, false, false⟩ := by
  induction r generalizing m with
  | zero => simp [Nat.repeat]
  | succ r ih =>
    have h : m * 2 ^ (r + 1) = (m * 2) * 2 ^ r := by ring
    rw [Nat.repeat, h, ih]
    simp [ExtendedMantissa.shiftRightOne]

theorem mantissaBits_binary32 : Format.binary32.mantissaBits = 24 := rfl

theorem targetExponent_eq {m : Nat} {e : Int} (he : -100 ≤ e) :
    Format.binary32.targetExponent (totalExponent m e) = m.log2 + e - 23 := by
  simp only [Format.targetExponent, totalExponent, mantissaBits_binary32, Format.minExponent]
  have : (0 : Int) ≤ m.log2 := Int.natCast_nonneg _
  omega

/-- A mantissa of 24 bits is left as it is. -/
theorem shiftToTargetExponent_of_full {m : Nat} {e : Int} (he : -123 ≤ e)
    (hfull : m.log2 = 23) : shiftToTargetExponent .binary32 m e .exact = (⟨m, false, false⟩, e) := by
  have ht : Format.binary32.targetExponent (totalExponent m e) = e := by
    simp only [Format.targetExponent, totalExponent, mantissaBits_binary32, Format.minExponent, hfull]
    omega
  simp only [shiftToTargetExponent, shiftToExponent, ht]
  simp [ExtendedMantissa.ofMantissaAndAccuracy, HShiftRight.hShiftRight, Nat.repeat]

/-- Once the bits are shifted into place, nothing is left to round. -/
theorem roundWithAccuracy_of_shift (s : Sign) {m n : Nat} {e f : Int} (hn : 0 < n) (hf : -123 ≤ f)
    (hfull : n.log2 = 23)
    (h : shiftToTargetExponent .binary32 m e .exact = (⟨n, false, false⟩, f)) :
    roundWithAccuracy .binary32 s m e .exact = .finite s n f hn := by
  have hsecond : shiftToTargetExponent .binary32
      (ExtendedMantissa.roundedMantissa ⟨n, false, false⟩) f .exact = (⟨n, false, false⟩, f) :=
    shiftToTargetExponent_of_full hf hfull
  unfold roundWithAccuracy
  rw [h]
  dsimp only
  rw [hsecond]
  exact dif_neg hn.ne'

/-- A number of at most 24 significant bits, written with so many zeros behind them that they fill
the mantissa, is rounded to itself. -/
theorem roundWithAccuracy_exactly (s : Sign) {m j : Nat} {e : Int} (hm : 0 < m) (hlt : m < 2 ^ 24)
    (he : -100 ≤ e) (hj : 23 - m.log2 ≤ j) :
    roundWithAccuracy .binary32 s (m * 2 ^ j) e .exact = exactly s m (e + j) hm := by
  have hlog := log2_le hm hlt
  have hfull : (m * 2 ^ (23 - m.log2)).log2 = 23 := by
    rw [log2_mul_two_pow hm.ne']
    omega
  have hzeros : m * 2 ^ j = m * 2 ^ (23 - m.log2) * 2 ^ (j - (23 - m.log2)) := by
    rw [Nat.mul_assoc, ← Nat.pow_add, Nat.add_sub_cancel' hj]
  have hamount : ((m.log2 + j : Nat) + e - 23 - e).toNat = j - (23 - m.log2) := by omega
  have hshift : shiftToTargetExponent .binary32 (m * 2 ^ j) e .exact =
      (⟨m * 2 ^ (23 - m.log2), false, false⟩, e + j - (23 - m.log2 : Nat)) := by
    simp only [shiftToTargetExponent, shiftToExponent]
    rw [targetExponent_eq he, log2_mul_two_pow hm.ne', hamount]
    simp only [HShiftRight.hShiftRight, ExtendedMantissa.ofMantissaAndAccuracy]
    rw [hzeros, repeat_shiftRightOne]
    congr 1
    omega
  exact roundWithAccuracy_of_shift s (by positivity) (by omega) hfull hshift

/-- Rounding keeps a number of at most 24 significant bits. -/
theorem round_exactly (s : Sign) {m : Nat} (j : Nat) {e : Int} (hm : 0 < m) (hlt : m < 2 ^ 24)
    (he : -50 ≤ e) :
    UnpackedFloat.round .binary32 s (m * 2 ^ j) e = exactly s m (e + j) hm := by
  have hlog := log2_le hm hlt
  -- A short mantissa is shifted left before it is rounded, a long one is not.
  have hamount : (e - (((m.log2 + j : Nat) : Int) + e - 23)).toNat = 23 - m.log2 - j := by omega
  have hzeros : m * 2 ^ j * 2 ^ (23 - m.log2 - j) = m * 2 ^ (j + (23 - m.log2 - j)) := by
    rw [Nat.mul_assoc, ← Nat.pow_add]
  have hround : UnpackedFloat.round .binary32 s (m * 2 ^ j) e =
      roundWithAccuracy .binary32 s (m * 2 ^ (j + (23 - m.log2 - j)))
        (e - (23 - m.log2 - j : Nat)) .exact := by
    simp only [UnpackedFloat.round, decreaseExponent]
    rw [targetExponent_eq (by omega), log2_mul_two_pow hm.ne', hamount, Nat.shiftLeft_eq, hzeros]
  rw [hround, roundWithAccuracy_exactly s hm hlt (by omega) (by omega)]
  congr 1
  omega

/-! ### Packing -/

theorem unpackSign_packComponents {spec : Format} (s : Sign) (exponent mantissa) :
    unpackSign (packComponents spec s exponent mantissa) = s.toBitVec := by
  ext i hi
  have hi : i = 0 := by omega
  subst hi
  delta unpackSign
  simp [packComponents, BitVec.getLsbD_eq_getElem, BitVec.getLsbD_append, BitVec.getElem_append]

@[simp] theorem ofBitVec_toBitVec (s : Sign) : Sign.ofBitVec s.toBitVec = s := by cases s <;> rfl

/-- A mantissa of 24 bits is packed without its highest bit. -/
theorem pack_of_full (s : Sign) {m : Nat} {e : Int} (hm : 0 < m) (hfull : m.log2 = 23)
    (hhigh : e ≤ 104) :
    UnpackedFloat.pack .binary32 (.finite s m e hm) =
      packComponents .binary32 s (BitVec.ofNat 8 (e + 150).toNat) (BitVec.ofNat 23 m) := by
  have hbits : m.log2 + 1 = Format.binary32.mantissaBits := by rw [hfull]; rfl
  have hbias : e + (Format.binary32.exponentBias : Nat) +
      (Format.binary32.mantissaBitsWithoutImplicit : Nat) = e + 150 := by
    show e + (127 : Nat) + (23 : Nat) = e + 150
    omega
  have hfits : ¬ 2 ^ Format.binary32.exponentBits ≤ (e + 150).toNat + 1 := by
    show ¬ 2 ^ 8 ≤ (e + 150).toNat + 1
    omega
  delta UnpackedFloat.pack
  dsimp only
  rw [hbias, if_neg hfits, if_pos hbits]

theorem finite_congr {s t : Sign} {m n : Nat} {e f : Int} (hs : s = t) (hmn : m = n) (he : e = f)
    (hm : 0 < m) (hn : 0 < n) : UnpackedFloat.finite s m e hm = .finite t n f hn := by
  subst hs hmn he
  rfl

theorem unpack_pack_of_full (s : Sign) {m : Nat} {e : Int} (hm : 0 < m) (hfull : m.log2 = 23)
    (hlow : -149 ≤ e) (hhigh : e ≤ 104) :
    UnpackedFloat.unpack .binary32 (UnpackedFloat.pack .binary32 (.finite s m e hm)) =
      .finite s m e hm := by
  obtain ⟨hge, hlt⟩ := (Nat.log2_eq_iff hm.ne').mp hfull
  have hexp : (BitVec.ofNat 8 (e + 150).toNat).toNat = (e + 150).toNat := by
    rw [BitVec.toNat_ofNat, Nat.mod_eq_of_lt (by omega)]
  have hones : BitVec.ofNat 8 (e + 150).toNat ≠ -1#8 := by
    intro h
    have := congrArg BitVec.toNat h
    rw [hexp] at this
    simp at this
    omega
  have hzero : BitVec.ofNat 8 (e + 150).toNat ≠ 0#8 := by
    intro h
    have := congrArg BitVec.toNat h
    rw [hexp] at this
    simp at this
    omega
  have hmant : (1#1 ++ BitVec.ofNat 23 m).toNat = m := by
    rw [BitVec.toNat_append, ← Nat.shiftLeft_add_eq_or_of_lt (BitVec.isLt _), Nat.shiftLeft_eq,
      BitVec.toNat_ofNat, BitVec.toNat_ofNat]
    omega
  have hexponent : ((BitVec.ofNat 8 (e + 150).toNat).toNat : Int) -
      (Format.binary32.exponentBias + (23 : Nat)) = e := by
    have hbias : Format.binary32.exponentBias = 127 := rfl
    rw [hexp, hbias]
    omega
  rw [pack_of_full s hm hfull hhigh]
  generalize hb : packComponents .binary32 s (BitVec.ofNat 8 (e + 150).toNat) (BitVec.ofNat 23 m) = b
  have hexp' : unpackExponent b = BitVec.ofNat 8 (e + 150).toNat := by
    rw [← hb, unpackExponent_packComponents]
  have hmant' : unpackMantissa b = BitVec.ofNat 23 m := by
    rw [← hb, unpackMantissa_packComponents]
  have hsign : Sign.ofBitVec (unpackSign b) = s := by
    rw [← hb, unpackSign_packComponents, ofBitVec_toBitVec]
  unfold UnpackedFloat.unpack
  refine (if_neg (hexp' ▸ hones)).trans ((if_neg (hexp' ▸ hzero)).trans ?_)
  exact finite_congr hsign (hmant' ▸ hmant) (hexp' ▸ hexponent) _ hm

/-! ### Floats of known value -/

/-- The float is `m * 2 ^ e` with a sign, and `m` has at most 24 bits. -/
def IsExactly (x : Float32) (s : Sign) (m : Nat) (e : Int) : Prop :=
  ∃ hm : 0 < m, m < 2 ^ 24 ∧ x.toModel = .pack (exactly s m e hm)

namespace IsExactly

variable {x y : Float32} {s : Sign} {m n : Nat} {e : Int}

theorem unpack (h : IsExactly x s m e) (hlow : -100 ≤ e) (hhigh : e ≤ 100) :
    ∃ hm : 0 < m, x.toModel.unpack = exactly s m e hm := by
  obtain ⟨hm, hlt, hx⟩ := h
  have hlog := log2_le hm hlt
  have hfull : (m * 2 ^ (23 - m.log2)).log2 = 23 := by
    rw [log2_mul_two_pow hm.ne']
    omega
  refine ⟨hm, ?_⟩
  rw [hx]
  exact unpack_pack_of_full s (by positivity) hfull (by omega) (by omega)

/-- Multiplying by one changes nothing. -/
theorem mul_one (h : IsExactly x s m e) (hlow : -50 ≤ e) (hhigh : e ≤ 100) :
    IsExactly (x * Float32.ofBits 0x3F800000) s m e := by
  obtain ⟨hm, hx⟩ := h.unpack (by omega) hhigh
  obtain ⟨_, hlt, -⟩ := h
  have hlog := log2_le hm hlt
  have hone : (Float32.ofBits 0x3F800000).toModel.unpack =
      .finite .positive (2 ^ 23) (-23) (by decide) := by rfl
  refine ⟨hm, hlt, ?_⟩
  show Float32.Model.pack (UnpackedFloat.mul .binary32 x.toModel.unpack
    (Float32.ofBits 0x3F800000).toModel.unpack) = _
  have hsign : s * Sign.positive = s := by cases s <;> rfl
  have hmul : m * 2 ^ (23 - m.log2) * 2 ^ 23 = m * 2 ^ (23 - m.log2 + 23) := by
    rw [Nat.mul_assoc, ← Nat.pow_add]
  rw [hx, hone]
  delta exactly UnpackedFloat.mul
  dsimp only
  rw [hsign, hmul, roundWithAccuracy_exactly s hm hlt (by omega) (by omega), exactly]
  exact congrArg Float32.Model.pack (finite_congr rfl rfl (by omega) _ _)

theorem neg (h : IsExactly x s m e) (hlow : -100 ≤ e) (hhigh : e ≤ 100) :
    IsExactly (-x) (-s) m e := by
  obtain ⟨hm, hx⟩ := h.unpack hlow hhigh
  obtain ⟨_, hlt, -⟩ := h
  refine ⟨hm, hlt, ?_⟩
  show Float32.Model.pack x.toModel.unpack.neg = _
  rw [hx]
  rfl

theorem ofNat (hm : 0 < m) (hlt : m < 2 ^ 23) : IsExactly (Float32.ofNat m) .positive m 0 := by
  have hsmall : m < 2 ^ 23 ∧ 0 ≤ 10 := ⟨hlt, by omega⟩
  have hscientific : Float32.ofNat m = m.toUInt64.toFloat32 * Float32.ofBits 0x3F800000 := by
    show Float32.ofScientific m false 0 = _
    rw [Float32.ofScientific, dif_pos hsmall]
    rfl
  have hcast : m.toUInt64.toNat = m := by
    rw [Nat.toUInt64_eq, UInt64.toNat_ofNat']
    omega
  rw [hscientific]
  refine mul_one ⟨hm, by omega, ?_⟩ (by omega) (by omega)
  show Float32.Model.pack (UnpackedFloat.normalize .binary32 (m.toUInt64.toNat : Int) 0 .positive) = _
  have hcmp : compare (m : Int) 0 = .gt := Int.compare_eq_gt.mpr (by omega)
  have hround := round_exactly .positive 0 hm (by omega) (Int.le_of_lt (by decide : (-50 : Int) < 0))
  rw [hcast, UnpackedFloat.normalize, hcmp]
  simp only [Int.toNat_natCast]
  simpa using congrArg Float32.Model.pack hround

theorem ofInt {n : Int} (hn : n ≠ 0) (hlt : n.natAbs < 2 ^ 23) :
    IsExactly (Float32.ofInt n) (if n < 0 then .negative else .positive) n.natAbs 0 := by
  cases n with
  | ofNat n =>
    have hpos : 0 < n := Nat.pos_of_ne_zero (by rintro rfl; exact hn rfl)
    rw [if_neg (show ¬ Int.ofNat n < 0 from Int.not_lt.mpr (Int.natCast_nonneg n))]
    exact ofNat hpos hlt
  | negSucc n =>
    rw [if_pos (Int.negSucc_lt_zero n)]
    have hnat : IsExactly (Float32.ofNat (n + 1)) .positive (n + 1) 0 := ofNat (Nat.succ_pos n) hlt
    exact hnat.neg (by omega) (by omega)

/-- The order of exact floats of one sign is the order of their magnitudes. -/
theorem compare_magnitude {m n : Nat} (hm : 0 < m) (hn : 0 < n) (hmlt : m < 2 ^ 24)
    (hnlt : n < 2 ^ 24) :
    (compare (e - (23 - m.log2 : Nat)) (e - (23 - n.log2 : Nat))).then
      (compare (m * 2 ^ (23 - m.log2)) (n * 2 ^ (23 - n.log2))) = compare m n := by
  have hmlog := log2_le hm hmlt
  have hnlog := log2_le hn hnlt
  obtain ⟨hmge, hmub⟩ := (Nat.log2_eq_iff hm.ne').mp rfl
  obtain ⟨hnge, hnub⟩ := (Nat.log2_eq_iff hn.ne').mp rfl
  rcases Nat.lt_trichotomy m.log2 n.log2 with h | h | h
  · have hlt : m < n :=
      hmub.trans_le ((Nat.pow_le_pow_right (by omega) (by omega)).trans hnge)
    rw [Int.compare_eq_lt.mpr (by omega), Nat.compare_eq_lt.mpr hlt]
    rfl
  · have hpos : 0 < 2 ^ (23 - n.log2) := by positivity
    rw [h, Int.compare_eq_eq.mpr rfl]
    rcases Nat.lt_trichotomy m n with hlt | rfl | hlt
    · rw [Nat.compare_eq_lt.mpr hlt, Nat.compare_eq_lt.mpr (Nat.mul_lt_mul_of_pos_right hlt hpos)]
      rfl
    · simp
    · rw [Nat.compare_eq_gt.mpr hlt, Nat.compare_eq_gt.mpr (Nat.mul_lt_mul_of_pos_right hlt hpos)]
      rfl
  · have hlt : n < m :=
      hnub.trans_le ((Nat.pow_le_pow_right (by omega) (by omega)).trans hmge)
    rw [Int.compare_eq_gt.mpr (by omega), Nat.compare_eq_gt.mpr hlt]
    rfl

theorem lt_iff_compare (x y : Float32) :
    x < y ↔ x.toModel.unpack.compare y.toModel.unpack = some .lt := by
  have hlt : x < y ↔ (decide (x.toModel < y.toModel)) = true := Iff.rfl
  rw [hlt, decide_eq_true_iff]
  exact beq_iff_eq

theorem lt_iff {t : Sign} (hx : IsExactly x s m e) (hy : IsExactly y t n e) (hlow : -100 ≤ e)
    (hhigh : e ≤ 100) : x < y ↔ s.apply m < t.apply n := by
  obtain ⟨hm, hux⟩ := hx.unpack hlow hhigh
  obtain ⟨hn, huy⟩ := hy.unpack hlow hhigh
  obtain ⟨_, hmlt, -⟩ := hx
  obtain ⟨_, hnlt, -⟩ := hy
  rw [lt_iff_compare, hux, huy, exactly, exactly]
  delta UnpackedFloat.compare
  cases s <;> cases t <;>
    simp only [compare_magnitude hm hn hmlt hnlt, Sign.apply, Option.some.injEq,
      Ordering.swap_eq_lt, Nat.compare_eq_lt, Nat.compare_eq_gt, reduceCtorEq, true_iff,
      false_iff] <;>
    omega

theorem negative_iff (h : IsExactly x s m e) (hlow : -100 ≤ e) (hhigh : e ≤ 100) :
    x < 0 ↔ s = .negative := by
  obtain ⟨hm, hx⟩ := h.unpack hlow hhigh
  have hzero : (0 : Float32).toModel.unpack = .zero .positive := by rfl
  rw [lt_iff_compare, hx, hzero, exactly]
  delta UnpackedFloat.compare
  cases s <;> simp

/-- The highest bit is the sign. -/
theorem toBits_shiftRight (h : IsExactly x s m e) (hhigh : e ≤ 100) :
    x.toBits >>> 31 = 1 ↔ s = .negative := by
  obtain ⟨hm, hlt, hx⟩ := h
  have hlog := log2_le hm hlt
  have hfull : (m * 2 ^ (23 - m.log2)).log2 = 23 := by
    rw [log2_mul_two_pow hm.ne']
    omega
  have hbits : x.toBits.toBitVec = packComponents .binary32 s
      (BitVec.ofNat 8 (e - (23 - m.log2 : Nat) + 150).toNat)
      (BitVec.ofNat 23 (m * 2 ^ (23 - m.log2))) := by
    show x.toModel.toBits.toBitVec = _
    rw [hx]
    exact pack_of_full s (by positivity) hfull (by omega)
  have htop : x.toBits.toNat / 2 ^ 31 = s.toBitVec.toNat := by
    rw [← UInt32.toNat_toBitVec, hbits, packComponents, BitVec.toNat_append,
      ← Nat.shiftLeft_add_eq_or_of_lt (BitVec.isLt _), BitVec.toNat_append,
      ← Nat.shiftLeft_add_eq_or_of_lt (BitVec.isLt _), Nat.shiftLeft_eq, Nat.shiftLeft_eq]
    have h8 : (BitVec.ofNat 8 (e - (23 - m.log2 : Nat) + 150).toNat).toNat < 2 ^ 8 := BitVec.isLt _
    have h23 : (BitVec.ofNat 23 (m * 2 ^ (23 - m.log2))).toNat < 2 ^ 23 := BitVec.isLt _
    show ((_ * 2 ^ 8 + _) * 2 ^ 23 + _) / 2 ^ 31 = _
    omega
  rw [← UInt32.toNat_inj, UInt32.toNat_shiftRight, Nat.shiftRight_eq_div_pow]
  show x.toBits.toNat / 2 ^ 31 = 1 ↔ _
  rw [htop]
  cases s <;> simp [Sign.toBitVec]

theorem half : IsExactly 0.5 .positive 1 (-1) := ⟨by decide, by decide, by decide +kernel⟩

theorem normalize_apply (s : Sign) {m : Nat} (e : Int) (hm : 0 < m) :
    UnpackedFloat.normalize .binary32 (s.apply m) e .positive = UnpackedFloat.round .binary32 s m e := by
  cases s with
  | negative =>
    have hcmp : compare (-(m : Int)) 0 = .lt := Int.compare_eq_lt.mpr (by omega)
    simp [UnpackedFloat.normalize, Sign.apply, hcmp]
  | positive =>
    have hcmp : compare (m : Int) 0 = .gt := Int.compare_eq_gt.mpr (by omega)
    simp [UnpackedFloat.normalize, Sign.apply, hcmp]

/-- Adding a half of the same sign to an integer of at most 22 bits is exact. -/
theorem add_half (hx : IsExactly x s m 0) (hy : IsExactly y s 1 (-1)) (hlt : m < 2 ^ 22) :
    IsExactly (x + y) s (2 * m + 1) (-1) := by
  obtain ⟨hm, hux⟩ := hx.unpack (by omega) (by omega)
  obtain ⟨_, huy⟩ := hy.unpack (by omega) (by omega)
  have hlog := log2_le hm (by omega)
  refine ⟨by omega, by omega, ?_⟩
  show Float32.Model.pack (UnpackedFloat.add .binary32 x.toModel.unpack y.toModel.unpack) = _
  have hmin : min (0 - ((23 - m.log2 : Nat) : Int)) (-1 - (23 - Nat.log2 1 : Nat)) = -24 := by
    have : Nat.log2 1 = 0 := by decide
    omega
  have hleft : (0 - ((23 - m.log2 : Nat) : Int) - -24).toNat = 24 - (23 - m.log2) := by omega
  have hright : (-1 - ((23 - Nat.log2 1 : Nat) : Int) - -24).toNat = 0 := by
    have : Nat.log2 1 = 0 := by decide
    omega
  have hscaled : m * 2 ^ (23 - m.log2) * 2 ^ (24 - (23 - m.log2)) = m * 2 ^ 24 := by
    rw [Nat.mul_assoc, ← Nat.pow_add]
    congr 2
    omega
  have hone : 1 * 2 ^ (23 - Nat.log2 1) = 2 ^ 23 := by decide
  have hsum : s.apply (m * 2 ^ 24 : Nat) + s.apply (2 ^ 23 : Nat) =
      s.apply ((2 * m + 1) * 2 ^ 23 : Nat) := by
    cases s <;> simp only [Sign.apply] <;> omega
  rw [hux, huy]
  delta exactly UnpackedFloat.add decreaseExponent
  dsimp only
  rw [hmin, hleft, hright, Nat.shiftLeft_eq, hscaled, hone, Nat.shiftLeft_zero, hsum,
    normalize_apply s (-24) (by omega), round_exactly s 23 (by omega) (by omega) (by omega), exactly]
  rfl

theorem repeat_mantissa (r : Nat) (em : ExtendedMantissa) :
    (r.repeat ExtendedMantissa.shiftRightOne em).mantissa = em.mantissa / 2 ^ r := by
  induction r with
  | zero => simp [Nat.repeat]
  | succ r ih =>
    rw [Nat.repeat, ExtendedMantissa.shiftRightOne]
    simp only [ih]
    rw [Nat.div_div_eq_div_mul, Nat.pow_succ]

theorem roundToInt_positive (m : Nat) {e : Int} (he : e ≤ 0) :
    roundToInt .positive m e = ((m / 2 ^ (-e).toNat : Nat) : Int) := by
  have hleft : (e - 0).toNat = 0 := by omega
  have hright : (0 - (e - ((0 : Nat) : Int))).toNat = (-e).toNat := by omega
  unfold roundToInt
  simp only [decreaseExponent]
  rw [hleft]
  simp only [Nat.shiftLeft_zero, shiftToExponent]
  rw [hright]
  simp only [HShiftRight.hShiftRight, repeat_mantissa, ExtendedMantissa.ofMantissaAndAccuracy,
    Sign.apply]

/-- Cutting off the half behind an integer. -/
theorem toUInt16 (h : IsExactly x .positive (2 * m + 1) (-1)) (hlt : m < 2 ^ 16) :
    x.toUInt16.toNat = m := by
  obtain ⟨hpos, hx⟩ := h.unpack (by omega) (by omega)
  have hlog := log2_le hpos (by omega)
  have hamount : (-(-1 - ((23 - (2 * m + 1).log2 : Nat) : Int))).toNat =
      23 - (2 * m + 1).log2 + 1 := by omega
  have hcut : (2 * m + 1) * 2 ^ (23 - (2 * m + 1).log2) / 2 ^ (23 - (2 * m + 1).log2 + 1) = m := by
    rw [Nat.pow_succ, ← Nat.div_div_eq_div_mul, Nat.mul_div_cancel _ (by positivity)]
    omega
  show (UInt16.ofNatClamp (x.toModel.unpack.toInt 0 (UInt16.size - 1)).toNat).toNat = m
  rw [hx, exactly]
  delta UnpackedFloat.toInt
  dsimp only
  rw [roundToInt_positive _ (by omega), hamount, hcut,
    Int.toNat_natCast, UInt16.ofNatClamp, dif_pos (show m < UInt16.size from hlt)]
  rfl

end IsExactly

/-! ### Round trip -/

open IsExactly

theorem clamp_of_isExactly {x : Float32} {s : Sign} {m : Nat} (h : IsExactly x s m 0)
    (hlow : -32768 ≤ s.apply m) (hhigh : s.apply m ≤ 32767) : clamp x = x := by
  have hbound : IsExactly 32768 .positive 32768 0 := ofNat (by decide) (by decide)
  have hmin : IsExactly (-32768) .negative 32768 0 := hbound.neg (by omega) (by omega)
  have hmax : IsExactly 32767 .positive 32767 0 := ofNat (by decide) (by decide)
  have hnotbelow : ¬ x < -32768 := by
    rw [h.lt_iff hmin (by omega) (by omega)]
    exact Int.not_lt.mpr hlow
  have hnotabove : ¬ 32767 < x := by
    rw [hmax.lt_iff h (by omega) (by omega)]
    exact Int.not_lt.mpr hhigh
  rw [clamp, if_neg hnotbelow, if_neg hnotabove]

theorem signedHalf_of_isExactly {x : Float32} {s : Sign} {m : Nat} (h : IsExactly x s m 0) :
    IsExactly (signedHalf x) s 1 (-1) := by
  have hsign := h.toBits_shiftRight (by omega)
  cases s with
  | negative =>
    rw [signedHalf, if_pos (hsign.mpr rfl)]
    exact half.neg (by omega) (by omega)
  | positive =>
    rw [signedHalf, if_neg (by simp [hsign])]
    exact half

theorem truncate_of_isExactly {x : Float32} {s : Sign} {m : Nat}
    (h : IsExactly x s (2 * m + 1) (-1)) (hlt : m < 2 ^ 16) : truncate x = s.apply m := by
  have hsign := h.negative_iff (by omega) (by omega)
  cases s with
  | negative =>
    rw [truncate, if_pos (hsign.mpr rfl), toUInt16 (h.neg (by omega) (by omega)) hlt]
    rfl
  | positive =>
    rw [truncate, if_neg (by simp [hsign]), toUInt16 h hlt]
    rfl

/-- Going to a float and back changes no sample. -/
@[simp] theorem round_widen (v : Int16) : round (widen v) = v := by
  have hlow : -32768 ≤ v.toInt := Int16.le_toInt v
  have hhigh : v.toInt ≤ 32767 := Int16.toInt_le v
  rcases eq_or_ne v.toInt 0 with h | h
  · have hv : v = 0 := Int16.toInt_inj.mp h
    subst hv
    decide +kernel
  · have hx := IsExactly.ofInt h (by omega)
    have hvalue : (if v.toInt < 0 then Sign.negative else Sign.positive).apply v.toInt.natAbs =
        v.toInt := by
      split <;> simp only [Sign.apply] <;> omega
    rw [round, widen, clamp_of_isExactly hx (by omega) (by omega),
      truncate_of_isExactly (add_half hx (signedHalf_of_isExactly hx) (by omega)) (by omega),
      hvalue, Int16.ofInt_toInt]

end Duplex.Pcm
