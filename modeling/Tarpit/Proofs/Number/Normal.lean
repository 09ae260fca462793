import Mathlib

/-!
# Normal doubles

Doubles above zero with a whole mantissa and an exponent within a range.  Sums
and products of such numbers, and positive whole numbers, are rounded to such
numbers again, with exponents that stay near those of the exact results.  So a
sum never falls below a power of two that one of its parts reaches.
-/

namespace Tarpit.Number

open Float.Model (Format UnpackedFloat totalExponent)
open Float.Model.UnpackedFloat

/-- A positive number with a mantissa of 53 bits and an exponent between two bounds. -/
def InRange (low high : Int) (f : UnpackedFloat) : Prop :=
  ∃ m e h, f = .finite .positive m e h ∧ 2 ^ 52 ≤ m ∧ m < 2 ^ 53 ∧ low ≤ e ∧ e ≤ high

theorem InRange.mono {low high low' high' : Int} {f : UnpackedFloat} (h : InRange low high f)
    (hlow : low' ≤ low) (hhigh : high ≤ high') : InRange low' high' f := by
  obtain ⟨m, e, hm, rfl, hwhole, hfits, hlo, hhi⟩ := h
  exact ⟨m, e, hm, rfl, hwhole, hfits, Int.le_trans hlow hlo, Int.le_trans hhi hhigh⟩

theorem log2_of_whole {m : Nat} (hwhole : 2 ^ 52 ≤ m) (hfits : m < 2 ^ 53) : m.log2 = 52 :=
  (Nat.log2_eq_iff (by omega)).2 ⟨hwhole, hfits⟩

/-! ## Rounding -/

theorem mantissa_shiftRight (em : ExtendedMantissa) (n : Nat) :
    (em >>> n).mantissa = em.mantissa / 2 ^ n := by
  induction n with
  | zero => exact (Nat.div_one em.mantissa).symm
  | succ n ih =>
      show (em >>> n).shiftRightOne.mantissa = em.mantissa / 2 ^ (n + 1)
      rw [Nat.pow_succ, ← Nat.div_div_eq_div_mul, ← ih]
      rfl

theorem roundedMantissa_bounds (em : ExtendedMantissa) :
    em.mantissa ≤ em.roundedMantissa ∧ em.roundedMantissa ≤ em.mantissa + 1 := by
  have hparity := Nat.mod_lt em.mantissa (show 0 < 2 by decide)
  unfold ExtendedMantissa.roundedMantissa Accuracy.roundToNearestEven
  split
  · omega
  · omega
  · omega
  · omega

theorem mantissa_ofMantissaAndAccuracy (m : Nat) (accuracy : Accuracy) :
    (ExtendedMantissa.ofMantissaAndAccuracy m accuracy).mantissa = m := by
  unfold ExtendedMantissa.ofMantissaAndAccuracy
  split
  · rfl
  · rfl
  · rfl
  · rfl

section

variable {m : Nat} {e : Int}

/-- Above the subnormal numbers the exponent follows the leading bit. -/
theorem targetExponent_eq (he : -1074 ≤ e + (m.log2 - 52)) :
    Format.binary64.targetExponent (totalExponent m e) = e + (m.log2 - 52) := by
  simp only [Format.targetExponent, totalExponent, Format.mantissaBits, Format.minExponent]
  omega

/-- The mantissa is cut down to its 53 leading bits. -/
theorem shiftToTargetExponent_eq (accuracy : Accuracy) (hm : 52 ≤ m.log2)
    (he : -1074 ≤ e + (m.log2 - 52)) :
    (shiftToTargetExponent .binary64 m e accuracy).1.mantissa = m / 2 ^ (m.log2 - 52) ∧
      (shiftToTargetExponent .binary64 m e accuracy).2 = e + (m.log2 - 52) := by
  have hamount : (e + ((m.log2 : Int) - 52) - e).toNat = m.log2 - 52 := by omega
  unfold shiftToTargetExponent shiftToExponent
  simp only [targetExponent_eq he, hamount, mantissa_shiftRight, mantissa_ofMantissaAndAccuracy,
    true_and]
  omega

theorem whole_div (hm : 52 ≤ m.log2) :
    2 ^ 52 ≤ m / 2 ^ (m.log2 - 52) ∧ m / 2 ^ (m.log2 - 52) < 2 ^ 53 := by
  have hpos : 0 < 2 ^ (m.log2 - 52) := Nat.two_pow_pos _
  have hne : m ≠ 0 := by
    rintro rfl
    exact absurd hm (by decide)
  constructor
  · rw [Nat.le_div_iff_mul_le hpos, ← Nat.pow_add, Nat.add_sub_cancel' hm]
    exact Nat.log2_self_le hne
  · rw [Nat.div_lt_iff_lt_mul hpos, ← Nat.pow_add, show 53 + (m.log2 - 52) = m.log2 + 1 by omega]
    exact Nat.lt_log2_self

/-- Rounding a mantissa up may carry into one more bit, and then the exponent grows by one. -/
theorem inRange_roundWithAccuracy (accuracy : Accuracy) (hm : 52 ≤ m.log2)
    (he : -1074 ≤ e + (m.log2 - 52)) :
    InRange (e + (m.log2 - 52)) (e + (m.log2 - 51))
      (roundWithAccuracy .binary64 .positive m e accuracy) := by
  obtain ⟨hmantissa, hexponent⟩ := shiftToTargetExponent_eq accuracy hm he
  obtain ⟨hwhole, hfits⟩ := whole_div hm
  unfold roundWithAccuracy
  cases hfirst : shiftToTargetExponent .binary64 m e accuracy with
  | mk em e₁ =>
      obtain ⟨hleast, hmost⟩ := roundedMantissa_bounds em
      rw [hfirst] at hmantissa hexponent
      simp only at hmantissa hexponent
      have hlow : 2 ^ 52 ≤ em.roundedMantissa := by omega
      have hlog : 52 ≤ em.roundedMantissa.log2 := (Nat.le_log2 (by omega)).2 hlow
      -- 2 ^ 53 itself can come out of the rounding, so the mantissa is shifted a second time.
      have hcarry : em.roundedMantissa.log2 < 54 := (Nat.log2_lt (by omega)).2 (by omega)
      obtain ⟨hmantissa', hexponent'⟩ :=
        shiftToTargetExponent_eq (m := em.roundedMantissa) (e := e₁) .exact hlog (by omega)
      obtain ⟨hwhole', hfits'⟩ := whole_div hlog
      rw [← hmantissa'] at hwhole' hfits'
      simp only
      rw [dif_neg (by omega)]
      exact ⟨_, _, _, rfl, hwhole', hfits', by omega, by omega⟩

theorem log2_shiftLeft (hm : 0 < m) (n : Nat) : (m <<< n).log2 = m.log2 + n := by
  have hne : m <<< n ≠ 0 := Nat.ne_of_gt (Nat.shiftLeft_pos_iff.2 hm)
  rw [Nat.log2_eq_iff hne, Nat.shiftLeft_eq, Nat.pow_add, Nat.add_right_comm, Nat.pow_add]
  exact ⟨Nat.mul_le_mul_right _ (Nat.log2_self_le (by omega)),
    Nat.mul_lt_mul_of_pos_right Nat.lt_log2_self (Nat.two_pow_pos n)⟩

theorem inRange_round (hm : 0 < m) (he : -1074 ≤ e + (m.log2 - 52)) :
    InRange (e + (m.log2 - 52)) (e + (m.log2 - 51))
      (UnpackedFloat.round .binary64 .positive m e) := by
  have hamount : (e - (e + ((m.log2 : Int) - 52))).toNat = 52 - m.log2 := by omega
  have hlog := log2_shiftLeft hm (52 - m.log2)
  unfold UnpackedFloat.round decreaseExponent
  simp only [targetExponent_eq he, hamount]
  exact (inRange_roundWithAccuracy .exact (by omega) (by omega)).mono (by omega) (by omega)

theorem inRange_normalize (hm : 0 < m) (he : -1074 ≤ e + (m.log2 - 52)) (zeroSign : Sign) :
    InRange (e + (m.log2 - 52)) (e + (m.log2 - 51))
      (UnpackedFloat.normalize .binary64 (m : Int) e zeroSign) := by
  have hpos : compare (m : Int) 0 = .gt := by
    rw [Int.compare_eq_gt]
    exact Int.natCast_pos.2 hm
  unfold UnpackedFloat.normalize
  rw [hpos]
  exact inRange_round hm he

end

/-! ## Operations -/

theorem inRange_ofNat {n : Nat} (hpos : 0 < n) (hfits : n < 2 ^ 53) :
    InRange (-52) 1 (ofNat .binary64 n) := by
  have hlog : n.log2 < 53 := (Nat.log2_lt (by omega)).2 hfits
  exact (inRange_normalize hpos (by omega) .positive).mono (by omega) (by omega)

section

variable {low high low' high' : Int} {f g : UnpackedFloat}

theorem InRange.mul (hf : InRange low high f) (hg : InRange low' high' g)
    (hleast : -1126 ≤ low + low') :
    InRange (low + low' + 52) (high + high' + 54) (mul .binary64 f g) := by
  obtain ⟨m, e, hm, rfl, hwhole, hfits, hlo, hhi⟩ := hf
  obtain ⟨m', e', hm', rfl, hwhole', hfits', hlo', hhi'⟩ := hg
  have hne : m * m' ≠ 0 := Nat.ne_of_gt (Nat.mul_pos hm hm')
  have hlow : 104 ≤ (m * m').log2 := by
    rw [Nat.le_log2 hne, show 104 = 52 + 52 from rfl, Nat.pow_add]
    exact Nat.mul_le_mul hwhole hwhole'
  have hhigh : (m * m').log2 < 106 := by
    rw [Nat.log2_lt hne, show 106 = 53 + 53 from rfl, Nat.pow_add]
    exact Nat.mul_lt_mul'' hfits hfits'
  exact (inRange_roundWithAccuracy .exact (by omega) (by omega)).mono (by omega) (by omega)

/-- A sum is not smaller than its first part. -/
theorem InRange.add (hf : InRange low high f) (hg : InRange low' high' g) (hleast : -1074 ≤ low) :
    InRange low (max high high' + 2) (add .binary64 f g) := by
  obtain ⟨m, e, hm, rfl, hwhole, hfits, hlo, hhi⟩ := hf
  obtain ⟨m', e', hm', rfl, hwhole', hfits', hlo', hhi'⟩ := hg
  let k := (e - min e e').toNat
  let k' := (e' - min e e').toNat
  have hlog : (m <<< k).log2 = 52 + k := by
    rw [log2_shiftLeft hm, log2_of_whole hwhole hfits]
  have hlog' : (m' <<< k').log2 = 52 + k' := by
    rw [log2_shiftLeft hm', log2_of_whole hwhole' hfits']
  have hpos : 0 < m <<< k := Nat.shiftLeft_pos_iff.2 hm
  have hpos' : 0 < m' <<< k' := Nat.shiftLeft_pos_iff.2 hm'
  have hsum : 0 < m <<< k + m' <<< k' := by omega
  have hlow : 52 + k ≤ (m <<< k + m' <<< k').log2 := by
    rw [← hlog, Nat.le_log2 (by omega)]
    exact Nat.le_trans (Nat.log2_self_le (by omega)) (Nat.le_add_right _ _)
  have hhigh : (m <<< k + m' <<< k').log2 < 54 + max k k' := by
    have hfirst : m <<< k < 2 ^ (53 + max k k') :=
      (Nat.log2_lt (by omega)).1 (by omega)
    have hsecond : m' <<< k' < 2 ^ (53 + max k k') :=
      (Nat.log2_lt (by omega)).1 (by omega)
    have hdouble : 2 ^ (54 + max k k') = 2 ^ (53 + max k k') * 2 := by
      rw [← Nat.pow_succ, Nat.succ_eq_add_one, Nat.add_right_comm]
    rw [Nat.log2_lt (by omega)]
    omega
  -- Both mantissas were brought to the lower exponent, so the leading bit of the sum is as high
  -- as the higher of the two, or one above.
  have hround := inRange_normalize (e := min e e') hsum (by omega) .positive
  exact hround.mono (by omega) (by omega)

end

/-! ## Bits -/

theorem ofNat_eleven_ne {b n : Nat} (hb : b < 2 ^ 11) (hn : n < 2 ^ 11) (hne : b ≠ n) :
    BitVec.ofNat 11 b ≠ BitVec.ofNat 11 n := by
  intro heq
  have hnat := congrArg BitVec.toNat heq
  rw [BitVec.toNat_ofNat, BitVec.toNat_ofNat, Nat.mod_eq_of_lt hb, Nat.mod_eq_of_lt hn] at hnat
  exact hne hnat

/-- The bits of a number in the range of normal numbers are those of no other number. -/
theorem unpack_pack {m : Nat} {e : Int} {h : 0 < m} (hwhole : 2 ^ 52 ≤ m) (hfits : m < 2 ^ 53)
    (hlow : -1074 ≤ e) (hhigh : e ≤ 971) :
    unpack .binary64 (pack .binary64 (.finite .positive m e h)) = .finite .positive m e h := by
  obtain ⟨b, hb⟩ : ∃ b : Nat, (b : Int) = e + 1075 := ⟨(e + 1075).toNat, by omega⟩
  have hbiased : (e + Format.binary64.exponentBias +
      Format.binary64.mantissaBitsWithoutImplicit).toNat = b := by
    show (e + (1023 : Nat) + (52 : Nat)).toNat = b
    omega
  have hpack : pack .binary64 (.finite .positive m e h) =
      packComponents .binary64 .positive (BitVec.ofNat 11 b) (BitVec.ofNat 52 m) := by
    simp only [pack, hbiased, log2_of_whole hwhole hfits]
    rw [if_neg (show ¬ 2 ^ 11 ≤ b + 1 by omega)]
    rfl
  have hinfinite : BitVec.ofNat 11 b ≠ -1#11 :=
    ofNat_eleven_ne (n := 2047) (by omega) (by omega) (by omega)
  have hsmall : BitVec.ofNat 11 b ≠ 0#11 := ofNat_eleven_ne (by omega) (by omega) (by omega)
  have hexponent : (BitVec.ofNat 11 b).toNat = b := Nat.mod_eq_of_lt (by omega)
  have hmantissa : (1#1 ++ BitVec.ofNat 52 m).toNat = m := by
    rw [BitVec.toNat_append, ← Nat.shiftLeft_add_eq_or_of_lt (BitVec.isLt _)]
    -- The leading bit of the mantissa is not stored.
    show 1 <<< 52 + m % 2 ^ 52 = m
    omega
  rw [hpack, unpack]
  simp only [unpackMantissa_packComponents, unpackExponent_packComponents,
    unpackSign_packComponents]
  rw [if_neg hinfinite, if_neg hsmall]
  congr 1
  rw [hexponent]
  show (b : Int) - ((1023 : Nat) + (52 : Nat)) = e
  omega

/-! ## Doubles -/

/-- A double is what its bits are read as. -/
theorem ofModel_pack_unpack (x : Float) : .ofModel (.pack x.toModel.unpack) = x :=
  Float.toBits_inj.1 (UInt64.toBitVec_inj.1 (pack_unpack_of_valid x.toModel.valid))

/-- A positive double with a mantissa of 53 bits and an exponent between two bounds. -/
def Normal (low high : Int) (x : Float) : Prop :=
  ∃ f, InRange low high f ∧ x = .ofModel (.pack f)

section

variable {low high low' high' : Int} {x y : Float}

theorem Normal.unpack (h : Normal low high x) (hlow : -1074 ≤ low) (hhigh : high ≤ 971) :
    InRange low high x.toModel.unpack := by
  obtain ⟨f, hf, rfl⟩ := h
  have hread : (Float.Model.pack f).unpack = f := by
    obtain ⟨m, e, hm, rfl, hwhole, hfits, hlo, hhi⟩ := hf
    exact unpack_pack hwhole hfits (Int.le_trans hlow hlo) (Int.le_trans hhi hhigh)
  rw [hread]
  exact hf

theorem Normal.mul (hx : Normal low high x) (hy : Normal low' high' y)
    (hxlow : -1074 ≤ low) (hxhigh : high ≤ 971) (hylow : -1074 ≤ low') (hyhigh : high' ≤ 971)
    (hleast : -1126 ≤ low + low') : Normal (low + low' + 52) (high + high' + 54) (x * y) :=
  ⟨_, (hx.unpack hxlow hxhigh).mul (hy.unpack hylow hyhigh) hleast, rfl⟩

theorem Normal.add (hx : Normal low high x) (hy : Normal low' high' y)
    (hxlow : -1074 ≤ low) (hxhigh : high ≤ 971) (hylow : -1074 ≤ low') (hyhigh : high' ≤ 971) :
    Normal low (max high high' + 2) (x + y) :=
  ⟨_, (hx.unpack hxlow hxhigh).add (hy.unpack hylow hyhigh) hxlow, rfl⟩

theorem zero_eq : (0 : Float) = .ofModel (.pack (.zero .positive)) := by
  decide +kernel

theorem one_eq : (1 : Float) = .ofModel (.pack (.finite .positive (2 ^ 52) (-52) (by decide))) := by
  decide +kernel

theorem normal_one : Normal (-52) (-52) 1 :=
  ⟨_, ⟨2 ^ 52, -52, by decide, rfl, by decide, by decide, by decide, by decide⟩, one_eq⟩

theorem Normal.add_zero (h : Normal low high x) (hlow : -1074 ≤ low) (hhigh : high ≤ 971) :
    x + 0 = x := by
  obtain ⟨m, e, hm, hx, -⟩ := h.unpack hlow hhigh
  have hsum : x + 0 =
      .ofModel (.pack (UnpackedFloat.add .binary64 x.toModel.unpack (.zero .positive))) := rfl
  have hkept : UnpackedFloat.add .binary64 (.finite .positive m e hm) (.zero .positive) =
      .finite .positive m e hm := rfl
  rw [hsum, hx, hkept, ← hx]
  exact ofModel_pack_unpack x

theorem Normal.one_le (h : Normal low high x) (hlow : -52 ≤ low) (hhigh : high ≤ 971) : 1 ≤ x := by
  obtain ⟨m, e, hm, hx, hwhole, -, hlo, -⟩ := h.unpack (by omega) hhigh
  have hcompare : (UnpackedFloat.le (.finite .positive (2 ^ 52) (-52) (by decide))
      (.finite .positive m e hm)) = true := by
    simp only [UnpackedFloat.le, UnpackedFloat.compare, Option.any_some]
    rcases Int.lt_or_eq_of_le (Int.le_trans hlow hlo) with hbigger | hsame
    · rw [Int.compare_eq_lt.2 hbigger]
      rfl
    · rw [← hsame, Int.compare_eq_eq.2 rfl]
      exact Nat.isLE_compare.2 hwhole
  have hmodel : (1 : Float).toModel ≤ x.toModel := by
    show ((1 : Float).toModel.unpack.le x.toModel.unpack) = true
    rw [hx]
    exact hcompare
  exact decide_eq_true hmodel

/-- A finite double above zero is read as a positive mantissa and an exponent. -/
theorem unpack_of_pos (hfinite : x.isFinite = true) (hpos : 0 < x) :
    ∃ m e h, x.toModel.unpack = .finite .positive m e h := by
  have hstatus : x.toModel.unpack.isFinite = true := hfinite
  have hless : (UnpackedFloat.zero .positive).lt x.toModel.unpack = true := by
    have hzero : (0 : Float).toModel.unpack = .zero .positive := rfl
    rw [← hzero]
    exact of_decide_eq_true hpos
  cases hx : x.toModel.unpack with
  | infinity sign =>
      rw [hx] at hstatus
      cases hstatus
  | notANumber =>
      rw [hx] at hstatus
      cases hstatus
  | zero sign =>
      rw [hx] at hless
      cases hless
  | finite sign m e hm =>
      cases sign with
      | positive => exact ⟨m, e, hm, rfl⟩
      | negative =>
          rw [hx] at hless
          cases hless

theorem zero_mul_of_pos (hfinite : x.isFinite = true) (hpos : 0 < x) : 0 * x = 0 := by
  obtain ⟨m, e, hm, hx⟩ := unpack_of_pos hfinite hpos
  have hproduct : 0 * x = .ofModel (.pack (mul .binary64 (.zero .positive) x.toModel.unpack)) := rfl
  rw [hproduct, hx]
  exact zero_eq.symm

end

/-- A whole number of at least one and at most 53 bits is a normal double of at least one. -/
theorem normal_ofNat {n : Nat} (hpos : 0 < n) (hfits : n < 2 ^ 53) : Normal (-52) 3 n.toFloat := by
  have hword : n.toUInt64.toNat = n := Nat.mod_eq_of_lt (by omega)
  have hmodel : Normal (-52) 1 n.toUInt64.toFloat := by
    refine ⟨ofNat .binary64 n.toUInt64.toNat, ?_, rfl⟩
    rw [hword]
    exact inRange_ofNat hpos hfits
  have hfloat : n.toFloat = n.toUInt64.toFloat * 1 := by
    show Float.ofScientific n false 0 = n.toUInt64.toFloat * 1
    rw [Float.ofScientific, dif_pos ⟨hfits, by decide⟩]
    have hten : Float.exactlyRepresentablePowersOfTen[0] = 1 := by decide +kernel
    exact congrArg (n.toUInt64.toFloat * ·) hten
  rw [hfloat]
  exact hmodel.mul normal_one (by decide) (by decide) (by decide) (by decide) (by decide)

end Tarpit.Number
