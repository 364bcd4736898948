import Pureflow.Lib.F64
import Pureflow.Lib.Rounding

/-!
Integers as doubles: the conversion rounds to 53 significant bits, and two converted integers
compare as the rounded integers do.

An unpacked double stands for an integer if it is that integer in canonical form: zero, or a
mantissa of exactly 53 bits.
-/

namespace Pureflow.Lib.Doubles

open Float.Model Float.Model.UnpackedFloat Pureflow.Lib.Rounding

/-- The double is this integer. The exponent of a double that is an integer is at least -52, so
the integer is scaled by `2 ^ 52`. -/
def StandsFor : UnpackedFloat → ℤ → Prop
  | .zero _, z => z = 0
  | .finite s m e _, z => 2 ^ 52 ≤ m ∧ m < 2 ^ 53 ∧ -52 ≤ e ∧
      2 ^ 52 * z = s.apply (m * 2 ^ (e + 52).toNat : ℕ)
  | _, _ => False

section Compare

lemma compare_scaled {m m' a a' : ℕ} (hm : 2 ^ 52 ≤ m) (hm53 : m < 2 ^ 53) (hm' : 2 ^ 52 ≤ m')
    (hm53' : m' < 2 ^ 53) :
    (compare a a').then (compare m m') = compare (m * 2 ^ a) (m' * 2 ^ a') := by
  -- one more in the exponent outweighs every mantissa
  have hless {m m' a a' : ℕ} (hm : m < 2 ^ 53) (hm' : 2 ^ 52 ≤ m') (ha : a < a') :
      m * 2 ^ a < m' * 2 ^ a' := by
    calc m * 2 ^ a < 2 ^ 53 * 2 ^ a := Nat.mul_lt_mul_of_pos_right hm (Nat.two_pow_pos a)
      _ = 2 ^ 52 * 2 ^ (a + 1) := by ring
      _ ≤ 2 ^ 52 * 2 ^ a' := Nat.mul_le_mul_left _ (Nat.pow_le_pow_right Nat.two_pos ha)
      _ ≤ m' * 2 ^ a' := Nat.mul_le_mul_right _ hm'
  rcases lt_trichotomy a a' with ha | rfl | ha
  · rw [compare_lt_iff_lt.mpr ha, compare_lt_iff_lt.mpr (hless hm53 hm' ha)]
    rfl
  · rw [compare_eq_iff_eq.mpr rfl, Ordering.eq_then]
    have hpos := Nat.two_pow_pos a
    rcases lt_trichotomy m m' with h | rfl | h
    · rw [compare_lt_iff_lt.mpr h, compare_lt_iff_lt.mpr (Nat.mul_lt_mul_of_pos_right h hpos)]
    · rw [compare_eq_iff_eq.mpr rfl, compare_eq_iff_eq.mpr rfl]
    · rw [compare_gt_iff_gt.mpr h, compare_gt_iff_gt.mpr (Nat.mul_lt_mul_of_pos_right h hpos)]
  · rw [compare_gt_iff_gt.mpr ha, compare_gt_iff_gt.mpr (hless hm53' hm ha)]
    rfl

lemma compare_congr {α β : Type*} [LinearOrder α] [LinearOrder β] {a b : α} {c d : β}
    (hlt : a < b ↔ c < d) (hgt : b < a ↔ d < c) : compare a b = compare c d := by
  rcases lt_trichotomy a b with h | rfl | h
  · rw [compare_lt_iff_lt.mpr h, compare_lt_iff_lt.mpr (hlt.mp h)]
  · have hcd : c = d := le_antisymm (not_lt.mp (hgt.not.mp (lt_irrefl a)))
      (not_lt.mp (hlt.not.mp (lt_irrefl a)))
    rw [compare_eq_iff_eq.mpr rfl, compare_eq_iff_eq.mpr hcd]
  · rw [compare_gt_iff_gt.mpr h, compare_gt_iff_gt.mpr (hgt.mp h)]

lemma compare_magnitudes {m m' : ℕ} {e e' z w : ℤ} (hm : 2 ^ 52 ≤ m) (hm53 : m < 2 ^ 53)
    (he : -52 ≤ e) (hz : 2 ^ 52 * z = (m * 2 ^ (e + 52).toNat : ℕ)) (hm' : 2 ^ 52 ≤ m')
    (hm53' : m' < 2 ^ 53) (he' : -52 ≤ e') (hw : 2 ^ 52 * w = (m' * 2 ^ (e' + 52).toNat : ℕ)) :
    (compare e e').then (compare m m') = compare z w := by
  have hexponents : compare e e' = compare (e + 52).toNat (e' + 52).toNat :=
    compare_congr (by omega) (by omega)
  rw [hexponents, compare_scaled hm hm53 hm' hm53']
  exact compare_congr (by omega) (by omega)

lemma StandsFor.pos {m : ℕ} {e z : ℤ} {h : 0 < m} (hz : StandsFor (.finite .positive m e h) z) :
    0 < z := by
  obtain ⟨-, -, -, hvalue⟩ := hz
  have hscaled : 0 < m * 2 ^ (e + 52).toNat := Nat.mul_pos h (Nat.two_pow_pos _)
  simp only [Sign.apply] at hvalue
  omega

lemma StandsFor.neg {m : ℕ} {e z : ℤ} {h : 0 < m} (hz : StandsFor (.finite .negative m e h) z) :
    z < 0 := by
  obtain ⟨-, -, -, hvalue⟩ := hz
  have hscaled : 0 < m * 2 ^ (e + 52).toNat := Nat.mul_pos h (Nat.two_pow_pos _)
  simp only [Sign.apply] at hvalue
  omega

/-- **Doubles compare as the integers they stand for.** -/
lemma compare_standsFor {u v : UnpackedFloat} {z w : ℤ} (hu : StandsFor u z)
    (hv : StandsFor v w) : u.compare v = some (compare z w) := by
  cases u with
  | zero s =>
    obtain rfl : z = 0 := hu
    cases v with
    | zero s' =>
      obtain rfl : w = 0 := hv
      rfl
    | finite s' m' e' h' =>
      cases s' with
      | negative => exact congrArg some (compare_gt_iff_gt.mpr hv.neg).symm
      | positive => exact congrArg some (compare_lt_iff_lt.mpr hv.pos).symm
    | _ => cases hv
  | finite s m e h =>
    cases v with
    | zero s' =>
      obtain rfl : w = 0 := hv
      cases s with
      | negative => exact congrArg some (compare_lt_iff_lt.mpr hu.neg).symm
      | positive => exact congrArg some (compare_gt_iff_gt.mpr hu.pos).symm
    | finite s' m' e' h' =>
      cases s with
      | negative =>
        cases s' with
        | negative =>
          obtain ⟨hm, hm53, he, hz⟩ := hu
          obtain ⟨hm', hm53', he', hw⟩ := hv
          simp only [Sign.apply] at hz hw
          have hmagnitudes := compare_magnitudes (z := -z) (w := -w) hm hm53 he (by omega) hm' hm53'
            he' (by omega)
          change some ((compare e e').then (compare m m')).swap = some (compare z w)
          have hswap : compare (-z) (-w) = compare w z := compare_congr neg_lt_neg_iff neg_lt_neg_iff
          rw [hmagnitudes, hswap, ← Std.OrientedOrd.eq_swap]
        | positive =>
          have hlt : z < w := hu.neg.trans hv.pos
          exact congrArg some (compare_lt_iff_lt.mpr hlt).symm
      | positive =>
        cases s' with
        | negative =>
          have hlt : w < z := hv.neg.trans hu.pos
          exact congrArg some (compare_gt_iff_gt.mpr hlt).symm
        | positive =>
          obtain ⟨hm, hm53, he, hz⟩ := hu
          obtain ⟨hm', hm53', he', hw⟩ := hv
          exact congrArg some (compare_magnitudes hm hm53 he hz hm' hm53' he' hw)
    | _ => cases hv
  | _ => cases hu

end Compare

section Shift

/-- What the residual bits of a shifted mantissa say about the bits shifted out. -/
structure Shifted (n s : ℕ) (em : ExtendedMantissa) : Prop where
  mantissa : em.mantissa = n / 2 ^ s
  roundBit : em.roundBit = true ↔ 2 ^ s ≤ 2 * (n % 2 ^ s)
  stickyBit : em.stickyBit = true ↔ 2 * (n % 2 ^ s) % 2 ^ s ≠ 0

lemma shifted (n s : ℕ) : Shifted n s ((⟨n, false, false⟩ : ExtendedMantissa) >>> s) := by
  induction s with
  | zero => exact ⟨by simp [HShiftRight.hShiftRight, Nat.repeat], by simp [HShiftRight.hShiftRight,
      Nat.repeat, Nat.mod_one], by simp [HShiftRight.hShiftRight, Nat.repeat, Nat.mod_one]⟩
  | succ s ih =>
    have hstep : (⟨n, false, false⟩ : ExtendedMantissa) >>> (s + 1) =
        ((⟨n, false, false⟩ : ExtendedMantissa) >>> s).shiftRightOne := rfl
    have hpos := Nat.two_pow_pos s
    have hrem := Nat.mod_lt n hpos
    have hparity := Nat.mod_lt (n / 2 ^ s) Nat.two_pos
    -- the remainder grows by the bit shifted out
    have hsplit : n % 2 ^ (s + 1) = n % 2 ^ s + 2 ^ s * (n / 2 ^ s % 2) := Nat.mod_pow_succ
    rw [hstep]
    generalize ((⟨n, false, false⟩ : ExtendedMantissa) >>> s) = em at ih
    obtain ⟨m, r, t⟩ := em
    obtain ⟨rfl, hround, hsticky⟩ := ih
    simp only [ExtendedMantissa.shiftRightOne]
    dsimp only at hround hsticky
    have hnonzero : (r || t) = true ↔ n % 2 ^ s ≠ 0 := by
      rw [Bool.or_eq_true, hround, hsticky]
      by_cases hhalf : 2 ^ s ≤ 2 * (n % 2 ^ s)
      · have : n % 2 ^ s ≠ 0 := by omega
        simp [hhalf, this]
      · rw [Nat.mod_eq_of_lt (show 2 * (n % 2 ^ s) < 2 ^ s by omega)]
        omega
    refine ⟨?_, ?_, ?_⟩
    · rw [Nat.div_div_eq_div_mul, pow_succ]
    · rw [hsplit, bne_iff_ne, pow_succ]
      obtain hbit | hbit : n / 2 ^ s % 2 = 0 ∨ n / 2 ^ s % 2 = 1 := by omega
      · rw [hbit]
        omega
      · rw [hbit]
        omega
    · have hdouble : 2 * (n % 2 ^ (s + 1)) % 2 ^ (s + 1) = 2 * (n % 2 ^ s) := by
        rw [pow_succ', Nat.mul_mod_mul_left, ← pow_succ', hsplit, Nat.add_mul_mod_self_left,
          Nat.mod_mod]
      rw [hnonzero, hdouble]
      omega

lemma roundedMantissa_shift (n s : ℕ) :
    ((⟨n, false, false⟩ : ExtendedMantissa) >>> s).roundedMantissa = halfEven n s := by
  have hshifted := shifted n s
  have hrem := Nat.mod_lt n (Nat.two_pow_pos s)
  generalize (⟨n, false, false⟩ : ExtendedMantissa) >>> s = em at hshifted
  obtain ⟨m, r, t⟩ := em
  obtain ⟨rfl, hround, hsticky⟩ := hshifted
  dsimp only at hround hsticky
  unfold halfEven
  dsimp only
  -- either the doubled remainder is below the unit, or it is the unit and the rest
  rcases Nat.lt_or_ge (2 * (n % 2 ^ s)) (2 ^ s) with hlow | hhigh
  · obtain rfl : r = false := by
      rw [← Bool.not_eq_true, hround]
      omega
    rw [if_pos hlow]
    cases t <;> rfl
  · obtain rfl : r = true := hround.mpr hhigh
    have hrest : 2 * (n % 2 ^ s) % 2 ^ s = 2 * (n % 2 ^ s) - 2 ^ s := by
      rw [Nat.mod_eq_sub_mod hhigh, Nat.mod_eq_of_lt (by omega)]
    rw [hrest] at hsticky
    rw [if_neg (not_lt.mpr hhigh)]
    cases t with
    | false =>
      have hzero : ¬ 2 * (n % 2 ^ s) - 2 ^ s ≠ 0 := hsticky.not.mp Bool.false_ne_true
      rw [if_pos (by omega)]
      rfl
    | true =>
      have hne : 2 * (n % 2 ^ s) - 2 ^ s ≠ 0 := hsticky.mp rfl
      rw [if_neg (by omega)]
      rfl

lemma roundedMantissa_exact (m : ℕ) :
    (⟨m, false, false⟩ : ExtendedMantissa).roundedMantissa = m := rfl

lemma shiftToTarget_canonical {m : ℕ} {e : ℤ} (hm : 2 ^ 52 ≤ m) (hm53 : m < 2 ^ 53)
    (he : -52 ≤ e) : shiftToTargetExponent Format.binary64 m e .exact = (⟨m, false, false⟩, e) := by
  have hlog : m.log2 = 52 := (Nat.log2_eq_iff (by omega)).mpr ⟨hm, hm53⟩
  have htarget : Format.binary64.targetExponent (totalExponent m e) = e := by
    simp only [Format.targetExponent, totalExponent, hlog, Format.mantissaBits, Format.minExponent]
    norm_num
    omega
  simp [shiftToTargetExponent, shiftToExponent, htarget, HShiftRight.hShiftRight, Nat.repeat,
    ExtendedMantissa.ofMantissaAndAccuracy]

lemma shiftToTarget_overflow {e : ℤ} (he : -52 ≤ e) :
    shiftToTargetExponent Format.binary64 (2 ^ 53) e .exact =
      (⟨2 ^ 52, false, false⟩, e + 1) := by
  have htarget : Format.binary64.targetExponent (totalExponent (2 ^ 53) e) = e + 1 := by
    simp only [Format.targetExponent, totalExponent, Nat.log2_two_pow, Format.mantissaBits,
      Format.minExponent]
    norm_num
    omega
  unfold shiftToTargetExponent
  rw [htarget]
  simp [shiftToExponent, HShiftRight.hShiftRight, Nat.repeat,
    ExtendedMantissa.ofMantissaAndAccuracy, ExtendedMantissa.shiftRightOne]

/-- A shift that leaves 53 bits, or one bit too many, before the last normalization. -/
lemma roundWithAccuracy_of_shift (sign : Sign) {m r : ℕ} {e e' : ℤ} {em : ExtendedMantissa}
    (hshift : shiftToTargetExponent Format.binary64 m e .exact = (em, e'))
    (hr : em.roundedMantissa = r) (hlow : 2 ^ 52 ≤ r) (hhigh : r ≤ 2 ^ 53) (he : -52 ≤ e') :
    ∃ m' e'' h, roundWithAccuracy Format.binary64 sign m e .exact = .finite sign m' e'' h ∧
      2 ^ 52 ≤ m' ∧ m' < 2 ^ 53 ∧ e' ≤ e'' ∧ e'' ≤ e' + 1 ∧
      r * 2 ^ (e' + 52).toNat = m' * 2 ^ (e'' + 52).toNat := by
  subst hr
  unfold roundWithAccuracy
  rw [hshift]
  dsimp only
  rcases hhigh.lt_or_eq with hlt | heq
  · rw [shiftToTarget_canonical hlow hlt he]
    dsimp only
    rw [dif_neg (by omega)]
    exact ⟨_, _, _, rfl, hlow, hlt, le_rfl, by omega, rfl⟩
  · rw [heq, shiftToTarget_overflow he]
    dsimp only
    rw [dif_neg (by norm_num)]
    refine ⟨_, _, _, rfl, le_rfl, by norm_num, by omega, le_rfl, ?_⟩
    have hexponent : (e' + 1 + 52).toNat = (e' + 52).toNat + 1 := by omega
    rw [hexponent]
    ring

end Shift

section Round

/-- **Rounding a natural number** leaves a canonical mantissa for the nearest number of 53 bits. -/
lemma round_nat (sign : Sign) {n : ℕ} (hn : 0 < n) (hlt : n < 2 ^ 64) :
    ∃ m e h, UnpackedFloat.round Format.binary64 sign n 0 = .finite sign m e h ∧
      2 ^ 52 ≤ m ∧ m < 2 ^ 53 ∧ -52 ≤ e ∧ e ≤ 12 ∧
      2 ^ 52 * nearestNat 53 n = m * 2 ^ (e + 52).toNat := by
  have hlog : n.log2 < 64 := (Nat.log2_lt hn.ne').mpr hlt
  have hlow : 2 ^ n.log2 ≤ n := Nat.log2_self_le hn.ne'
  have hhigh : n < 2 ^ (n.log2 + 1) := Nat.lt_log2_self
  have htarget : Format.binary64.targetExponent (totalExponent n 0) = (n.log2 : ℤ) - 52 := by
    simp only [Format.targetExponent, totalExponent, Format.mantissaBits, Format.minExponent]
    norm_num
    omega
  unfold UnpackedFloat.round decreaseExponent
  dsimp only
  rw [htarget]
  rcases Nat.lt_or_ge 52 n.log2 with hwide | hnarrow
  · -- more than 53 bits: the mantissa is shifted and rounded
    obtain ⟨s, hs⟩ : ∃ s, n.log2 = 52 + s := Nat.exists_eq_add_of_le hwide.le
    have hleft : (0 - ((n.log2 : ℤ) - 52)).toNat = 0 := by omega
    have hexcess : excess 53 n = s := by
      unfold excess
      omega
    have hshift : shiftToTargetExponent Format.binary64 n 0 .exact =
        ((⟨n, false, false⟩ : ExtendedMantissa) >>> s, (s : ℤ)) := by
      simp [shiftToTargetExponent, shiftToExponent, htarget, hs,
        ExtendedMantissa.ofMantissaAndAccuracy]
    rw [hs] at hlow hhigh
    obtain ⟨m, e, h, hround, hm, hm53, he, he', hvalue⟩ := roundWithAccuracy_of_shift
      sign hshift (roundedMantissa_shift n s) (le_halfEven (by rwa [← pow_add]))
      (halfEven_le (by rw [← pow_add]; exact hhigh.le.trans_eq (by ring_nf))) (by omega)
    refine ⟨m, e, h, ?_, hm, hm53, by omega, by omega, ?_⟩
    · rw [hleft]
      simpa using hround
    · have hexponent : ((s : ℤ) + 52).toNat = s + 52 := by omega
      unfold nearestNat
      rw [hexcess, ← hvalue, hexponent]
      ring
  · -- at most 53 bits: the mantissa is filled up, and nothing is lost
    have hleft : (0 - ((n.log2 : ℤ) - 52)).toNat = 52 - n.log2 := by omega
    have hcanonical : 2 ^ 52 ≤ n <<< (52 - n.log2) ∧ n <<< (52 - n.log2) < 2 ^ 53 := by
      have hsplit : 2 ^ 52 = 2 ^ n.log2 * 2 ^ (52 - n.log2) := by
        rw [← pow_add, Nat.add_sub_cancel' hnarrow]
      rw [Nat.shiftLeft_eq]
      constructor
      · rw [hsplit]
        exact Nat.mul_le_mul_right _ hlow
      · calc n * 2 ^ (52 - n.log2) < 2 ^ (n.log2 + 1) * 2 ^ (52 - n.log2) :=
              Nat.mul_lt_mul_of_pos_right hhigh (Nat.two_pow_pos _)
          _ = 2 * (2 ^ n.log2 * 2 ^ (52 - n.log2)) := by ring
          _ = 2 ^ 53 := by rw [← hsplit]; norm_num
    have hexponent : (0 : ℤ) - (52 - n.log2 : ℕ) = (n.log2 : ℤ) - 52 := by omega
    rw [hleft, hexponent]
    obtain ⟨m, e, h, hround, hm, hm53, he, he', hvalue⟩ := roundWithAccuracy_of_shift
      sign (shiftToTarget_canonical hcanonical.1 hcanonical.2
        (show -52 ≤ (n.log2 : ℤ) - 52 by omega)) (roundedMantissa_exact _) hcanonical.1 hcanonical.2.le (by omega)
    refine ⟨m, e, h, hround, hm, hm53, by omega, by omega, ?_⟩
    have hexponent' : ((n.log2 : ℤ) - 52 + 52).toNat = n.log2 := by omega
    have hsmall : n < 2 ^ 53 := hhigh.trans_le (Nat.pow_le_pow_right Nat.two_pos (by omega))
    rw [nearestNat_of_lt hsmall, ← hvalue, hexponent', Nat.shiftLeft_eq, mul_assoc, ← pow_add,
      Nat.sub_add_cancel hnarrow, mul_comm]

lemma ofBitVec_unpackSign {spec : Format} {sign : Sign} {exponent mantissa} :
    Sign.ofBitVec (unpackSign (packComponents spec sign exponent mantissa)) = sign := by
  have hsign : unpackSign (packComponents spec sign exponent mantissa) = sign.toBitVec := by
    ext i hi
    obtain rfl : i = 0 := by omega
    simp [unpackSign, packComponents, BitVec.getLsbD_append, BitVec.getElem_append]
  rw [hsign]
  cases sign <;> rfl

lemma toNat_implicitBit {m : ℕ} (hm : 2 ^ 52 ≤ m) (hm53 : m < 2 ^ 53) :
    (1#1 ++ BitVec.ofNat 52 m).toNat = m := by
  have hlow : (BitVec.ofNat 52 m).toNat < 2 ^ 52 := (BitVec.ofNat 52 m).isLt
  rw [BitVec.toNat_append, ← Nat.shiftLeft_add_eq_or_of_lt hlow, BitVec.toNat_ofNat]
  rw [BitVec.toNat_ofNat, Nat.shiftLeft_eq]
  omega

lemma unpack_pack (sign : Sign) {m : ℕ} {e : ℤ} (h : 0 < m) (hm : 2 ^ 52 ≤ m) (hm53 : m < 2 ^ 53)
    (he : -52 ≤ e) (he12 : e ≤ 12) :
    (Float.Model.pack (.finite sign m e h)).unpack = .finite sign m e h := by
  have hlog : m.log2 = 52 := (Nat.log2_eq_iff (by omega)).mpr ⟨hm, hm53⟩
  obtain ⟨b, hb⟩ : ∃ b : ℕ, e + 1075 = b := ⟨(e + 1075).toNat, by omega⟩
  have hpack : UnpackedFloat.pack Format.binary64 (.finite sign m e h) =
      packComponents Format.binary64 sign (BitVec.ofNat _ b) (BitVec.ofNat _ m) := by
    have hbiased : (e + (Format.binary64.exponentBias : ℤ) + (52 : ℕ)).toNat = b := by
      simp only [Format.exponentBias]
      norm_num
      omega
    simp only [UnpackedFloat.pack, hlog, Format.mantissaBits, hbiased]
    rw [if_neg (by norm_num; omega), if_pos (by norm_num)]
  have hexponent : (BitVec.ofNat 11 b).toNat = b := by
    rw [BitVec.toNat_ofNat]
    omega
  -- the exponent is neither of the two that are kept for infinities and subnormals
  have hexponent_ne {v : BitVec 11} (hv : v.toNat ≠ b) : BitVec.ofNat 11 b ≠ v := by
    intro heq
    exact hv (heq ▸ hexponent)
  have hmax : BitVec.ofNat 11 b ≠ -1#11 := hexponent_ne (show 2047 ≠ b by omega)
  have hmin : BitVec.ofNat 11 b ≠ 0#11 := hexponent_ne (show 0 ≠ b by omega)
  unfold Float.Model.unpack Float.Model.pack
  simp only [hpack]
  unfold UnpackedFloat.unpack
  simp only [unpackExponent_packComponents, unpackMantissa_packComponents, ofBitVec_unpackSign]
  rw [if_neg hmax, if_neg hmin]
  simp only [toNat_implicitBit hm hm53, hexponent, UnpackedFloat.finite.injEq, true_and]
  simp only [Format.exponentBias]
  norm_num
  omega

/-- **A converted integer stands for the nearest one** of 53 bits. -/
lemma standsFor_ofInt {z : ℤ} (hz : z.natAbs < 2 ^ 64) :
    StandsFor (Float.Model.pack (UnpackedFloat.ofInt Format.binary64 z)).unpack (nearest 53 z) := by
  unfold UnpackedFloat.ofInt UnpackedFloat.normalize
  rcases lt_trichotomy z 0 with hneg | rfl | hpos
  · obtain ⟨n, rfl⟩ : ∃ n : ℕ, z = -n := ⟨z.natAbs, by omega⟩
    obtain ⟨m, e, h, hround, hm, hm53, he, he12, hvalue⟩ :=
      round_nat .negative (show 0 < n by omega) (by simpa using hz)
    rw [compare_lt_iff_lt.mpr hneg]
    simp only [neg_neg, Int.toNat_natCast, hround, unpack_pack .negative h hm hm53 he he12]
    refine ⟨hm, hm53, he, ?_⟩
    rw [nearest_neg, nearest_natCast, Sign.apply, ← hvalue]
    push_cast
    ring
  · rfl
  · obtain ⟨n, rfl⟩ : ∃ n : ℕ, z = n := ⟨z.natAbs, by omega⟩
    obtain ⟨m, e, h, hround, hm, hm53, he, he12, hvalue⟩ :=
      round_nat .positive (show 0 < n by omega) (by simpa using hz)
    rw [compare_gt_iff_gt.mpr hpos]
    simp only [Int.toNat_natCast, hround, unpack_pack .positive h hm hm53 he he12]
    refine ⟨hm, hm53, he, ?_⟩
    rw [nearest_natCast, Sign.apply, ← hvalue]
    push_cast
    ring

lemma standsFor_ofInt64 (n : Int64) :
    StandsFor (Float.Model.ofInt64 n).unpack (nearest 53 n.toInt) := by
  refine standsFor_ofInt ?_
  have hlow := n.le_toInt
  have hhigh := n.toInt_lt
  omega

lemma standsFor_ofUInt64 (n : UInt64) :
    StandsFor (Float.Model.ofUInt64 n).unpack (nearest 53 n.toNat) := by
  refine standsFor_ofInt ?_
  rw [Int.natAbs_natCast]
  exact n.toNat_lt

end Round

end Pureflow.Lib.Doubles
