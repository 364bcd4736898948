import Mathlib

/-!
Integers rounded to a number of significant bits: to the nearest one that has no more, and in a
tie to the one with an even last bit.
-/

namespace Pureflow.Lib.Rounding

variable {p n n' s m k : ℕ}

/-- `n / 2 ^ s`, rounded to the nearest integer and in a tie to the even one. -/
def halfEven (n s : ℕ) : ℕ :=
  let q := n / 2 ^ s
  let r := n % 2 ^ s
  if 2 * r < 2 ^ s then q else if 2 * r = 2 ^ s then q + q % 2 else q + 1

/-- How many bits a number has beyond the first `p`. -/
def excess (p n : ℕ) : ℕ := n.log2 + 1 - p

def nearestNat (p n : ℕ) : ℕ := halfEven n (excess p n) * 2 ^ excess p n

/-- The integer rounded to `p` significant bits. -/
def nearest (p : ℕ) (z : ℤ) : ℤ := z.sign * nearestNat p z.natAbs

lemma halfEven_bounds (n s : ℕ) : n / 2 ^ s ≤ halfEven n s ∧ halfEven n s ≤ n / 2 ^ s + 1 := by
  unfold halfEven
  have hparity := Nat.mod_lt (n / 2 ^ s) Nat.two_pos
  dsimp only
  split_ifs <;> omega

lemma halfEven_mul (m s : ℕ) : halfEven (m * 2 ^ s) s = m := by
  have hpos := Nat.two_pow_pos s
  unfold halfEven
  rw [Nat.mul_mod_left, Nat.mul_div_cancel m hpos]
  simp

@[simp] lemma halfEven_zero (n : ℕ) : halfEven n 0 = n := by
  simpa using halfEven_mul n 0

lemma halfEven_mono (h : n ≤ n') : halfEven n s ≤ halfEven n' s := by
  have hle : n / 2 ^ s ≤ n' / 2 ^ s := Nat.div_le_div_right h
  rcases hle.lt_or_eq with hlt | heq
  · have hup := (halfEven_bounds n s).2
    have hdown := (halfEven_bounds n' s).1
    omega
  · -- the same quotient: the remainders decide
    have hsplit := Nat.mod_add_div n (2 ^ s)
    have hsplit' := Nat.mod_add_div n' (2 ^ s)
    rw [← heq] at hsplit'
    have hrem : n % 2 ^ s ≤ n' % 2 ^ s := by omega
    have hparity := Nat.mod_lt (n / 2 ^ s) Nat.two_pos
    unfold halfEven
    rw [← heq]
    dsimp only
    split_ifs <;> omega

lemma le_halfEven (h : m * 2 ^ s ≤ n) : m ≤ halfEven n s :=
  (halfEven_mul m s).symm.trans_le (halfEven_mono h)

lemma halfEven_le (h : n ≤ m * 2 ^ s) : halfEven n s ≤ m :=
  (halfEven_mono h).trans_eq (halfEven_mul m s)

@[simp] lemma nearestNat_zero : nearestNat p 0 = 0 := by
  have hzero := halfEven_mul 0 (excess p 0)
  rw [zero_mul] at hzero
  unfold nearestNat
  rw [hzero, zero_mul]

lemma nearestNat_of_lt (h : n < 2 ^ p) : nearestNat p n = n := by
  rcases Nat.eq_zero_or_pos n with rfl | hn
  · exact nearestNat_zero
  have hlog := (Nat.log2_lt hn.ne').mpr h
  have hexcess : excess p n = 0 := Nat.sub_eq_zero_of_le hlog
  unfold nearestNat
  rw [hexcess, pow_zero, mul_one, halfEven_zero]

lemma two_pow_le_nearestNat (hk : excess p n ≤ k) (h : 2 ^ k ≤ n) : 2 ^ k ≤ nearestNat p n := by
  have hsplit : 2 ^ k = 2 ^ (k - excess p n) * 2 ^ excess p n := by
    rw [← pow_add, Nat.sub_add_cancel hk]
  unfold nearestNat
  rw [hsplit] at h ⊢
  exact Nat.mul_le_mul_right _ (le_halfEven h)

lemma nearestNat_le_two_pow (hk : excess p n ≤ k) (h : n ≤ 2 ^ k) : nearestNat p n ≤ 2 ^ k := by
  have hsplit : 2 ^ k = 2 ^ (k - excess p n) * 2 ^ excess p n := by
    rw [← pow_add, Nat.sub_add_cancel hk]
  unfold nearestNat
  rw [hsplit] at h ⊢
  exact Nat.mul_le_mul_right _ (halfEven_le h)

lemma nearestNat_mono (hp : 0 < p) (h : n ≤ n') : nearestNat p n ≤ nearestNat p n' := by
  rcases Nat.eq_zero_or_pos n with rfl | hn
  · rw [nearestNat_zero]
    exact Nat.zero_le _
  have hn' : 0 < n' := by omega
  have hexcess : excess p n ≤ n.log2 + 1 := Nat.sub_le _ _
  have hexcess' : excess p n' ≤ n'.log2 := by
    unfold excess
    omega
  have hlog : n.log2 ≤ n'.log2 := by
    rw [Nat.le_log2 hn'.ne']
    exact (Nat.log2_self_le hn.ne').trans h
  rcases hlog.lt_or_eq with hlt | heq
  · calc nearestNat p n ≤ 2 ^ (n.log2 + 1) := nearestNat_le_two_pow hexcess Nat.lt_log2_self.le
      _ ≤ 2 ^ n'.log2 := Nat.pow_le_pow_right Nat.two_pos hlt
      _ ≤ nearestNat p n' := two_pow_le_nearestNat hexcess' (Nat.log2_self_le hn'.ne')
  · unfold nearestNat excess
    rw [heq]
    exact Nat.mul_le_mul_right _ (halfEven_mono h)

@[simp] lemma nearest_natCast (n : ℕ) : nearest p n = nearestNat p n := by
  unfold nearest
  rcases Nat.eq_zero_or_pos n with rfl | hn
  · simp
  · rw [Int.sign_natCast_of_ne_zero hn.ne', Int.natAbs_natCast, one_mul]

@[simp] lemma nearest_neg (z : ℤ) : nearest p (-z) = -nearest p z := by
  simp [nearest]

/-- **Rounding keeps the order**, but may not keep it strict. -/
lemma nearest_mono (hp : 0 < p) {z w : ℤ} (h : z ≤ w) : nearest p z ≤ nearest p w := by
  obtain ⟨n, rfl | rfl⟩ := z.eq_nat_or_neg
  · lift w to ℕ using by omega
    simpa using nearestNat_mono hp (Int.ofNat_le.mp h)
  · obtain ⟨n', rfl | rfl⟩ := w.eq_nat_or_neg
    · simp only [nearest_neg, nearest_natCast]
      omega
    · simpa using nearestNat_mono hp (show n' ≤ n by omega)

end Pureflow.Lib.Rounding
