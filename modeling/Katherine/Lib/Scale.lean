import Katherine.Lib.FloatOfInt
import Mathlib.Tactic.Ring

/-!
# `int(n * x)`

A length times a fraction, cut to an integer: the integer becomes a float, the product is
rounded to a float, and `int` drops what is behind the point.

Each of the two roundings is off by a unit in the last place at most (`nearestDouble_near`),
so a fraction well below one makes every length shorter: `scale_lt`.
-/

namespace Py

/-- `x * y`. The exponent has no bound here; a product of lengths in memory does not overflow. -/
def Double.mul (x y : Double) : Double :=
  nearestDouble (x.ratio.1 * y.ratio.1) (x.ratio.2 * y.ratio.2)

/-- `int(x)`. -/
def Double.trunc (x : Double) : Nat := x.ratio.1 / x.ratio.2

/-- `int(n * x)`. -/
def scale (n : Nat) (x : Double) : Nat := ((nearestDouble n 1).mul x).trunc

/-! ## How far off a float is -/

theorem roundHalfEven_near (n : Nat) {d : Nat} (hd : 0 < d) :
    n ≤ roundHalfEven n d * d + d ∧ roundHalfEven n d * d ≤ n + d := by
  have hdiv := Nat.div_add_mod n d
  have hmod := Nat.mod_lt n hd
  have hcomm : n / d * d = d * (n / d) := Nat.mul_comm _ _
  unfold roundHalfEven
  split
  · omega
  · rw [Nat.add_mul, Nat.one_mul]
    omega

/-- From one on, the mantissa is what is left of the number below its leading bit. -/
theorem nearestDouble_lead {n d : Nat} (hd : 0 < d) (h : d ≤ n) : ∃ k : Nat, d * 2 ^ k ≤ n ∧
    nearestDouble n d =
      if 52 ≤ k then ⟨roundHalfEven n (d * 2 ^ (k - 52)), (k - 52 : Nat)⟩
      else ⟨roundHalfEven (n * 2 ^ (52 - k)) d, (k : Int) - 52⟩ := by
  have hn : n ≠ 0 := by omega
  have hlog : d.log2 ≤ n.log2 := (Nat.le_log2 hn).mpr (le_trans (Nat.log2_self_le (by omega)) h)
  have hb : ((n.log2 : Int) - d.log2) = (n.log2 - d.log2 : Nat) := by omega
  -- in terms of the exponent of the leading bit, whichever of the two it is
  have key : ∀ k : Nat, (if decide (d * 2 ^ (n.log2 - d.log2) ≤ n) = true then
        ((n.log2 - d.log2 : Nat) : Int) else ((n.log2 - d.log2 : Nat) : Int) - 1) = k →
      nearestDouble n d = if 52 ≤ k then ⟨roundHalfEven n (d * 2 ^ (k - 52)), (k - 52 : Nat)⟩
        else ⟨roundHalfEven (n * 2 ^ (52 - k)) d, (k : Int) - 52⟩ := by
    intro k hk
    have he : max ((k : Int) - 52) (-1074) = (k : Int) - 52 := by omega
    simp only [nearestDouble, if_neg hn, hb, if_pos (Int.natCast_nonneg _), Int.toNat_natCast, hk, he]
    by_cases h52 : 52 ≤ k
    · have hexp : ((k : Int) - 52) = (k - 52 : Nat) := by omega
      rw [if_pos h52, hexp, if_pos (Int.natCast_nonneg _), Int.toNat_natCast]
    · have hexp : (-((k : Int) - 52)).toNat = 52 - k := by omega
      rw [if_neg h52, if_neg (by omega), hexp]
  by_cases hlead : d * 2 ^ (n.log2 - d.log2) ≤ n
  · exact ⟨_, hlead, key _ (by rw [decide_eq_true hlead, if_pos rfl])⟩
  · -- then the logarithms are not equal, and one bit less fits
    have hpos : 1 ≤ n.log2 - d.log2 := by
      by_contra hzero
      rw [Nat.eq_zero_of_not_pos hzero, Nat.pow_zero, Nat.mul_one] at hlead
      exact hlead h
    refine ⟨n.log2 - d.log2 - 1, ?_, key _ ?_⟩
    · have hlt : d < 2 ^ (d.log2 + 1) := Nat.lt_log2_self
      calc d * 2 ^ (n.log2 - d.log2 - 1) ≤ 2 ^ (d.log2 + 1) * 2 ^ (n.log2 - d.log2 - 1) :=
            Nat.mul_le_mul_right _ (Nat.le_of_lt hlt)
        _ = 2 ^ n.log2 := by rw [← pow_add]; congr 1; omega
        _ ≤ n := Nat.log2_self_le hn
    · rw [if_neg (by simpa using hlead)]
      omega

/-- **A float from one on is off by a unit in the last place at most.** -/
theorem nearestDouble_near {n d : Nat} (hd : 0 < d) (h : d ≤ n) :
    (2 ^ 52 - 1) * (n * (nearestDouble n d).ratio.2) ≤ 2 ^ 52 * ((nearestDouble n d).ratio.1 * d) ∧
      2 ^ 52 * ((nearestDouble n d).ratio.1 * d) ≤ (2 ^ 52 + 1) * (n * (nearestDouble n d).ratio.2) := by
  obtain ⟨k, hk, hx⟩ := nearestDouble_lead hd h
  rw [hx]
  split
  · next h52 =>
    rw [Double.ratio, if_pos (Int.natCast_nonneg _), Int.toNat_natCast]
    simp only
    have hscale : d * 2 ^ (k - 52) * 2 ^ 52 ≤ n := by
      rwa [Nat.mul_assoc, ← pow_add, Nat.sub_add_cancel h52]
    have hnear := roundHalfEven_near n (Nat.mul_pos hd (Nat.two_pow_pos (k - 52)))
    have hassoc : roundHalfEven n (d * 2 ^ (k - 52)) * 2 ^ (k - 52) * d =
        roundHalfEven n (d * 2 ^ (k - 52)) * (d * 2 ^ (k - 52)) := by
      rw [Nat.mul_assoc, Nat.mul_comm (2 ^ (k - 52)) d]
    rw [hassoc]
    generalize roundHalfEven n (d * 2 ^ (k - 52)) * (d * 2 ^ (k - 52)) = m at hnear ⊢
    generalize d * 2 ^ (k - 52) = step at hscale hnear
    omega
  · next h52 =>
    have hneg : ¬ (0 : Int) ≤ (k : Int) - 52 := by omega
    have hexp : (-((k : Int) - 52)).toNat = 52 - k := by omega
    rw [Double.ratio, if_neg hneg, hexp]
    simp only
    have hscale : d * 2 ^ 52 ≤ n * 2 ^ (52 - k) := by
      have hsplit : 2 ^ 52 = 2 ^ k * 2 ^ (52 - k) := by rw [← pow_add]; congr 1; omega
      rw [hsplit, ← Nat.mul_assoc]
      exact Nat.mul_le_mul_right _ hk
    have hnear := roundHalfEven_near (n * 2 ^ (52 - k)) hd
    generalize roundHalfEven (n * 2 ^ (52 - k)) d * d = m at hnear ⊢
    generalize n * 2 ^ (52 - k) = a at hscale hnear ⊢
    omega

/-- **A fraction between a half and three quarters makes a length shorter.** -/
theorem scale_lt {n : Nat} {x : Double} (hhalf : x.ratio.2 ≤ 2 * x.ratio.1)
    (hthree : 4 * x.ratio.1 ≤ 3 * x.ratio.2) (hn : 4 ≤ n) : scale n x < n := by
  have hb := (nearestDouble n 1).ratio_pos
  have hq := x.ratio_pos
  obtain ⟨hlow, hhigh⟩ := nearestDouble_near Nat.one_pos (show 1 ≤ n by omega)
  rw [Nat.mul_one] at hlow hhigh
  rw [scale, Double.mul]
  generalize (nearestDouble n 1).ratio.1 = a at hlow hhigh ⊢
  generalize (nearestDouble n 1).ratio.2 = b at hb hlow hhigh ⊢
  generalize x.ratio.1 = p at hhalf hthree ⊢
  generalize x.ratio.2 = q at hhalf hthree hq ⊢
  have hbq : 0 < b * q := Nat.mul_pos hb hq
  -- the product is at least one, so it is rounded by a unit in the last place at most
  have ha : 2 * b ≤ a := by
    have hfour : 4 * b ≤ n * b := Nat.mul_le_mul_right b hn
    omega
  have hone : b * q ≤ a * p := by
    have hdouble : 2 * (b * q) ≤ a * q := by
      rw [← Nat.mul_assoc]
      exact Nat.mul_le_mul_right q ha
    have hhalf : a * q ≤ a * (2 * p) := Nat.mul_le_mul_left a hhalf
    have hcomm : a * (2 * p) = 2 * (a * p) := Nat.mul_left_comm a 2 p
    omega
  have hnear := (nearestDouble_near hbq hone).2
  have hv := (nearestDouble (a * p) (b * q)).ratio_pos
  rw [Double.trunc]
  generalize (nearestDouble (a * p) (b * q)).ratio.1 = u at hnear ⊢
  generalize (nearestDouble (a * p) (b * q)).ratio.2 = v at hnear hv ⊢
  have hpos : 0 < n * v * (b * q) := Nat.mul_pos (Nat.mul_pos (by omega) hv) hbq
  have hcross : u * (b * q) < n * v * (b * q) := by
    have hproduct : 4 * (a * p * v) ≤ 3 * (a * (q * v)) := by
      have hle := Nat.mul_le_mul_left (a * v) hthree
      have hl : a * v * (4 * p) = 4 * (a * p * v) := by ring
      have hr : a * v * (3 * q) = 3 * (a * (q * v)) := by ring
      rwa [hl, hr] at hle
    have hfloat : 2 ^ 52 * (a * (q * v)) ≤ (2 ^ 52 + 1) * (n * v * (b * q)) := by
      have hle := Nat.mul_le_mul_right (q * v) hhigh
      have hl : 2 ^ 52 * a * (q * v) = 2 ^ 52 * (a * (q * v)) := by ring
      have hr : (2 ^ 52 + 1) * (n * b) * (q * v) = (2 ^ 52 + 1) * (n * v * (b * q)) := by ring
      rwa [hl, hr] at hle
    omega
  exact (Nat.div_lt_iff_lt_mul hv).mpr (Nat.lt_of_mul_lt_mul_right hcross)

end Py
