import Katherine.Lib.Number
import Mathlib.Tactic.IntervalCases

/-!
# `float(i)`

When `float(i)` is the number `i`, and how large it is when `i` is large. A float is known
by its `repr`, so the second question is about a text: `repr` writes an integral double
with all its digits, or with one digit, a fraction and an exponent.
-/

namespace Py

/-! ## Integers that are doubles -/

theorem roundHalfEven_one (n : Nat) : roundHalfEven n 1 = n := by
  simp [roundHalfEven, Nat.mod_one]

/-- The double nearest to an integer: its first 53 bits, rounded. -/
theorem nearestDouble_nat {n : Nat} (hn : n ≠ 0) : nearestDouble n 1 =
    if 52 ≤ n.log2 then ⟨roundHalfEven n (2 ^ (n.log2 - 52)), (n.log2 - 52 : Nat)⟩
    else ⟨n * 2 ^ (52 - n.log2), (n.log2 : Int) - 52⟩ := by
  have hone : ((1 : Nat).log2 : Int) = 0 := rfl
  have hb : (0 : Int) ≤ (n.log2 : Int) := Int.natCast_nonneg _
  have hlead : decide (2 ^ ((n.log2 : Int)).toNat ≤ n) = true := by
    simpa using Nat.log2_self_le hn
  have he : max ((n.log2 : Int) - 52) (-1074) = (n.log2 : Int) - 52 := by omega
  simp only [nearestDouble, if_neg hn, hone, Int.sub_zero, if_pos hb, hlead, if_true, he, Nat.one_mul]
  by_cases h52 : 52 ≤ n.log2
  · have hexp : ((n.log2 : Int) - 52) = (n.log2 - 52 : Nat) := by omega
    rw [if_pos h52, hexp, if_pos (Int.natCast_nonneg _), Int.toNat_natCast]
  · have hneg : ¬ (0 : Int) ≤ (n.log2 : Int) - 52 := by omega
    have hexp : (-((n.log2 : Int) - 52)).toNat = 52 - n.log2 := by omega
    rw [if_neg h52, if_neg hneg, hexp, roundHalfEven_one]

/-- An integer of at most 53 bits is a double. -/
theorem nearestDouble_of_lt {n : Nat} (h : n < 2 ^ 53) :
    (nearestDouble n 1).ratio.1 = n * (nearestDouble n 1).ratio.2 := by
  by_cases hn : n = 0
  · subst hn
    rfl
  have hlog : n.log2 ≤ 52 := Nat.lt_succ_iff.mp ((Nat.log2_lt hn).mpr h)
  rw [nearestDouble_nat hn]
  split
  · have hzero : n.log2 - 52 = 0 := by omega
    rw [hzero, Nat.pow_zero, roundHalfEven_one, Double.ratio, if_pos (Int.natCast_nonneg _)]
    rfl
  · have hneg : ¬ (0 : Int) ≤ (n.log2 : Int) - 52 := by omega
    have hexp : (-((n.log2 : Int) - 52)).toNat = 52 - n.log2 := by omega
    rw [Double.ratio, if_neg hneg, hexp]

/-- `float(i) == i` says that `i` is a double. -/
theorem intEqFloat_floatOfInt {i : Int} {f : FiniteFloat} (h : floatOfInt i = some f) :
    intEqFloat i (.fin f) = true ↔
      (nearestDouble i.natAbs 1).ratio.1 = i.natAbs * (nearestDouble i.natAbs 1).ratio.2 := by
  unfold intEqFloat
  simp only [h, FiniteFloat.numEq, decide_true, Bool.and_true, decide_eq_true_eq]

/-- As it is for every integer up to `2 ^ 53`. -/
theorem intEqFloat_of_le {i : Int} {f : FiniteFloat} (h : floatOfInt i = some f)
    (hi : i.natAbs ≤ 2 ^ 53) : intEqFloat i (.fin f) = true := by
  rw [intEqFloat_floatOfInt h]
  rcases Nat.lt_or_eq_of_le hi with hlt | heq
  · exact nearestDouble_of_lt hlt
  · rw [heq]
    rfl

/-! ## Large integers are large floats -/

/-- A float whose first digit is not zero is at least the power of ten of that digit. -/
theorem FiniteFloat.ratio_lt_natAbs {f : FiniteFloat} {c : CodePoint} {s : PyStr}
    (hdigits : (dropMinus f.text).takeWhile isDigit = c :: s) (hc : 48 < c.val)
    (he : 1 ≤ (s.length : Int) + exponentOf f.text) : f.ratio.2 < f.ratio.1.natAbs := by
  have hm : 10 ^ (s.length + (fractionDigits f.text).length) ≤
      natOfText (c :: s ++ fractionDigits f.text) := by
    have h := natOfText_ge hc (s ++ fractionDigits f.text)
    rwa [List.length_append] at h
  have habs : ∀ m : Nat, (if f.text.head? = some (cp '-') then -(m : Int) else m).natAbs = m := by
    intro m
    split <;> simp
  simp only [ratio, hdigits]
  split
  · next hpos =>
      rw [Int.natAbs_mul, habs, Int.natAbs_pow]
      have hexp : 1 ≤ s.length + (fractionDigits f.text).length +
          (exponentOf f.text - (fractionDigits f.text).length).toNat := by omega
      calc 1 < 10 ^ (s.length + (fractionDigits f.text).length +
              (exponentOf f.text - (fractionDigits f.text).length).toNat) :=
            Nat.one_lt_pow (by omega) (by decide)
        _ = 10 ^ (s.length + (fractionDigits f.text).length) *
              10 ^ (exponentOf f.text - (fractionDigits f.text).length).toNat := pow_add _ _ _
        _ ≤ _ := Nat.mul_le_mul_right _ hm
  · next hneg =>
      rw [habs]
      exact lt_of_lt_of_le (Nat.pow_lt_pow_right (by decide) (by omega)) hm

/-- The digits that are kept stand for a positive number, and some digits are dropped or none. -/
theorem shortestDigits_pos {x : Double} {n : Nat} (hx : 0 < x.ratio.1) (hn : 0 < n) : ∀ k : Nat,
    0 < (shortestDigits x n k).1 ∧ (0 < (shortestDigits x n k).2 ∨ (shortestDigits x n k).1 = n)
  | 0 => ⟨hn, .inr rfl⟩
  | k + 1 => by
      have hfits : ∀ c, (nearestDouble (c * 10 ^ (k + 1)) 1).same x = true → 0 < c := by
        intro c hc
        rcases Nat.eq_zero_or_pos c with rfl | hpos
        · rw [Nat.zero_mul] at hc
          simp only [Double.same, decide_eq_true_eq] at hc
          have hzero : (nearestDouble 0 1).ratio = (0, 1) := rfl
          rw [hzero] at hc
          simp only [Nat.zero_mul, Nat.mul_one] at hc
          omega
        · exact hpos
      have ih := shortestDigits_pos hx hn k
      simp only [shortestDigits]
      split
      · split
        · next h => exact ⟨hfits _ h, .inl (Nat.succ_pos _)⟩
        · split
          · exact ⟨Nat.succ_pos _, .inl (Nat.succ_pos _)⟩
          · exact ih
      · split
        · exact ⟨Nat.succ_pos _, .inl (Nat.succ_pos _)⟩
        · split
          · next h => exact ⟨hfits _ h, .inl (Nat.succ_pos _)⟩
          · exact ih

/-- The first digits of a float, and its exponent. -/
theorem read_digits {p q r sign : PyStr} {c : CodePoint} (hp : ∀ d ∈ c :: p, isDigit d = true)
    (hsign : sign = [] ∨ sign = [cp '-']) (hq : cp 'e' ∉ q)
    (hqr : (q ++ r).takeWhile isDigit = []) :
    (dropMinus (sign ++ (c :: p ++ (q ++ r)))).takeWhile isDigit = c :: p ∧
      exponentOf (sign ++ (c :: p ++ (q ++ r))) = exponentOf r := by
  have hc := hp c List.mem_cons_self
  have hminus : c ≠ cp '-' := by
    rintro rfl
    exact absurd hc (by decide)
  have hdrop : dropMinus (sign ++ (c :: p ++ (q ++ r))) = c :: p ++ (q ++ r) := by
    rcases hsign with rfl | rfl
    · simp [dropMinus, hminus]
    · simp [dropMinus]
  have hplain : ∀ d ∈ sign ++ (c :: p ++ q), d ≠ cp 'e' := by
    intro d hd
    rcases List.mem_append.mp hd with hd | hd
    · rcases hsign with rfl | rfl
      · cases hd
      · rw [List.mem_singleton.mp hd]
        decide
    · rcases List.mem_append.mp hd with hd | hd
      · rintro rfl
        exact absurd (hp _ hd) (by decide)
      · rintro rfl
        exact hq hd
  constructor
  · rw [hdrop, List.takeWhile_append_of_pos hp, hqr, List.append_nil]
  · have hsplit : sign ++ (c :: p ++ (q ++ r)) = sign ++ (c :: p ++ q) ++ r := by simp
    have hskip : (sign ++ (c :: p ++ q) ++ r).dropWhile (· ≠ cp 'e') = r.dropWhile (· ≠ cp 'e') :=
      List.dropWhile_append_of_pos fun d hd => decide_eq_true (hplain d hd)
    rw [hsplit, exponentOf, exponentOf, hskip]

theorem dropZeros_subset {s : PyStr} {d : CodePoint} (h : d ∈ dropZeros s) : d ∈ s := by
  have hrev := (List.dropWhile_sublist _).subset (List.mem_reverse.mp h)
  exact List.mem_reverse.mp hrev

/-- All digits, then `.0`. -/
theorem integralText_small {x : Double} (h : x.ratio.1 / x.ratio.2 < 10 ^ 16) :
    integralText x = natText (x.ratio.1 / x.ratio.2) ++ (py ".0" ++ []) := by
  simp only [integralText, if_pos h, List.append_nil]

/-- One digit, a fraction, and an exponent. -/
theorem integralText_exponent {x : Double} (h : ¬ x.ratio.1 / x.ratio.2 < 10 ^ 16) :
    ∃ len, integralText x =
      (natText (shortestDigits x (x.ratio.1 / x.ratio.2) len).1).take 1 ++
        ((if dropZeros (natText (shortestDigits x (x.ratio.1 / x.ratio.2) len).1).tail = [] then []
          else cp '.' :: dropZeros (natText (shortestDigits x (x.ratio.1 / x.ratio.2) len).1).tail) ++
        (py "e+" ++ natText ((natText (shortestDigits x (x.ratio.1 / x.ratio.2) len).1).length - 1 +
          (shortestDigits x (x.ratio.1 / x.ratio.2) len).2))) := by
  refine ⟨(natText (x.ratio.1 / x.ratio.2)).length - 1, ?_⟩
  simp only [integralText, if_neg h, List.append_assoc]

theorem exponentOf_natText (n : Nat) : exponentOf (py "e+" ++ natText n) = n := by
  have hplus : cp '+' ≠ cp '-' := by decide
  have h : exponentOf (py "e+" ++ natText n) =
      if cp '+' = cp '-' then - (natOfText (natText n) : Int) else natOfText (natText n) := rfl
  rw [h, if_neg hplus, natOfText_natText]

/-- `repr` of an integral double from 10 on. -/
theorem integralText_large {x : Double} (hx : 10 ≤ x.ratio.1 / x.ratio.2) {sign : PyStr}
    (hsign : sign = [] ∨ sign = [cp '-']) :
    ∃ c s, (dropMinus (sign ++ integralText x)).takeWhile isDigit = c :: s ∧ 48 < c.val ∧
      1 ≤ (s.length : Int) + exponentOf (sign ++ integralText x) := by
  have hn : 0 < x.ratio.1 / x.ratio.2 := by omega
  have hpos : 0 < x.ratio.1 := by
    by_contra h
    rw [Nat.eq_zero_of_not_pos h, Nat.zero_div] at hx
    omega
  rcases Decidable.em (x.ratio.1 / x.ratio.2 < 10 ^ 16) with hsmall | hlarge
  · obtain ⟨c, s, hs, hc, hlen⟩ := natText_two hx
    have hdigits : ∀ d ∈ c :: s, isDigit d = true := by
      intro d hd
      exact natText_all_digit _ d (by rw [hs]; exact hd)
    obtain ⟨hread, hexp⟩ := read_digits (q := py ".0") (r := []) hdigits hsign (by decide) (by decide)
    have hzero : exponentOf [] = 0 := rfl
    rw [integralText_small hsmall, hs]
    refine ⟨c, s, hread, hc, ?_⟩
    rw [hexp, hzero, Int.add_zero]
    exact_mod_cast hlen
  · obtain ⟨len, htext⟩ := integralText_exponent hlarge
    obtain ⟨hkept, hdropped⟩ := shortestDigits_pos hpos hn len
    generalize shortestDigits x (x.ratio.1 / x.ratio.2) len = kept at htext hkept hdropped
    obtain ⟨c, s, hs, hc⟩ := natText_head_pos hkept
    have hdigits : ∀ d ∈ c :: s, isDigit d = true := by
      intro d hd
      exact natText_all_digit _ d (by rw [hs]; exact hd)
    have htake : (natText kept.1).take 1 = [c] := by rw [hs]; rfl
    have htail : (natText kept.1).tail = s := by rw [hs]; rfl
    rw [htake, htail] at htext
    have hfraction : cp 'e' ∉ (if dropZeros s = [] then [] else cp '.' :: dropZeros s) := by
      split
      · exact List.not_mem_nil
      · intro hmem
        rcases List.mem_cons.mp hmem with hdot | hmem
        · exact absurd hdot (by decide)
        · exact absurd (hdigits _ (List.mem_cons_of_mem _ (dropZeros_subset hmem))) (by decide)
    obtain ⟨hread, hexp⟩ := read_digits (p := [])
      (r := py "e+" ++ natText ((natText kept.1).length - 1 + kept.2))
      (fun d hd => hdigits d (by rw [List.mem_singleton.mp hd]; exact List.mem_cons_self)) hsign
      hfraction (by split <;> rfl)
    rw [htext]
    refine ⟨c, [], hread, hc, ?_⟩
    rw [hexp, exponentOf_natText, List.length_nil, Int.natCast_zero, Int.zero_add]
    have hexponent : 1 ≤ (natText kept.1).length - 1 + kept.2 := by
      rcases hdropped with hdropped | hall
      · exact Nat.le_add_left_of_le hdropped
      · obtain ⟨c', s', hs', _, hlen⟩ := natText_two hx
        rw [hall, hs']
        exact Nat.le_add_right_of_le hlen
    exact_mod_cast hexponent

/-- Rounding does not go below a power of two that the number reaches. -/
theorem nearestDouble_ge {n : Nat} (h : 2 ^ 53 ≤ n) :
    10 ≤ (nearestDouble n 1).ratio.1 / (nearestDouble n 1).ratio.2 := by
  have hn : n ≠ 0 := by
    rintro rfl
    omega
  have hlog : 53 ≤ n.log2 := (Nat.le_log2 hn).mpr h
  have hdiv : 2 ^ 52 ≤ n / 2 ^ (n.log2 - 52) := by
    rw [Nat.le_div_iff_mul_le (Nat.two_pow_pos _), ← pow_add]
    exact le_trans (Nat.pow_le_pow_right (by decide) (by omega)) (Nat.log2_self_le hn)
  have hm : 2 ^ 52 ≤ roundHalfEven n (2 ^ (n.log2 - 52)) := by
    unfold roundHalfEven
    split
    · exact hdiv
    · exact Nat.le_succ_of_le hdiv
  rw [nearestDouble_nat hn, if_pos (by omega), Double.ratio, if_pos (Int.natCast_nonneg _),
    Int.toNat_natCast, Nat.div_one]
  calc 10 ≤ 2 ^ 52 * 1 := by decide
    _ ≤ _ := Nat.mul_le_mul hm (Nat.two_pow_pos _)

theorem Double.ratio_pos (x : Double) : 0 < x.ratio.2 := by
  simp only [Double.ratio]
  split
  · exact Nat.one_pos
  · exact Nat.two_pow_pos _

/-- What `float(i)` is written as. -/
theorem text_of_floatOfInt {i : Int} {f : FiniteFloat} (h : floatOfInt i = some f) :
    f.text = (if i < 0 then [cp '-'] else []) ++ integralText (nearestDouble i.natAbs 1) := by
  simp only [floatOfInt] at h
  generalize (if i < 0 then [cp '-'] else []) ++ integralText (nearestDouble i.natAbs 1) = text at h ⊢
  split at h
  · cases h
  · split at h
    · cases h
      rfl
    · cases h

/-- **An integer whose float is in `[-1, 1]` has one digit.** -/
theorem natAbs_lt_of_floatOfInt {i lo hi : Int} {f : FiniteFloat} (h : floatOfInt i = some f)
    (hlo : -1 ≤ lo) (hhi : hi ≤ 1) (hrange : f.ltRatio lo 1 = false ∧ f.gtRatio hi 1 = false) :
    i.natAbs < 10 := by
  by_contra hlarge
  rw [Nat.not_lt] at hlarge
  have hx : 10 ≤ (nearestDouble i.natAbs 1).ratio.1 / (nearestDouble i.natAbs 1).ratio.2 := by
    rcases Nat.lt_or_ge i.natAbs (2 ^ 53) with hexact | hbig
    · rw [nearestDouble_of_lt hexact, Nat.mul_div_cancel _ (Double.ratio_pos _)]
      exact hlarge
    · exact nearestDouble_ge hbig
  have htext := text_of_floatOfInt h
  obtain ⟨c, s, hdigits, hc, he⟩ := integralText_large hx
    (show (if i < 0 then [cp '-'] else []) = [] ∨ (if i < 0 then [cp '-'] else []) = [cp '-'] by
      split <;> simp)
  rw [← htext] at hdigits he
  have hbig := FiniteFloat.ratio_lt_natAbs hdigits hc he
  simp only [FiniteFloat.ltRatio, FiniteFloat.gtRatio, decide_eq_false_iff_not, not_lt] at hrange
  have hnonneg : (0 : Int) ≤ f.ratio.2 := Int.natCast_nonneg _
  have hge : -1 * (f.ratio.2 : Int) ≤ lo * f.ratio.2 := Int.mul_le_mul_of_nonneg_right hlo hnonneg
  have hle : hi * (f.ratio.2 : Int) ≤ 1 * f.ratio.2 := Int.mul_le_mul_of_nonneg_right hhi hnonneg
  generalize hi * (f.ratio.2 : Int) = top at hle hrange
  generalize lo * (f.ratio.2 : Int) = bottom at hge hrange
  omega

theorem natAbs_le_of_floatOfInt {i lo hi : Int} {f : FiniteFloat} (h : floatOfInt i = some f)
    (hlo : -1 ≤ lo) (hhi : hi ≤ 1) (hrange : f.ltRatio lo 1 = false ∧ f.gtRatio hi 1 = false) :
    i.natAbs ≤ 2 ^ 53 :=
  (natAbs_lt_of_floatOfInt h hlo hhi hrange).le.trans (by decide)

/-- One digit is written as it is, with `.0`. -/
theorem floatOfInt_digit {i : Int} (h : i.natAbs < 10) :
    ∃ f, floatOfInt i = some f ∧ f.ratio = (10 * i, 10) := by
  have hlow : -10 < i := by omega
  have hhigh : i < 10 := by omega
  have hratio : (floatOfInt i).map FiniteFloat.ratio = some (10 * i, 10) := by
    interval_cases i <;> decide +kernel
  exact Option.map_eq_some_iff.mp hratio

/-- **`float(i)` is in a range within `[-1, 1]` when `i` is.** -/
theorem floatOfInt_range {i lo hi : Int} (hlo : -1 ≤ lo) (hhi : hi ≤ 1) :
    (∃ f, floatOfInt i = some f ∧ f.ltRatio lo 1 = false ∧ f.gtRatio hi 1 = false) ↔
      lo ≤ i ∧ i ≤ hi := by
  constructor
  · rintro ⟨f, hf, hrange⟩
    obtain ⟨g, hg, hratio⟩ := floatOfInt_digit (natAbs_lt_of_floatOfInt hf hlo hhi hrange)
    obtain rfl : f = g := Option.some.inj (hf.symm.trans hg)
    simp only [FiniteFloat.ltRatio, FiniteFloat.gtRatio, hratio, decide_eq_false_iff_not] at hrange
    omega
  · intro hi'
    obtain ⟨f, hf, hratio⟩ := floatOfInt_digit (i := i) (by omega)
    refine ⟨f, hf, ?_⟩
    simp only [FiniteFloat.ltRatio, FiniteFloat.gtRatio, hratio, decide_eq_false_iff_not]
    omega

end Py
