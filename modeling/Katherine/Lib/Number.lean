import Katherine.Lib.Json
import Mathlib.Algebra.Order.Field.Basic
import Mathlib.Algebra.Order.Field.Rat

/-!
# Python numbers

What the interpreter does with numbers beyond writing them: `float(i)` for an
integer, `==` across `int`, `bool` and `float`, and `format(x, ".2f")`.

A float is known by its `repr`, so each of these goes through the double that the
text stands for: `nearestDouble` finds it, `shortest` writes it back.
-/

namespace Py

/-! ## Doubles -/

/-- `n / d` rounded to an integer, ties to even. -/
def roundHalfEven (n d : Nat) : Nat :=
  if 2 * (n % d) < d ∨ (2 * (n % d) = d ∧ n / d % 2 = 0) then n / d else n / d + 1

/-- A non-negative double, as `m * 2 ^ e`. -/
structure Double where
  m : Nat
  e : Int
deriving DecidableEq

/-- Numerator and denominator of the exact value. -/
def Double.ratio (x : Double) : Nat × Nat :=
  if 0 ≤ x.e then (x.m * 2 ^ x.e.toNat, 1) else (x.m, 2 ^ (-x.e).toNat)

/-- The double nearest to `n / d`; its mantissa has 53 bits unless it is subnormal. -/
def nearestDouble (n d : Nat) : Double :=
  if n = 0 then ⟨0, 0⟩
  else
    let b : Int := n.log2 - d.log2
    -- the position of the leading bit is `b` or `b - 1`
    let lead := if 0 ≤ b then decide (d * 2 ^ b.toNat ≤ n) else decide (d ≤ n * 2 ^ (-b).toNat)
    let e : Int := max ((if lead then b else b - 1) - 52) (-1074)
    if 0 ≤ e then ⟨roundHalfEven n (d * 2 ^ e.toNat), e⟩
    else ⟨roundHalfEven (n * 2 ^ (-e).toNat) d, e⟩

def Double.same (x y : Double) : Bool :=
  decide (x.ratio.1 * y.ratio.2 = y.ratio.1 * x.ratio.2)

/-- The magnitude of a float, as the double it is. -/
def FiniteFloat.double (f : FiniteFloat) : Double := nearestDouble f.ratio.1.natAbs f.ratio.2

/-! ## `float(i)` -/

/-- Decimal digits of an integral double of at least `10 ^ 16`: as few as read back the same. -/
def shortestDigits (x : Double) (n : Nat) : Nat → Nat × Nat
  | 0 => (n, 0)
  | k + 1 =>
      -- try dropping `k + 1` digits, rounding down or up, the nearer of the two first
      let p := 10 ^ (k + 1)
      let lo := n / p
      let fits (c : Nat) : Bool := (nearestDouble (c * p) 1).same x
      if 2 * (n % p) ≤ p then
        if fits lo then (lo, k + 1) else if fits (lo + 1) then (lo + 1, k + 1)
        else shortestDigits x n k
      else
        if fits (lo + 1) then (lo + 1, k + 1) else if fits lo then (lo, k + 1)
        else shortestDigits x n k

def dropZeros (s : PyStr) : PyStr := (s.reverse.dropWhile (· = cp '0')).reverse

/-- `repr` of a double that is an integer. -/
def integralText (x : Double) : PyStr :=
  let n := x.ratio.1 / x.ratio.2
  if n < 10 ^ 16 then natText n ++ py ".0"
  else
    let len := (natText n).length
    let (c, k) := shortestDigits x n (len - 1)
    let digits := natText c
    let tail := dropZeros digits.tail
    digits.take 1 ++ (if tail = [] then [] else cp '.' :: tail) ++ py "e+"
      ++ natText (digits.length - 1 + k)

/-- `float(i)`; `none` is the `OverflowError`. -/
def floatOfInt (i : Int) : Option FiniteFloat :=
  let x := nearestDouble i.natAbs 1
  if 2 ^ 1024 * x.ratio.2 ≤ x.ratio.1 then none
  else
    let text := (if i < 0 then [cp '-'] else []) ++ integralText x
    if h : isFloatRepr text = true then some ⟨text, h⟩ else none

/-! ## Equality -/

/-- Numerically equal floats: the same double, or the two zeros. -/
def FiniteFloat.numEq (f g : FiniteFloat) : Bool :=
  decide (f.ratio.1 * g.ratio.2 = g.ratio.1 * f.ratio.2)

/-- `i == f`, which compares exact values. -/
def intEqFloat (i : Int) : PyFloat → Bool
  | .fin f =>
      match floatOfInt i with
      | some g =>
          let x := nearestDouble i.natAbs 1
          decide (x.ratio.1 = i.natAbs * x.ratio.2) && g.numEq f
      | none => false
  | _ => false

/-- `a == b` on two floats. -/
def floatEq : PyFloat → PyFloat → Bool
  | .fin f, .fin g => f.numEq g
  | .inf s, .inf s' => s = s'
  | _, _ => false

mutual
/-- `a == b`. -/
def pyEq : PyVal → PyVal → Bool
  | .none, .none => true
  | .str s, .str t => s = t
  | .list xs, .list ys => pyEqElems xs ys
  | .tuple xs, .tuple ys => pyEqElems xs ys
  | .dict kvs, .dict kvs' => decide (kvs.length = kvs'.length) && pyEqItems kvs kvs'
  | .float f, .float g => floatEq f g
  | .float f, .int i => intEqFloat i f
  | .float f, .bool b => intEqFloat (if b then 1 else 0) f
  | .int i, .float f => intEqFloat i f
  | .int i, .int j => decide (i = j)
  | .int i, .bool b => decide (i = if b then 1 else 0)
  | .bool b, .float f => intEqFloat (if b then 1 else 0) f
  | .bool b, .int i => decide (i = if b then 1 else 0)
  | .bool b, .bool b' => b = b'
  | _, _ => false
def pyEqElems : List PyVal → List PyVal → Bool
  | [], [] => true
  | x :: xs, y :: ys => pyEq x y && pyEqElems xs ys
  | _, _ => false
/-- Each item of the first is in the second. -/
def pyEqItems : List (PyKey × PyVal) → List (PyKey × PyVal) → Bool
  | [], _ => true
  | (k, v) :: kvs, kvs' =>
      (match kvs'.find? (fun p => p.1 = k) with
        | some p => pyEq v p.2
        | none => false) && pyEqItems kvs kvs'
end

theorem pyEq_str (s : PyStr) : pyEq (.str s) (.str s) = true := by simp [pyEq]

/-- Dictionaries are equal if each finds its items in the other; the order of keys is no part
of it. -/
theorem pyEqItems_of_find {kvs' : List (PyKey × PyVal)} : ∀ {kvs : List (PyKey × PyVal)},
    (∀ p ∈ kvs, ∃ q, kvs'.find? (fun x => x.1 = p.1) = some q ∧ pyEq p.2 q.2 = true) →
    pyEqItems kvs kvs' = true
  | [], _ => rfl
  | (k, v) :: kvs, h => by
      obtain ⟨q, hq, hv⟩ := h (k, v) (by simp)
      rw [pyEqItems, hq, pyEqItems_of_find fun p hp => h p (by simp [hp])]
      simpa using hv

/-- `f < g`. `repr` keeps the order of floats. -/
def FiniteFloat.lt (f g : FiniteFloat) : Bool :=
  decide (f.ratio.1 * g.ratio.2 < g.ratio.1 * f.ratio.2)

/-! ## Order -/

theorem FiniteFloat.ratio_pos (f : FiniteFloat) : 0 < f.ratio.2 := by
  simp only [FiniteFloat.ratio]
  split
  · exact Nat.one_pos
  · exact Nat.pow_pos (by decide)

/-- The decimal a float is written as. -/
def FiniteFloat.value (f : FiniteFloat) : ℚ := f.ratio.1 / f.ratio.2

/-- Floats are ordered as their decimals are. -/
theorem FiniteFloat.lt_iff_value {f g : FiniteFloat} : f.lt g = true ↔ f.value < g.value := by
  have hf : (0 : ℚ) < f.ratio.2 := by exact_mod_cast f.ratio_pos
  have hg : (0 : ℚ) < g.ratio.2 := by exact_mod_cast g.ratio_pos
  rw [FiniteFloat.lt, decide_eq_true_eq, value, value, div_lt_div_iff₀ hf hg]
  exact_mod_cast Iff.rfl

theorem FiniteFloat.lt_eq_false {f g : FiniteFloat} : f.lt g = false ↔ g.value ≤ f.value := by
  rw [← not_lt, ← lt_iff_value, Bool.not_eq_true]

/-! ## `format(x, ".2f")` -/

/-- `format(x, ".2f")`: the exact value of the double, rounded half to even. -/
def fixed2 (f : FiniteFloat) : PyStr :=
  let x := f.double
  let c := roundHalfEven (100 * x.ratio.1) x.ratio.2
  (if f.text.head? = some (cp '-') then [cp '-'] else [])
    ++ natText (c / 100) ++ [cp '.', digit (c / 10), digit c]

end Py
