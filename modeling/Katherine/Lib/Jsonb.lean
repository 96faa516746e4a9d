import Katherine.Lib.JsonRoundTrip
import Katherine.Lib.Number

/-!
# `jsonb` values

What PostgreSQL keeps of a JSON document. Numbers are `numeric`: an exact decimal
that remembers how many digits it was written with after the point, so `1.0` and
`1.00` are equal numbers with different texts. `Jsonb.text` is `v::text`, the
canonical text a digest is taken over, and `text_injective` says that nothing
else is lost on the way to it.

Casting a `numeric` to `double precision` rounds to the nearest double, and raises
where the result would be infinite or where a number other than zero would become
zero.
-/

namespace Pg

open Py

/-! ## `numeric` -/

/-- `coeff / 10 ^ scale`, with `scale` digits after the point. -/
structure Numeric where
  coeff : Int
  scale : Nat
deriving DecidableEq

/-- The last `k` decimal digits of `n`, leading zeros included. -/
def lastDigits : Nat → Nat → PyStr
  | 0, _ => []
  | k + 1, n => lastDigits k (n / 10) ++ [digit n]

/-- A magnitude with `scale` digits after the point, and no point where there are none. -/
def decimalText (n scale : Nat) : PyStr :=
  if scale = 0 then natText n
  else natText (n / 10 ^ scale) ++ cp '.' :: lastDigits scale n

/-- `x::text`. -/
def Numeric.text (x : Numeric) : PyStr :=
  (if x.coeff < 0 then [cp '-'] else []) ++ decimalText x.coeff.natAbs x.scale

/-- `x::double precision`, as the exact value of the double; `none` is "out of range". -/
def Numeric.toDouble (x : Numeric) : Option (Int × Nat) :=
  let d := nearestDouble x.coeff.natAbs (10 ^ x.scale)
  if 2 ^ 1024 * d.ratio.2 ≤ d.ratio.1 then none
  else if d.m = 0 ∧ x.coeff ≠ 0 then none
  else some ((if x.coeff < 0 then -(d.ratio.1 : Int) else d.ratio.1), d.ratio.2)

/-- How `numeric` reads the text of a float. -/
def Numeric.ofFloat (f : FiniteFloat) : Numeric :=
  ⟨f.ratio.1, ((fractionDigits f.text).length - exponentOf f.text).toNat⟩

theorem Numeric.scale_ofFloat (f : FiniteFloat) : f.ratio.2 = 10 ^ (Numeric.ofFloat f).scale := by
  simp only [FiniteFloat.ratio, Numeric.ofFloat]
  split
  · rename_i he
    have hscale : ((fractionDigits f.text).length - exponentOf f.text : Int).toNat = 0 := by omega
    rw [hscale, Nat.pow_zero]
  · have hscale : (-(exponentOf f.text - (fractionDigits f.text).length) : Int).toNat =
        ((fractionDigits f.text).length - exponentOf f.text : Int).toNat := by omega
    rw [hscale]

/-- The number. -/
def Numeric.value (x : Numeric) : ℚ := x.coeff / (10 ^ x.scale : Nat)

/-- The decimal of a float is kept. -/
theorem Numeric.value_ofFloat (f : FiniteFloat) : (Numeric.ofFloat f).value = f.value := by
  rw [FiniteFloat.value, scale_ofFloat f]
  rfl

/-! ## Values -/

inductive Jsonb
  | null
  | bool (b : Bool)
  | num (x : Numeric)
  | str (s : PyStr)
  | arr (xs : List Jsonb)
  | obj (kvs : List (PyStr × Jsonb))

namespace Jsonb

/-- `jsonb_typeof(v) = 'object'`; the members. -/
def members? : Jsonb → Option (List (PyStr × Jsonb))
  | .obj kvs => some kvs
  | _ => none

/-- `jsonb_typeof(v) = 'array'`; the elements. -/
def elements? : Jsonb → Option (List Jsonb)
  | .arr xs => some xs
  | _ => none

def isObject : Jsonb → Bool
  | .obj _ => true
  | _ => false

def isString : Jsonb → Bool
  | .str _ => true
  | _ => false

/-- `v -> k`. -/
def get? (v : Jsonb) (k : PyStr) : Option Jsonb :=
  v.members?.bind fun kvs => (kvs.find? fun p => p.1 = k).map (·.2)

mutual
/-- `v::text`. -/
def text : Jsonb → PyStr
  | .null => py "null"
  | .bool true => py "true"
  | .bool false => py "false"
  | .num x => x.text
  | .str s => quote s
  | .arr [] => [cp '[', cp ']']
  | .arr (x :: xs) => cp '[' :: (text x ++ textElems xs)
  | .obj [] => [cp '{', cp '}']
  | .obj ((k, v) :: kvs) => cp '{' :: (quote k ++ (cp ':' :: cp ' ' :: (text v ++ textItems kvs)))
/-- The elements after the first, and the closing bracket. -/
def textElems : List Jsonb → PyStr
  | [] => [cp ']']
  | x :: xs => cp ',' :: cp ' ' :: (text x ++ textElems xs)
/-- The members after the first, and the closing brace. -/
def textItems : List (PyStr × Jsonb) → PyStr
  | [] => [cp '}']
  | (k, v) :: kvs =>
      cp ',' :: cp ' ' :: (quote k ++ (cp ':' :: cp ' ' :: (text v ++ textItems kvs)))
end

/-- `v #>> '{}'`: the string itself, and the text of anything else but `null`. -/
def asText : Jsonb → Option PyStr
  | .null => none
  | .str s => some s
  | v => some v.text

/-- `v ->> k`. -/
def getText? (v : Jsonb) (k : PyStr) : Option PyStr := (v.get? k).bind asText

/-- `octet_length(v::text)`. -/
def octetLength (v : Jsonb) : Nat := utf8Len v.text

/-- Members are kept by the length of their keys, then by the keys. -/
def memberLe (a b : PyStr × Jsonb) : Prop :=
  utf8Len a.1 < utf8Len b.1 ∨ utf8Len a.1 = utf8Len b.1 ∧ a.1 ≤ b.1

instance : DecidableRel memberLe := fun a b => by unfold memberLe; infer_instance

mutual
/-- The value of a JSON document a client sends; `none` for what is not JSON. -/
def ofPy : PyVal → Option Jsonb
  | .none => some .null
  | .bool b => some (.bool b)
  | .int i => some (.num ⟨i, 0⟩)
  | .float (.fin f) => some (.num (.ofFloat f))
  | .float _ => none
  | .str s => some (.str s)
  | .list xs => (ofPyElems xs).map .arr
  | .tuple xs => (ofPyElems xs).map .arr
  | .dict kvs => (ofPyItems kvs).map fun kvs => .obj (kvs.insertionSort memberLe)
  | .obj => none
def ofPyElems : List PyVal → Option (List Jsonb)
  | [] => some []
  | x :: xs => do
      let x ← ofPy x
      let xs ← ofPyElems xs
      pure (x :: xs)
/-- Of two members with one key the later counts. -/
def ofPyItems : List (PyKey × PyVal) → Option (List (PyStr × Jsonb))
  | [] => some []
  | (k, v) :: kvs => do
      let v ← ofPy v
      let kvs ← ofPyItems kvs
      pure (if kvs.any (·.1 = keyText k) then kvs else (keyText k, v) :: kvs)
end

end Jsonb

/-! ## The text determines the value -/

theorem lastDigits_length : ∀ k n : Nat, (lastDigits k n).length = k
  | 0, _ => rfl
  | k + 1, n => by simp [lastDigits, lastDigits_length k]

theorem lastDigits_all_digit : ∀ k n : Nat, ∀ c ∈ lastDigits k n, isDigit c = true
  | 0, _, c, hc => by simp [lastDigits] at hc
  | k + 1, n, c, hc => by
      rcases List.mem_append.mp hc with hc | hc
      · exact lastDigits_all_digit k _ c hc
      · obtain rfl : c = digit n := by simpa using hc
        exact digit_isDigit n

theorem natOfText_lastDigits : ∀ k n : Nat, natOfText (lastDigits k n) = n % 10 ^ k
  | 0, n => by simp [lastDigits, natOfText, Nat.mod_one]
  | k + 1, n => by
      have hd : (digit n).val - 48 = n % 10 := by simp [digit]
      rw [lastDigits, natOfText_snoc, natOfText_lastDigits k, hd, Nat.pow_succ', Nat.mod_mul]
      omega

/-- What follows the integer part. -/
def fractionTail (n scale : Nat) : PyStr := if scale = 0 then [] else cp '.' :: lastDigits scale n

theorem decimalText_eq (n scale : Nat) :
    decimalText n scale = natText (n / 10 ^ scale) ++ fractionTail n scale := by
  by_cases hs : scale = 0
  · simp [decimalText, fractionTail, hs]
  · simp [decimalText, fractionTail, hs]

theorem fractionTail_takeWhile (n scale : Nat) : (fractionTail n scale).takeWhile isDigit = [] := by
  have hdot : isDigit (cp '.') = false := by decide
  unfold fractionTail
  split
  · rfl
  · simp [hdot]

theorem decimalText_takeWhile (n scale : Nat) :
    (decimalText n scale).takeWhile isDigit = natText (n / 10 ^ scale) := by
  rw [decimalText_eq, List.takeWhile_append_of_pos (natText_all_digit _), fractionTail_takeWhile,
    List.append_nil]

theorem decimalText_injective {n m s t : Nat} (h : decimalText n s = decimalText m t) :
    n = m ∧ s = t := by
  have hint : n / 10 ^ s = m / 10 ^ t := by
    apply natText_injective
    rw [← decimalText_takeWhile, ← decimalText_takeWhile, h]
  have htail : fractionTail n s = fractionTail m t := by
    rw [decimalText_eq, decimalText_eq, hint] at h
    exact List.append_cancel_left h
  -- the number of digits after the point, and then the digits
  have hscale : s = t := by
    have hlen := congrArg List.length htail
    unfold fractionTail at hlen
    by_cases hs : s = 0 <;> by_cases ht : t = 0 <;>
      simp [hs, ht, lastDigits_length] at hlen ⊢
    exact hlen
  subst hscale
  refine ⟨?_, rfl⟩
  by_cases hs : s = 0
  · subst hs
    simpa using hint
  · have hlast : lastDigits s n = lastDigits s m := by simpa [fractionTail, hs] using htail
    have hmod := congrArg natOfText hlast
    rw [natOfText_lastDigits, natOfText_lastDigits] at hmod
    rw [← Nat.div_add_mod n (10 ^ s), ← Nat.div_add_mod m (10 ^ s), hint, hmod]

theorem decimalText_head (n scale : Nat) :
    ∃ c t, decimalText n scale = c :: t ∧ isDigit c = true := by
  obtain ⟨c, t, hc, hd⟩ := natText_cons (n / 10 ^ scale)
  exact ⟨c, t ++ fractionTail n scale, by rw [decimalText_eq, hc]; rfl, hd⟩

/-- A number's text is its sign and its magnitude. -/
theorem Numeric.text_injective {x y : Numeric} (h : x.text = y.text) : x = y := by
  obtain ⟨c, s, hc, hcd⟩ := decimalText_head x.coeff.natAbs x.scale
  obtain ⟨d, t, hd, hdd⟩ := decimalText_head y.coeff.natAbs y.scale
  have hminus : isDigit (cp '-') = false := by decide
  have hsame : (x.coeff < 0 ↔ y.coeff < 0) ∧
      decimalText x.coeff.natAbs x.scale = decimalText y.coeff.natAbs y.scale := by
    unfold Numeric.text at h
    by_cases hx : x.coeff < 0 <;> by_cases hy : y.coeff < 0
    · exact ⟨iff_of_true hx hy, by simpa [hx, hy] using h⟩
    · simp only [hx, hy, if_true, if_false, List.nil_append, List.singleton_append, hd,
        List.cons.injEq] at h
      rw [← h.1, hminus] at hdd
      cases hdd
    · simp only [hx, hy, if_true, if_false, List.nil_append, List.singleton_append, hc,
        List.cons.injEq] at h
      rw [h.1, hminus] at hcd
      cases hcd
    · exact ⟨iff_of_false hx hy, by simpa [hx, hy] using h⟩
  obtain ⟨hsign, hdec⟩ := hsame
  obtain ⟨habs, hscale⟩ := decimalText_injective hdec
  cases x with
  | mk a s =>
      cases y with
      | mk b t =>
          simp only at hsign habs hscale
          have : a = b := by omega
          rw [this, hscale]

/-- All the digits, read together. -/
theorem natOfText_decimal : ∀ k n : Nat, natOfText (natText (n / 10 ^ k) ++ lastDigits k n) = n
  | 0, n => by rw [lastDigits, List.append_nil, Nat.pow_zero, Nat.div_one, natOfText_natText]
  | k + 1, n => by
      have hd : (digit n).val - 48 = n % 10 := by simp [digit]
      have hdiv : n / 10 ^ (k + 1) = n / 10 / 10 ^ k := by rw [Nat.div_div_eq_div_mul, Nat.pow_succ']
      rw [lastDigits, ← List.append_assoc, natOfText_snoc, hdiv, natOfText_decimal k, hd]
      omega

/-- A float with the text of a number has its digits. -/
theorem Numeric.ratio_of_text {f : FiniteFloat} {x : Numeric} (hscale : x.scale ≠ 0) (h : f.text = x.text) :
    f.ratio = (x.coeff, 10 ^ x.scale) := by
  have hdecimal : decimalText x.coeff.natAbs x.scale =
      natText (x.coeff.natAbs / 10 ^ x.scale) ++ cp '.' :: lastDigits x.scale x.coeff.natAbs := by
    rw [decimalText, if_neg hscale]
  obtain ⟨c, t, hc, hdigit⟩ := decimalText_head x.coeff.natAbs x.scale
  have hminus : c ≠ cp '-' := by
    rintro rfl
    exact absurd hdigit (by decide)
  have hdrop : dropMinus f.text = decimalText x.coeff.natAbs x.scale := by
    rw [h, Numeric.text, hc]
    split
    · simp [dropMinus]
    · simp [dropMinus, hminus]
  have hhead : f.text.head? = some (cp '-') ↔ x.coeff < 0 := by
    rw [h, Numeric.text, hc]
    split
    · simp [*]
    · simp [*]
  have hdot : isDigit (cp '.') = false := by decide
  have hfraction : fractionDigits f.text = lastDigits x.scale x.coeff.natAbs := by
    have hall : (lastDigits x.scale x.coeff.natAbs).takeWhile isDigit = lastDigits x.scale x.coeff.natAbs :=
      List.takeWhile_eq_self_iff.mpr (lastDigits_all_digit _ _)
    rw [fractionDigits, hdrop, hdecimal, List.dropWhile_append_of_pos (natText_all_digit _),
      List.dropWhile_cons_of_neg (by simp [hdot])]
    simp [hall]
  have hexponent : exponentOf f.text = 0 := by
    have hplain : ∀ d ∈ f.text, decide (d ≠ cp 'e') = true := by
      intro d hd
      rw [h, Numeric.text, hdecimal] at hd
      have hne : ∀ d, isDigit d = true → d ≠ cp 'e' := by
        rintro d hd rfl
        exact absurd hd (by decide)
      refine decide_eq_true ?_
      rcases List.mem_append.mp hd with hd | hd
      · split at hd
        · rw [List.mem_singleton.mp hd]
          decide
        · cases hd
      · rcases List.mem_append.mp hd with hd | hd
        · exact hne d (natText_all_digit _ d hd)
        · rcases List.mem_cons.mp hd with rfl | hd
          · decide
          · exact hne d (lastDigits_all_digit _ _ d hd)
    rw [exponentOf, List.dropWhile_eq_nil_iff.mpr hplain]
  have hwhole : (dropMinus f.text).takeWhile isDigit = natText (x.coeff.natAbs / 10 ^ x.scale) := by
    rw [hdrop, decimalText_takeWhile]
  have hpos : ¬ (0 : Int) ≤ 0 - (x.scale : Int) := by omega
  have hexp : (-(0 - (x.scale : Int))).toNat = x.scale := by omega
  simp only [FiniteFloat.ratio, hfraction, hexponent, hwhole, natOfText_decimal, lastDigits_length, if_neg hpos,
    hexp, hhead]
  congr 1
  split <;> omega

theorem Numeric.value_of_text {f : FiniteFloat} {x : Numeric} (hscale : x.scale ≠ 0) (h : f.text = x.text) :
    f.value = x.value := by
  rw [FiniteFloat.value, ratio_of_text hscale h]
  rfl

theorem Numeric.text_numChar (x : Numeric) : ∀ c ∈ x.text, isNumChar c = true := by
  intro c hc
  have hdec : c ∈ decimalText x.coeff.natAbs x.scale → isNumChar c = true := by
    rw [decimalText_eq, List.mem_append]
    rintro (hc | hc)
    · exact isDigit_isNumChar (natText_all_digit _ c hc)
    · unfold fractionTail at hc
      split at hc
      · simp at hc
      · rcases List.mem_cons.mp hc with rfl | hc
        · decide
        · exact isDigit_isNumChar (lastDigits_all_digit _ _ c hc)
  unfold Numeric.text at hc
  rcases List.mem_append.mp hc with hc | hc
  · split at hc
    · obtain rfl : c = cp '-' := by simpa using hc
      decide
    · simp at hc
  · exact hdec hc

namespace Jsonb

/-- The character that tells the kinds of value apart; a number goes by `0`. -/
def tag : Jsonb → CodePoint
  | .null => cp 'n'
  | .bool true => cp 't'
  | .bool false => cp 'f'
  | .num _ => cp '0'
  | .str _ => cp '"'
  | .arr _ => cp '['
  | .obj _ => cp '{'

def tagOf (c : CodePoint) : CodePoint := if isDigit c || decide (c = cp '-') then cp '0' else c

theorem head_text (v : Jsonb) (r : PyStr) : (v.text ++ r).head?.map tagOf = some v.tag := by
  cases v with
  | null => rfl
  | bool b => cases b <;> rfl
  | num x =>
      obtain ⟨c, t, hc, hd⟩ := decimalText_head x.coeff.natAbs x.scale
      rw [text, Numeric.text, hc]
      split
      · rfl
      · simp [tag, tagOf, hd]
  | str s => rfl
  | arr xs => cases xs <;> rfl
  | obj kvs => cases kvs <;> rfl

theorem tag_of_text {a b : Jsonb} {r r' : PyStr} (h : a.text ++ r = b.text ++ r') : a.tag = b.tag := by
  have ha := head_text a r
  rw [h, head_text b r'] at ha
  exact (Option.some.inj ha).symm

theorem tag_ne_bracket (v : Jsonb) : v.tag ≠ cp ']' := by
  cases v with
  | bool b => cases b <;> decide
  | _ => simp only [tag]; decide

/-- A value's text does not start like the end of a list. -/
theorem text_ne_bracket {v : Jsonb} {r r' : PyStr} : cp ']' :: r ≠ v.text ++ r' := by
  intro h
  have hv := head_text v r'
  rw [← h] at hv
  exact tag_ne_bracket v (Option.some.inj hv).symm

theorem quote_append_inj {s t r r' : PyStr} (h : quote s ++ r = quote t ++ r') : s = t ∧ r = r' := by
  simp only [quote, List.cons_append, List.append_assoc, List.nil_append, List.cons.injEq,
    true_and] at h
  have hs := readStr_escape s r
  rw [h, readStr_escape t r'] at hs
  injection hs with hs
  injection hs with h1 h2
  exact ⟨h1.symm, h2.symm⟩

theorem textElems_numStop : ∀ (xs : List Jsonb) {r : PyStr}, NumStop (textElems xs ++ r)
  | [], r => by rw [textElems]; exact numStop_cons (by decide)
  | x :: xs, r => by rw [textElems]; exact numStop_cons (by decide)

theorem textItems_numStop : ∀ (kvs : List (PyStr × Jsonb)) {r : PyStr}, NumStop (textItems kvs ++ r)
  | [], r => by rw [textItems]; exact numStop_cons (by decide)
  | (k, v) :: kvs, r => by rw [textItems]; exact numStop_cons (by decide)

mutual
/-- No text of a value goes on as the text of another, once numbers are delimited. -/
theorem text_append_inj : ∀ (a b : Jsonb) {r r' : PyStr}, NumStop r → NumStop r' →
    a.text ++ r = b.text ++ r' → a = b ∧ r = r'
  | .null, b, r, r', _, _, h => by
      have ht := tag_of_text h
      cases b with
      | null => exact ⟨rfl, by simpa [text] using h⟩
      | bool b => cases b <;> exact absurd ht (by decide)
      | _ => exact absurd ht (by simp only [tag]; decide)
  | .bool x, b, r, r', _, _, h => by
      have ht := tag_of_text h
      cases b with
      | bool y => cases x <;> cases y <;> first
          | exact ⟨rfl, by simpa [text] using h⟩
          | exact absurd ht (by decide)
      | _ => cases x <;> exact absurd ht (by simp only [tag]; decide)
  | .num x, b, r, r', hr, hr', h => by
      have ht := tag_of_text h
      cases b with
      | num y =>
          simp only [text] at h
          obtain ⟨hx, hxr⟩ := takeWhile_numStop x.text_numChar hr
          obtain ⟨hy, hyr⟩ := takeWhile_numStop y.text_numChar hr'
          refine ⟨?_, by rw [← hxr, h, hyr]⟩
          rw [Numeric.text_injective (x := x) (y := y) (by rw [← hx, h, hy])]
      | bool b => cases b <;> exact absurd ht (by simp only [tag]; decide)
      | _ => exact absurd ht (by simp only [tag]; decide)
  | .str s, b, r, r', _, _, h => by
      have ht := tag_of_text h
      cases b with
      | str t =>
          simp only [text] at h
          obtain ⟨rfl, rfl⟩ := quote_append_inj h
          exact ⟨rfl, rfl⟩
      | bool b => cases b <;> exact absurd ht (by simp only [tag]; decide)
      | _ => exact absurd ht (by simp only [tag]; decide)
  | .arr xs, b, r, r', _, _, h => by
      have ht := tag_of_text h
      cases b with
      | arr ys =>
          obtain ⟨rfl, rfl⟩ := textArr_append_inj xs ys h
          exact ⟨rfl, rfl⟩
      | bool b => cases b <;> exact absurd ht (by simp only [tag]; decide)
      | _ => exact absurd ht (by simp only [tag]; decide)
  | .obj kvs, b, r, r', _, _, h => by
      have ht := tag_of_text h
      cases b with
      | obj kvs' =>
          obtain ⟨rfl, rfl⟩ := textObj_append_inj kvs kvs' h
          exact ⟨rfl, rfl⟩
      | bool b => cases b <;> exact absurd ht (by simp only [tag]; decide)
      | _ => exact absurd ht (by simp only [tag]; decide)
theorem textArr_append_inj : ∀ (xs ys : List Jsonb) {r r' : PyStr},
    (Jsonb.arr xs).text ++ r = (Jsonb.arr ys).text ++ r' → xs = ys ∧ r = r'
  | [], [], r, r', h => by simpa [text] using h
  | [], y :: ys, r, r', h => by
      simp only [text, List.cons_append, List.nil_append, List.append_assoc, List.cons.injEq,
        true_and] at h
      exact absurd h text_ne_bracket
  | x :: xs, [], r, r', h => by
      simp only [text, List.cons_append, List.nil_append, List.append_assoc, List.cons.injEq,
        true_and] at h
      exact absurd h.symm text_ne_bracket
  | x :: xs, y :: ys, r, r', h => by
      simp only [text, List.cons_append, List.append_assoc, List.cons.injEq, true_and] at h
      obtain ⟨rfl, hrest⟩ := text_append_inj x y (textElems_numStop xs) (textElems_numStop ys) h
      obtain ⟨rfl, rfl⟩ := textElems_append_inj xs ys hrest
      exact ⟨rfl, rfl⟩
theorem textElems_append_inj : ∀ (xs ys : List Jsonb) {r r' : PyStr},
    textElems xs ++ r = textElems ys ++ r' → xs = ys ∧ r = r'
  | [], [], r, r', h => by simpa [textElems] using h
  | [], y :: ys, r, r', h => by
      simp only [textElems, List.cons_append, List.cons.injEq] at h
      exact absurd h.1 (by decide)
  | x :: xs, [], r, r', h => by
      simp only [textElems, List.cons_append, List.cons.injEq] at h
      exact absurd h.1 (by decide)
  | x :: xs, y :: ys, r, r', h => by
      simp only [textElems, List.cons_append, List.append_assoc, List.cons.injEq, true_and] at h
      obtain ⟨rfl, hrest⟩ := text_append_inj x y (textElems_numStop xs) (textElems_numStop ys) h
      obtain ⟨rfl, rfl⟩ := textElems_append_inj xs ys hrest
      exact ⟨rfl, rfl⟩
theorem textObj_append_inj : ∀ (kvs kvs' : List (PyStr × Jsonb)) {r r' : PyStr},
    (Jsonb.obj kvs).text ++ r = (Jsonb.obj kvs').text ++ r' → kvs = kvs' ∧ r = r'
  | [], [], r, r', h => by simpa [text] using h
  | [], (k, v) :: kvs', r, r', h => by
      simp only [text, quote, List.cons_append, List.cons.injEq, true_and] at h
      exact absurd h.1 (by decide)
  | (k, v) :: kvs, [], r, r', h => by
      simp only [text, quote, List.cons_append, List.cons.injEq, true_and] at h
      exact absurd h.1 (by decide)
  | (k, v) :: kvs, (k', v') :: kvs', r, r', h => by
      simp only [text, List.cons_append, List.append_assoc, List.cons.injEq, true_and] at h
      obtain ⟨rfl, hval⟩ := quote_append_inj h
      simp only [List.cons.injEq, true_and] at hval
      obtain ⟨rfl, hrest⟩ :=
        text_append_inj v v' (textItems_numStop kvs) (textItems_numStop kvs') hval
      obtain ⟨rfl, rfl⟩ := textItems_append_inj kvs kvs' hrest
      exact ⟨rfl, rfl⟩
theorem textItems_append_inj : ∀ (kvs kvs' : List (PyStr × Jsonb)) {r r' : PyStr},
    textItems kvs ++ r = textItems kvs' ++ r' → kvs = kvs' ∧ r = r'
  | [], [], r, r', h => by simpa [textItems] using h
  | [], (k, v) :: kvs', r, r', h => by
      simp only [textItems, List.cons_append, List.cons.injEq] at h
      exact absurd h.1 (by decide)
  | (k, v) :: kvs, [], r, r', h => by
      simp only [textItems, List.cons_append, List.cons.injEq] at h
      exact absurd h.1 (by decide)
  | (k, v) :: kvs, (k', v') :: kvs', r, r', h => by
      simp only [textItems, List.cons_append, List.append_assoc, List.cons.injEq, true_and] at h
      obtain ⟨rfl, hval⟩ := quote_append_inj h
      simp only [List.cons.injEq, true_and] at hval
      obtain ⟨rfl, hrest⟩ :=
        text_append_inj v v' (textItems_numStop kvs) (textItems_numStop kvs') hval
      obtain ⟨rfl, rfl⟩ := textItems_append_inj kvs kvs' hrest
      exact ⟨rfl, rfl⟩
end

/-- **The canonical text determines the value.** -/
theorem text_injective : Function.Injective Jsonb.text := by
  intro a b h
  have h' : a.text ++ [] = b.text ++ [] := by rw [h]
  exact (text_append_inj a b numStop_nil numStop_nil h').1

/-! ## Members of a document that was sent -/

theorem ofPyItems_cons {k : PyKey} {v : PyVal} {kvs : List (PyKey × PyVal)}
    {items : List (PyStr × Jsonb)} (h : ofPyItems ((k, v) :: kvs) = some items) :
    ∃ x rest, ofPy v = some x ∧ ofPyItems kvs = some rest ∧
      items = if rest.any (·.1 = keyText k) then rest else (keyText k, x) :: rest := by
  simp only [ofPyItems, Option.bind_eq_bind, Option.bind_eq_some_iff, Option.pure_def,
    Option.some.injEq] at h
  obtain ⟨x, hx, rest, hrest, rfl⟩ := h
  exact ⟨x, rest, hx, hrest, rfl⟩

/-- No key twice. -/
theorem ofPyItems_nodup : ∀ {kvs : List (PyKey × PyVal)} {items : List (PyStr × Jsonb)},
    ofPyItems kvs = some items → (items.map (·.1)).Nodup
  | [], items, h => by
      obtain rfl : [] = items := by simpa [ofPyItems] using h
      exact List.nodup_nil
  | (k, v) :: kvs, items, h => by
      obtain ⟨x, rest, -, hrest, rfl⟩ := ofPyItems_cons h
      have ih := ofPyItems_nodup hrest
      by_cases hany : rest.any (·.1 = keyText k) = true
      · rw [if_pos hany]
        exact ih
      · rw [if_neg hany, List.map_cons, List.nodup_cons]
        refine ⟨fun hmem => hany ?_, ih⟩
        obtain ⟨p, hp, hk⟩ := List.mem_map.mp hmem
        exact List.any_eq_true.mpr ⟨p, hp, decide_eq_true hk⟩

/-- Every key comes from a key of the dictionary. -/
theorem key_of_mem_ofPyItems : ∀ {kvs : List (PyKey × PyVal)} {items : List (PyStr × Jsonb)},
    ofPyItems kvs = some items → ∀ p ∈ items, ∃ q ∈ kvs, keyText q.1 = p.1
  | [], items, h => by
      obtain rfl : [] = items := by simpa [ofPyItems] using h
      simp
  | (k, v) :: kvs, items, h => by
      obtain ⟨x, rest, -, hrest, rfl⟩ := ofPyItems_cons h
      have ih := key_of_mem_ofPyItems hrest
      have hold : ∀ p ∈ rest, ∃ q ∈ (k, v) :: kvs, keyText q.1 = p.1 := by
        intro p hp
        obtain ⟨q, hq, hk⟩ := ih p hp
        exact ⟨q, List.mem_cons_of_mem _ hq, hk⟩
      by_cases hany : rest.any (·.1 = keyText k) = true
      · rw [if_pos hany]
        exact hold
      · rw [if_neg hany]
        intro p hp
        rcases List.mem_cons.mp hp with rfl | hp
        · exact ⟨(k, v), List.mem_cons_self .., rfl⟩
        · exact hold p hp

theorem mem_ofPyItems {k : PyStr} {v : PyVal} {x : Jsonb} (hx : ofPy v = some x) :
    ∀ {kvs : List (PyKey × PyVal)} {items : List (PyStr × Jsonb)}, isJsonItems kvs = true →
    ofPyItems kvs = some items → (.str k, v) ∈ kvs → (k, x) ∈ items
  | [], _, _, _, hv => by simp at hv
  | (k', v') :: kvs, items, hjson, h, hv => by
      simp only [isJsonItems, Bool.and_eq_true, List.all_eq_true, decide_eq_true_eq] at hjson
      obtain ⟨⟨⟨-, hfresh⟩, -⟩, hrestjson⟩ := hjson
      obtain ⟨x', rest, hx', hrest, rfl⟩ := ofPyItems_cons h
      rcases List.mem_cons.mp hv with heq | hv
      · obtain ⟨rfl, rfl⟩ := Prod.mk.inj heq
        -- a later member of this key would be a later item of this key
        have hnone : ¬ rest.any (·.1 = k) = true := by
          intro hany
          obtain ⟨p, hp, hpk⟩ := List.any_eq_true.mp hany
          obtain ⟨q, hq, hqk⟩ := key_of_mem_ofPyItems hrest p hp
          have hstr := (((isJsonItems_iff kvs).mp hrestjson).1 q hq).1
          have hkq : keyText q.1 = k := hqk.trans (of_decide_eq_true hpk)
          refine hfresh q hq ?_
          cases hq1 : q.1 with
          | str s =>
              rw [hq1] at hkq
              exact congrArg PyKey.str hkq
          | _ =>
              rw [hq1] at hstr
              cases hstr
        rw [show keyText (.str k) = k from rfl, if_neg hnone]
        rw [hx] at hx'
        rw [Option.some.inj hx']
        exact List.mem_cons_self ..
      · have hmem := mem_ofPyItems hx hrestjson hrest hv
        split
        · exact hmem
        · exact List.mem_cons_of_mem _ hmem

/-- **A lookup in the document finds what the dictionary has there.** -/
theorem get?_of_ofPy {kvs : List (PyKey × PyVal)} {doc x : Jsonb} {k : PyStr} {v : PyVal}
    (hjson : isJsonItems kvs = true) (hdoc : ofPy (.dict kvs) = some doc)
    (hk : dictGet kvs k = some v) (hx : ofPy v = some x) : doc.get? k = some x := by
  simp only [ofPy, Option.map_eq_some_iff] at hdoc
  obtain ⟨items, hitems, rfl⟩ := hdoc
  have hmem : (k, x) ∈ items := by
    have hnodup := ((isJsonItems_iff kvs).mp hjson).2
    exact mem_ofPyItems hx hjson hitems ((dictGet_eq_some hnodup).mp hk)
  have hperm := List.perm_insertionSort memberLe items
  have hnodup : ((items.insertionSort memberLe).map (·.1)).Nodup :=
    (hperm.map _).nodup_iff.mpr (ofPyItems_nodup hitems)
  obtain ⟨p, hp⟩ : ∃ p, (items.insertionSort memberLe).find? (fun p => p.1 = k) = some p := by
    rw [← Option.isSome_iff_exists, List.find?_isSome]
    exact ⟨(k, x), hperm.mem_iff.mpr hmem, by simp⟩
  have hpk : p.1 = k := by simpa using List.find?_some hp
  have hpx : p = (k, x) := List.inj_on_of_nodup_map hnodup (List.mem_of_find?_eq_some hp)
    (hperm.mem_iff.mpr hmem) hpk
  rw [get?, members?, Option.bind_some, hp, hpx]
  rfl

end Jsonb

end Pg
