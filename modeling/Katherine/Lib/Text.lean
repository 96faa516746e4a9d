import Mathlib.Data.List.TakeWhile
import Mathlib.Data.List.DropRight
import Mathlib.Data.List.Lex
import Mathlib.Order.Fin.Basic
import Mathlib.Algebra.Order.Ring.Nat
import Mathlib.Algebra.Order.Ring.Int

/-!
# Python text

A Python `str` is a sequence of code points, lone surrogates included, so it is
not a Lean `String`: `Char` has no surrogates. The difference is visible. A text
with a lone surrogate is a perfectly good `str`, passes every length check, and
only fails once somebody asks for its UTF-8 encoding.

Here are the few operations a validator or a serialiser needs: length in code
points is `List.length`, length in bytes is `utf8Len`, `encodable` says whether
`.encode("utf-8")` returns at all, and `strip` is `str.strip()`.
-/

namespace Py

/-- One code point of a `str`, surrogates included. -/
abbrev CodePoint := Fin 0x110000

abbrev PyStr := List CodePoint

instance codePoint_neZero : NeZero 0x110000 := ⟨by decide⟩

instance : LawfulBEq CodePoint := inferInstance

instance : LawfulBEq PyStr := inferInstance

/-- The code point of a character. -/
def cp (c : Char) : CodePoint :=
  ⟨c.toNat % 0x110000, Nat.mod_lt _ (by omega)⟩

/-- A literal of the source. -/
def py (s : String) : PyStr := s.toList.map cp

@[simp] theorem py_length (s : String) : (py s).length = s.toList.length := by
  simp [py]

/-- A literal is read off from its characters, which spares decoding it. -/
theorem py_ofList (cs : List Char) : py (String.ofList cs) = cs.map cp := by
  rw [py, String.toList_ofList]

/-! ## UTF-8 -/

def isSurrogate (c : CodePoint) : Bool := decide (0xD800 ≤ c.val) && decide (c.val ≤ 0xDFFF)

/-- `s.encode("utf-8")` returns: no lone surrogate occurs. -/
def encodable (s : PyStr) : Bool := s.all fun c => !isSurrogate c

/-- Bytes one code point takes in UTF-8. -/
def utf8Size (c : CodePoint) : Nat :=
  if c.val < 0x80 then 1
  else if c.val < 0x800 then 2
  else if c.val < 0x10000 then 3
  else 4

/-- `len(s.encode("utf-8"))`, for a text that is encodable. -/
def utf8Len (s : PyStr) : Nat := (s.map utf8Size).sum

@[simp] theorem utf8Len_nil : utf8Len [] = 0 := rfl

@[simp] theorem utf8Len_cons (c : CodePoint) (s : PyStr) :
    utf8Len (c :: s) = utf8Size c + utf8Len s := by
  simp [utf8Len]

@[simp] theorem utf8Len_append (s t : PyStr) : utf8Len (s ++ t) = utf8Len s + utf8Len t := by
  simp [utf8Len]

@[simp] theorem encodable_nil : encodable [] = true := rfl

@[simp] theorem encodable_cons (c : CodePoint) (s : PyStr) :
    encodable (c :: s) = (!isSurrogate c && encodable s) := by
  simp [encodable]

@[simp] theorem encodable_append (s t : PyStr) :
    encodable (s ++ t) = (encodable s && encodable t) := by
  simp [encodable]

/-- A character is no surrogate. -/
@[simp] theorem isSurrogate_cp (c : Char) : isSurrogate (cp c) = false := by
  have hval : (cp c).val = c.toNat % 0x110000 := rfl
  have hvalid : c.toNat < 0xD800 ∨ 0xDFFF < c.toNat ∧ c.toNat < 0x110000 := c.valid
  simp only [isSurrogate, hval, Bool.and_eq_false_iff, decide_eq_false_iff_not]
  omega

@[simp] theorem encodable_py (s : String) : encodable (py s) = true := by
  rw [encodable, List.all_eq_true]
  intro c hc
  obtain ⟨x, _, rfl⟩ := List.mem_map.mp hc
  simp

theorem utf8Size_pos (c : CodePoint) : 1 ≤ utf8Size c := by
  unfold utf8Size
  split
  · omega
  · split
    · omega
    · split <;> omega

theorem utf8Size_le (c : CodePoint) : utf8Size c ≤ 4 := by
  unfold utf8Size
  split
  · omega
  · split
    · omega
    · split <;> omega

theorem utf8Len_le (s : PyStr) : utf8Len s ≤ 4 * s.length := by
  induction s with
  | nil => simp
  | cons c s ih =>
      have := utf8Size_le c
      simp only [List.length_cons, utf8Len_cons]
      omega

/-! ## Whitespace -/

/-- `str.isspace` on one code point: what `str.strip()` removes. -/
def isSpace (c : CodePoint) : Bool :=
  decide (c.val ∈ [0x20, 0x85, 0xA0, 0x1680, 0x2028, 0x2029, 0x202F, 0x205F, 0x3000])
    || (decide (0x09 ≤ c.val) && decide (c.val ≤ 0x0D))
    || (decide (0x1C ≤ c.val) && decide (c.val ≤ 0x1F))
    || (decide (0x2000 ≤ c.val) && decide (c.val ≤ 0x200A))

/-- `s.strip()`. -/
def strip (s : PyStr) : PyStr :=
  ((s.dropWhile isSpace).reverse.dropWhile isSpace).reverse

/-- Nothing but whitespace, the empty text included. -/
def blank (s : PyStr) : Bool := s.all isSpace

/-- Trimming at both ends leaves nothing exactly where there is nothing else. -/
theorem trim_eq_nil_iff (p : CodePoint → Bool) (s : PyStr) :
    ((s.dropWhile p).reverse.dropWhile p).reverse = [] ↔ s.all p = true := by
  rw [List.reverse_eq_nil_iff, List.dropWhile_eq_nil_iff, List.all_eq_true]
  constructor
  · intro h c hc
    -- were something left after the first pass, its head would not be trimmed
    by_cases hd : s.dropWhile p = []
    · exact List.dropWhile_eq_nil_iff.mp hd c hc
    · have hhead := List.head_dropWhile_not p hd
      have hmem := h ((s.dropWhile p).head hd)
        (List.mem_reverse.mpr (List.head_mem hd))
      rw [hmem] at hhead
      exact Bool.noConfusion hhead
  · intro h c hc
    exact h c (List.dropWhile_subset p (List.mem_reverse.mp hc))

/-- `not s.strip()` is "whitespace only". -/
theorem strip_eq_nil_iff (s : PyStr) : strip s = [] ↔ blank s = true := trim_eq_nil_iff isSpace s

theorem strip_eq_rdropWhile (s : PyStr) : strip s = (s.dropWhile isSpace).rdropWhile isSpace := rfl

/-- Stripping twice is stripping once. -/
theorem strip_strip (s : PyStr) : strip (strip s) = strip s := by
  have hpre : strip s <+: s.dropWhile isSpace := List.rdropWhile_prefix isSpace _
  have hfix : (strip s).dropWhile isSpace = strip s := by
    cases hs : strip s with
    | nil => rfl
    | cons c r =>
        -- the head survives from the first pass, which stopped at it
        have hne : s.dropWhile isSpace ≠ [] := by
          intro h0
          rw [hs, h0] at hpre
          simp at hpre
        have hc : (s.dropWhile isSpace).head hne = c := by
          rw [hs] at hpre
          obtain ⟨u, hu⟩ := hpre
          simp [← hu]
        have := List.head_dropWhile_not isSpace hne
        rw [hc] at this
        simp [this]
  rw [strip_eq_rdropWhile, hfix, strip_eq_rdropWhile, List.rdropWhile_idempotent]

/-- A text without whitespace has nothing to strip. -/
theorem strip_of_no_space {s : PyStr} (h : ∀ c ∈ s, isSpace c = false) : strip s = s := by
  have hdrop : ∀ t : PyStr, (∀ c ∈ t, isSpace c = false) → t.dropWhile isSpace = t := by
    intro t ht
    cases t with
    | nil => rfl
    | cons c t => exact List.dropWhile_cons_of_neg (by simp [ht c])
  rw [strip, hdrop s h, hdrop s.reverse fun c hc => h c (List.mem_reverse.mp hc), List.reverse_reverse]

/-! ## Joined texts -/

/-- A joined text has the separator in it, and what the parts have. -/
theorem mem_intercalate {sep x : CodePoint} : ∀ {parts : List PyStr},
    x ∈ [sep].intercalate parts → x = sep ∨ ∃ part ∈ parts, x ∈ part
  | [], h => by simp at h
  | [part], h => .inr ⟨part, by simp, by simpa using h⟩
  | part :: next :: parts, h => by
      rw [List.intercalate_cons_cons, List.mem_append, List.mem_append, List.mem_singleton] at h
      rcases h with (h | h) | h
      · exact .inr ⟨part, by simp, h⟩
      · exact .inl h
      · rcases mem_intercalate h with h | ⟨p, hp, h⟩
        · exact .inl h
        · exact .inr ⟨p, List.mem_cons_of_mem _ hp, h⟩

/-! ## Decimal numerals -/

/-- The digit `d` as a code point. -/
def digit (d : Nat) : CodePoint := ⟨48 + d % 10, by omega⟩

def isDigit (c : CodePoint) : Bool := decide (48 ≤ c.val) && decide (c.val ≤ 57)

/-- Least significant digit first; `fuel` bounds the number of digits. -/
def digitsRev : Nat → Nat → PyStr
  | 0, _ => []
  | fuel + 1, n => if n < 10 then [digit n] else digit n :: digitsRev fuel (n / 10)

/-- `str(n)` for a natural number. -/
def natText (n : Nat) : PyStr := (digitsRev (n + 1) n).reverse

/-- The value of a numeral, most significant digit first. -/
def natOfText (s : PyStr) : Nat := s.foldl (fun a c => 10 * a + (c.val - 48)) 0

@[simp] theorem digit_isDigit (d : Nat) : isDigit (digit d) = true := by
  have h : d % 10 < 10 := Nat.mod_lt _ (by omega)
  have h1 : (digit d).val = 48 + d % 10 := rfl
  rw [isDigit, h1, Bool.and_eq_true, decide_eq_true_eq, decide_eq_true_eq]
  omega

theorem digitsRev_all_digit : ∀ (fuel n : Nat), ∀ c ∈ digitsRev fuel n, isDigit c = true
  | 0, _, c, h => by simp [digitsRev] at h
  | fuel + 1, n, c, h => by
      rw [digitsRev] at h
      split at h
      · simp only [List.mem_singleton] at h
        subst h; exact digit_isDigit n
      · rcases List.mem_cons.mp h with h | h
        · subst h; exact digit_isDigit n
        · exact digitsRev_all_digit fuel (n / 10) c h

theorem natText_all_digit (n : Nat) : ∀ c ∈ natText n, isDigit c = true := by
  intro c hc
  exact digitsRev_all_digit (n + 1) n c (List.mem_reverse.mp hc)

theorem natText_ne_nil (n : Nat) : natText n ≠ [] := by
  unfold natText
  rw [digitsRev]
  split <;> simp

theorem natOfText_snoc (s : PyStr) (c : CodePoint) :
    natOfText (s ++ [c]) = 10 * natOfText s + (c.val - 48) := by
  simp [natOfText]

theorem natOfText_digitsRev : ∀ (fuel n : Nat), n < fuel →
    natOfText (digitsRev fuel n).reverse = n
  | 0, n, h => by omega
  | fuel + 1, n, h => by
      rw [digitsRev]
      split
      · rename_i hn
        simp only [List.reverse_singleton, natOfText, List.foldl_cons, List.foldl_nil, digit]
        omega
      · rename_i hn
        rw [List.reverse_cons, natOfText_snoc,
          natOfText_digitsRev fuel (n / 10) (by omega)]
        simp only [digit]
        omega

/-- Reading a numeral back gives the number it was written from. -/
@[simp] theorem natOfText_natText (n : Nat) : natOfText (natText n) = n :=
  natOfText_digitsRev (n + 1) n (by omega)

theorem natText_injective : Function.Injective natText := by
  intro m n h
  rw [← natOfText_natText m, ← natOfText_natText n, h]

/-- A numeral starts with `0` only when it is `0` itself. -/
theorem natText_head_zero {n : Nat} {s : PyStr} (h : natText n = digit 0 :: s) : s = [] := by
  have key : ∀ (fuel m : Nat), 0 < m → m < fuel →
      ∀ t, (digitsRev fuel m).reverse ≠ digit 0 :: t := by
    intro fuel
    induction fuel with
    | zero => intro m _ hm; omega
    | succ fuel ih =>
        intro m h0 hm t
        rw [digitsRev]
        split
        · rename_i hlt
          intro he
          simp only [List.reverse_singleton, List.cons.injEq, digit, Fin.mk.injEq] at he
          omega
        · rename_i hge
          rw [List.reverse_cons]
          intro he
          cases hr : (digitsRev fuel (m / 10)).reverse with
          | nil =>
              have := natOfText_digitsRev fuel (m / 10) (by omega)
              rw [hr] at this
              simp only [natOfText, List.foldl_nil] at this
              omega
          | cons c u =>
              rw [hr] at he
              simp only [List.cons_append, List.cons.injEq] at he
              refine ih (m / 10) (by omega) (by omega) u ?_
              rw [hr, he.1]
  rcases Nat.eq_zero_or_pos n with h0 | h0
  · subst h0
    have h1 : natText 0 = [digit 0] := rfl
    rw [h1] at h
    simpa using h.symm
  · exact absurd h (key (n + 1) n h0 (by omega) s)

/-- The numeral of a positive number does not start with `0`. -/
theorem natText_head_pos {n : Nat} (hn : 0 < n) : ∃ c s, natText n = c :: s ∧ 48 < c.val := by
  cases h : natText n with
  | nil => exact absurd h (natText_ne_nil n)
  | cons c s =>
      refine ⟨c, s, rfl, ?_⟩
      have hdigit := natText_all_digit n c (by rw [h]; exact List.mem_cons_self)
      simp only [isDigit, Bool.and_eq_true, decide_eq_true_eq] at hdigit
      by_contra hc
      have hzero : c = digit 0 := Fin.ext (by simp only [digit]; omega)
      subst hzero
      have hnil := natText_head_zero h
      subst hnil
      have hval := natOfText_natText n
      rw [h] at hval
      simp only [natOfText, List.foldl_cons, List.foldl_nil, digit] at hval
      omega

/-- A numeral from 10 on has two digits. -/
theorem natText_two {n : Nat} (hn : 10 ≤ n) : ∃ c s, natText n = c :: s ∧ 48 < c.val ∧ 1 ≤ s.length := by
  obtain ⟨c, s, hs, hc⟩ := natText_head_pos (n := n) (by omega)
  refine ⟨c, s, hs, hc, ?_⟩
  have hdigit := natText_all_digit n c (by rw [hs]; exact List.mem_cons_self)
  simp only [isDigit, Bool.and_eq_true, decide_eq_true_eq] at hdigit
  cases s with
  | nil =>
      have hval := natOfText_natText n
      rw [hs] at hval
      simp only [natOfText, List.foldl_cons, List.foldl_nil] at hval
      omega
  | cons d s => exact Nat.succ_le_succ (Nat.zero_le _)

theorem natOfText_ge {c : CodePoint} (hc : 48 < c.val) : ∀ s : PyStr,
    10 ^ s.length ≤ natOfText (c :: s) := by
  intro s
  induction s using List.reverseRecOn with
  | nil =>
      simp only [natOfText, List.foldl_cons, List.foldl_nil, List.length_nil]
      omega
  | append_singleton s d ih =>
      rw [← List.cons_append, natOfText_snoc, List.length_append, List.length_singleton, Nat.pow_succ]
      omega

theorem isSurrogate_of_isDigit {c : CodePoint} (h : isDigit c = true) : isSurrogate c = false := by
  simp only [isDigit, Bool.and_eq_true, decide_eq_true_eq] at h
  simp only [isSurrogate, Bool.and_eq_false_iff, decide_eq_false_iff_not]
  omega

theorem natText_encodable (n : Nat) : encodable (natText n) = true := by
  rw [encodable, List.all_eq_true]
  intro c hc
  rw [isSurrogate_of_isDigit (natText_all_digit n c hc)]
  rfl

theorem encodable_strip {s : PyStr} (h : encodable s = true) : encodable (strip s) = true := by
  rw [encodable, List.all_eq_true] at h ⊢
  intro c hc
  have h1 := (List.dropWhile_sublist isSpace).mem (List.mem_reverse.mp hc)
  exact h c ((List.dropWhile_sublist isSpace).mem (List.mem_reverse.mp h1))

/-- `sys.get_int_max_str_digits()`. -/
def maxStrDigits : Nat := 4300

/-- The interpreter refuses to write integers from here on. -/
@[irreducible] def intTextLimit : Nat := 10 ^ maxStrDigits

theorem lt_intTextLimit : 2 ^ 63 < intTextLimit := by
  have h1 : 2 ^ 63 < 10 ^ 20 := by decide
  have h2 : ∀ n, 20 ≤ n → 10 ^ 20 ≤ 10 ^ n := fun n hn => Nat.pow_le_pow_right (by decide) hn
  unfold intTextLimit
  exact Nat.lt_of_lt_of_le h1 (h2 maxStrDigits (by decide))

theorem one_lt_intTextLimit : 1 < intTextLimit := Nat.lt_trans (by decide) lt_intTextLimit

/-- `str(i)`. -/
def intText (i : Int) : PyStr :=
  if i < 0 then cp '-' :: natText i.natAbs else natText i.natAbs

/-! ## Lists read element by element -/

section

variable {α β ε : Type}

/-- What was read comes from an element. -/
theorem of_mem_mapM_some {f : α → Option β} : ∀ {xs : List α} {ys : List β}, xs.mapM f = some ys →
    ∀ y ∈ ys, ∃ x ∈ xs, f x = some y
  | [], ys, h, y, hy => by
      cases h
      cases hy
  | x :: xs, ys, h, y, hy => by
      simp only [List.mapM_cons, Option.bind_eq_bind, Option.bind_eq_some_iff] at h
      obtain ⟨b, hb, bs, hbs, h⟩ := h
      cases h
      rcases List.mem_cons.mp hy with rfl | hy
      · exact ⟨x, List.mem_cons_self, hb⟩
      · obtain ⟨x', hx', hf⟩ := of_mem_mapM_some hbs y hy
        exact ⟨x', List.mem_cons_of_mem x hx', hf⟩

/-- The same where reading may raise. -/
theorem of_mem_mapM_ok {f : α → Except ε β} : ∀ {xs : List α} {ys : List β}, xs.mapM f = .ok ys →
    ∀ y ∈ ys, ∃ x ∈ xs, f x = .ok y
  | [], ys, h, y, hy => by
      cases h
      cases hy
  | x :: xs, ys, h, y, hy => by
      rw [List.mapM_cons] at h
      cases hb : f x with
      | error e =>
          rw [hb] at h
          cases h
      | ok b =>
          rw [hb] at h
          cases hbs : xs.mapM f with
          | error e =>
              rw [hbs] at h
              cases h
          | ok bs =>
              rw [hbs] at h
              cases h
              rcases List.mem_cons.mp hy with rfl | hy
              · exact ⟨x, List.mem_cons_self, hb⟩
              · obtain ⟨x', hx', hf⟩ := of_mem_mapM_ok hbs y hy
                exact ⟨x', List.mem_cons_of_mem x hx', hf⟩

end

end Py
