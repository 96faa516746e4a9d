import Katherine.Lib.Json

/-!
# Reading back what was written

`loads_render`: whatever `render` writes, `loads` reads, whichever separators were
used. What comes back is `PyVal.decoded`: the value itself on JSON values (string
keys, no key twice, no tuples), and otherwise the value with its tuples turned into
lists and its keys into strings. Two consequences carry the weight elsewhere: a
stored document decodes to the document that was stored, and `render` is injective
on JSON values, so a canonical text determines the value it was written from.

The induction is on the value. Everything is stated with the rest of the text
`r` appended, because a value is always read out of the middle of a longer text;
the only thing required of `r` is that a number cannot run on into it.
-/

namespace Py

mutual
/-- A JSON value: string keys, no key twice, nothing but JSON shapes. -/
def isJson : PyVal → Bool
  | .none => true
  | .bool _ => true
  | .int _ => true
  | .float _ => true
  | .str _ => true
  | .list xs => isJsonElems xs
  | .tuple _ => false
  | .dict kvs => isJsonItems kvs
  | .obj => false
def isJsonElems : List PyVal → Bool
  | [] => true
  | x :: xs => isJson x && isJsonElems xs
def isJsonItems : List (PyKey × PyVal) → Bool
  | [] => true
  | (k, v) :: kvs =>
      k.isStr && kvs.all (fun p => decide (p.1 ≠ k)) && isJson v && isJsonItems kvs
end

mutual
/-- Nothing that has no text. -/
def writable : PyVal → Bool
  | .list xs => writableElems xs
  | .tuple xs => writableElems xs
  | .dict kvs => writableItems kvs
  | .obj => false
  | _ => true
def writableElems : List PyVal → Bool
  | [] => true
  | x :: xs => writable x && writableElems xs
def writableItems : List (PyKey × PyVal) → Bool
  | [] => true
  | (_, v) :: kvs => writable v && writableItems kvs
end

mutual
/-- What is read back for a value that was written. -/
def PyVal.decoded : PyVal → PyVal
  | .list xs => .list (decodedElems xs)
  | .tuple xs => .list (decodedElems xs)
  | .dict kvs => .dict (dictOfItems (decodedItems kvs))
  | v => v
def decodedElems : List PyVal → List PyVal
  | [] => []
  | x :: xs => x.decoded :: decodedElems xs
def decodedItems : List (PyKey × PyVal) → List (PyStr × PyVal)
  | [] => []
  | (k, v) :: kvs => (keyText k, v.decoded) :: decodedItems kvs
end

/-! ## Strings -/

theorem hexVal_hexDigit : ∀ d : Fin 16, hexVal (hexDigit d.val) = some d.val := by decide

theorem hexDigit_mod (n : Nat) : hexDigit n = hexDigit (n % 16) := by
  unfold hexDigit
  simp only [Nat.mod_mod]

theorem hexVal_hexDigit_mod (n : Nat) : hexVal (hexDigit n) = some (n % 16) := by
  rw [hexDigit_mod]
  exact hexVal_hexDigit ⟨n % 16, Nat.mod_lt _ (by omega)⟩

/-- An escaped code point reads back as itself. -/
theorem readStr_escapeChar (c : CodePoint) (s : PyStr) :
    readStr (escapeChar c ++ s) = (readStr s).map fun p => (c :: p.1, p.2) := by
  have esc : ∀ (e u : CodePoint), e ≠ cp 'u' → readEscape e = some u → u = c →
      readStr (cp '\\' :: e :: s) = (readStr s).map fun p => (c :: p.1, p.2) := by
    intro e u he hr hc
    subst hc
    rw [readStr, if_neg (by decide), if_pos rfl, readEsc.eq_def]
    simp only [if_neg he, hr]
  unfold escapeChar
  split
  · rename_i h; subst h; exact esc _ _ (by decide) rfl rfl
  split
  · rename_i h; subst h; exact esc _ _ (by decide) rfl rfl
  split
  · rename_i h; exact esc (cp 'b') 8 (by decide) rfl (Fin.ext h.symm)
  split
  · rename_i h; exact esc (cp 't') 9 (by decide) rfl (Fin.ext h.symm)
  split
  · rename_i h; exact esc (cp 'n') 10 (by decide) rfl (Fin.ext h.symm)
  split
  · rename_i h; exact esc (cp 'f') 12 (by decide) rfl (Fin.ext h.symm)
  split
  · rename_i h; exact esc (cp 'r') 13 (by decide) rfl (Fin.ext h.symm)
  split
  · -- the remaining control characters are written `\u00XX`
    rename_i h32
    have h0 : hexVal (cp '0') = some 0 := by decide
    have hx : readHex4 (cp '0') (cp '0') (hexDigit (c.val / 16)) (hexDigit c.val) = some c := by
      have hn : 4096 * 0 + 256 * 0 + 16 * (c.val / 16 % 16) + c.val % 16 = c.val := by omega
      simp only [readHex4, h0, hexVal_hexDigit_mod, Option.bind_eq_bind, Option.bind_some, hn]
      rw [dif_pos c.isLt]
    simp only [List.cons_append, List.nil_append]
    rw [readStr, if_neg (by decide), if_pos rfl, readEsc, if_pos rfl]
    simp only [hx]
  · rename_i h1 h2 _ _ _ _ _ h32
    simp only [List.cons_append, List.nil_append]
    rw [readStr, if_neg h1, if_neg h2, if_neg h32]

theorem readStr_escape (s r : PyStr) :
    readStr (escape s ++ cp '"' :: r) = some (s, r) := by
  induction s with
  | nil =>
      simp only [escape, List.flatMap_nil, List.nil_append]
      rw [readStr, if_pos rfl]
  | cons c s ih =>
      simp only [escape, List.flatMap_cons, List.append_assoc] at ih ⊢
      rw [readStr_escapeChar, ih]
      rfl

/-! ## Numbers -/

/-- A number cannot run on into `r`. -/
def NumStop (r : PyStr) : Prop := ∀ c s, r = c :: s → isNumChar c = false

theorem numStop_nil : NumStop [] := by
  intro c s h; exact absurd h (by simp)

theorem numStop_cons {c : CodePoint} {r : PyStr} (h : isNumChar c = false) :
    NumStop (c :: r) := by
  intro c' s he
  injection he with h1 _
  exact h1 ▸ h

theorem takeWhile_numStop {t r : PyStr} (ht : ∀ c ∈ t, isNumChar c = true) (hr : NumStop r) :
    (t ++ r).takeWhile isNumChar = t ∧ (t ++ r).dropWhile isNumChar = r := by
  induction t with
  | nil =>
      cases r with
      | nil => exact ⟨rfl, rfl⟩
      | cons c s =>
          have := hr c s rfl
          simp [this]
  | cons c t ih =>
      have hc := ht c (by simp)
      obtain ⟨h1, h2⟩ := ih fun d hd => ht d (by simp [hd])
      simp [hc, h1, h2]

theorem isDigit_isNumChar {c : CodePoint} (h : isDigit c = true) : isNumChar c = true := by
  simp [isNumChar, h]

theorem dropMinus_of_digit {c : CodePoint} {s : PyStr} (h : isDigit c = true) :
    dropMinus (c :: s) = c :: s := by
  have hne : c ≠ cp '-' := by rintro rfl; revert h; decide
  simp [dropMinus, hne]

theorem natText_cons (n : Nat) : ∃ c s, natText n = c :: s ∧ isDigit c = true := by
  cases h : natText n with
  | nil => exact absurd h (natText_ne_nil n)
  | cons c s => exact ⟨c, s, rfl, natText_all_digit n c (by simp [h])⟩

theorem dropMinus_intText (i : Int) : dropMinus (intText i) = natText i.natAbs := by
  unfold intText
  split
  · simp [dropMinus]
  · obtain ⟨c, s, hc, hd⟩ := natText_cons i.natAbs
    rw [hc, dropMinus_of_digit hd]

theorem isIntText_intText (i : Int) : isIntText (intText i) = true := by
  have hall : (natText i.natAbs).all isDigit = true :=
    List.all_eq_true.mpr (natText_all_digit i.natAbs)
  obtain ⟨c, s, hc, _⟩ := natText_cons i.natAbs
  rw [isIntText, dropMinus_intText, hall]
  simp only [hc, List.isEmpty_cons, Bool.not_false, Bool.and_true, Bool.true_and,
    List.head?_cons, Bool.or_eq_true, decide_eq_true_eq]
  by_cases h0 : c = digit 0
  · right
    rw [h0] at hc
    rw [natText_head_zero hc]
    rfl
  · left
    intro he
    exact h0 (Option.some.inj he)

theorem intOfText_intText (i : Int) : intOfText (intText i) = i := by
  rw [intOfText]
  obtain ⟨c, s, hc, hd⟩ := natText_cons i.natAbs
  by_cases hi : i < 0
  · have hh : (intText i).head? = some (cp '-') := by simp [intText, hi]
    rw [if_pos hh, dropMinus_intText, natOfText_natText]
    omega
  · have hne : c ≠ cp '-' := by rintro rfl; revert hd; decide
    have ht : intText i = natText i.natAbs := by simp [intText, hi]
    rw [if_neg, ht, natOfText_natText]
    · omega
    · rw [ht, hc]; simpa using hne

theorem intText_numChar (i : Int) : ∀ c ∈ intText i, isNumChar c = true := by
  intro c hc
  unfold intText at hc
  split at hc
  · rcases List.mem_cons.mp hc with h | h
    · subst h; decide
    · exact isDigit_isNumChar (natText_all_digit _ c h)
  · exact isDigit_isNumChar (natText_all_digit _ c hc)

theorem readNum_intText (i : Int) {r : PyStr} (hr : NumStop r) :
    readNum (intText i ++ r) = some (.int i, r) := by
  obtain ⟨h1, h2⟩ := takeWhile_numStop (intText_numChar i) hr
  simp only [readNum, h1, h2, isIntText_intText, if_true, intOfText_intText]

/-- The parts of a float's text: a sign, digits, and a tail that is not empty. -/
theorem isExponent_numChar : ∀ (s : PyStr), isExponent s = true → ∀ c ∈ s, isNumChar c = true
  | [], _, c, hc => by simp at hc
  | [_], h, _, _ => by simp [isExponent] at h
  | e :: s :: ds, h, c, hc => by
      simp only [isExponent, Bool.and_eq_true, Bool.or_eq_true, decide_eq_true_eq,
        List.all_eq_true] at h
      obtain ⟨⟨⟨he, hs⟩, _⟩, hds⟩ := h
      rcases List.mem_cons.mp hc with hc | hc
      · subst hc; subst he; decide
      · rcases List.mem_cons.mp hc with hc | hc
        · subst hc; rcases hs with hs | hs <;> (subst hs; decide)
        · exact isDigit_isNumChar (hds c hc)

theorem mem_takeWhile_isDigit {s : PyStr} {c : CodePoint} (h : c ∈ s.takeWhile isDigit) :
    isDigit c = true := List.mem_takeWhile_imp h

theorem isFraction_numChar {s : PyStr} (h : isFraction s = true) :
    ∀ c ∈ s, isNumChar c = true := by
  cases s with
  | nil => simp [isFraction] at h
  | cons d s =>
      intro c hc
      rw [isFraction] at h
      split at h
      · rename_i hd
        rcases List.mem_cons.mp hc with hc | hc
        · subst hc; subst hd; decide
        · simp only [Bool.and_eq_true] at h
          rw [← List.takeWhile_append_dropWhile (p := isDigit) (l := s)] at hc
          rcases List.mem_append.mp hc with hc | hc
          · exact isDigit_isNumChar (mem_takeWhile_isDigit hc)
          · exact isExponent_numChar _ h.2 c hc
      · exact isExponent_numChar _ h c hc

/-- Where the digits of a float's text end, something that is no digit follows. -/
theorem isFraction_not_digits {s : PyStr} (h : isFraction s = true) :
    ∃ c ∈ s, isDigit c = false := by
  cases s with
  | nil => simp [isFraction] at h
  | cons d s =>
      refine ⟨d, by simp, ?_⟩
      rw [isFraction] at h
      split at h
      · rename_i hd; subst hd; decide
      · cases s with
        | nil => simp [isExponent] at h
        | cons s ds =>
            simp only [isExponent, Bool.and_eq_true, decide_eq_true_eq] at h
            rw [h.1.1.1]; decide

theorem isFloatRepr_numChar {s : PyStr} (h : isFloatRepr s = true) :
    ∀ c ∈ s, isNumChar c = true := by
  simp only [isFloatRepr, Bool.and_eq_true] at h
  obtain ⟨⟨_, h2⟩, _⟩ := h
  have hbody : ∀ c ∈ dropMinus s, isNumChar c = true := by
    intro c hc
    rw [← List.takeWhile_append_dropWhile (p := isDigit) (l := dropMinus s)] at hc
    rcases List.mem_append.mp hc with hc | hc
    · exact isDigit_isNumChar (mem_takeWhile_isDigit hc)
    · exact isFraction_numChar h2 c hc
  cases s with
  | nil => intro c hc; simp at hc
  | cons d s =>
      intro c hc
      by_cases hd : d = cp '-'
      · rcases List.mem_cons.mp hc with hc | hc
        · subst hc; subst hd; decide
        · exact hbody c (by rw [dropMinus, if_pos hd]; exact hc)
      · exact hbody c (by rw [dropMinus, if_neg hd]; exact hc)

theorem isFloatRepr_not_int {s : PyStr} (h : isFloatRepr s = true) : isIntText s = false := by
  simp only [isFloatRepr, Bool.and_eq_true] at h
  obtain ⟨⟨_, h2⟩, _⟩ := h
  obtain ⟨c, hc, hcd⟩ := isFraction_not_digits h2
  have hmem : c ∈ dropMinus s := List.dropWhile_subset _ hc
  have : (dropMinus s).all isDigit = false := by
    rw [Bool.eq_false_iff]
    intro hall
    have := List.all_eq_true.mp hall c hmem
    rw [hcd] at this
    exact Bool.noConfusion this
  simp [isIntText, this]

theorem readNum_float (f : FiniteFloat) {r : PyStr} (hr : NumStop r) :
    readNum (f.text ++ r) = some (.float (.fin f), r) := by
  obtain ⟨h1, h2⟩ := takeWhile_numStop (isFloatRepr_numChar f.ok) hr
  simp only [readNum, h1, h2, isFloatRepr_not_int f.ok, Bool.false_eq_true, if_false]
  rw [dif_pos f.ok]

/-- A float's text starts with a digit, or with a minus and a digit. -/
theorem floatRepr_head {s : PyStr} (h : isFloatRepr s = true) :
    ∃ c t, dropMinus s = c :: t ∧ isDigit c = true := by
  simp only [isFloatRepr, Bool.and_eq_true] at h
  obtain ⟨⟨h1, _⟩, _⟩ := h
  cases hd : dropMinus s with
  | nil => rw [hd] at h1; simp at h1
  | cons c t =>
      refine ⟨c, t, rfl, ?_⟩
      rw [hd, List.takeWhile_cons] at h1
      by_contra hc
      rw [Bool.not_eq_true] at hc
      rw [hc] at h1
      simp at h1

/-- A text whose sign is followed by a digit is read as a number. -/
theorem readVal_num {s r : PyStr} {fuel : Nat} (h : ∃ c t, dropMinus s = c :: t ∧ isDigit c = true) :
    readVal (fuel + 1) (s ++ r) = readNum (s ++ r) := by
  obtain ⟨c, t, hd, hc⟩ := h
  have hcl : 48 ≤ c.val ∧ c.val ≤ 57 := by
    simpa only [isDigit, Bool.and_eq_true, decide_eq_true_eq] using hc
  have ne : ∀ x : CodePoint, (x.val < 48 ∨ 57 < x.val) → c ≠ x := by
    rintro x hx rfl; omega
  cases s with
  | nil => simp [dropMinus] at hd
  | cons d s =>
      rw [dropMinus] at hd
      split at hd
      · rename_i hm
        subst hm; subst hd
        rw [List.cons_append, readVal, if_neg (by decide), if_neg (by decide),
          if_neg (by decide), if_neg (by decide), if_neg (by decide), if_neg (by decide),
          if_neg (by decide), if_neg (by decide), if_neg]
        rintro ⟨_, hI⟩
        simp only [List.cons_append, List.head?_cons, Option.some.injEq] at hI
        exact ne (cp 'I') (by decide) hI
      · injection hd with h1 h2
        subst h1; subst h2
        rw [List.cons_append, readVal, if_neg (ne _ (by decide)), if_neg (ne _ (by decide)),
          if_neg (ne _ (by decide)), if_neg (ne _ (by decide)), if_neg (ne _ (by decide)),
          if_neg (ne _ (by decide)), if_neg (ne _ (by decide)), if_neg (ne _ (by decide)), if_neg]
        rintro ⟨hI, _⟩
        exact ne _ (by decide) hI

/-! ## Values -/

theorem skipWs_gap {gap s : PyStr} (hg : gap.all isWs = true)
    (hs : ∃ c t, s = c :: t ∧ isWs c = false) : skipWs (gap ++ s) = s := by
  obtain ⟨c, t, rfl, hc⟩ := hs
  induction gap with
  | nil => simp [skipWs, hc]
  | cons g gap ih =>
      simp only [List.all_cons, Bool.and_eq_true] at hg
      simpa [skipWs, hg.1] using ih hg.2

theorem skipWs_self {s : PyStr} (hs : ∃ c t, s = c :: t ∧ isWs c = false) : skipWs s = s :=
  @skipWs_gap [] s rfl hs

theorem isWs_of_digit {c : CodePoint} (h : isDigit c = true) : isWs c = false ∧ c ≠ cp ']' := by
  simp only [isDigit, Bool.and_eq_true, decide_eq_true_eq] at h
  constructor
  · simp only [isWs, decide_eq_false_iff_not, List.mem_cons, List.not_mem_nil, or_false]
    omega
  · rintro rfl; revert h; decide

theorem head_of_dropMinus {s : PyStr} (h : ∃ c t, dropMinus s = c :: t ∧ isDigit c = true) :
    ∃ c t, s = c :: t ∧ isWs c = false ∧ c ≠ cp ']' := by
  obtain ⟨c, t, hd, hc⟩ := h
  cases s with
  | nil => simp [dropMinus] at hd
  | cons d s =>
      rw [dropMinus] at hd
      split at hd
      · rename_i hm; subst hm; exact ⟨_, _, rfl, by decide, by decide⟩
      · injection hd with h1 h2
        subst h1
        exact ⟨_, _, rfl, (isWs_of_digit hc).1, (isWs_of_digit hc).2⟩

theorem intText_head (i : Int) : ∃ c t, dropMinus (intText i) = c :: t ∧ isDigit c = true := by
  rw [dropMinus_intText]; exact natText_cons _

/-- No text of a value starts with whitespace or with a closing bracket. -/
theorem render_head (gap : PyStr) {v : PyVal} (h : writable v = true) :
    ∃ c t, render gap v = c :: t ∧ isWs c = false ∧ c ≠ cp ']' := by
  cases v with
  | none => exact ⟨_, _, rfl, by decide, by decide⟩
  | bool b => cases b <;> exact ⟨_, _, rfl, by decide, by decide⟩
  | int i => rw [render]; exact head_of_dropMinus (intText_head i)
  | float f =>
      rw [render]
      cases f with
      | nan => exact ⟨_, _, rfl, by decide, by decide⟩
      | inf n => cases n <;> exact ⟨_, _, rfl, by decide, by decide⟩
      | fin f => exact head_of_dropMinus (floatRepr_head f.ok)
  | str s => exact ⟨_, _, by rw [render, quote], by decide, by decide⟩
  | list xs => cases xs <;> exact ⟨_, _, by rw [render], by decide, by decide⟩
  | tuple xs => cases xs <;> exact ⟨_, _, by rw [render], by decide, by decide⟩
  | dict kvs =>
      cases kvs with
      | nil => exact ⟨_, _, by rw [render], by decide, by decide⟩
      | cons p kvs => exact ⟨_, _, by rw [render], by decide, by decide⟩
  | obj => simp [writable] at h

theorem render_pos (gap : PyStr) {v : PyVal} (h : writable v = true) :
    1 ≤ (render gap v).length := by
  obtain ⟨c, t, hr, _⟩ := render_head gap h
  rw [hr]; simp

theorem readWord_append (w : PyStr) (v : PyVal) (r : PyStr) :
    readWord w v (w ++ r) = some (v, r) := by
  rw [readWord, List.take_left', List.drop_left'] <;> simp

/-- A separator or a closing bracket ends a number. -/
theorem renderElems_numStop (gap : PyStr) :
    ∀ (xs : List PyVal) {r : PyStr}, NumStop (renderElems gap xs ++ r)
  | [], r => by rw [renderElems]; exact numStop_cons (by decide)
  | x :: xs, r => by rw [renderElems]; exact numStop_cons (by decide)

theorem renderItems_numStop (gap : PyStr) :
    ∀ (kvs : List (PyKey × PyVal)) {r : PyStr}, NumStop (renderItems gap kvs ++ r)
  | [], r => by rw [renderItems]; exact numStop_cons (by decide)
  | (k, v) :: kvs, r => by rw [renderItems]; exact numStop_cons (by decide)

section RoundTrip

variable {gap : PyStr}

mutual
/-- **A value written into the middle of a text is read back.** -/
theorem readVal_render (hg : gap.all isWs = true) : ∀ (v : PyVal) (fuel : Nat) (r : PyStr),
    writable v = true → 2 * (render gap v).length ≤ fuel → NumStop r →
    readVal fuel (render gap v ++ r) = some (v.decoded, r)
  | v, 0, r, hv, hf, _ => by
      have := render_pos gap hv
      omega
  | .none, fuel + 1, r, _, _, _ => by
      rw [render]; exact readWord_append (py "null") .none r
  | .bool true, fuel + 1, r, _, _, _ => by
      rw [render]; exact readWord_append (py "true") (.bool true) r
  | .bool false, fuel + 1, r, _, _, _ => by
      rw [render]; exact readWord_append (py "false") (.bool false) r
  | .int i, fuel + 1, r, _, _, hr => by
      rw [render, readVal_num (intText_head i), readNum_intText i hr]
      rfl
  | .float .nan, fuel + 1, r, _, _, _ => by
      rw [render]; exact readWord_append (py "NaN") (.float .nan) r
  | .float (.inf false), fuel + 1, r, _, _, _ => by
      rw [render]; exact readWord_append (py "Infinity") (.float (.inf false)) r
  | .float (.inf true), fuel + 1, r, _, _, _ => by
      rw [render]; exact readWord_append (py "-Infinity") (.float (.inf true)) r
  | .float (.fin f), fuel + 1, r, _, _, hr => by
      rw [render, floatText, readVal_num (floatRepr_head f.ok), readNum_float f hr]
      rfl
  | .str s, fuel + 1, r, _, _, _ => by
      rw [render, quote, List.cons_append, readVal, if_pos rfl, List.append_assoc,
        List.singleton_append, readStr_escape]
      rfl
  | .list xs, fuel + 1, r, hv, hf, _ => by
      rw [PyVal.decoded]
      exact readList_render hg xs fuel r hv hf
  | .tuple xs, fuel + 1, r, hv, hf, _ => by
      have htext : render gap (.tuple xs) = render gap (.list xs) := by
        cases xs <;> rw [render, render]
      rw [htext] at hf ⊢
      rw [PyVal.decoded]
      exact readList_render hg xs fuel r hv hf
  | .dict [], fuel + 1, r, _, hf, _ => by
      simp only [render, List.length_cons, List.length_nil] at hf
      obtain ⟨fuel, rfl⟩ : ∃ n, fuel = n + 1 := ⟨fuel - 1, by omega⟩
      rw [render, List.cons_append, readVal, if_neg (by decide), if_neg (by decide), if_pos rfl,
        List.cons_append, skipWs_self ⟨_, _, rfl, by decide⟩, readDict]
      simp [PyVal.decoded, decodedItems, dictOfItems]
  | .dict ((k, v) :: kvs), fuel + 1, r, hv, hf, _ => by
      simp only [writable, writableItems, Bool.and_eq_true] at hv
      simp only [render, quote, List.length_cons, List.length_append] at hf
      obtain ⟨fuel, rfl⟩ : ∃ n, fuel = n + 1 := ⟨fuel - 1, by omega⟩
      have h1 := readItem_render hg k v fuel (renderItems gap kvs ++ r) hv.1 (by omega)
        (renderItems_numStop gap kvs)
      have h2 := readItems_render hg kvs fuel r hv.2 (by omega)
      rw [render, List.cons_append, readVal, if_neg (by decide), if_neg (by decide), if_pos rfl,
        skipWs_self ⟨cp '"', _, by rw [quote, List.cons_append, List.cons_append], by decide⟩,
        readDict, if_neg (by rw [quote]; simp only [List.cons_append, List.head?_cons]; decide)]
      simp only [List.append_assoc, List.cons_append] at h1 ⊢
      rw [h1]
      simp only [h2, Option.map_some, PyVal.decoded, decodedItems]
theorem readList_render (hg : gap.all isWs = true) : ∀ (xs : List PyVal) (fuel : Nat) (r : PyStr),
    writableElems xs = true → 2 * (render gap (.list xs)).length ≤ fuel + 1 →
    readVal (fuel + 1) (render gap (.list xs) ++ r) = some (.list (decodedElems xs), r)
  | [], fuel, r, _, hf => by
      simp only [render, List.length_cons, List.length_nil] at hf
      obtain ⟨fuel, rfl⟩ : ∃ n, fuel = n + 1 := ⟨fuel - 1, by omega⟩
      rw [render, List.cons_append, readVal, if_neg (by decide), if_pos rfl, List.cons_append,
        skipWs_self ⟨_, _, rfl, by decide⟩, readList]
      simp [decodedElems]
  | x :: xs, fuel, r, hv, hf => by
      simp only [writableElems, Bool.and_eq_true] at hv
      simp only [render, List.length_cons, List.length_append] at hf
      have hpos := render_pos gap hv.1
      obtain ⟨fuel, rfl⟩ : ∃ n, fuel = n + 1 := ⟨fuel - 1, by omega⟩
      obtain ⟨c, t, hx, hws, hne⟩ := render_head gap hv.1
      have h1 := readVal_render hg x fuel (renderElems gap xs ++ r) hv.1 (by omega)
        (renderElems_numStop gap xs)
      have h2 := readElems_render hg xs fuel r hv.2 (by omega)
      rw [render, List.cons_append, readVal, if_neg (by decide), if_pos rfl, List.append_assoc,
        skipWs_self ⟨c, t ++ (renderElems gap xs ++ r), by rw [hx]; rfl, hws⟩, readList,
        if_neg, h1]
      · simp only [h2, Option.map_some, decodedElems]
      · rw [hx]; simpa using hne
theorem readElems_render (hg : gap.all isWs = true) : ∀ (xs : List PyVal) (fuel : Nat) (r : PyStr),
    writableElems xs = true → 2 * (renderElems gap xs).length ≤ fuel →
    readElems fuel (renderElems gap xs ++ r) = some (decodedElems xs, r)
  | [], fuel, r, _, hf => by
      simp only [renderElems, List.length_cons, List.length_nil] at hf
      obtain ⟨fuel, rfl⟩ : ∃ n, fuel = n + 1 := ⟨fuel - 1, by omega⟩
      rw [renderElems, readElems, List.cons_append, skipWs_self ⟨_, _, rfl, by decide⟩]
      simp [decodedElems]
  | x :: xs, fuel, r, hx, hf => by
      simp only [writableElems, Bool.and_eq_true] at hx
      simp only [renderElems, List.length_cons, List.length_append] at hf
      obtain ⟨fuel, rfl⟩ : ∃ n, fuel = n + 1 := ⟨fuel - 1, by omega⟩
      obtain ⟨c, t, hc, hws, _⟩ := render_head gap hx.1
      have h1 := readVal_render hg x fuel (renderElems gap xs ++ r) hx.1 (by omega)
        (renderElems_numStop gap xs)
      have h2 := readElems_render hg xs fuel r hx.2 (by omega)
      rw [renderElems, readElems, List.cons_append, skipWs_self ⟨_, _, rfl, by decide⟩]
      simp only [show (cp ',' = cp ']') = False from by decide, if_false, if_true]
      rw [List.append_assoc, List.append_assoc,
        skipWs_gap hg ⟨c, t ++ (renderElems gap xs ++ r), by rw [hc]; rfl, hws⟩, h1]
      simp only [h2, Option.map_some, decodedElems]
theorem readItem_render (hg : gap.all isWs = true) : ∀ (k : PyKey) (v : PyVal) (fuel : Nat)
    (r : PyStr), writable v = true → 2 * ((render gap v).length + 1) ≤ fuel → NumStop r →
    readItem fuel (quote (keyText k) ++ (cp ':' :: (gap ++ render gap v)) ++ r)
      = some ((keyText k, v.decoded), r)
  | k, v, fuel, r, hv, hf, hr => by
      obtain ⟨fuel, rfl⟩ : ∃ n, fuel = n + 1 := ⟨fuel - 1, by omega⟩
      obtain ⟨c, t, hc, hws, _⟩ := render_head gap hv
      have h1 := readVal_render hg v fuel r hv (by omega) hr
      simp only [quote, List.cons_append, List.append_assoc, List.nil_append]
      rw [readItem, if_pos rfl, readStr_escape]
      simp only
      rw [skipWs_self ⟨_, _, rfl, by decide⟩]
      simp only [if_true]
      rw [skipWs_gap hg ⟨c, t ++ r, by rw [hc]; rfl, hws⟩, h1]
      rfl
theorem readItems_render (hg : gap.all isWs = true) : ∀ (kvs : List (PyKey × PyVal)) (fuel : Nat)
    (r : PyStr), writableItems kvs = true → 2 * (renderItems gap kvs).length ≤ fuel →
    readItems fuel (renderItems gap kvs ++ r) = some (decodedItems kvs, r)
  | [], fuel, r, _, hf => by
      simp only [renderItems, List.length_cons, List.length_nil] at hf
      obtain ⟨fuel, rfl⟩ : ∃ n, fuel = n + 1 := ⟨fuel - 1, by omega⟩
      rw [renderItems, readItems, List.cons_append, skipWs_self ⟨_, _, rfl, by decide⟩]
      simp [decodedItems]
  | (k, v) :: kvs, fuel, r, hv, hf => by
      simp only [writableItems, Bool.and_eq_true] at hv
      simp only [renderItems, quote, List.length_cons, List.length_append] at hf
      obtain ⟨fuel, rfl⟩ : ∃ n, fuel = n + 1 := ⟨fuel - 1, by omega⟩
      have h1 := readItem_render hg k v fuel (renderItems gap kvs ++ r) hv.1 (by omega)
        (renderItems_numStop gap kvs)
      have h2 := readItems_render hg kvs fuel r hv.2 (by omega)
      rw [renderItems, readItems, List.cons_append, skipWs_self ⟨_, _, rfl, by decide⟩]
      simp only [show (cp ',' = cp '}') = False from by decide, if_false, if_true]
      rw [List.append_assoc, skipWs_gap hg
        ⟨cp '"', _, by rw [quote, List.cons_append, List.cons_append], by decide⟩]
      simp only [List.append_assoc, List.cons_append] at h1 ⊢
      rw [h1]
      simp only [h2, Option.map_some, decodedItems]
end

/-- **`loads` reads whatever `render` writes.** -/
theorem loads_render (hg : gap.all isWs = true) {v : PyVal} (hv : writable v = true) :
    loads (render gap v) = some v.decoded := by
  obtain ⟨c, t, hc, hws, _⟩ := render_head gap hv
  have h := readVal_render hg v (3 * (render gap v).length + 3) [] hv (by omega) numStop_nil
  rw [List.append_nil] at h
  rw [loads, skipWs_self ⟨c, t, hc, hws⟩, h]
  rfl

end RoundTrip

/-! ## JSON values -/

mutual
theorem writable_of_json : ∀ {v : PyVal}, isJson v = true → writable v = true
  | .none, _ => rfl
  | .bool _, _ => rfl
  | .int _, _ => rfl
  | .float _, _ => rfl
  | .str _, _ => rfl
  | .list _, h => writableElems_of_json h
  | .dict _, h => writableItems_of_json h
theorem writableElems_of_json : ∀ {xs : List PyVal}, isJsonElems xs = true →
    writableElems xs = true
  | [], _ => rfl
  | x :: xs, h => by
      simp only [isJsonElems, Bool.and_eq_true] at h
      rw [writableElems, writable_of_json h.1, writableElems_of_json h.2]
      rfl
theorem writableItems_of_json : ∀ {kvs : List (PyKey × PyVal)}, isJsonItems kvs = true →
    writableItems kvs = true
  | [], _ => rfl
  | (k, v) :: kvs, h => by
      simp only [isJsonItems, Bool.and_eq_true] at h
      rw [writableItems, writable_of_json h.1.2, writableItems_of_json h.2]
      rfl
end

/-- Items already keyed by distinct strings are what `dictOfItems` builds. -/
theorem dictOfItems_of_json : ∀ {kvs : List (PyKey × PyVal)}, isJsonItems kvs = true →
    dictOfItems (kvs.map fun p => (keyText p.1, p.2)) = kvs
  | [], _ => rfl
  | (k, v) :: kvs, h => by
      simp only [isJsonItems, Bool.and_eq_true, List.all_eq_true, decide_eq_true_eq] at h
      obtain ⟨⟨⟨hk, hnd⟩, _⟩, hrest⟩ := h
      cases k with
      | str s =>
          have hany : (kvs.map fun p => (keyText p.1, p.2)).any (·.1 = keyText (.str s)) = false := by
            rw [Bool.eq_false_iff]
            intro ha
            obtain ⟨q, hq, he⟩ := List.any_eq_true.mp ha
            obtain ⟨p, hp, rfl⟩ := List.mem_map.mp hq
            have hps := isJsonItems_isStr hrest p hp
            cases hpk : p.1 with
            | str t =>
                rw [hpk] at he
                have hts : t = s := of_decide_eq_true he
                exact hnd p hp (by rw [hpk, hts])
            | num t => rw [hpk] at hps; exact Bool.noConfusion hps
            | none => rw [hpk] at hps; exact Bool.noConfusion hps
            | other => rw [hpk] at hps; exact Bool.noConfusion hps
          rw [List.map_cons, dictOfItems, hany, dictOfItems_of_json hrest]
          rfl
      | num t => exact Bool.noConfusion hk
      | none => exact Bool.noConfusion hk
      | other => exact Bool.noConfusion hk
where
  isJsonItems_isStr : ∀ {kvs : List (PyKey × PyVal)}, isJsonItems kvs = true →
      ∀ p ∈ kvs, p.1.isStr = true
    | [], _, p, hp => by simp at hp
    | (k, v) :: kvs, h, p, hp => by
        simp only [isJsonItems, Bool.and_eq_true] at h
        rcases List.mem_cons.mp hp with hp | hp
        · subst hp; exact h.1.1.1
        · exact isJsonItems_isStr h.2 p hp

mutual
/-- A JSON value is read back as itself. -/
theorem decoded_of_json : ∀ {v : PyVal}, isJson v = true → v.decoded = v
  | .none, _ => rfl
  | .bool _, _ => rfl
  | .int _, _ => rfl
  | .float _, _ => rfl
  | .str _, _ => rfl
  | .list xs, h => by rw [PyVal.decoded, decodedElems_of_json h]
  | .dict kvs, h => by
      rw [PyVal.decoded, decodedItems_of_json h, dictOfItems_of_json h]
theorem decodedElems_of_json : ∀ {xs : List PyVal}, isJsonElems xs = true → decodedElems xs = xs
  | [], _ => rfl
  | x :: xs, h => by
      simp only [isJsonElems, Bool.and_eq_true] at h
      rw [decodedElems, decoded_of_json h.1, decodedElems_of_json h.2]
theorem decodedItems_of_json : ∀ {kvs : List (PyKey × PyVal)}, isJsonItems kvs = true →
    decodedItems kvs = kvs.map fun p => (keyText p.1, p.2)
  | [], _ => rfl
  | (k, v) :: kvs, h => by
      simp only [isJsonItems, Bool.and_eq_true] at h
      rw [decodedItems, decoded_of_json h.1.2, decodedItems_of_json h.2]
      rfl
end

/-! ## Canonical order -/

theorem isJsonItems_iff : ∀ (kvs : List (PyKey × PyVal)), isJsonItems kvs = true ↔
    (∀ p ∈ kvs, p.1.isStr = true ∧ isJson p.2 = true) ∧ (kvs.map Prod.fst).Nodup
  | [] => by simp [isJsonItems]
  | (k, v) :: kvs => by
      simp only [isJsonItems, Bool.and_eq_true, isJsonItems_iff kvs, List.all_eq_true,
        decide_eq_true_eq, List.forall_mem_cons, List.map_cons, List.nodup_cons, List.mem_map,
        not_exists, not_and]
      constructor
      · rintro ⟨⟨⟨h1, h2⟩, h3⟩, h4, h5⟩
        exact ⟨⟨⟨h1, h3⟩, h4⟩, h2, h5⟩
      · rintro ⟨⟨⟨h1, h3⟩, h4⟩, h2, h5⟩
        exact ⟨⟨⟨h1, h2⟩, h3⟩, h4, h5⟩

theorem sortItems_perm (kvs : List (PyKey × PyVal)) : (sortItems kvs).Perm kvs := by
  unfold sortItems
  split
  · exact List.perm_insertionSort keyLe kvs
  · exact List.Perm.refl kvs

theorem isJsonItems_perm {kvs kvs' : List (PyKey × PyVal)} (hp : kvs'.Perm kvs)
    (h : isJsonItems kvs = true) : isJsonItems kvs' = true := by
  rw [isJsonItems_iff] at h ⊢
  exact ⟨fun p hm => h.1 p (hp.mem_iff.mp hm), (hp.map Prod.fst).nodup_iff.mpr h.2⟩

theorem writableItems_eq_all : ∀ (kvs : List (PyKey × PyVal)),
    writableItems kvs = kvs.all fun p => writable p.2
  | [] => rfl
  | (k, v) :: kvs => by rw [writableItems, writableItems_eq_all kvs]; rfl

theorem writableItems_perm {kvs kvs' : List (PyKey × PyVal)} (hp : kvs'.Perm kvs) :
    writableItems kvs' = writableItems kvs := by
  rw [writableItems_eq_all, writableItems_eq_all]
  exact hp.all_eq

theorem canonItems_eq_map : ∀ (kvs : List (PyKey × PyVal)),
    canonItems kvs = kvs.map fun p => (p.1, p.2.canon)
  | [] => rfl
  | (k, v) :: kvs => by rw [canonItems, canonItems_eq_map kvs]; rfl

theorem isStr_canonItems {kvs : List (PyKey × PyVal)} :
    (canonItems kvs).map Prod.fst = kvs.map Prod.fst := by
  rw [canonItems_eq_map, List.map_map]; rfl

mutual
theorem isJson_canon : ∀ {v : PyVal}, isJson v = true → isJson v.canon = true
  | .none, _ => rfl
  | .bool _, _ => rfl
  | .int _, _ => rfl
  | .float _, _ => rfl
  | .str _, _ => rfl
  | .list xs, h => by
      rw [isJson] at h
      rw [PyVal.canon, isJson]; exact isJsonElems_canon h
  | .tuple _, h => by simp [isJson] at h
  | .dict kvs, h => by
      rw [isJson] at h
      rw [PyVal.canon, isJson]
      exact isJsonItems_perm (sortItems_perm _) (isJsonItems_canon h)
  | .obj, h => by simp [isJson] at h
theorem isJsonElems_canon : ∀ {xs : List PyVal}, isJsonElems xs = true →
    isJsonElems (canonElems xs) = true
  | [], _ => rfl
  | x :: xs, h => by
      simp only [isJsonElems, Bool.and_eq_true] at h
      rw [canonElems, isJsonElems, isJson_canon h.1, isJsonElems_canon h.2]
      rfl
theorem isJsonItems_canon : ∀ {kvs : List (PyKey × PyVal)}, isJsonItems kvs = true →
    isJsonItems (canonItems kvs) = true
  | [], _ => rfl
  | (k, v) :: kvs, h => by
      have hnd := ((isJsonItems_iff _).mp h).2
      simp only [isJsonItems, Bool.and_eq_true] at h
      have ih := (isJsonItems_iff _).mp (isJsonItems_canon h.2)
      rw [canonItems, isJsonItems_iff, List.map_cons, isStr_canonItems]
      refine ⟨?_, by simpa using hnd⟩
      intro p hp
      rcases List.mem_cons.mp hp with hp | hp
      · subst hp; exact ⟨h.1.1.1, isJson_canon h.1.2⟩
      · exact ih.1 p hp
end

/-- With distinct keys, looking a key up is finding its item. -/
theorem dictGet_eq_some {kvs : List (PyKey × PyVal)} (hnd : (kvs.map Prod.fst).Nodup)
    {k : PyStr} {v : PyVal} : dictGet kvs k = some v ↔ (PyKey.str k, v) ∈ kvs := by
  unfold dictGet
  constructor
  · intro h
    obtain ⟨p, hp, rfl⟩ := Option.map_eq_some_iff.mp h
    have h1 := List.find?_some hp
    have h2 := List.mem_of_find?_eq_some hp
    have : p.1 = .str k := of_decide_eq_true h1
    rw [← this]; exact h2
  · intro h
    obtain ⟨p, hp⟩ : ∃ p, kvs.find? (fun p => decide (p.1 = .str k)) = some p := by
      rw [← Option.isSome_iff_exists, List.find?_isSome]
      exact ⟨_, h, by simp⟩
    have h0 := List.find?_some hp
    have h1 : p.1 = .str k := of_decide_eq_true h0
    have h2 := List.mem_of_find?_eq_some hp
    have : p = (.str k, v) := List.inj_on_of_nodup_map hnd h2 h h1
    rw [hp, this]; rfl

theorem dictGet_eq_none {kvs : List (PyKey × PyVal)} {k : PyStr} :
    dictGet kvs k = none ↔ PyKey.str k ∉ kvs.map Prod.fst := by
  unfold dictGet
  rw [Option.map_eq_none_iff, List.find?_eq_none]
  constructor
  · intro h hm
    obtain ⟨p, hp, hpk⟩ := List.mem_map.mp hm
    exact h p hp (decide_eq_true hpk)
  · intro h p hp hpk
    exact h (List.mem_map.mpr ⟨p, hp, of_decide_eq_true hpk⟩)

theorem dictGet_append (kvs kvs' : List (PyKey × PyVal)) (k : PyStr) :
    dictGet (kvs ++ kvs') k = (dictGet kvs k <|> dictGet kvs' k) := by
  rw [dictGet, List.find?_append, dictGet, dictGet]
  cases kvs.find? (fun p => decide (p.1 = .str k)) <;> rfl

/-- The document with `new` in place of `old`. -/
def renameKey (old new : PyStr) (kvs : List (PyKey × PyVal)) : List (PyKey × PyVal) :=
  kvs.map fun p => (if p.1 = .str old then .str new else p.1, p.2)

theorem dictGet_cons (key : PyKey) (v : PyVal) (kvs : List (PyKey × PyVal)) (k : PyStr) :
    dictGet ((key, v) :: kvs) k = if key = .str k then some v else dictGet kvs k := by
  unfold dictGet
  rw [List.find?_cons]
  by_cases h : key = .str k
  · simp [h]
  · simp [h]

theorem dictGet_renameKey {old new : PyStr} (hne : old ≠ new) (k : PyStr) :
    ∀ {kvs : List (PyKey × PyVal)}, dictGet kvs new = none → dictGet (renameKey old new kvs) k =
      if k = new then dictGet kvs old else if k = old then none else dictGet kvs k
  | [], _ => by
      split
      · rfl
      · split <;> rfl
  | (key, v) :: kvs, h => by
      rw [dictGet_cons] at h
      have hkey : key ≠ .str new := by
        intro he
        rw [if_pos he] at h
        cases h
      rw [if_neg hkey] at h
      rw [renameKey, List.map_cons, ← renameKey, dictGet_cons, dictGet_renameKey hne k h, dictGet_cons,
        dictGet_cons]
      dsimp only
      by_cases hold : key = .str old
      · subst hold
        by_cases hk : k = new
        · subst hk
          simp
        · have hnew : PyKey.str new ≠ .str k := fun he => hk (PyKey.str.inj he).symm
          by_cases hk' : k = old
          · subst hk'
            simp [hk, hnew]
          · simp [hk, hk', Ne.symm hk, Ne.symm hk']
      · by_cases hk : k = new
        · subst hk
          simp [hold, hkey]
        · by_cases hk' : k = old
          · subst hk'
            simp [hk, hold]
          · simp [hk, hk', hold]

/-- Sorting keys changes no lookup. -/
theorem dictGet_canon_of_nodup {kvs : List (PyKey × PyVal)} (hnd : (kvs.map Prod.fst).Nodup)
    (k : PyStr) : dictGet (sortItems (canonItems kvs)) k = (dictGet kvs k).map PyVal.canon := by
  have hp := sortItems_perm (canonItems kvs)
  have hnd' : ((sortItems (canonItems kvs)).map Prod.fst).Nodup := by
    rw [(hp.map Prod.fst).nodup_iff, isStr_canonItems]; exact hnd
  cases hk : dictGet kvs k with
  | none =>
      rw [dictGet_eq_none] at hk
      rw [Option.map_none, dictGet_eq_none, (hp.map Prod.fst).mem_iff, isStr_canonItems]
      exact hk
  | some v =>
      rw [dictGet_eq_some hnd] at hk
      rw [Option.map_some, dictGet_eq_some hnd', hp.mem_iff, canonItems_eq_map]
      exact List.mem_map.mpr ⟨_, hk, rfl⟩

theorem dictGet_canon {kvs : List (PyKey × PyVal)} (h : isJsonItems kvs = true) (k : PyStr) :
    dictGet (sortItems (canonItems kvs)) k = (dictGet kvs k).map PyVal.canon :=
  dictGet_canon_of_nodup ((isJsonItems_iff _).mp h).2 k

mutual
theorem writable_of_serialisable {o : DumpOpts} : ∀ {v : PyVal}, serialisable o v = true →
    writable v = true
  | .none, _ => rfl
  | .bool _, _ => rfl
  | .int _, _ => rfl
  | .float _, _ => rfl
  | .str _, _ => rfl
  | .list xs, h => writableElems_of_serialisable h
  | .tuple xs, h => writableElems_of_serialisable h
  | .dict kvs, h => by
      simp only [serialisable, Bool.and_eq_true] at h
      exact writableItems_of_serialisable h.2
theorem writableElems_of_serialisable {o : DumpOpts} : ∀ {xs : List PyVal},
    serialisableElems o xs = true → writableElems xs = true
  | [], _ => rfl
  | x :: xs, h => by
      simp only [serialisableElems, Bool.and_eq_true] at h
      rw [writableElems, writable_of_serialisable h.1, writableElems_of_serialisable h.2]
      rfl
theorem writableItems_of_serialisable {o : DumpOpts} : ∀ {kvs : List (PyKey × PyVal)},
    serialisableItems o kvs = true → writableItems kvs = true
  | [], _ => rfl
  | (k, v) :: kvs, h => by
      simp only [serialisableItems, Bool.and_eq_true] at h
      rw [writableItems, writable_of_serialisable h.1.2, writableItems_of_serialisable h.2]
      rfl
end

mutual
theorem writable_canon : ∀ v : PyVal, writable v.canon = writable v
  | .none => rfl
  | .bool _ => rfl
  | .int _ => rfl
  | .float _ => rfl
  | .str _ => rfl
  | .list xs => writableElems_canon xs
  | .tuple xs => writableElems_canon xs
  | .dict kvs => by
      rw [PyVal.canon, writable, writableItems_perm (sortItems_perm _), writableItems_canon kvs]
      rfl
  | .obj => rfl
theorem writableElems_canon : ∀ xs : List PyVal, writableElems (canonElems xs) = writableElems xs
  | [] => rfl
  | x :: xs => by rw [canonElems, writableElems, writable_canon x, writableElems_canon xs]; rfl
theorem writableItems_canon : ∀ kvs : List (PyKey × PyVal),
    writableItems (canonItems kvs) = writableItems kvs
  | [] => rfl
  | (k, v) :: kvs => by rw [canonItems, writableItems, writable_canon v, writableItems_canon kvs]; rfl
end

/-- **A document that was written can be read.** -/
theorem loads_dumpsCompact {v : PyVal} {s : PyStr} {b : Bool} (h : dumpsCompact b v = some s) :
    loads s = some v.canon.decoded := by
  unfold dumpsCompact at h
  split at h
  · rename_i hser
    injection h with h
    subst h
    exact loads_render rfl (by rw [writable_canon]; exact writable_of_serialisable hser)
  · exact absurd h (by simp)

/-- A stored document decodes to the value it was written from, keys in order. -/
theorem loads_dumpsCompact_json {v : PyVal} {s : PyStr} {b : Bool} (hv : isJson v = true)
    (h : dumpsCompact b v = some s) : loads s = some v.canon := by
  rw [loads_dumpsCompact h, decoded_of_json (isJson_canon hv)]

/-- Equal texts come from equal values. -/
theorem dumpsCompact_injective {v w : PyVal} {s : PyStr} {b : Bool} (hv : isJson v = true)
    (hw : isJson w = true) (h1 : dumpsCompact b v = some s) (h2 : dumpsCompact b w = some s) :
    v.canon = w.canon := by
  have h := loads_dumpsCompact_json hv h1
  rw [loads_dumpsCompact_json hw h2] at h
  exact (Option.some.inj h).symm

mutual
theorem finite_canon : ∀ (v : PyVal), v.canon.finite = v.finite
  | .none => rfl
  | .bool _ => rfl
  | .int _ => rfl
  | .float _ => rfl
  | .str _ => rfl
  | .list xs => by rw [PyVal.canon, PyVal.finite, PyVal.finite, finiteElems_canon]
  | .tuple xs => by rw [PyVal.canon, PyVal.finite, PyVal.finite, finiteElems_canon]
  | .dict kvs => by
      rw [PyVal.canon, PyVal.finite, PyVal.finite, ← finiteItems_canon kvs,
        finiteItems_perm (sortItems_perm _)]
  | .obj => rfl
theorem finiteElems_canon : ∀ (xs : List PyVal), finiteElems (canonElems xs) = finiteElems xs
  | [] => rfl
  | x :: xs => by
      rw [canonElems, finiteElems, finiteElems, finite_canon x, finiteElems_canon xs]
theorem finiteItems_canon : ∀ (kvs : List (PyKey × PyVal)),
    finiteItems (canonItems kvs) = finiteItems kvs
  | [] => rfl
  | (k, v) :: kvs => by
      rw [canonItems, finiteItems, finiteItems, finite_canon v, finiteItems_canon kvs]
theorem finiteItems_eq_all : ∀ (kvs : List (PyKey × PyVal)),
    finiteItems kvs = kvs.all fun p => p.2.finite
  | [] => rfl
  | (k, v) :: kvs => by rw [finiteItems, finiteItems_eq_all kvs]; rfl
theorem finiteItems_perm {kvs kvs' : List (PyKey × PyVal)} (hp : kvs'.Perm kvs) :
    finiteItems kvs' = finiteItems kvs := by
  rw [finiteItems_eq_all, finiteItems_eq_all]
  exact hp.all_eq
end

end Py
