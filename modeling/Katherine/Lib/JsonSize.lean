import Katherine.Lib.JsonRoundTrip

/-!
# How large a document is

A weight on code points extends to texts by adding up. `weighJson` is the weight of the
compact JSON of a document, computed from the document: it does not look at the order
of the keys, so it is the same before and after sorting them (`weighJson_canon`).

Two weights matter. With `utf8Size` the weight is the number of bytes; with
`surrogateWeight` it is zero exactly if the text can be encoded at all.
-/

namespace Py

/-- The weight of a text. -/
def weigh (w : CodePoint → Nat) (s : PyStr) : Nat := (s.map w).sum

section Weigh

variable {w : CodePoint → Nat}

@[simp] theorem weigh_nil : weigh w [] = 0 := rfl

@[simp] theorem weigh_cons (c : CodePoint) (s : PyStr) : weigh w (c :: s) = w c + weigh w s := by
  simp [weigh]

@[simp] theorem weigh_append (s t : PyStr) : weigh w (s ++ t) = weigh w s + weigh w t := by
  simp [weigh]

end Weigh

section Json

variable (w : CodePoint → Nat)

mutual
/-- The weight of a document's compact JSON. -/
def weighJson : PyVal → Nat
  | .none => weigh w (py "null")
  | .bool true => weigh w (py "true")
  | .bool false => weigh w (py "false")
  | .int i => weigh w (intText i)
  | .float f => weigh w (floatText f)
  | .str s => weigh w (quote s)
  | .list xs => w (cp '[') + weighElems xs + (xs.length - 1) * w (cp ',') + w (cp ']')
  | .tuple xs => w (cp '[') + weighElems xs + (xs.length - 1) * w (cp ',') + w (cp ']')
  | .dict kvs => w (cp '{') + weighItems kvs + (kvs.length - 1) * w (cp ',') + w (cp '}')
  | .obj => 0
/-- The weight of the elements, without what separates them. -/
def weighElems : List PyVal → Nat
  | [] => 0
  | x :: xs => weighJson x + weighElems xs
/-- The weight of the items, without what separates them. -/
def weighItems : List (PyKey × PyVal) → Nat
  | [] => 0
  | (k, v) :: kvs => weigh w (quote (keyText k)) + (w (cp ':') + weighJson v) + weighItems kvs
end

variable {w}

mutual
/-- **The weight of a document is the weight of its JSON.** -/
theorem weigh_render : ∀ v : PyVal, weigh w (render [] v) = weighJson w v
  | .none => rfl
  | .bool true => rfl
  | .bool false => rfl
  | .int _ => rfl
  | .float _ => rfl
  | .str _ => rfl
  | .list [] => by simp [render, weighJson, weighElems]
  | .list (x :: xs) => by
      simp only [render, weighJson, weighElems, weigh_cons, weigh_append, weigh_render x,
        weigh_renderElems xs, List.length_cons, Nat.add_sub_cancel]
      omega
  | .tuple [] => by simp [render, weighJson, weighElems]
  | .tuple (x :: xs) => by
      simp only [render, weighJson, weighElems, weigh_cons, weigh_append, weigh_render x,
        weigh_renderElems xs, List.length_cons, Nat.add_sub_cancel]
      omega
  | .dict [] => by simp [render, weighJson, weighItems]
  | .dict ((k, v) :: kvs) => by
      simp only [render, weighJson, weighItems, weigh_cons, weigh_append, List.nil_append,
        weigh_render v, weigh_renderItems kvs, List.length_cons, Nat.add_sub_cancel]
      omega
  | .obj => rfl
theorem weigh_renderElems : ∀ xs : List PyVal,
    weigh w (renderElems [] xs) = weighElems w xs + xs.length * w (cp ',') + w (cp ']')
  | [] => by simp [renderElems, weighElems]
  | x :: xs => by
      simp only [renderElems, weighElems, weigh_cons, weigh_append, List.nil_append, weigh_render x,
        weigh_renderElems xs, List.length_cons, Nat.add_mul]
      omega
theorem weigh_renderItems : ∀ kvs : List (PyKey × PyVal),
    weigh w (renderItems [] kvs) = weighItems w kvs + kvs.length * w (cp ',') + w (cp '}')
  | [] => by simp [renderItems, weighItems]
  | (k, v) :: kvs => by
      simp only [renderItems, weighItems, weigh_cons, weigh_append, List.nil_append, weigh_render v,
        weigh_renderItems kvs, List.length_cons, Nat.add_mul]
      omega
end

theorem weighItems_eq_sum : ∀ kvs : List (PyKey × PyVal), weighItems w kvs =
    (kvs.map fun p => weigh w (quote (keyText p.1)) + (w (cp ':') + weighJson w p.2)).sum
  | [] => rfl
  | (k, v) :: kvs => by rw [weighItems, weighItems_eq_sum kvs, List.map_cons, List.sum_cons]

theorem weighElems_eq_sum : ∀ xs : List PyVal, weighElems w xs = (xs.map (weighJson w)).sum
  | [] => rfl
  | x :: xs => by rw [weighElems, weighElems_eq_sum xs, List.map_cons, List.sum_cons]

theorem weighElems_strs (ts : List PyStr) :
    weighElems w (ts.map .str) = (ts.map fun t => weigh w (quote t)).sum := by
  rw [weighElems_eq_sum, List.map_map]
  rfl

/-- What is read from a document weighs no more than the document. -/
theorem weighJson_dictGet_le {k : PyStr} {v : PyVal} :
    ∀ {kvs : List (PyKey × PyVal)}, dictGet kvs k = some v → weighJson w v ≤ weighItems w kvs
  | [], h => by cases h
  | (key, x) :: kvs, h => by
      rw [weighItems]
      rw [dictGet_cons] at h
      split at h
      · cases h
        omega
      · have ih := weighJson_dictGet_le h
        omega

theorem weighJson_elem_le {x : PyVal} :
    ∀ {xs : List PyVal}, x ∈ xs → weighJson w x ≤ weighElems w xs
  | y :: xs, h => by
      rw [weighElems]
      rcases List.mem_cons.mp h with rfl | h
      · omega
      · have ih := weighJson_elem_le h
        omega

/-- A bound for each item bounds their sum. -/
theorem weighItems_le {k b : Nat} : ∀ {kvs : List (PyKey × PyVal)},
    (∀ p ∈ kvs, weigh w (quote (keyText p.1)) ≤ k ∧ weighJson w p.2 ≤ b) →
    weighItems w kvs ≤ kvs.length * (k + w (cp ':') + b)
  | [], _ => by simp [weighItems]
  | (key, v) :: kvs, h => by
      obtain ⟨hk, hb⟩ := h (key, v) (by simp)
      have ih : weighItems w kvs ≤ kvs.length * (k + w (cp ':') + b) :=
        weighItems_le fun p hp => h p (List.mem_cons_of_mem _ hp)
      simp only [weighItems, List.length_cons, Nat.add_mul, Nat.one_mul]
      simp only at hk hb
      omega

/-- The order of a list does not matter. -/
theorem weighJson_perm {xs ys : List PyVal} (h : xs.Perm ys) :
    weighJson w (.list xs) = weighJson w (.list ys) := by
  rw [weighJson, weighJson, weighElems_eq_sum, weighElems_eq_sum, (h.map _).sum_nat, h.length_eq]

theorem length_canonElems : ∀ xs : List PyVal, (canonElems xs).length = xs.length
  | [] => rfl
  | _ :: xs => by rw [canonElems, List.length_cons, List.length_cons, length_canonElems xs]

theorem length_canonItems : ∀ kvs : List (PyKey × PyVal), (canonItems kvs).length = kvs.length
  | [] => rfl
  | _ :: kvs => by rw [canonItems, List.length_cons, List.length_cons, length_canonItems kvs]

mutual
/-- **Sorting the keys does not change it.** -/
theorem weighJson_canon : ∀ v : PyVal, weighJson w v.canon = weighJson w v
  | .none => rfl
  | .bool _ => rfl
  | .int _ => rfl
  | .float _ => rfl
  | .str _ => rfl
  | .list xs => by
      rw [PyVal.canon, weighJson, weighJson, weighElems_canon xs, length_canonElems]
  | .tuple xs => by
      rw [PyVal.canon, weighJson, weighJson, weighElems_canon xs, length_canonElems]
  | .dict kvs => by
      have hperm := sortItems_perm (canonItems kvs)
      have hsum : weighItems w (sortItems (canonItems kvs)) = weighItems w (canonItems kvs) := by
        rw [weighItems_eq_sum, weighItems_eq_sum, (hperm.map _).sum_nat]
      rw [PyVal.canon, weighJson, weighJson, hsum, weighItems_canon kvs, hperm.length_eq,
        length_canonItems]
  | .obj => rfl
theorem weighElems_canon : ∀ xs : List PyVal, weighElems w (canonElems xs) = weighElems w xs
  | [] => rfl
  | x :: xs => by
      rw [canonElems, weighElems, weighElems, weighJson_canon x, weighElems_canon xs]
theorem weighItems_canon : ∀ kvs : List (PyKey × PyVal),
    weighItems w (canonItems kvs) = weighItems w kvs
  | [] => rfl
  | (k, v) :: kvs => by
      rw [canonItems, weighItems, weighItems, weighJson_canon v, weighItems_canon kvs]
end

section Gap

variable {gap : PyStr}

mutual
/-- **A gap that weighs no more than what it follows doubles the weight at most.** -/
theorem weigh_render_gap (hgap : weigh w gap ≤ w (cp ',') ∧ weigh w gap ≤ w (cp ':')) :
    ∀ v : PyVal, weigh w (render gap v) ≤ 2 * weighJson w v
  | .none => by simp only [render, weighJson]; omega
  | .bool true => by simp only [render, weighJson]; omega
  | .bool false => by simp only [render, weighJson]; omega
  | .int _ => by simp only [render, weighJson]; omega
  | .float _ => by simp only [render, weighJson]; omega
  | .str _ => by simp only [render, weighJson]; omega
  | .list [] => by simp only [render, weighJson, weighElems, weigh_cons, weigh_nil]; omega
  | .list (x :: xs) => by
      have hx := weigh_render_gap hgap x
      have hxs := weigh_renderElems_gap hgap xs
      simp only [render, weighJson, weighElems, weigh_cons, weigh_append, List.length_cons,
        Nat.add_sub_cancel]
      omega
  | .tuple [] => by simp only [render, weighJson, weighElems, weigh_cons, weigh_nil]; omega
  | .tuple (x :: xs) => by
      have hx := weigh_render_gap hgap x
      have hxs := weigh_renderElems_gap hgap xs
      simp only [render, weighJson, weighElems, weigh_cons, weigh_append, List.length_cons,
        Nat.add_sub_cancel]
      omega
  | .dict [] => by simp only [render, weighJson, weighItems, weigh_cons, weigh_nil]; omega
  | .dict ((k, v) :: kvs) => by
      have hv := weigh_render_gap hgap v
      have hkvs := weigh_renderItems_gap hgap kvs
      simp only [render, weighJson, weighItems, weigh_cons, weigh_append, List.length_cons,
        Nat.add_sub_cancel]
      omega
  | .obj => by simp only [render, weighJson, weigh_nil]; omega
theorem weigh_renderElems_gap (hgap : weigh w gap ≤ w (cp ',') ∧ weigh w gap ≤ w (cp ':')) :
    ∀ xs : List PyVal, weigh w (renderElems gap xs) ≤
      2 * (weighElems w xs + xs.length * w (cp ',') + w (cp ']'))
  | [] => by simp only [renderElems, weighElems, weigh_cons, weigh_nil]; omega
  | x :: xs => by
      have hx := weigh_render_gap hgap x
      have hxs := weigh_renderElems_gap hgap xs
      simp only [renderElems, weighElems, weigh_cons, weigh_append, List.length_cons, Nat.add_mul]
      omega
theorem weigh_renderItems_gap (hgap : weigh w gap ≤ w (cp ',') ∧ weigh w gap ≤ w (cp ':')) :
    ∀ kvs : List (PyKey × PyVal), weigh w (renderItems gap kvs) ≤
      2 * (weighItems w kvs + kvs.length * w (cp ',') + w (cp '}'))
  | [] => by simp only [renderItems, weighItems, weigh_cons, weigh_nil]; omega
  | (k, v) :: kvs => by
      have hv := weigh_render_gap hgap v
      have hkvs := weigh_renderItems_gap hgap kvs
      simp only [renderItems, weighItems, weigh_cons, weigh_append, List.length_cons, Nat.add_mul]
      omega
end

mutual
/-- A gap takes nothing away. -/
theorem weighJson_le_render : ∀ v : PyVal, weighJson w v ≤ weigh w (render gap v)
  | .none => le_rfl
  | .bool true => le_rfl
  | .bool false => le_rfl
  | .int _ => le_rfl
  | .float _ => le_rfl
  | .str _ => le_rfl
  | .list [] => by simp only [render, weighJson, weighElems, weigh_cons, weigh_nil]; simp
  | .list (x :: xs) => by
      have hx := weighJson_le_render x
      have hxs := weighElems_le_render xs
      simp only [render, weighJson, weighElems, weigh_cons, weigh_append, List.length_cons,
        Nat.add_sub_cancel]
      omega
  | .tuple [] => by simp only [render, weighJson, weighElems, weigh_cons, weigh_nil]; simp
  | .tuple (x :: xs) => by
      have hx := weighJson_le_render x
      have hxs := weighElems_le_render xs
      simp only [render, weighJson, weighElems, weigh_cons, weigh_append, List.length_cons,
        Nat.add_sub_cancel]
      omega
  | .dict [] => by simp only [render, weighJson, weighItems, weigh_cons, weigh_nil]; simp
  | .dict ((k, v) :: kvs) => by
      have hv := weighJson_le_render v
      have hkvs := weighItems_le_render kvs
      simp only [render, weighJson, weighItems, weigh_cons, weigh_append, List.length_cons,
        Nat.add_sub_cancel]
      omega
  | .obj => Nat.zero_le _
theorem weighElems_le_render : ∀ xs : List PyVal,
    weighElems w xs + xs.length * w (cp ',') + w (cp ']') ≤ weigh w (renderElems gap xs)
  | [] => by simp only [renderElems, weighElems, weigh_cons, weigh_nil]; simp
  | x :: xs => by
      have hx := weighJson_le_render x
      have hxs := weighElems_le_render xs
      simp only [renderElems, weighElems, weigh_cons, weigh_append, List.length_cons, Nat.add_mul]
      omega
theorem weighItems_le_render : ∀ kvs : List (PyKey × PyVal),
    weighItems w kvs + kvs.length * w (cp ',') + w (cp '}') ≤ weigh w (renderItems gap kvs)
  | [] => by simp only [renderItems, weighItems, weigh_cons, weigh_nil]; simp
  | (k, v) :: kvs => by
      have hv := weighJson_le_render v
      have hkvs := weighItems_le_render kvs
      simp only [renderItems, weighItems, weigh_cons, weigh_append, List.length_cons, Nat.add_mul]
      omega
end

end Gap

end Json

/-! ## Bytes -/

/-- The number of bytes of a document's compact JSON. -/
abbrev jsonBytes (v : PyVal) : Nat := weighJson utf8Size v

theorem utf8Len_render_canon (v : PyVal) : utf8Len (render [] v.canon) = jsonBytes v := by
  rw [jsonBytes, ← weighJson_canon, ← weigh_render]
  rfl

theorem utf8Len_quote (s : PyStr) : weigh utf8Size (quote s) = utf8Len (escape s) + 2 := by
  have hquote : utf8Size (cp '"') = 1 := by decide
  simp only [quote, weigh_cons, weigh_append, weigh_nil, hquote]
  rw [show weigh utf8Size (escape s) = utf8Len (escape s) from rfl]
  omega

/-- The default separators at most double a document. -/
theorem utf8Len_render_space (v : PyVal) : utf8Len (render [cp ' '] v) ≤ 2 * jsonBytes v :=
  weigh_render_gap (by decide) v

/-- A float takes 24 characters at most. -/
theorem FiniteFloat.length_le (f : FiniteFloat) : f.text.length ≤ 24 := by
  have h := f.ok
  simp only [isFloatRepr, Bool.and_eq_true, decide_eq_true_eq] at h
  exact h.2

theorem jsonBytes_float (f : FiniteFloat) : jsonBytes (.float (.fin f)) ≤ 96 := by
  have hbytes := utf8Len_le f.text
  have hlength := f.length_le
  change utf8Len f.text ≤ 96
  omega

/-- The bytes of a code point inside a JSON string, once it is encoded. -/
def jsonCharBytes (c : CodePoint) : Nat :=
  if c.val ∈ [34, 92, 8, 9, 10, 12, 13] then 2
  else if c.val < 32 then 6
  else utf8Size c

theorem utf8Len_escapeChar (c : CodePoint) : utf8Len (escapeChar c) = jsonCharBytes c := by
  have hhex : ∀ d, utf8Size (hexDigit d) = 1 := by
    intro d
    refine if_pos ?_
    simp only [hexDigit]
    split <;> omega
  have hshort : ∀ n, c.val = n → n ∈ [34, 92, 8, 9, 10, 12, 13] → jsonCharBytes c = 2 := by
    intro n hn hmem
    rw [← hn] at hmem
    exact if_pos hmem
  unfold escapeChar
  split
  · rename_i h
    subst h
    rfl
  split
  · rename_i h
    subst h
    rfl
  split
  · rw [hshort 8 ‹_› (by decide)]; rfl
  split
  · rw [hshort 9 ‹_› (by decide)]; rfl
  split
  · rw [hshort 10 ‹_› (by decide)]; rfl
  split
  · rw [hshort 12 ‹_› (by decide)]; rfl
  split
  · rw [hshort 13 ‹_› (by decide)]; rfl
  have hlong : c.val ∉ [34, 92, 8, 9, 10, 12, 13] := by
    rename_i h1 h2 h3 h4 h5 h6 h7
    simp only [List.mem_cons, List.not_mem_nil, or_false, not_or]
    exact ⟨fun h => h1 (Fin.ext h), fun h => h2 (Fin.ext h), h3, h4, h5, h6, h7⟩
  rw [jsonCharBytes, if_neg hlong]
  split
  · rw [utf8Len_cons, utf8Len_cons, utf8Len_cons, utf8Len_cons, utf8Len_cons, utf8Len_cons, hhex, hhex]
    rfl
  · simp

theorem utf8Len_escape : ∀ s : PyStr, utf8Len (escape s) = (s.map jsonCharBytes).sum
  | [] => rfl
  | c :: s => by
      have hcons : escape (c :: s) = escapeChar c ++ escape s := rfl
      rw [hcons, utf8Len_append, utf8Len_escapeChar, utf8Len_escape s, List.map_cons, List.sum_cons]

theorem utf8Len_ascii : ∀ {s : PyStr}, (∀ c ∈ s, c.val < 128) → utf8Len s = s.length
  | [], _ => rfl
  | c :: s, h => by
      have hone : utf8Size c = 1 := if_pos (h c List.mem_cons_self)
      rw [utf8Len_cons, hone, utf8Len_ascii fun x hx => h x (List.mem_cons_of_mem _ hx),
        List.length_cons, Nat.add_comm]

theorem utf8Len_float (f : FiniteFloat) : utf8Len f.text = f.text.length := by
  refine utf8Len_ascii fun c hc => ?_
  have hnum := isFloatRepr_numChar f.ok c hc
  simp only [isNumChar, isDigit, Bool.or_eq_true, Bool.and_eq_true, decide_eq_true_eq] at hnum
  rcases hnum with hdigit | hmark
  · omega
  · simp only [List.mem_cons, List.not_mem_nil, or_false] at hmark
    rcases hmark with rfl | rfl | rfl | rfl | rfl <;> decide

theorem utf8Len_escape_append (s t : PyStr) :
    utf8Len (escape (s ++ t)) = utf8Len (escape s) + utf8Len (escape t) := by
  simp [escape]

/-! ## Surrogates -/

/-- One for a lone surrogate. -/
def surrogateWeight (c : CodePoint) : Nat := if isSurrogate c then 1 else 0

theorem encodable_iff_weigh : ∀ s : PyStr, encodable s = true ↔ weigh surrogateWeight s = 0
  | [] => by simp
  | c :: s => by
      rw [encodable_cons, weigh_cons, Bool.and_eq_true, encodable_iff_weigh s, Nat.add_eq_zero_iff,
        surrogateWeight]
      cases isSurrogate c <;> simp

/-- Nothing in the document is a lone surrogate. -/
theorem encodable_render_canon (v : PyVal) :
    encodable (render [] v.canon) = true ↔ weighJson surrogateWeight v = 0 := by
  rw [encodable_iff_weigh, weigh_render, weighJson_canon]

theorem encodable_render_space {v : PyVal} (h : weighJson surrogateWeight v = 0) :
    encodable (render [cp ' '] v) = true := by
  have hle : weigh surrogateWeight (render [cp ' '] v) ≤ _ := weigh_render_gap (by decide) v
  rw [encodable_iff_weigh]
  omega

theorem encodable_float (f : FiniteFloat) : encodable f.text = true := by
  have hnum : ∀ c, isNumChar c = true → isSurrogate c = false := by
    intro c hc
    simp only [isNumChar, Bool.or_eq_true, decide_eq_true_eq] at hc
    rcases hc with hc | hc
    · exact isSurrogate_of_isDigit hc
    · simp only [List.mem_cons, List.not_mem_nil, or_false] at hc
      rcases hc with rfl | rfl | rfl | rfl | rfl <;> decide
  have hall := isFloatRepr_numChar f.ok
  simp only [encodable, List.all_eq_true]
  intro c hc
  rw [hnum c (hall c hc)]
  rfl

theorem surrogates_float (f : FiniteFloat) : weighJson surrogateWeight (.float (.fin f)) = 0 :=
  (encodable_iff_weigh _).mp (encodable_float f)

theorem encodable_escapeChar (c : CodePoint) : encodable (escapeChar c) = !isSurrogate c := by
  have hlow : c.val < 128 → isSurrogate c = false := by
    intro h
    simp only [isSurrogate, Bool.and_eq_false_iff, decide_eq_false_iff_not]
    omega
  have hhex : ∀ d, isSurrogate (hexDigit d) = false := by
    intro d
    have : (hexDigit d).val < 128 := by
      simp only [hexDigit]
      split <;> omega
    simp only [isSurrogate, Bool.and_eq_false_iff, decide_eq_false_iff_not]
    omega
  unfold escapeChar
  split
  · rename_i h
    subst h
    decide
  split
  · rename_i h
    subst h
    decide
  split
  · rw [hlow (by omega)]; decide
  split
  · rw [hlow (by omega)]; decide
  split
  · rw [hlow (by omega)]; decide
  split
  · rw [hlow (by omega)]; decide
  split
  · rw [hlow (by omega)]; decide
  split
  · rw [hlow (by omega)]
    simp only [encodable_cons, encodable_nil, hhex]
    decide
  · simp

theorem encodable_escape : ∀ s : PyStr, encodable (escape s) = encodable s
  | [] => rfl
  | c :: s => by
      have hcons : escape (c :: s) = escapeChar c ++ escape s := by simp [escape]
      rw [hcons, encodable_append, encodable_escapeChar, encodable_escape s, encodable_cons]

theorem surrogates_quote (s : PyStr) :
    weigh surrogateWeight (quote s) = 0 ↔ encodable s = true := by
  have hquote : surrogateWeight (cp '"') = 0 := by decide
  rw [← encodable_escape, encodable_iff_weigh]
  simp [quote, hquote]

/-- A lone surrogate is not one byte. -/
theorem isSurrogate_of_jsonCharBytes {c : CodePoint} (h : jsonCharBytes c = 1) : isSurrogate c = false := by
  have hval : c.val < 128 := by
    unfold jsonCharBytes utf8Size at h
    split at h
    · cases h
    split at h
    · cases h
    split at h
    · assumption
    · split at h
      · cases h
      · split at h <;> cases h
  simp only [isSurrogate, Bool.and_eq_false_iff, decide_eq_false_iff_not]
  omega

theorem surrogates_strs : ∀ ts : List PyStr,
    weighElems surrogateWeight (ts.map .str) = 0 ↔ ∀ t ∈ ts, encodable t = true
  | [] => by simp [weighElems]
  | t :: ts => by
      rw [List.map_cons, weighElems, weighJson, Nat.add_eq_zero_iff, surrogates_quote, surrogates_strs ts,
        List.forall_mem_cons]

end Py
