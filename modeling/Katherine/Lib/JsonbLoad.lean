import Katherine.Lib.FloatOfInt
import Katherine.Lib.Jsonb
import Katherine.Lib.JsonSize
import Katherine.Lib.JsonShape

/-!
# `jsonb` values, as a client reads them

`json.loads` of the text of a value. Everything but a number comes back as it was stored. What
becomes of a number is up to the numbers of the client, and a parameter here: an integer comes
back as itself, a decimal as a float near to it.

The text that the client would write again has the weight of the text that it has read, and less
where its numbers do (`weigh_render_load`). So a bound on the one is a bound on the other.
-/

namespace Pg.Jsonb

open Py

section

variable (readNumber : Numeric → PyVal)

mutual
/-- `json.loads(v::text)`. -/
def load : Jsonb → PyVal
  | .null => .none
  | .bool b => .bool b
  | .num x => readNumber x
  | .str s => .str s
  | .arr xs => .list (loadElems xs)
  | .obj kvs => .dict (loadItems kvs)
def loadElems : List Jsonb → List PyVal
  | [] => []
  | x :: xs => load x :: loadElems xs
def loadItems : List (PyStr × Jsonb) → List (PyKey × PyVal)
  | [] => []
  | (k, v) :: kvs => (.str k, load v) :: loadItems kvs
end

/-- The client has a number for this one, and does not need more room to write it. -/
structure NumberLegible (x : Numeric) : Prop where
  number : (∃ i, readNumber x = .int i ∧ i.natAbs < intTextLimit) ∨ ∃ f, readNumber x = .float (.fin f)
  short : utf8Len (render [cp ' '] (readNumber x)) ≤ utf8Len x.text

mutual
/-- All its numbers are legible. -/
def Legible : Jsonb → Prop
  | .num x => NumberLegible readNumber x
  | .arr xs => LegibleElems xs
  | .obj kvs => LegibleItems kvs
  | _ => True
def LegibleElems : List Jsonb → Prop
  | [] => True
  | x :: xs => Legible x ∧ LegibleElems xs
def LegibleItems : List (PyStr × Jsonb) → Prop
  | [] => True
  | (_, v) :: kvs => Legible v ∧ LegibleItems kvs
end

end

variable {readNumber : Numeric → PyVal}

/-! ## Members -/

theorem dictGet_loadItems (kvs : List (PyStr × Jsonb)) (k : PyStr) :
    dictGet (loadItems readNumber kvs) k = ((Jsonb.obj kvs).get? k).map (load readNumber) := by
  induction kvs with
  | nil => rfl
  | cons p kvs ih =>
      obtain ⟨key, v⟩ := p
      rw [loadItems, dictGet_cons]
      by_cases hk : key = k
      · rw [if_pos (by rw [hk])]
        simp [get?, members?, hk]
      · rw [if_neg (by simpa using hk), ih]
        simp [get?, members?, hk]

theorem mem_loadItems {kvs : List (PyStr × Jsonb)} {p : PyKey × PyVal} (h : p ∈ loadItems readNumber kvs) :
    ∃ q ∈ kvs, p.1 = .str q.1 := by
  induction kvs with
  | nil => cases h
  | cons q kvs ih =>
      rcases List.mem_cons.mp h with rfl | h
      · exact ⟨q, List.mem_cons_self, rfl⟩
      · obtain ⟨q', hq', hp⟩ := ih h
        exact ⟨q', List.mem_cons_of_mem q hq', hp⟩

/-! ## Writing it again -/

mutual
/-- What was read can be written. -/
theorem serialisable_load : ∀ {v : Jsonb}, Legible readNumber v → serialisable ⟨false, false⟩ (load readNumber v) = true
  | .null, _ => rfl
  | .bool _, _ => rfl
  | .str _, _ => rfl
  | .num x, h => by
      rw [load]
      rcases NumberLegible.number h with ⟨i, hi, hlimit⟩ | ⟨f, hf⟩
      · rw [hi]
        exact decide_eq_true hlimit
      · rw [hf]
        rfl
  | .arr _, h => serialisableElems_load h
  | .obj _, h => by
      rw [load, serialisable, serialisableItems_load h]
      rfl
theorem serialisableElems_load : ∀ {xs : List Jsonb}, LegibleElems readNumber xs →
    serialisableElems ⟨false, false⟩ (loadElems readNumber xs) = true
  | [], _ => rfl
  | x :: xs, h => by
      rw [loadElems, serialisableElems, serialisable_load h.1, serialisableElems_load h.2]
      rfl
theorem serialisableItems_load : ∀ {kvs : List (PyStr × Jsonb)}, LegibleItems readNumber kvs →
    serialisableItems ⟨false, false⟩ (loadItems readNumber kvs) = true
  | [], _ => rfl
  | (k, v) :: kvs, h => by
      rw [loadItems, serialisableItems, serialisable_load h.1, serialisableItems_load h.2]
      rfl
end

section

variable {w : CodePoint → Nat}

mutual
/-- What a number weighs decides what a value weighs. -/
theorem weigh_render_load
    (hw : ∀ x, NumberLegible readNumber x → weigh w (render [cp ' '] (readNumber x)) ≤ weigh w x.text) :
    ∀ {v : Jsonb}, Legible readNumber v → weigh w (render [cp ' '] (load readNumber v)) ≤ weigh w v.text
  | .null, _ => le_rfl
  | .bool true, _ => le_rfl
  | .bool false, _ => le_rfl
  | .str _, _ => le_rfl
  | .num x, h => hw x h
  | .arr [], _ => le_rfl
  | .arr (x :: xs), h => by
      have hx := weigh_render_load hw h.1
      have hxs := weigh_renderElems_load hw h.2
      simp only [load, loadElems, render, text, weigh_cons, weigh_append]
      omega
  | .obj [], _ => le_rfl
  | .obj ((k, v) :: kvs), h => by
      have hv := weigh_render_load hw h.1
      have hkvs := weigh_renderItems_load hw h.2
      simp only [load, loadItems, render, text, weigh_cons, weigh_append, weigh_nil, keyText]
      omega
theorem weigh_renderElems_load
    (hw : ∀ x, NumberLegible readNumber x → weigh w (render [cp ' '] (readNumber x)) ≤ weigh w x.text) :
    ∀ {xs : List Jsonb}, LegibleElems readNumber xs →
      weigh w (renderElems [cp ' '] (loadElems readNumber xs)) ≤ weigh w (textElems xs)
  | [], _ => le_rfl
  | x :: xs, h => by
      have hx := weigh_render_load hw h.1
      have hxs := weigh_renderElems_load hw h.2
      simp only [loadElems, renderElems, textElems, weigh_cons, weigh_append, weigh_nil]
      omega
theorem weigh_renderItems_load
    (hw : ∀ x, NumberLegible readNumber x → weigh w (render [cp ' '] (readNumber x)) ≤ weigh w x.text) :
    ∀ {kvs : List (PyStr × Jsonb)}, LegibleItems readNumber kvs →
      weigh w (renderItems [cp ' '] (loadItems readNumber kvs)) ≤ weigh w (textItems kvs)
  | [], _ => le_rfl
  | (k, v) :: kvs, h => by
      have hv := weigh_render_load hw h.1
      have hkvs := weigh_renderItems_load hw h.2
      simp only [loadItems, renderItems, textItems, weigh_cons, weigh_append, weigh_nil, keyText]
      omega
end

end

theorem utf8Len_render_load {v : Jsonb} (h : Legible readNumber v) :
    utf8Len (render [cp ' '] (load readNumber v)) ≤ v.octetLength :=
  weigh_render_load (fun _ hx => hx.short) h

/-- A text of scalar values is read as one. -/
theorem encodable_render_load {v : Jsonb} (h : Legible readNumber v) (hv : encodable v.text = true) :
    encodable (render [cp ' '] (load readNumber v)) = true := by
  have hnumber : ∀ x, NumberLegible readNumber x →
      weigh surrogateWeight (render [cp ' '] (readNumber x)) ≤ weigh surrogateWeight x.text := by
    intro x hx
    refine le_of_eq_of_le ?_ (Nat.zero_le _)
    rcases hx.number with ⟨i, hi, -⟩ | ⟨f, hf⟩
    · rw [hi]
      refine (encodable_iff_weigh _).mp (List.all_eq_true.mpr fun c hc => ?_)
      have hnum := intText_numChar i c hc
      simp only [isNumChar, Bool.or_eq_true, decide_eq_true_eq, List.mem_cons, List.not_mem_nil, or_false] at hnum
      rcases hnum with hdigit | rfl | rfl | rfl | rfl | rfl
      · rw [isSurrogate_of_isDigit hdigit]
        rfl
      all_goals decide
    · rw [hf]
      exact surrogates_float f
  have hle := weigh_render_load hnumber h
  rw [encodable_iff_weigh] at hv ⊢
  omega

/-! ## Numbers that come back as they were -/

/-- `json.loads` of a number, for a client that takes no integer of more than 53 bits and no decimal
that is longer than a float. -/
def exactNumber (x : Numeric) : PyVal :=
  if x.scale = 0 then if x.coeff.natAbs < 2 ^ 53 then .int x.coeff else .float .nan
  else if h : isFloatRepr x.text = true then .float (.fin ⟨x.text, h⟩) else .float .nan

end Pg.Jsonb

namespace Pg

open Py

/-- An integer of at most 53 bits is the float it becomes. -/
theorem value_of_floatOfInt {i : Int} {f : FiniteFloat} (h : floatOfInt i = some f) (hi : i.natAbs < 2 ^ 53) :
    f.value = i := by
  have hexact : (nearestDouble i.natAbs 1).ratio.1 / (nearestDouble i.natAbs 1).ratio.2 = i.natAbs := by
    rw [nearestDouble_of_lt hi, Nat.mul_div_cancel _ (Double.ratio_pos _)]
  have hsmall : (nearestDouble i.natAbs 1).ratio.1 / (nearestDouble i.natAbs 1).ratio.2 < 10 ^ 16 := by
    rw [hexact]
    exact Nat.lt_trans hi (by decide)
  -- one digit behind the point, and it is zero
  have hsame : f.text = (⟨10 * i, 1⟩ : Numeric).text := by
    have habs : (10 * i).natAbs = 10 * i.natAbs := by omega
    have hdigit : digit (10 * i.natAbs) = cp '0' := by
      apply Fin.ext
      show 48 + 10 * i.natAbs % 10 = 48
      omega
    have hsign : (10 * i < 0) = (i < 0) := by
      simp only [eq_iff_iff]
      omega
    rw [text_of_floatOfInt h, integralText_small hsmall, hexact, Numeric.text, decimalText]
    simp only [habs, hsign, Nat.pow_one, Nat.mul_div_cancel_left _ (show 0 < 10 by decide), lastDigits, hdigit]
    rfl
  have hten : (10 : ℚ) ≠ 0 := by simp
  rw [Numeric.value_of_text Nat.one_ne_zero hsame, Numeric.value]
  push_cast
  rw [mul_div_cancel_left₀ _ hten]

namespace Jsonb

theorem exactNumber_int {x : Numeric} {i : Int} (h : exactNumber x = .int i) :
    i.natAbs < 2 ^ 53 ∧ x.value = i := by
  unfold exactNumber at h
  split at h
  · rename_i hscale
    split at h
    · rename_i hsmall
      obtain rfl := PyVal.int.inj h
      exact ⟨hsmall, by rw [Numeric.value, hscale]; simp⟩
    · cases h
  · split at h <;> cases h

theorem exactNumber_float {x : Numeric} {f : FiniteFloat} (h : exactNumber x = .float (.fin f)) :
    f.value = x.value := by
  unfold exactNumber at h
  split at h
  · split at h <;> cases h
  · rename_i hscale
    split at h
    · cases h
      exact Numeric.value_of_text hscale rfl
    · cases h

end Pg.Jsonb
