import Katherine.Lib.JsonRoundTrip

/-!
# Hexadecimal numerals

`"%x" % n` and `int(s, 16)`, where `s` has nothing but digits in it.
-/

namespace Py

/-- Least significant digit first; `fuel` bounds the number of digits. -/
def hexRev : Nat → Nat → PyStr
  | 0, _ => []
  | fuel + 1, n => if n < 16 then [hexDigit n] else hexDigit n :: hexRev fuel (n / 16)

/-- `"%x"` of a number below 65536. -/
def hexText (n : Nat) : PyStr := (hexRev 4 n).reverse

/-- `int(s, 16)` of hexadecimal digits. -/
def hexValue (s : PyStr) : Nat := s.foldl (fun a c => 16 * a + (hexVal c).getD 0) 0

/-- `"%0kx"` of a number below `16 ^ k`. -/
def hexPadded : Nat → Nat → PyStr
  | 0, _ => []
  | k + 1, n => hexPadded k (n / 16) ++ [hexDigit n]

theorem hexValue_snoc (s : PyStr) (c : CodePoint) :
    hexValue (s ++ [c]) = 16 * hexValue s + (hexVal c).getD 0 := by
  simp [hexValue]

theorem hexValue_hexRev : ∀ fuel n : Nat, n < 16 ^ fuel → hexValue (hexRev fuel n).reverse = n
  | 0, n, h => by
      obtain rfl : n = 0 := by simpa using h
      rfl
  | fuel + 1, n, h => by
      rw [hexRev]
      split
      · rename_i hn
        simp only [List.reverse_singleton, hexValue, List.foldl_cons, List.foldl_nil,
          hexVal_hexDigit_mod, Option.getD_some]
        omega
      · rw [List.reverse_cons, hexValue_snoc, hexValue_hexRev fuel (n / 16) (by omega),
          hexVal_hexDigit_mod, Option.getD_some]
        omega

theorem hexRev_length : ∀ fuel n : Nat, (hexRev fuel n).length ≤ fuel
  | 0, _ => Nat.le_refl 0
  | fuel + 1, n => by
      have := hexRev_length fuel (n / 16)
      rw [hexRev]
      split
      · simp
      · simp only [List.length_cons]
        omega

theorem hexRev_isHex : ∀ fuel n : Nat, ∀ c ∈ hexRev fuel n, (hexVal c).isSome = true
  | 0, _, c, h => by cases h
  | fuel + 1, n, c, h => by
      rw [hexRev] at h
      split at h
      · rw [List.mem_singleton.mp h, hexVal_hexDigit_mod]
        rfl
      · rcases List.mem_cons.mp h with h | h
        · rw [h, hexVal_hexDigit_mod]
          rfl
        · exact hexRev_isHex fuel (n / 16) c h

theorem hexText_isHex (n : Nat) : ∀ c ∈ hexText n, (hexVal c).isSome = true := by
  intro c hc
  exact hexRev_isHex 4 n c (List.mem_reverse.mp hc)

theorem hexText_ne_nil (n : Nat) : hexText n ≠ [] := by
  unfold hexText hexRev
  split <;> simp

/-- What is no hexadecimal digit does not occur in a numeral. -/
theorem not_mem_hexText {n : Nat} {c : CodePoint} (hc : hexVal c = none) : c ∉ hexText n := by
  intro hmem
  have := hexText_isHex n c hmem
  rw [hc] at this
  cases this

theorem hexPadded_length : ∀ k n : Nat, (hexPadded k n).length = k
  | 0, _ => rfl
  | k + 1, n => by rw [hexPadded, List.length_append, hexPadded_length k, List.length_singleton]

theorem hexVal_lt {c : CodePoint} {d : Nat} (h : hexVal c = some d) : d < 16 := by
  unfold hexVal at h
  split at h
  · cases h
    omega
  · split at h
    · cases h
      omega
    · split at h
      · cases h
        omega
      · cases h

theorem hexValue_lt (s : PyStr) : hexValue s < 16 ^ s.length := by
  induction s using List.reverseRecOn with
  | nil => decide
  | append_singleton s c ih =>
      have hdigit : (hexVal c).getD 0 < 16 := by
        cases hc : hexVal c with
        | none => decide
        | some d => exact hexVal_lt hc
      rw [hexValue_snoc, List.length_append, List.length_singleton, Nat.pow_succ]
      omega

/-- A numeral in the digits that are written is read and written again as itself. -/
theorem hexPadded_hexValue {s : PyStr} (h : ∀ c ∈ s, hexDigit ((hexVal c).getD 0) = c) :
    hexPadded s.length (hexValue s) = s := by
  induction s using List.reverseRecOn with
  | nil => rfl
  | append_singleton s c ih =>
      have hdigit : (hexVal c).getD 0 < 16 := by
        cases hc : hexVal c with
        | none => decide
        | some d => exact hexVal_lt hc
      have hmod : hexDigit (16 * hexValue s + (hexVal c).getD 0) = c := by
        rw [hexDigit_mod, Nat.mul_add_mod, Nat.mod_eq_of_lt hdigit]
        exact h c (by simp)
      rw [List.length_append, List.length_singleton, hexPadded, hexValue_snoc, hmod,
        show (16 * hexValue s + (hexVal c).getD 0) / 16 = hexValue s by omega,
        ih fun x hx => h x (List.mem_append_left _ hx)]

theorem hexPadded_isDigit : ∀ k n : Nat, ∀ c ∈ hexPadded k n, ∃ d < 16, c = hexDigit d
  | 0, _, c, h => by cases h
  | k + 1, n, c, h => by
      rw [hexPadded, List.mem_append, List.mem_singleton] at h
      rcases h with h | h
      · exact hexPadded_isDigit k (n / 16) c h
      · exact ⟨n % 16, Nat.mod_lt _ (by omega), by rw [h, hexDigit_mod]⟩

end Py
