import Katherine.Lib.Text

/-!
# UTF-8, sliced anywhere

`encode` writes a text as bytes, and `decodeIgnore` reads bytes under `errors="ignore"`: it
keeps the characters that are whole and drops every byte that is part of none.

A slice of an encoded text may begin or end inside a character. The bytes of that character
are dropped and nothing else is: `decode_beginning` and `decode_end`.
-/

namespace Utf8

open Py

abbrev Byte := Fin 256

theorem mod_byte_lt (n : Nat) : n % 256 < 256 := Nat.mod_lt n (by decide)

def byte (n : Nat) : Byte := ⟨n % 256, mod_byte_lt n⟩

/-- The bytes of one character. -/
def encodeChar (c : CodePoint) : List Byte :=
  if c.val < 0x80 then [byte c.val]
  else if c.val < 0x800 then [byte (0xC0 + c.val / 64), byte (0x80 + c.val % 64)]
  else if c.val < 0x10000 then
    [byte (0xE0 + c.val / 4096), byte (0x80 + c.val / 64 % 64), byte (0x80 + c.val % 64)]
  else
    [byte (0xF0 + c.val / 262144), byte (0x80 + c.val / 4096 % 64), byte (0x80 + c.val / 64 % 64),
      byte (0x80 + c.val % 64)]

/-- `s.encode("utf-8")`, for a text that is encodable. -/
def encode (s : PyStr) : List Byte := s.flatMap encodeChar

/-- A character that has begun: its bits so far, how many bytes are missing, and the range the
next of them is in. -/
structure Pending where
  value : Nat
  missing : Nat
  low : Nat
  high : Nat

/-- What a byte from `0x80` on begins; a continuation byte begins nothing. -/
def lead (b : Byte) : Option Pending :=
  if b.val < 0xC2 then none
  else if b.val < 0xE0 then some ⟨b.val - 0xC0, 1, 0x80, 0xBF⟩
  else if b.val = 0xE0 then some ⟨0, 2, 0xA0, 0xBF⟩
  -- the surrogates are left out
  else if b.val = 0xED then some ⟨0xD, 2, 0x80, 0x9F⟩
  else if b.val < 0xF0 then some ⟨b.val - 0xE0, 2, 0x80, 0xBF⟩
  else if b.val = 0xF0 then some ⟨0, 3, 0x90, 0xBF⟩
  else if b.val < 0xF4 then some ⟨b.val - 0xF0, 3, 0x80, 0xBF⟩
  else if b.val = 0xF4 then some ⟨4, 3, 0x80, 0x8F⟩
  else none

def codePoint (n : Nat) : CodePoint := Fin.ofNat 0x110000 n

/-- A byte between characters. -/
def begin (b : Byte) : Option Pending × PyStr :=
  if b.val < 0x80 then (none, [codePoint b.val]) else (lead b, [])

/-- One byte: what is pending after it, and the character it completes. A byte that does not
continue what is pending begins anew, and what was pending is dropped. -/
def step : Option Pending → Byte → Option Pending × PyStr
  | none, b => begin b
  | some p, b =>
      if p.low ≤ b.val ∧ b.val ≤ p.high then
        let value := p.value * 64 + b.val % 64
        if p.missing = 1 then (none, [codePoint value])
        else (some ⟨value, p.missing - 1, 0x80, 0xBF⟩, [])
      else begin b

/-- What is read from here on. Bytes that are missing at the end are ignored like the others. -/
def decodeFrom : Option Pending → List Byte → PyStr
  | _, [] => []
  | p, b :: bs => (step p b).2 ++ decodeFrom (step p b).1 bs

/-- `b.decode("utf-8", errors="ignore")`. -/
def decodeIgnore (bs : List Byte) : PyStr := decodeFrom none bs

/-! ## The bytes of one character -/

@[simp] theorem encode_nil : encode [] = [] := rfl

@[simp] theorem encode_cons (c : CodePoint) (s : PyStr) : encode (c :: s) = encodeChar c ++ encode s :=
  List.flatMap_cons

@[simp] theorem length_encodeChar (c : CodePoint) : (encodeChar c).length = utf8Size c := by
  unfold encodeChar utf8Size
  split
  · rfl
  · split
    · rfl
    · split <;> rfl

/-- `len(s.encode("utf-8"))`. -/
@[simp] theorem length_encode (s : PyStr) : (encode s).length = utf8Len s := by
  induction s with
  | nil => rfl
  | cons c s ih => rw [encode_cons, List.length_append, length_encodeChar, ih, utf8Len_cons]

theorem val_byte {n : Nat} (h : n < 256) : (byte n).val = n := Nat.mod_eq_of_lt h

/-- A byte that continues a character. -/
def continues (b : Byte) : Prop := 0x80 ≤ b.val ∧ b.val < 0xC0

theorem continues_byte (n : Nat) : continues (byte (0x80 + n % 64)) := by
  have hlt : n % 64 < 64 := Nat.mod_lt n (by decide)
  rw [continues, val_byte (by omega)]
  omega

/-- Between characters it is dropped. -/
theorem decode_continues {b : Byte} (h : continues b) (bs : List Byte) :
    decodeFrom none (b :: bs) = decodeFrom none bs := by
  have hstep : step none b = (none, []) := by
    have hlead : lead b = none := if_pos (Nat.lt_of_lt_of_le h.2 (by decide))
    rw [step, begin, if_neg (Nat.not_lt_of_le h.1), hlead]
  rw [decodeFrom, hstep, List.nil_append]

/-- All bytes of a character but the first continue it. -/
theorem continues_tail {c : CodePoint} {b : Byte} (h : b ∈ (encodeChar c).tail) : continues b := by
  unfold encodeChar at h
  split at h
  · cases h
  split at h
  · rw [List.mem_singleton.mp h]
    exact continues_byte _
  split at h
  · rcases List.mem_cons.mp h with rfl | h
    · exact continues_byte _
    · rw [List.mem_singleton.mp h]
      exact continues_byte _
  · rcases List.mem_cons.mp h with rfl | h
    · exact continues_byte _
    rcases List.mem_cons.mp h with rfl | h
    · exact continues_byte _
    · rw [List.mem_singleton.mp h]
      exact continues_byte _

theorem decode_all_continue {as : List Byte} (h : ∀ b ∈ as, continues b) (bs : List Byte) :
    decodeFrom none (as ++ bs) = decodeFrom none bs := by
  induction as with
  | nil => rfl
  | cons a as ih =>
      rw [List.cons_append, decode_continues (h a List.mem_cons_self),
        ih fun b hb => h b (List.mem_cons_of_mem a hb)]

/-- **The end of a character is dropped.** -/
theorem decode_end (c : CodePoint) {n : Nat} (hn : 0 < n) (bs : List Byte) :
    decodeFrom none ((encodeChar c).drop n ++ bs) = decodeFrom none bs := by
  refine decode_all_continue (fun b hb => continues_tail (c := c) ?_) bs
  rw [← List.drop_one]
  exact (List.drop_sublist_drop_left _ hn).mem hb

/-! ## The first byte -/

theorem begin_ascii {v : Nat} (h : v < 0x80) : begin (byte v) = (none, [codePoint v]) := by
  rw [begin, val_byte (by omega), if_pos h]

theorem begin_two {v : Nat} (hlow : 0x80 ≤ v) (hhigh : v < 0x800) :
    begin (byte (0xC0 + v / 64)) = (some ⟨v / 64, 1, 0x80, 0xBF⟩, []) := by
  have hlead : lead (byte (0xC0 + v / 64)) = some ⟨v / 64, 1, 0x80, 0xBF⟩ := by
    rw [lead, val_byte (by omega), if_neg (by omega), if_pos (by omega), Nat.add_sub_cancel_left]
  rw [begin, hlead, val_byte (by omega), if_neg (by omega)]

/-- Of three bytes, the first leaves for the second just what is neither too small for three bytes
nor a surrogate. -/
theorem begin_three {v : Nat} (hlow : 0x800 ≤ v) (hhigh : v < 0x10000) (hscalar : v < 0xD800 ∨ 0xDFFF < v) :
    ∃ low high, begin (byte (0xE0 + v / 4096)) = (some ⟨v / 4096, 2, low, high⟩, []) ∧
      low ≤ 0x80 + v / 64 % 64 ∧ 0x80 + v / 64 % 64 ≤ high := by
  have hbegin : ∀ p, lead (byte (0xE0 + v / 4096)) = some p →
      begin (byte (0xE0 + v / 4096)) = (some p, []) := by
    intro p hp
    rw [begin, hp, val_byte (by omega), if_neg (by omega)]
  have hval : (byte (0xE0 + v / 4096)).val = 0xE0 + v / 4096 := val_byte (by omega)
  rcases Nat.eq_zero_or_pos (v / 4096) with h0 | h0
  · refine ⟨0xA0, 0xBF, hbegin _ ?_, by omega, by omega⟩
    rw [lead, hval, if_neg (by omega), if_neg (by omega), if_pos (by omega), h0]
  by_cases hD : v / 4096 = 0xD
  · refine ⟨0x80, 0x9F, hbegin _ ?_, by omega, by omega⟩
    rw [lead, hval, if_neg (by omega), if_neg (by omega), if_neg (by omega), if_pos (by omega), hD]
  · refine ⟨0x80, 0xBF, hbegin _ ?_, by omega, by omega⟩
    rw [lead, hval, if_neg (by omega), if_neg (by omega), if_neg (by omega), if_neg (by omega),
      if_pos (by omega), Nat.add_sub_cancel_left]

/-- Of four, what is too small for four or too large for Unicode. -/
theorem begin_four {v : Nat} (hlow : 0x10000 ≤ v) (hhigh : v < 0x110000) :
    ∃ low high, begin (byte (0xF0 + v / 262144)) = (some ⟨v / 262144, 3, low, high⟩, []) ∧
      low ≤ 0x80 + v / 4096 % 64 ∧ 0x80 + v / 4096 % 64 ≤ high := by
  have hbegin : ∀ p, lead (byte (0xF0 + v / 262144)) = some p →
      begin (byte (0xF0 + v / 262144)) = (some p, []) := by
    intro p hp
    rw [begin, hp, val_byte (by omega), if_neg (by omega)]
  have hval : (byte (0xF0 + v / 262144)).val = 0xF0 + v / 262144 := val_byte (by omega)
  rcases Nat.eq_zero_or_pos (v / 262144) with h0 | h0
  · refine ⟨0x90, 0xBF, hbegin _ ?_, by omega, by omega⟩
    rw [lead, hval, if_neg (by omega), if_neg (by omega), if_neg (by omega), if_neg (by omega),
      if_neg (by omega), if_pos (by omega), h0]
  by_cases h4 : v / 262144 = 4
  · refine ⟨0x80, 0x8F, hbegin _ ?_, by omega, by omega⟩
    rw [lead, hval, if_neg (by omega), if_neg (by omega), if_neg (by omega), if_neg (by omega),
      if_neg (by omega), if_neg (by omega), if_neg (by omega), if_pos (by omega), h4]
  · refine ⟨0x80, 0xBF, hbegin _ ?_, by omega, by omega⟩
    rw [lead, hval, if_neg (by omega), if_neg (by omega), if_neg (by omega), if_neg (by omega),
      if_neg (by omega), if_neg (by omega), if_pos (by omega), Nat.add_sub_cancel_left]

/-! ## The other bytes -/

/-- A byte in the range continues what is pending. -/
theorem step_more (value missing : Nat) {low high x : Nat} (hx : x < 64) (hlow : low ≤ 0x80 + x)
    (hhigh : 0x80 + x ≤ high) (hmissing : missing ≠ 1) :
    step (some ⟨value, missing, low, high⟩) (byte (0x80 + x)) =
      (some ⟨value * 64 + x, missing - 1, 0x80, 0xBF⟩, []) := by
  have hval : (byte (0x80 + x)).val = 0x80 + x := val_byte (by omega)
  have hmod : (0x80 + x) % 64 = x := by omega
  simp only [step, hval, hmod, hlow, hhigh, and_self, if_true, if_neg hmissing]

/-- The last one completes it. -/
theorem step_last (value : Nat) {low high x : Nat} (hx : x < 64) (hlow : low ≤ 0x80 + x)
    (hhigh : 0x80 + x ≤ high) :
    step (some ⟨value, 1, low, high⟩) (byte (0x80 + x)) = (none, [codePoint (value * 64 + x)]) := by
  have hval : (byte (0x80 + x)).val = 0x80 + x := val_byte (by omega)
  have hmod : (0x80 + x) % 64 = x := by omega
  simp only [step, hval, hmod, hlow, hhigh, and_self, if_true]

theorem codePoint_val {n : Nat} {c : CodePoint} (h : n = c.val) : codePoint n = c := by
  rw [h]
  exact Fin.ext (Nat.mod_eq_of_lt c.isLt)

/-- A character that is whole is read, and leaves nothing pending; of one that is cut short nothing
is. -/
theorem decode_encodeChar {c : CodePoint} (h : isSurrogate c = false) :
    (∀ bs, decodeFrom none (encodeChar c ++ bs) = c :: decodeFrom none bs) ∧
      ∀ n < utf8Size c, decodeFrom none ((encodeChar c).take n) = [] := by
  have hlt := c.isLt
  have hscalar : c.val < 0xD800 ∨ 0xDFFF < c.val := by
    simp only [isSurrogate, Bool.and_eq_false_iff, decide_eq_false_iff_not] at h
    omega
  have hmod : ∀ n, n % 64 < 64 := fun n => Nat.mod_lt n (by decide)
  have hlast : ∀ n, 0x80 ≤ 0x80 + n % 64 ∧ 0x80 + n % 64 ≤ 0xBF := fun n => by omega
  have hnone : ∀ bs : List Byte, decodeFrom none (bs.take 0) = [] := fun _ => rfl
  unfold encodeChar utf8Size
  split
  · -- one byte
    next h1 =>
    refine ⟨fun bs => ?_, fun n hn => ?_⟩
    · rw [List.singleton_append, decodeFrom, step, begin_ascii h1, codePoint_val rfl, List.singleton_append]
    · rw [Nat.lt_one_iff.mp hn, hnone]
  next h1 =>
  split
  · -- two bytes
    next h2 =>
    have hbegin := begin_two (Nat.le_of_not_lt h1) h2
    have hstep := step_last (c.val / 64) (hmod c.val) (hlast c.val).1 (hlast c.val).2
    rw [codePoint_val (c := c) (by omega)] at hstep
    refine ⟨fun bs => ?_, fun n hn => ?_⟩
    · rw [List.cons_append, List.singleton_append, decodeFrom, step, hbegin, decodeFrom, hstep]
      rfl
    · obtain rfl | rfl : n = 0 ∨ n = 1 := by omega
      · exact hnone _
      · rw [List.take_succ_cons, List.take_zero, decodeFrom, step, hbegin]
        rfl
  next h2 =>
  split
  · -- three bytes
    next h3 =>
    obtain ⟨low, high, hbegin, hlow, hhigh⟩ := begin_three (Nat.le_of_not_lt h2) h3 hscalar
    have hmore := step_more (c.val / 4096) 2 (hmod (c.val / 64)) hlow hhigh (by decide)
    have hstep := step_last (c.val / 4096 * 64 + c.val / 64 % 64) (hmod c.val) (hlast c.val).1
      (hlast c.val).2
    rw [codePoint_val (c := c) (by omega)] at hstep
    refine ⟨fun bs => ?_, fun n hn => ?_⟩
    · rw [List.cons_append, List.cons_append, List.singleton_append, decodeFrom, step, hbegin, decodeFrom,
        hmore, decodeFrom, hstep]
      rfl
    · obtain rfl | rfl | rfl : n = 0 ∨ n = 1 ∨ n = 2 := by omega
      · exact hnone _
      · rw [List.take_succ_cons, List.take_zero, decodeFrom, step, hbegin]
        rfl
      · rw [List.take_succ_cons, List.take_succ_cons, List.take_zero, decodeFrom, step, hbegin, decodeFrom,
          hmore]
        rfl
  · -- four bytes
    next h3 =>
    obtain ⟨low, high, hbegin, hlow, hhigh⟩ := begin_four (Nat.le_of_not_lt h3) hlt
    have hmore := step_more (c.val / 262144) 3 (hmod (c.val / 4096)) hlow hhigh
      (by decide)
    have hmore' := step_more (c.val / 262144 * 64 + c.val / 4096 % 64) 2
      (hmod (c.val / 64)) (hlast _).1 (hlast _).2 (by decide)
    have hstep := step_last ((c.val / 262144 * 64 + c.val / 4096 % 64) * 64 + c.val / 64 % 64)
      (hmod c.val) (hlast c.val).1 (hlast c.val).2
    rw [codePoint_val (c := c) (by omega)] at hstep
    refine ⟨fun bs => ?_, fun n hn => ?_⟩
    · rw [List.cons_append, List.cons_append, List.cons_append, List.singleton_append, decodeFrom, step,
        hbegin, decodeFrom, hmore, decodeFrom, hmore', decodeFrom, hstep]
      rfl
    · obtain rfl | rfl | rfl | rfl : n = 0 ∨ n = 1 ∨ n = 2 ∨ n = 3 := by omega
      · exact hnone _
      · rw [List.take_succ_cons, List.take_zero, decodeFrom, step, hbegin]
        rfl
      · rw [List.take_succ_cons, List.take_succ_cons, List.take_zero, decodeFrom, step, hbegin, decodeFrom,
          hmore]
        rfl
      · rw [List.take_succ_cons, List.take_succ_cons, List.take_succ_cons, List.take_zero, decodeFrom, step,
          hbegin, decodeFrom, hmore, decodeFrom, hmore']
        rfl

/-- **A character is read back.** -/
theorem decode_char {c : CodePoint} (h : isSurrogate c = false) (bs : List Byte) :
    decodeFrom none (encodeChar c ++ bs) = c :: decodeFrom none bs := (decode_encodeChar h).1 bs

/-- **The beginning of a character is dropped.** -/
theorem decode_beginning {c : CodePoint} (h : isSurrogate c = false) {n : Nat} (hn : n < utf8Size c) :
    decodeFrom none ((encodeChar c).take n) = [] := (decode_encodeChar h).2 n hn

end Utf8
