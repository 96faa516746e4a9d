import Katherine.Lib.Text

/-!
# Percent-encoding

The bytes of a path, and the two directions of percent-encoding between them: `quote` leaves
the unreserved characters and the slash as they are, and `percentDecode` reads every escape,
in capitals or not. A text becomes bytes by `fsencode`.

Decoding goes segment by segment: `percentDecode_slash`. `quote_inv` is the round trip, and
`decode_prefix` says that a path below which its own decoding lies has no escape at all.
-/

namespace Percent

open Py

abbrev Byte := Fin 256

def slash : Byte := 47

def percent : Byte := 37

def dot : Byte := 46

/-- `os.fsencode` of one code point: UTF-8, and a byte that did not decode is itself again. The
other surrogates occur in no path. -/
def fsencodeChar (c : CodePoint) : List Byte :=
  if c.val < 0x80 then [Fin.ofNat 256 c.val]
  else if 0xDC80 ≤ c.val ∧ c.val ≤ 0xDCFF then [Fin.ofNat 256 (c.val - 0xDC00)]
  else if c.val < 0x800 then [Fin.ofNat 256 (0xC0 + c.val / 64), Fin.ofNat 256 (0x80 + c.val % 64)]
  else if c.val < 0x10000 then
    [Fin.ofNat 256 (0xE0 + c.val / 4096), Fin.ofNat 256 (0x80 + c.val / 64 % 64),
      Fin.ofNat 256 (0x80 + c.val % 64)]
  else
    [Fin.ofNat 256 (0xF0 + c.val / 262144), Fin.ofNat 256 (0x80 + c.val / 4096 % 64),
      Fin.ofNat 256 (0x80 + c.val / 64 % 64), Fin.ofNat 256 (0x80 + c.val % 64)]

/-- `os.fsencode`. -/
def fsencode (s : PyStr) : List Byte := s.flatMap fsencodeChar

/-- The text of ASCII bytes. -/
def ascii (bs : List Byte) : PyStr := bs.map fun b => Fin.ofNat 0x110000 b.val

/-- The value of a hexadecimal digit. -/
def hexByte (b : Byte) : Option Nat :=
  if 48 ≤ b.val ∧ b.val ≤ 57 then some (b.val - 48)
  else if 65 ≤ b.val ∧ b.val ≤ 70 then some (b.val - 55)
  else if 97 ≤ b.val ∧ b.val ≤ 102 then some (b.val - 87)
  else none

/-- The byte that an escape stands for. -/
def escape (b x y : Byte) : Option Byte :=
  if b = percent then
    (hexByte x).bind fun h => (hexByte y).map fun l => Fin.ofNat 256 (16 * h + l)
  else none

/-- `unquote_to_bytes`. -/
def percentDecode : List Byte → List Byte
  | b :: x :: y :: rest =>
      match escape b x y with
      | some d => d :: percentDecode rest
      | none => b :: percentDecode (x :: y :: rest)
  | bs => bs

/-- `A-Z`, `a-z`, `0-9`, `_.-~` and the slash. -/
def isSafe (b : Byte) : Bool :=
  (decide (65 ≤ b.val) && decide (b.val ≤ 90)) || (decide (97 ≤ b.val) && decide (b.val ≤ 122)) ||
    (decide (48 ≤ b.val) && decide (b.val ≤ 57)) || decide (b.val ∈ [95, 46, 45, 126, 47])

/-- A capital hexadecimal digit. -/
def hexCapital (n : Nat) : Byte := Fin.ofNat 256 (if n < 10 then 48 + n else 55 + n)

def quoteByte (b : Byte) : List Byte :=
  if isSafe b then [b] else [percent, hexCapital (b.val / 16), hexCapital (b.val % 16)]

/-- `quote_from_bytes`, as bytes. -/
def quote (bs : List Byte) : List Byte := bs.flatMap quoteByte

/-! ## Decoding -/

theorem decode_escape {b x y d : Byte} (h : escape b x y = some d) (rest : List Byte) :
    percentDecode (b :: x :: y :: rest) = d :: percentDecode rest := by
  rw [percentDecode, h]

/-- A byte that begins no escape. -/
theorem decode_literal {b : Byte} {rest : List Byte}
    (h : ∀ x y tail, rest = x :: y :: tail → escape b x y = none) :
    percentDecode (b :: rest) = b :: percentDecode rest := by
  match rest with
  | [] => rfl
  | [x] => rfl
  | x :: y :: tail => rw [percentDecode, h x y tail rfl]

theorem decode_of_ne {b : Byte} (h : b ≠ percent) (rest : List Byte) :
    percentDecode (b :: rest) = b :: percentDecode rest :=
  decode_literal fun _ _ _ _ => if_neg h

theorem hexByte_slash : hexByte slash = none := rfl

theorem escape_slash (b x : Byte) : escape b slash x = none ∧ escape b x slash = none := by
  unfold escape
  rw [hexByte_slash]
  constructor
  · split <;> rfl
  · split
    · cases hexByte x <;> rfl
    · rfl

/-- **Decoding goes segment by segment.** -/
theorem percentDecode_slash (as bs : List Byte) :
    percentDecode (as ++ slash :: bs) = percentDecode as ++ slash :: percentDecode bs := by
  have hslash := decode_of_ne (show slash ≠ percent by decide) bs
  induction as using percentDecode.induct with
  | case1 b x y rest d hescape ih =>
      rw [decode_escape hescape]
      exact (decode_escape hescape (rest ++ slash :: bs)).trans (congrArg (d :: ·) ih)
  | case2 b x y rest hescape ih =>
      rw [decode_literal (fun _ _ _ h => by cases h; exact hescape)]
      refine (decode_literal (b := b) ?_).trans (congrArg (b :: ·) ih)
      exact fun _ _ _ h => by cases h; exact hescape
  | case3 as hshort =>
      match as with
      | [] => exact hslash
      | [x] =>
          change percentDecode (x :: slash :: bs) = [x] ++ slash :: percentDecode bs
          rw [decode_literal fun _ _ _ h => by cases h; exact (escape_slash x _).1, hslash]
          rfl
      | [x, y] =>
          change percentDecode (x :: y :: slash :: bs) = [x, y] ++ slash :: percentDecode bs
          rw [decode_literal fun _ _ _ h => by cases h; exact (escape_slash x _).2,
            decode_literal fun _ _ _ h => by cases h; exact (escape_slash y _).1, hslash]
          rfl
      | x :: y :: z :: rest => exact absurd rfl (hshort x y z rest)

theorem percentDecode_intercalate : ∀ segs : List (List Byte),
    percentDecode ([slash].intercalate segs) = [slash].intercalate (segs.map percentDecode)
  | [] => rfl
  | [seg] => by simp
  | seg :: seg' :: segs => by
      rw [List.intercalate_cons_cons, List.append_assoc, List.singleton_append,
        percentDecode_slash, percentDecode_intercalate (seg' :: segs)]
      simp only [List.map_cons, List.intercalate_cons_cons, List.append_assoc,
        List.singleton_append]

/-- Decoding makes a text shorter, or leaves it as it is. -/
theorem decode_shorter (bs : List Byte) :
    percentDecode bs = bs ∨ (percentDecode bs).length < bs.length := by
  induction bs using percentDecode.induct with
  | case1 b x y rest d hescape ih =>
      rw [decode_escape hescape]
      have : (percentDecode rest).length ≤ rest.length := by
        rcases ih with ih | ih
        · rw [ih]
        · exact le_of_lt ih
      exact .inr (by simp only [List.length_cons]; omega)
  | case2 b x y rest hescape ih =>
      rw [decode_literal (fun _ _ _ h => by cases h; exact hescape)]
      rcases ih with ih | ih
      · exact .inl (by rw [ih])
      · exact .inr (by simpa using ih)
  | case3 bs hshort => exact .inl (percentDecode.eq_2 bs hshort)

/-- **A path below which its own decoding lies** is its own decoding. -/
theorem decode_prefix (bs t : List Byte) (h : bs ++ [slash] = percentDecode bs ++ slash :: t) :
    percentDecode bs = bs := by
  rcases decode_shorter bs with hsame | hlt
  · exact hsame
  · -- the decoding lies below its own decoding too, and is shorter
    have ht : t ≠ [] := by
      rintro rfl
      have := congrArg List.length h
      simp at this
      omega
    have hbs : bs = percentDecode bs ++ slash :: t.dropLast := by
      have := congrArg List.dropLast h
      rwa [List.dropLast_concat, List.dropLast_append_of_ne_nil (by simp),
        List.dropLast_cons_of_ne_nil ht] at this
    have hdecode := congrArg percentDecode hbs
    rw [percentDecode_slash] at hdecode
    have hagain := decode_prefix (percentDecode bs) (percentDecode t.dropLast ++ [slash]) (by
      conv_lhs => rw [hdecode]
      simp)
    rw [hagain] at hdecode
    have := congrArg List.length hdecode
    simp at this
termination_by bs.length

/-! ## Quoting -/

theorem hexByte_capital : ∀ n : Fin 16, hexByte (hexCapital n.val) = some n.val := by decide

theorem decode_quoteByte (b : Byte) (rest : List Byte) :
    percentDecode (quoteByte b ++ rest) = b :: percentDecode rest := by
  unfold quoteByte
  split
  · rename_i hsafe
    refine decode_of_ne ?_ rest
    rintro rfl
    exact absurd hsafe (by decide)
  · have hlo := hexByte_capital ⟨b.val % 16, by omega⟩
    have hhi := hexByte_capital ⟨b.val / 16, by omega⟩
    refine decode_escape ?_ rest
    simp only at hlo hhi
    rw [escape, if_pos rfl, hhi, hlo]
    simp only [Option.bind_some, Option.map_some, Nat.div_add_mod]
    congr 1
    exact Fin.ext (Nat.mod_eq_of_lt b.isLt)

theorem quote_cons (b : Byte) (bs : List Byte) : quote (b :: bs) = quoteByte b ++ quote bs :=
  List.flatMap_cons

/-- **Decoding undoes quoting.** -/
theorem quote_inv : ∀ bs : List Byte, percentDecode (quote bs) = bs
  | [] => rfl
  | b :: bs => by
      rw [quote_cons, decode_quoteByte]
      congr 1
      exact quote_inv bs

theorem quote_slash (as bs : List Byte) : quote (as ++ slash :: bs) = quote as ++ slash :: quote bs := by
  simp only [quote, List.flatMap_append, List.flatMap_cons]
  rfl

theorem quote_safe {bs : List Byte} (h : ∀ b ∈ bs, isSafe b = true) : quote bs = bs := by
  induction bs with
  | nil => rfl
  | cons b bs ih =>
      obtain ⟨hb, hbs⟩ := List.forall_mem_cons.mp h
      rw [quote_cons, quoteByte, if_pos hb]
      exact congrArg (b :: ·) (ih hbs)

theorem quoteByte_length (b : Byte) :
    1 ≤ (quoteByte b).length ∧ (isSafe b = false → (quoteByte b).length = 3) := by
  unfold quoteByte
  split
  · rename_i hsafe
    exact ⟨Nat.le_refl 1, fun hunsafe => absurd (hsafe.symm.trans hunsafe) (by decide)⟩
  · exact ⟨by simp, fun _ => rfl⟩

theorem quote_length (bs : List Byte) : bs.length ≤ (quote bs).length := by
  induction bs with
  | nil => exact Nat.zero_le _
  | cons b bs ih =>
      have hb := (quoteByte_length b).1
      rw [quote_cons, List.length_append, List.length_cons]
      omega

/-- What is as long when it is quoted has nothing to quote. -/
theorem safe_of_length {bs : List Byte} (h : (quote bs).length = bs.length) :
    ∀ b ∈ bs, isSafe b = true := by
  induction bs with
  | nil => exact fun _ hb => absurd hb List.not_mem_nil
  | cons b bs ih =>
      obtain ⟨hone, hthree⟩ := quoteByte_length b
      have hrest := quote_length bs
      rw [quote_cons, List.length_append, List.length_cons] at h
      refine List.forall_mem_cons.mpr ⟨?_, ih (by omega)⟩
      by_contra hunsafe
      have := hthree (Bool.eq_false_iff.mpr hunsafe)
      omega

/-- **A path below which a quoted path below it lies** has nothing to quote. -/
theorem safe_of_prefix {bs rest : List Byte} (h : bs ++ [slash] <+: quote bs ++ slash :: rest) :
    ∀ b ∈ bs, isSafe b = true := by
  rcases Nat.eq_or_lt_of_le (quote_length bs) with heq | hlt
  · exact safe_of_length heq.symm
  · -- the path lies below itself as it is when it is decoded
    obtain ⟨u, hu⟩ : bs ++ [slash] <+: quote bs :=
      List.prefix_of_prefix_length_le h (List.prefix_append _ _)
        (by rw [List.length_append]; exact hlt)
    have hdecode := congrArg percentDecode hu
    rw [quote_inv, List.append_assoc, List.singleton_append, percentDecode_slash] at hdecode
    have hself := decode_prefix bs (percentDecode u ++ [slash]) (by
      conv_lhs => rw [← hdecode]
      simp)
    rw [hself] at hdecode
    have := congrArg List.length hdecode
    simp at this

theorem isSafe_val {b : Byte} (h : isSafe b = true) :
    b.val < 128 ∧ b.val ∉ [9, 10, 13, 35, 63] := by
  simp only [isSafe, Bool.or_eq_true, Bool.and_eq_true, decide_eq_true_eq, List.mem_cons,
    List.not_mem_nil, or_false] at h
  simp only [List.mem_cons, List.not_mem_nil, or_false]
  omega

theorem hexCapital_val : ∀ n : Fin 16, (hexCapital n.val).val < 128 ∧
    (hexCapital n.val).val ∉ [9, 10, 13, 35, 63] := by decide

/-- A quoted path is ASCII, and has nothing in it that ends a path in a URL or is dropped from it. -/
theorem quote_val {bs : List Byte} {b : Byte} (h : b ∈ quote bs) :
    b.val < 128 ∧ b.val ∉ [9, 10, 13, 35, 63] := by
  obtain ⟨x, -, hx⟩ := List.mem_flatMap.mp h
  unfold quoteByte at hx
  split at hx
  · rw [List.mem_singleton.mp hx]
    exact isSafe_val ‹_›
  · simp only [List.mem_cons, List.not_mem_nil, or_false] at hx
    rcases hx with rfl | rfl | rfl
    · decide
    · exact hexCapital_val ⟨x.val / 16, by omega⟩
    · exact hexCapital_val ⟨x.val % 16, by omega⟩

/-! ## The bytes of a text -/

@[simp] theorem fsencode_append (s t : PyStr) : fsencode (s ++ t) = fsencode s ++ fsencode t :=
  List.flatMap_append

@[simp] theorem fsencode_slash : fsencode [cp '/'] = [slash] := rfl

theorem fsencodeChar_ascii {c : CodePoint} (h : c.val < 0x80) :
    fsencodeChar c = [Fin.ofNat 256 c.val] := if_pos h

/-- An ASCII byte is the byte of an ASCII character. -/
theorem fsencodeChar_mem {c : CodePoint} {b : Byte} (h : b ∈ fsencodeChar c) (hb : b.val < 0x80) :
    c.val < 0x80 ∧ b.val = c.val := by
  unfold fsencodeChar at h
  have hc := c.isLt
  split at h
  · rename_i hlt
    rw [List.mem_singleton.mp h]
    exact ⟨hlt, Nat.mod_eq_of_lt (by omega)⟩
  · exfalso
    split at h
    · rw [List.mem_singleton.mp h] at hb
      simp only [Fin.val_ofNat] at hb
      omega
    · split at h
      · simp only [List.mem_cons, List.not_mem_nil, or_false] at h
        rcases h with rfl | rfl <;> simp only [Fin.val_ofNat] at hb <;> omega
      · split at h
        · simp only [List.mem_cons, List.not_mem_nil, or_false] at h
          rcases h with rfl | rfl | rfl <;> simp only [Fin.val_ofNat] at hb <;> omega
        · simp only [List.mem_cons, List.not_mem_nil, or_false] at h
          rcases h with rfl | rfl | rfl | rfl <;> simp only [Fin.val_ofNat] at hb <;> omega

theorem fsencodeChar_ne_nil (c : CodePoint) : fsencodeChar c ≠ [] := by
  unfold fsencodeChar
  repeat' split
  all_goals exact List.cons_ne_nil _ _

@[simp] theorem ascii_append (as bs : List Byte) : ascii (as ++ bs) = ascii as ++ ascii bs :=
  List.map_append

theorem ascii_slash (bs : List Byte) : ascii (slash :: bs) = cp '/' :: ascii bs := rfl

theorem mem_ascii {bs : List Byte} {c : CodePoint} (h : c ∈ ascii bs) : ∃ b ∈ bs, c.val = b.val := by
  obtain ⟨b, hb, rfl⟩ := List.mem_map.mp h
  exact ⟨b, hb, Nat.mod_eq_of_lt (Nat.lt_trans b.isLt (by decide))⟩

/-- ASCII bytes are those of one text only. -/
theorem eq_ascii_of_fsencode : ∀ {s : PyStr} {bs : List Byte}, fsencode s = bs →
    (∀ b ∈ bs, b.val < 0x80) → s = ascii bs
  | [], bs, h, _ => by
      subst h
      rfl
  | c :: s, bs, h, hbs => by
      have hc : c.val < 0x80 := by
        obtain ⟨b, hb⟩ := List.exists_mem_of_ne_nil _ (fsencodeChar_ne_nil c)
        have hmem : b ∈ fsencode (c :: s) := List.mem_append_left _ hb
        exact (fsencodeChar_mem hb (hbs b (h ▸ hmem))).1
      subst h
      have hrest := @eq_ascii_of_fsencode s _ rfl fun b hb => hbs b (List.mem_append_right _ hb)
      rw [fsencode, List.flatMap_cons, fsencodeChar_ascii hc, List.singleton_append, ascii,
        List.map_cons]
      refine List.cons_eq_cons.mpr ⟨Fin.ext ?_, hrest⟩
      have hbyte : (Fin.ofNat 256 c.val).val = c.val := Nat.mod_eq_of_lt (by omega)
      rw [hbyte]
      exact (Nat.mod_eq_of_lt c.isLt).symm

theorem fsencode_ascii : ∀ {bs : List Byte}, (∀ b ∈ bs, b.val < 0x80) → fsencode (ascii bs) = bs
  | [], _ => rfl
  | b :: bs, h => by
      obtain ⟨hb, hbs⟩ := List.forall_mem_cons.mp h
      have hval : (Fin.ofNat 0x110000 b.val).val = b.val := Nat.mod_eq_of_lt (by omega)
      rw [ascii, List.map_cons, fsencode, List.flatMap_cons, fsencodeChar_ascii (by rw [hval]; exact hb),
        hval]
      refine List.cons_eq_cons.mpr ⟨Fin.ext (Nat.mod_eq_of_lt b.isLt), ?_⟩
      exact fsencode_ascii hbs

theorem slash_not_mem_fsencode {s : PyStr} (h : cp '/' ∉ s) : slash ∉ fsencode s := by
  intro hmem
  obtain ⟨c, hc, hb⟩ := List.mem_flatMap.mp hmem
  obtain ⟨-, hval⟩ := fsencodeChar_mem hb (by decide)
  have : cp '/' = c := Fin.ext hval
  exact h (this ▸ hc)

theorem fsencode_intercalate : ∀ segs : List PyStr,
    fsencode ([cp '/'].intercalate segs) = [slash].intercalate (segs.map fsencode)
  | [] => rfl
  | [seg] => by simp
  | seg :: seg' :: segs => by
      rw [List.intercalate_cons_cons, List.append_assoc, fsencode_append, fsencode_append,
        fsencode_slash, fsencode_intercalate (seg' :: segs)]
      simp only [List.map_cons, List.intercalate_cons_cons, List.append_assoc]

/-! ## Segments -/

/-- Splitting what was joined splits each part. -/
theorem splitOn_join {α : Type} [BEq α] [LawfulBEq α] (x : α) : ∀ {segs : List (List α)}, segs ≠ [] →
    ([x].intercalate segs).splitOn x = segs.flatMap (List.splitOn x)
  | [], h => absurd rfl h
  | [seg], _ => by simp
  | seg :: seg' :: segs, _ => by
      rw [List.intercalate_cons_cons, List.append_assoc, List.singleton_append,
        List.splitOn_append_cons_self, splitOn_join x (List.cons_ne_nil seg' segs)]
      rfl

/-- A segment of a text that decodes to itself, slashes aside, is a segment of the decoded text. -/
theorem mem_splitOn_decode {s seg : PyStr} {bs : List Byte} (h : seg ∈ s.splitOn (cp '/'))
    (hseg : percentDecode (fsencode seg) = bs) (hbs : slash ∉ bs) :
    bs ∈ (percentDecode (fsencode s)).splitOn slash := by
  have hs : [cp '/'].intercalate (s.splitOn (cp '/')) = s := List.intercalate_splitOn (cp '/')
  rw [← hs, fsencode_intercalate, percentDecode_intercalate,
    splitOn_join slash (by simp), List.mem_flatMap]
  refine ⟨bs, ?_, ?_⟩
  · rw [List.map_map, List.mem_map]
    exact ⟨seg, h, hseg⟩
  · rw [List.splitOn_eq_singleton hbs]
    exact List.mem_singleton_self bs

end Percent
