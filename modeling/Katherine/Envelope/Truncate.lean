import Katherine.Envelope.FitTruncated
import Katherine.Lib.Scale
import Katherine.Lib.Utf8

/-!
# Text cut to a number of bytes

The two truncations of `backend/provider_envelope.py`. Both slice the encoded text and
decode the slices with `errors="ignore"`; the head goes before the omission marker and, for
`_truncate_utf8_safe_head_tail`, the tail behind it.

What a slice decodes to is a beginning of the text or an end of it, of whole characters and
of no more bytes than the slice: `decode_take` and `decode_drop`.

The budget is another matter. One byte is always left for the head, with or without room for
it beside the marker, so a budget below the marker is exceeded, and one of just the marker by
the first character if that is a single byte: `truncation_bound_iff`.
-/

namespace Katherine.Context

open Py Local Utf8

/-- The default of `head_ratio`. -/
def defaultHeadRatio : Double := nearestDouble 6 10

/-- `while len(result.encode("utf-8")) > max_bytes and len(tail) > 0: tail = tail[:-1]`. -/
def trimTail (maxBytes : Nat) (head tail : PyStr) : PyStr :=
  if maxBytes < utf8Len (head ++ omissionMarker ++ tail) ∧ 0 < tail.length then
    trimTail maxBytes head tail.dropLast
  else tail
termination_by tail.length
decreasing_by
  rw [List.length_dropLast]
  omega

/-- `_truncate_utf8_safe_head_tail`. -/
def truncateUtf8SafeHeadTail (text : PyStr) (maxBytes : Nat) (headRatio : Double) :
    Except EnvelopeErr (PyStr × Bool) :=
  if encodable text then
    let encoded := encode text
    if encoded.length ≤ maxBytes then .ok (text, false)
    else if maxBytes < utf8Len omissionMarker + 4 then truncateUtf8Safe text maxBytes
    else
      let totalData := maxBytes - utf8Len omissionMarker
      let headBytes := max 1 (scale totalData headRatio)
      let tailBytes := max 1 (totalData - headBytes)
      let head := decodeIgnore (encoded.take headBytes)
      let tail := decodeIgnore (encoded.drop (encoded.length - tailBytes))
      .ok (head ++ omissionMarker ++ trimTail maxBytes head tail, true)
  else .error .unicodeEncode

/-! ## What a slice decodes to -/

/-- The characters that begin at this byte or behind it. -/
def dropBytes : Nat → PyStr → PyStr
  | 0, s => s
  | _ + 1, [] => []
  | n + 1, c :: s => dropBytes (n + 1 - utf8Size c) s

theorem encodable_cons_iff {c : CodePoint} {s : PyStr} :
    encodable (c :: s) = true ↔ isSurrogate c = false ∧ encodable s = true := by
  rw [encodable_cons, Bool.and_eq_true, Bool.not_eq_true']

/-- **The first bytes of a text decode to its first whole characters.** -/
theorem decode_take {s : PyStr} (h : encodable s = true) (n : Nat) :
    decodeIgnore ((encode s).take n) = takeBytes n s := by
  induction s generalizing n with
  | nil => cases n <;> rfl
  | cons c s ih =>
      obtain ⟨hc, hs⟩ := encodable_cons_iff.mp h
      have ih := ih hs (n - utf8Size c)
      rw [decodeIgnore] at ih ⊢
      rw [encode_cons, List.take_append, length_encodeChar, takeBytes]
      by_cases hfit : utf8Size c ≤ n
      · rw [if_pos hfit, List.take_of_length_le (by rw [length_encodeChar]; exact hfit), decode_char hc, ih]
      · -- the slice ends inside the character
        rw [if_neg hfit, Nat.sub_eq_zero_of_le (by omega), List.take_zero, List.append_nil]
        exact decode_beginning hc (by omega)

/-- **The bytes from one on decode to the whole characters among them.** -/
theorem decode_drop {s : PyStr} (h : encodable s = true) (n : Nat) :
    decodeIgnore ((encode s).drop n) = dropBytes n s := by
  induction s generalizing n with
  | nil => cases n <;> rfl
  | cons c s ih =>
      obtain ⟨hc, hs⟩ := encodable_cons_iff.mp h
      cases n with
      | zero =>
          have hrest := ih hs 0
          rw [decodeIgnore, List.drop_zero] at hrest ⊢
          rw [encode_cons, decode_char hc, hrest]
          cases s <;> rfl
      | succ n =>
          have hrest := ih hs (n + 1 - utf8Size c)
          rw [decodeIgnore] at hrest ⊢
          rw [encode_cons, List.drop_append, length_encodeChar, dropBytes, ← hrest]
          -- what is left of the character is dropped with the rest of it
          exact decode_end c (Nat.succ_pos n) _

theorem dropBytes_end (n : Nat) (s : PyStr) : dropBytes n s <:+ s := by
  induction s generalizing n with
  | nil => cases n <;> exact List.suffix_refl _
  | cons c s ih =>
      cases n with
      | zero => exact List.suffix_refl _
      | succ n => exact (ih _).trans (List.suffix_cons c s)

theorem utf8Len_dropBytes_le (n : Nat) (s : PyStr) : utf8Len (dropBytes n s) ≤ utf8Len s - n := by
  induction s generalizing n with
  | nil => cases n <;> exact Nat.zero_le _
  | cons c s ih =>
      cases n with
      | zero => exact Nat.le_refl _
      | succ n =>
          have hrest := ih (n + 1 - utf8Size c)
          rw [dropBytes, utf8Len_cons]
          omega

/-- A beginning and an end that are no longer than the text together do not overlap. -/
theorem exists_omitted {s head tail : PyStr} (hhead : head <+: s) (htail : tail <:+ s)
    (h : utf8Len head + utf8Len tail ≤ utf8Len s) : ∃ omitted, s = head ++ omitted ++ tail := by
  obtain ⟨rest, rfl⟩ := hhead
  rw [utf8Len_append] at h
  rcases List.suffix_or_suffix_of_suffix htail (List.suffix_append head rest) with hle | hle
  · obtain ⟨omitted, rfl⟩ := hle
    exact ⟨omitted, (List.append_assoc _ _ _).symm⟩
  · -- an end that reaches back over the rest has no byte more than it
    obtain ⟨more, rfl⟩ := hle
    have hzero : utf8Len more = 0 := by
      rw [utf8Len_append] at h
      omega
    have hnil : more = [] := by
      cases more with
      | nil => rfl
      | cons c more =>
          have hpos := utf8Size_pos c
          rw [utf8Len_cons] at hzero
          omega
    subst hnil
    exact ⟨[], by simp⟩

/-! ## What is returned -/

/-- What a truncation does with a text, where `tail` is what it keeps of the end: it fits the
bound, a text that fits is left alone, and of another there is a beginning, the marker, and the
tail. -/
structure Cut (text : PyStr) (maxBytes : Nat) (result : PyStr × Bool) (tail : PyStr) : Prop where
  bound : (encode result.1).length ≤ maxBytes
  whole : (encode text).length ≤ maxBytes → result = (text, false)
  parts : maxBytes < (encode text).length → result.2 = true ∧
    ∃ head omitted, text = head ++ omitted ++ tail ∧ result.1 = head ++ omissionMarker ++ tail

section Truncate

variable {text : PyStr} {maxBytes : Nat}

theorem utf8Len_omissionMarker : utf8Len omissionMarker = 5 := by decide

theorem truncateUtf8Safe_whole (h : encodable text = true) (hfits : utf8Len text ≤ maxBytes) :
    truncateUtf8Safe text maxBytes = .ok (text, false) := by
  rw [truncateUtf8Safe, if_pos h, if_pos hfits]

theorem truncateUtf8Safe_cut (h : encodable text = true) (hlong : maxBytes < utf8Len text) :
    truncateUtf8Safe text maxBytes =
      .ok (takeBytes (max (maxBytes - 5) 1) text ++ omissionMarker, true) := by
  rw [truncateUtf8Safe, if_pos h, if_neg (by omega), utf8Len_omissionMarker]

theorem trimTail_of_le {head tail : PyStr} (h : utf8Len (head ++ omissionMarker ++ tail) ≤ maxBytes) :
    trimTail maxBytes head tail = tail := by
  rw [trimTail, if_neg]
  omega

theorem truncateUtf8SafeHeadTail_whole (h : encodable text = true) (hfits : utf8Len text ≤ maxBytes)
    (headRatio : Double) : truncateUtf8SafeHeadTail text maxBytes headRatio = .ok (text, false) := by
  simp only [truncateUtf8SafeHeadTail, if_pos h, length_encode, if_pos hfits]

/-- Up to eight bytes there is no tail. -/
theorem truncateUtf8SafeHeadTail_small (h : encodable text = true) (hlong : maxBytes < utf8Len text)
    (hsmall : maxBytes < 9) (headRatio : Double) :
    truncateUtf8SafeHeadTail text maxBytes headRatio = truncateUtf8Safe text maxBytes := by
  simp only [truncateUtf8SafeHeadTail, if_pos h, length_encode, if_neg (Nat.not_le_of_lt hlong),
    utf8Len_omissionMarker, if_pos hsmall]

/-- **From nine on there is a head and a tail, and nothing has to be trimmed.** -/
theorem truncateUtf8SafeHeadTail_cut (h : encodable text = true) (hlong : maxBytes < utf8Len text)
    (hlarge : 9 ≤ maxBytes) : ∃ head omitted tail, text = head ++ omitted ++ tail ∧
      utf8Len (head ++ omissionMarker ++ tail) ≤ maxBytes ∧
      truncateUtf8SafeHeadTail text maxBytes defaultHeadRatio =
        .ok (head ++ omissionMarker ++ tail, true) := by
  have hscale : scale (maxBytes - 5) defaultHeadRatio < maxBytes - 5 :=
    scale_lt (by decide +kernel) (by decide +kernel) (by omega)
  let headBytes := max 1 (scale (maxBytes - 5) defaultHeadRatio)
  let tailBytes := max 1 (maxBytes - 5 - headBytes)
  -- the two shares make up what the marker leaves
  have hshares : headBytes + tailBytes = maxBytes - 5 := by
    simp only [headBytes, tailBytes]
    omega
  have hhead := utf8Len_takeBytes_le headBytes text
  have htail := utf8Len_dropBytes_le (utf8Len text - tailBytes) text
  have hbound : utf8Len (takeBytes headBytes text ++ omissionMarker ++
      dropBytes (utf8Len text - tailBytes) text) ≤ maxBytes := by
    rw [utf8Len_append, utf8Len_append, utf8Len_omissionMarker]
    omega
  obtain ⟨omitted, homitted⟩ := exists_omitted (takeBytes_initial headBytes text)
    (dropBytes_end (utf8Len text - tailBytes) text) (by omega)
  refine ⟨_, omitted, _, homitted, hbound, ?_⟩
  simp only [truncateUtf8SafeHeadTail, if_pos h, length_encode, if_neg (Nat.not_le_of_lt hlong),
    utf8Len_omissionMarker, if_neg (Nat.not_lt_of_le hlarge), decode_take h, decode_drop h]
  rw [trimTail_of_le hbound]

/-! ## When the bound is kept -/

/-- The text fits, or beside the marker there is room for a byte, or the first character has more
than the one byte that would be kept of it. -/
def RoomForMarker (text : PyStr) (maxBytes : Nat) : Prop :=
  utf8Len text ≤ maxBytes ∨ 6 ≤ maxBytes ∨ maxBytes = 5 ∧ ∀ c ∈ text.head?, 0x80 ≤ c.val

instance (text : PyStr) (maxBytes : Nat) : Decidable (RoomForMarker text maxBytes) :=
  inferInstanceAs (Decidable (_ ∨ _ ∨ _ ∧ _))

/-- The head alone and the marker. -/
theorem utf8Len_head_marker_le_iff (hlong : maxBytes < utf8Len text) :
    utf8Len (takeBytes (max (maxBytes - 5) 1) text ++ omissionMarker) ≤ maxBytes ↔
      RoomForMarker text maxBytes := by
  rw [utf8Len_append, utf8Len_omissionMarker, RoomForMarker]
  by_cases hlarge : 6 ≤ maxBytes
  · have hhead := utf8Len_takeBytes_le (max (maxBytes - 5) 1) text
    omega
  by_cases hfive : maxBytes = 5
  · subst hfive
    cases text with
    | nil => exact absurd hlong (Nat.not_lt_zero 5)
    | cons c text =>
        have hhead : takeBytes 1 (c :: text) =
            if utf8Size c ≤ 1 then c :: takeBytes (1 - utf8Size c) text else [] := rfl
        have hone : utf8Size c ≤ 1 ↔ c.val < 0x80 := by
          unfold utf8Size
          split
          · omega
          · split
            · omega
            · split <;> omega
        simp only [List.head?_cons, Option.mem_some_iff, forall_eq']
        rw [show max (5 - 5) 1 = 1 from rfl, hhead]
        by_cases hascii : c.val < 0x80
        · rw [if_pos (hone.mpr hascii), utf8Len_cons]
          have hpos := utf8Size_pos c
          omega
        · rw [if_neg (fun hle => hascii (hone.mp hle)), utf8Len_nil]
          exact iff_of_true (Nat.le_refl 5) (.inr (.inr ⟨trivial, Nat.le_of_not_lt hascii⟩))
  · omega

theorem truncateUtf8Safe_iff (h : encodable text = true) :
    (∃ r, truncateUtf8Safe text maxBytes = .ok r ∧ Cut text maxBytes r []) ↔
      RoomForMarker text maxBytes := by
  rcases Nat.lt_or_ge maxBytes (utf8Len text) with hlong | hfits
  · rw [truncateUtf8Safe_cut h hlong, ← utf8Len_head_marker_le_iff hlong]
    constructor
    · rintro ⟨r, hr, hcut⟩
      cases hr
      have hbound := hcut.bound
      rwa [length_encode] at hbound
    · intro hbound
      obtain ⟨omitted, homitted⟩ := takeBytes_initial (max (maxBytes - 5) 1) text
      refine ⟨_, rfl, ?_, fun hle => ?_, fun _ => ⟨rfl, _, omitted, ?_, (List.append_nil _).symm⟩⟩
      · rwa [length_encode]
      · rw [length_encode] at hle
        omega
      · rw [List.append_nil, homitted]
  · refine iff_of_true ⟨_, truncateUtf8Safe_whole h hfits, ?_, fun _ => rfl, fun hlt => ?_⟩ (.inl hfits)
    · rwa [length_encode]
    · rw [length_encode] at hlt
      omega

theorem truncateUtf8SafeHeadTail_iff (h : encodable text = true) :
    (∃ r tail, truncateUtf8SafeHeadTail text maxBytes defaultHeadRatio = .ok r ∧
      Cut text maxBytes r tail) ↔ RoomForMarker text maxBytes := by
  rcases Nat.lt_or_ge maxBytes (utf8Len text) with hlong | hfits
  · rcases Nat.lt_or_ge maxBytes 9 with hsmall | hlarge
    · rw [truncateUtf8SafeHeadTail_small h hlong hsmall, ← truncateUtf8Safe_iff h]
      constructor
      · rintro ⟨r, tail, hr, hcut⟩
        have hbound := hcut.bound
        rw [length_encode] at hbound
        rw [truncateUtf8Safe_cut h hlong] at hr
        cases hr
        exact (truncateUtf8Safe_iff h).mpr ((utf8Len_head_marker_le_iff hlong).mp hbound)
      · rintro ⟨r, hr, hcut⟩
        exact ⟨r, [], hr, hcut⟩
    · obtain ⟨head, omitted, tail, htext, hbound, hr⟩ := truncateUtf8SafeHeadTail_cut h hlong hlarge
      refine iff_of_true ⟨_, tail, hr, ?_, fun hle => ?_, fun _ => ⟨rfl, head, omitted, htext, rfl⟩⟩
        (.inr (.inl (by omega)))
      · rwa [length_encode]
      · rw [length_encode] at hle
        omega
  · refine iff_of_true ⟨_, [], truncateUtf8SafeHeadTail_whole h hfits _, ?_, fun _ => rfl, fun hlt => ?_⟩
      (.inl hfits)
    · rwa [length_encode]
    · rw [length_encode] at hlt
      omega

end Truncate

/-- **Both truncations keep to the bound exactly if there is room for the marker.** -/
theorem truncation_bound_iff (text : PyStr) (maxBytes : Nat) (h : encodable text = true) :
    ((∃ r, truncateUtf8Safe text maxBytes = .ok r ∧ Cut text maxBytes r []) ∧
      (∃ r tail, truncateUtf8SafeHeadTail text maxBytes defaultHeadRatio = .ok r ∧
        Cut text maxBytes r tail)) ↔ RoomForMarker text maxBytes := by
  rw [truncateUtf8Safe_iff h, truncateUtf8SafeHeadTail_iff h, and_self]

/-- Cut to ten bytes, of a text with accents. -/
theorem truncation_bound_iff_sample : encodable (py "ação e reação") = true ∧
    ∃ r tail, truncateUtf8SafeHeadTail (py "ação e reação") 10 defaultHeadRatio = .ok r ∧
      Cut (py "ação e reação") 10 r tail := by
  have henc : encodable (py "ação e reação") = true := by decide
  exact ⟨henc, ((truncation_bound_iff (py "ação e reação") 10 henc).mpr (.inr (.inl (by decide)))).2⟩

/-- Of a text of six letters, four bytes are to be kept; six come back. -/
theorem short_budget_exceeded :
    truncateUtf8Safe (py "abcdef") 4 = .ok (py "a[...]", true) ∧
    truncateUtf8SafeHeadTail (py "abcdef") 4 defaultHeadRatio = .ok (py "a[...]", true) ∧
    4 < (encode (py "a[...]")).length ∧
    ¬ ((∃ r, truncateUtf8Safe (py "abcdef") 4 = .ok r ∧ Cut (py "abcdef") 4 r []) ∧
      (∃ r tail, truncateUtf8SafeHeadTail (py "abcdef") 4 defaultHeadRatio = .ok r ∧
        Cut (py "abcdef") 4 r tail)) := by
  have hcut : truncateUtf8Safe (py "abcdef") 4 = .ok (py "a[...]", true) := by decide
  have hcut' : truncateUtf8SafeHeadTail (py "abcdef") 4 defaultHeadRatio = .ok (py "a[...]", true) := by
    rw [truncateUtf8SafeHeadTail_small (by decide) (by decide) (by decide), hcut]
  have hlong : 4 < (encode (py "a[...]")).length := by decide
  refine ⟨hcut, hcut', hlong, ?_⟩
  rintro ⟨⟨r, hr, hbound, _⟩, _⟩
  rw [hcut] at hr
  cases hr
  exact absurd hbound (Nat.not_le_of_lt hlong)

end Katherine.Context
