import Katherine.Lib.Hex
import Katherine.Context

/-!
# Four validators of one identifier

The UUID checks of `backend/atomic_turn_commit.py`, `admission_contracts.py`,
`trusted_context.py` and `account_deletion.py`. Two are regular expressions, one cuts the
text at its hyphens, one parses it and writes it again.

All four accept the canonical lower-case form. The regular expressions accept one text more
for each: `re.match` is not `re.fullmatch`, and `$` matches in front of a line feed that
ends the text.
-/

namespace Katherine.Cloud

open Py
open Katherine.Context (canonicalUuid isLowerHex)

/-! ## The regular expression -/

def isHyphen (c : CodePoint) : Bool := decide (c = cp '-')

/-- The character classes of `_UUID_RE`. -/
def uuidPattern : List (CodePoint → Bool) :=
  List.replicate 8 isLowerHex ++ isHyphen :: (List.replicate 4 isLowerHex ++ isHyphen ::
    (List.replicate 4 isLowerHex ++ isHyphen :: (List.replicate 4 isLowerHex ++ isHyphen ::
      List.replicate 12 isLowerHex)))

/-- One character for each class; what is left of the text. -/
def matchClasses : List (CodePoint → Bool) → PyStr → Option PyStr
  | [], s => some s
  | _ :: _, [] => none
  | p :: ps, c :: s => if p c then matchClasses ps s else none

/-- `_UUID_RE.match(value) is not None`, with the `$` at its end. -/
def matchUuidRe (value : PyStr) : Bool :=
  match matchClasses uuidPattern value with
  | some rest => decide (rest = [] ∨ rest = [cp '\n'])
  | none => false

/-- `_is_valid_uuid` of `atomic_turn_commit.py`. -/
def isValidUuid (value : PyStr) : Bool := matchUuidRe value

/-- `_require_uuid_text` of `account_deletion.py` does not raise. -/
def requireUuidText (value : PyStr) : Bool := matchUuidRe value

/-! ## RequestIdentity -/

section

/- What `lower()` makes of a code point beyond ASCII, in the text and at the place where it stands. -/
variable (lowerOther : PyStr → Nat → PyStr)

/-- `s.lower()`. -/
def lower (s : PyStr) : PyStr :=
  s.zipIdx.flatMap fun x =>
    if h : 65 ≤ x.1.val ∧ x.1.val ≤ 90 then [⟨x.1.val + 32, by omega⟩]
    else if x.1.val < 128 then [x.1]
    else lowerOther s x.2

/-- `_is_hex`. -/
def isHex (s : PyStr) : Bool := s.all isLowerHex

/-- `_validate_canonical_uuid` of `admission_contracts.py`; `none` is the `AdmissionError`. -/
def requestIdentity (raw : PyStr) : Option PyStr :=
  if raw.length ≠ 36 then none
  else if raw ≠ strip raw then none
  else if raw.head? = some (cp '\x7b') ∨ raw.getLast? = some (cp '\x7d') then none
  else if (py "urn:").isPrefixOf (lower lowerOther raw) then none
  else
    let parts := raw.splitOn (cp '-')
    if parts.length ≠ 5 then none
    else if parts.map List.length ≠ [8, 4, 4, 4, 12] then none
    else
      let normalized := lower lowerOther raw
      if (normalized.splitOn (cp '-')).all isHex then some normalized else none

end

/-! ## uuid.UUID -/

/-- `s.replace(old, new)` with an empty `new`; `fuel` bounds the length of the text. -/
def removeAll (old : PyStr) : Nat → PyStr → PyStr
  | 0, s => s
  | _ + 1, [] => []
  | fuel + 1, c :: s =>
      if old.isPrefixOf (c :: s) then removeAll old fuel ((c :: s).drop old.length)
      else c :: removeAll old fuel s

/-- `s.strip("{}")`. -/
def stripBraces (s : PyStr) : PyStr :=
  let brace := fun c => decide (c = cp '\x7b' ∨ c = cp '\x7d')
  ((s.dropWhile brace).reverse.dropWhile brace).reverse

/-- `str(uuid)`. -/
def uuidText (n : Nat) : PyStr :=
  let hex := hexPadded 32 n
  [cp '-'].intercalate [hex.take 8, (hex.drop 8).take 4, (hex.drop 12).take 4, (hex.drop 16).take 4,
    hex.drop 20]

section

/- What `int(s, 16)` makes of a text that is not all hexadecimal digits: it may have a sign,
blanks around it, a prefix, underscores, and digits of other scripts. -/
variable (intOther : PyStr → Option Int)

/-- `uuid.UUID(s).int`; `none` is the `ValueError`. -/
def uuidOf (s : PyStr) : Option Nat :=
  let hex := removeAll (py "uuid:") s.length (removeAll (py "urn:") s.length s)
  let hex := removeAll (py "-") s.length (stripBraces hex)
  if hex.length ≠ 32 then none
  else
    let int := if hex.all (fun c => (hexVal c).isSome) then some (hexValue hex : Int) else intOther hex
    int.bind fun int => if 0 ≤ int ∧ int < 2 ^ 128 then some int.toNat else none

/-- `_validate_canonical_uuid` of `trusted_context.py` does not raise. -/
def validateCanonicalUuid (value : PyStr) : Bool :=
  match uuidOf intOther value with
  | some parsed => decide (uuidText parsed = value)
  | none => false

end

/-! ## The canonical form -/

/-- The five groups of a canonical identifier. -/
structure IsGroups (parts : List PyStr) : Prop where
  lengths : parts.map List.length = [8, 4, 4, 4, 12]
  hex : ∀ part ∈ parts, isHex part = true

theorem IsGroups.five {parts : List PyStr} (h : IsGroups parts) :
    ∃ a b c d e, parts = [a, b, c, d, e] ∧
      a.length = 8 ∧ b.length = 4 ∧ c.length = 4 ∧ d.length = 4 ∧ e.length = 12 := by
  obtain ⟨a, parts, rfl, ha, hlengths⟩ := List.map_eq_cons_iff.mp h.lengths
  obtain ⟨b, parts, rfl, hb, hlengths⟩ := List.map_eq_cons_iff.mp hlengths
  obtain ⟨c, parts, rfl, hc, hlengths⟩ := List.map_eq_cons_iff.mp hlengths
  obtain ⟨d, parts, rfl, hd, hlengths⟩ := List.map_eq_cons_iff.mp hlengths
  obtain ⟨e, parts, rfl, he, hlengths⟩ := List.map_eq_cons_iff.mp hlengths
  obtain rfl := List.map_eq_nil_iff.mp hlengths
  exact ⟨a, b, c, d, e, rfl, ha, hb, hc, hd, he⟩

theorem matchClasses_append (ps qs : List (CodePoint → Bool)) : ∀ s : PyStr,
    matchClasses (ps ++ qs) s = (matchClasses ps s).bind (matchClasses qs) := by
  induction ps with
  | nil => exact fun _ => rfl
  | cons p ps ih =>
      intro s
      cases s with
      | nil => rfl
      | cons c s =>
          simp only [List.cons_append, matchClasses]
          split
          · exact ih s
          · rfl

theorem matchClasses_replicate {p : CodePoint → Bool} {rest : PyStr} : ∀ {n : Nat} {s : PyStr},
    matchClasses (List.replicate n p) s = some rest ↔
      ∃ a, a.length = n ∧ a.all p = true ∧ s = a ++ rest
  | 0, s => by
      constructor
      · intro h
        exact ⟨[], rfl, rfl, Option.some.inj h⟩
      · rintro ⟨a, ha, -, rfl⟩
        rw [List.length_eq_zero_iff.mp ha]
        rfl
  | n + 1, [] => by
      constructor
      · intro h
        cases h
      · rintro ⟨a, ha, -, h⟩
        rw [(List.append_eq_nil_iff.mp h.symm).1] at ha
        cases ha
  | n + 1, c :: s => by
      rw [List.replicate_succ, matchClasses, Option.ite_none_right_eq_some, matchClasses_replicate]
      constructor
      · rintro ⟨hc, a, ha, hall, rfl⟩
        exact ⟨c :: a, by rw [List.length_cons, ha], by rw [List.all_cons, hc, hall]; rfl, rfl⟩
      · rintro ⟨a, ha, hall, h⟩
        cases a with
        | nil => cases ha
        | cons c' a =>
            obtain ⟨rfl, rfl⟩ := List.cons.inj h
            obtain ⟨hc, hall⟩ := (Bool.and_eq_true _ _).mp hall
            exact ⟨hc, a, Nat.succ.inj ha, hall, rfl⟩

/-- A group, the hyphen behind it, and what follows. -/
theorem matchClasses_group {n : Nat} {qs : List (CodePoint → Bool)} {s rest : PyStr} :
    matchClasses (List.replicate n isLowerHex ++ isHyphen :: qs) s = some rest ↔
      ∃ a r, a.length = n ∧ isHex a = true ∧ s = a ++ cp '-' :: r ∧
        matchClasses qs r = some rest := by
  rw [matchClasses_append, Option.bind_eq_some_iff]
  constructor
  · rintro ⟨t, ht, hrest⟩
    obtain ⟨a, ha, hhex, rfl⟩ := matchClasses_replicate.mp ht
    cases t with
    | nil => cases hrest
    | cons c t =>
        rw [matchClasses, Option.ite_none_right_eq_some] at hrest
        obtain rfl := of_decide_eq_true hrest.1
        exact ⟨a, t, ha, hhex, rfl, hrest.2⟩
  · rintro ⟨a, r, ha, hhex, rfl, hrest⟩
    exact ⟨cp '-' :: r, matchClasses_replicate.mpr ⟨a, ha, hhex, rfl⟩, hrest⟩

theorem matchClasses_uuid {s rest : PyStr} : matchClasses uuidPattern s = some rest ↔
    ∃ parts, IsGroups parts ∧ s = [cp '-'].intercalate parts ++ rest := by
  simp only [uuidPattern, matchClasses_group, matchClasses_replicate]
  constructor
  · rintro ⟨a, _, ha, hxa, rfl, b, _, hb, hxb, rfl, c, _, hc, hxc, rfl, d, _, hd, hxd, rfl, e, he,
      hxe, rfl⟩
    refine ⟨[a, b, c, d, e], ⟨by simp [ha, hb, hc, hd, he], ?_⟩, by simp⟩
    simpa using ⟨hxa, hxb, hxc, hxd, hxe⟩
  · rintro ⟨parts, hparts, rfl⟩
    obtain ⟨a, b, c, d, e, rfl, ha, hb, hc, hd, he⟩ := hparts.five
    have hhex := hparts.hex
    refine ⟨a, b ++ cp '-' :: (c ++ cp '-' :: (d ++ cp '-' :: (e ++ rest))), ha, hhex a (by simp),
      by simp, ?_⟩
    refine ⟨b, _, hb, hhex b (by simp), rfl, c, _, hc, hhex c (by simp), rfl, d, _, hd,
      hhex d (by simp), rfl, e, he, hhex e (by simp), rfl⟩

/-- The class of each place. -/
def classAt (i : Nat) : CodePoint → Bool := if i ∈ [8, 13, 18, 23] then isHyphen else isLowerHex

theorem uuidPattern_eq : uuidPattern = (List.range' 0 36).map classAt := rfl

theorem matchClasses_range : ∀ {k n : Nat} {s : PyStr},
    matchClasses ((List.range' n k).map classAt) s = some [] ↔
      s.length = k ∧ (s.zipIdx n).all (fun x => classAt x.2 x.1) = true
  | 0, n, [] => by simp [matchClasses]
  | 0, n, c :: s => by simp [matchClasses]
  | k + 1, n, [] => by simp [matchClasses, List.range']
  | k + 1, n, c :: s => by
      rw [List.range'_succ, List.map_cons, matchClasses, Option.ite_none_right_eq_some,
        matchClasses_range, List.zipIdx_cons, List.all_cons, Bool.and_eq_true, List.length_cons]
      exact ⟨fun ⟨h1, h2, h3⟩ => ⟨by rw [h2], h1, h3⟩, fun ⟨h1, h2, h3⟩ => ⟨h2, Nat.succ.inj h1, h3⟩⟩

/-- **Canonical is what the classes match to the end.** -/
theorem canonicalUuid_iff {s : PyStr} : canonicalUuid s = true ↔
    ∃ parts, IsGroups parts ∧ s = [cp '-'].intercalate parts := by
  have hclasses : canonicalUuid s = true ↔ matchClasses uuidPattern s = some [] := by
    rw [uuidPattern_eq, matchClasses_range, canonicalUuid, Bool.and_eq_true, decide_eq_true_eq]
    refine and_congr_right fun _ => ?_
    rw [List.all_eq_true, List.all_eq_true]
    refine forall₂_congr fun x _ => ?_
    unfold classAt
    split <;> rfl
  rw [hclasses, matchClasses_uuid]
  simp only [List.append_nil]

/-! ## What each accepts -/

theorem isLowerHex_hyphen : isLowerHex (cp '-') = false := by decide

theorem IsGroups.hyphen_not_mem {parts : List PyStr} (h : IsGroups parts) :
    ∀ part ∈ parts, cp '-' ∉ part := by
  intro part hpart hmem
  have := List.all_eq_true.mp (h.hex part hpart) _ hmem
  rw [isLowerHex_hyphen] at this
  cases this

theorem IsGroups.ne_nil {parts : List PyStr} (h : IsGroups parts) : parts ≠ [] := by
  rintro rfl
  exact absurd h.lengths (by decide)

theorem canonicalUuid_length {s : PyStr} (h : canonicalUuid s = true) : s.length = 36 := by
  rw [canonicalUuid, Bool.and_eq_true, decide_eq_true_eq] at h
  exact h.1

/-- A canonical identifier has digits, small letters up to `f`, and hyphens. -/
theorem canonicalUuid_chars {s : PyStr} (h : canonicalUuid s = true) :
    ∀ c ∈ s, isLowerHex c = true ∨ c = cp '-' := by
  obtain ⟨parts, hparts, rfl⟩ := canonicalUuid_iff.mp h
  intro c hc
  rcases mem_intercalate hc with hc | ⟨part, hpart, hc⟩
  · exact .inr hc
  · exact .inl (List.all_eq_true.mp (hparts.hex part hpart) c hc)

theorem not_mem_canonicalUuid {s : PyStr} (h : canonicalUuid s = true) {c : CodePoint}
    (hhex : isLowerHex c = false) (hhyphen : c ≠ cp '-') : c ∉ s := by
  intro hc
  rcases canonicalUuid_chars h c hc with h' | h'
  · rw [hhex] at h'
    cases h'
  · exact hhyphen h'

/-- **The regular expression**: the canonical form, or with one line feed behind it. -/
theorem matchUuidRe_iff {s : PyStr} : matchUuidRe s = true ↔
    canonicalUuid s = true ∨ ∃ u, canonicalUuid u = true ∧ s = u ++ [cp '\n'] := by
  constructor
  · intro h
    unfold matchUuidRe at h
    split at h
    · rename_i rest hmatch
      obtain ⟨parts, hparts, rfl⟩ := matchClasses_uuid.mp hmatch
      have hcanonical := canonicalUuid_iff.mpr ⟨parts, hparts, rfl⟩
      rcases of_decide_eq_true h with rfl | rfl
      · exact .inl (by rwa [List.append_nil])
      · exact .inr ⟨_, hcanonical, rfl⟩
    · cases h
  · rintro (h | ⟨u, h, rfl⟩)
    · obtain ⟨parts, hparts, hs⟩ := canonicalUuid_iff.mp h
      have hmatch : matchClasses uuidPattern s = some [] :=
        matchClasses_uuid.mpr ⟨parts, hparts, by rw [List.append_nil, hs]⟩
      simp [matchUuidRe, hmatch]
    · obtain ⟨parts, hparts, hs⟩ := canonicalUuid_iff.mp h
      have hmatch : matchClasses uuidPattern (u ++ [cp '\n']) = some [cp '\n'] :=
        matchClasses_uuid.mpr ⟨parts, hparts, by rw [hs]⟩
      simp [matchUuidRe, hmatch]

theorem isLowerHex_bounds {c : CodePoint} (h : isLowerHex c = true ∨ c = cp '-') :
    c.val < 128 ∧ ¬ (65 ≤ c.val ∧ c.val ≤ 90) ∧ isSpace c = false := by
  have hval : 48 ≤ c.val ∧ c.val ≤ 57 ∨ 97 ≤ c.val ∧ c.val ≤ 102 ∨ c.val = 45 := by
    rcases h with h | rfl
    · simp only [isLowerHex, isDigit, Bool.or_eq_true, Bool.and_eq_true, decide_eq_true_eq] at h
      omega
    · exact .inr (.inr rfl)
  refine ⟨by omega, by omega, ?_⟩
  simp only [isSpace, List.mem_cons, List.not_mem_nil, or_false, Bool.or_eq_false_iff,
    Bool.and_eq_false_iff, decide_eq_false_iff_not]
  omega

theorem lower_of_canonicalUuid (lowerOther : PyStr → Nat → PyStr) {s : PyStr}
    (h : canonicalUuid s = true) : lower lowerOther s = s := by
  have key : ∀ (t : PyStr) (n : Nat), (∀ c ∈ t, isLowerHex c = true ∨ c = cp '-') →
      ((t.zipIdx n).flatMap fun x =>
        if h : 65 ≤ x.1.val ∧ x.1.val ≤ 90 then [(⟨x.1.val + 32, by omega⟩ : CodePoint)]
        else if x.1.val < 128 then [x.1] else lowerOther s x.2) = t := by
    intro t
    induction t with
    | nil => exact fun _ _ => rfl
    | cons c t ih =>
        intro n ht
        obtain ⟨hascii, hupper, -⟩ := isLowerHex_bounds (ht c (by simp))
        rw [List.zipIdx_cons, List.flatMap_cons, ih (n + 1) fun x hx => ht x (by simp [hx]),
          dif_neg hupper, if_pos hascii]
        rfl
  exact key s 0 (canonicalUuid_chars h)

theorem strip_of_canonicalUuid {s : PyStr} (h : canonicalUuid s = true) : strip s = s :=
  strip_of_no_space fun c hc => (isLowerHex_bounds (canonicalUuid_chars h c hc)).2.2

/-- **RequestIdentity** keeps the canonical form and no other. -/
theorem requestIdentity_iff (lowerOther : PyStr → Nat → PyStr) {s : PyStr} :
    requestIdentity lowerOther s = some s ↔ canonicalUuid s = true := by
  constructor
  · intro h
    simp only [requestIdentity, Option.ite_none_left_eq_some, Option.ite_none_right_eq_some,
      Option.some.injEq] at h
    obtain ⟨-, -, -, -, -, hlengths, hhex, hlower⟩ := h
    rw [hlower] at hhex
    refine canonicalUuid_iff.mpr ⟨s.splitOn (cp '-'), ⟨not_not.mp hlengths, ?_⟩, ?_⟩
    · exact fun part hpart => List.all_eq_true.mp hhex part hpart
    · exact (List.intercalate_splitOn _).symm
  · intro h
    obtain ⟨parts, hparts, hs⟩ := canonicalUuid_iff.mp h
    have hsplit : s.splitOn (cp '-') = parts := by
      rw [hs]
      exact List.splitOn_intercalate _ hparts.hyphen_not_mem hparts.ne_nil
    have hcount : parts.length = 5 := by
      have := congrArg List.length hparts.lengths
      rwa [List.length_map] at this
    have hbraces : ¬ (s.head? = some (cp '\x7b') ∨ s.getLast? = some (cp '\x7d')) := by
      rintro (hbrace | hbrace)
      · exact not_mem_canonicalUuid h (by decide) (by decide) (List.mem_of_mem_head? hbrace)
      · exact not_mem_canonicalUuid h (by decide) (by decide) (List.mem_of_getLast? hbrace)
    have hurn : (py "urn:").isPrefixOf s = false := by
      rw [Bool.eq_false_iff]
      intro hprefix
      obtain ⟨t, ht⟩ := List.isPrefixOf_iff_prefix.mp hprefix
      exact not_mem_canonicalUuid h (c := cp 'u') (by decide) (by decide) (by rw [← ht]; simp [py])
    have hhex : parts.all isHex = true := List.all_eq_true.mpr hparts.hex
    simp only [requestIdentity, lower_of_canonicalUuid lowerOther h, strip_of_canonicalUuid h,
      canonicalUuid_length h, hbraces, hurn, hsplit, hcount, hparts.lengths, hhex, ne_eq, not_true,
      if_false, if_true, Bool.false_eq_true]

/-! ## uuid.UUID on the canonical form -/

/-- Nothing is removed where a character of it does not occur. -/
theorem removeAll_of_not_mem {old : PyStr} {c : CodePoint} (hc : c ∈ old) : ∀ {fuel : Nat} {s : PyStr},
    c ∉ s → removeAll old fuel s = s
  | 0, _, _ => by simp [removeAll]
  | _ + 1, [], _ => rfl
  | fuel + 1, x :: s, h => by
      have hnot : ¬ old.isPrefixOf (x :: s) = true := by
        intro hprefix
        obtain ⟨t, ht⟩ := List.isPrefixOf_iff_prefix.mp hprefix
        exact h (by rw [← ht]; exact List.mem_append_left _ hc)
      rw [removeAll, if_neg hnot, removeAll_of_not_mem hc fun hmem => h (List.mem_cons_of_mem _ hmem)]

theorem removeAll_hyphen : ∀ {fuel : Nat} {s : PyStr}, s.length ≤ fuel →
    removeAll (py "-") fuel s = s.filter fun c => decide (c ≠ cp '-')
  | 0, s, h => by
      obtain rfl := List.length_eq_zero_iff.mp (Nat.le_zero.mp h)
      rfl
  | _ + 1, [], _ => rfl
  | fuel + 1, c :: s, h => by
      have ih := removeAll_hyphen (Nat.le_of_succ_le_succ h)
      by_cases hc : c = cp '-'
      · subst hc
        rw [removeAll, if_pos (by simp [py]), List.filter_cons_of_neg (by simp), ← ih]
        rfl
      · have hnot : ¬ (py "-").isPrefixOf (c :: s) = true := by
          simpa [py] using fun h' : cp '-' = c => hc h'.symm
        rw [removeAll, if_neg hnot, List.filter_cons_of_pos (by simpa using hc), ih]

theorem stripBraces_of_canonicalUuid {s : PyStr} (h : canonicalUuid s = true) : stripBraces s = s := by
  have hdrop : ∀ t : PyStr, (∀ c ∈ t, c ∈ s) →
      t.dropWhile (fun c => decide (c = cp '\x7b' ∨ c = cp '\x7d')) = t := by
    intro t ht
    cases t with
    | nil => rfl
    | cons c t =>
        refine List.dropWhile_cons_of_neg ?_
        intro hbrace
        have hmem := ht c (by simp)
        rcases of_decide_eq_true hbrace with rfl | rfl
        · exact not_mem_canonicalUuid h (by decide) (by decide) hmem
        · exact not_mem_canonicalUuid h (by decide) (by decide) hmem
  rw [stripBraces, hdrop s fun _ => id, hdrop s.reverse fun _ => List.mem_reverse.mp, List.reverse_reverse]

theorem filter_intercalate : ∀ {parts : List PyStr}, (∀ part ∈ parts, cp '-' ∉ part) →
    ([cp '-'].intercalate parts).filter (fun c => decide (c ≠ cp '-')) = parts.flatten
  | [], _ => rfl
  | part :: parts, h => by
      have hpart : part.filter (fun c => decide (c ≠ cp '-')) = part := by
        refine List.filter_eq_self.mpr fun c hc => decide_eq_true ?_
        rintro rfl
        exact h part (by simp) hc
      have ih := filter_intercalate fun p hp => h p (List.mem_cons_of_mem _ hp)
      cases parts with
      | nil => simpa using hpart
      | cons next parts =>
          rw [List.intercalate_cons_cons, List.filter_append, List.filter_append, hpart, ih,
            List.flatten_cons]
          simp

/-- The digits of a canonical identifier are the ones that are written. -/
theorem hexDigit_of_isLowerHex {c : CodePoint} (h : isLowerHex c = true) :
    (hexVal c).isSome = true ∧ hexDigit ((hexVal c).getD 0) = c := by
  simp only [isLowerHex, isDigit, Bool.or_eq_true, Bool.and_eq_true, decide_eq_true_eq] at h
  rcases h with h | h
  · refine ⟨by simp [hexVal, h], Fin.ext ?_⟩
    simp only [hexVal, h, and_self, if_true, Option.getD_some, hexDigit]
    split <;> omega
  · have hnot : ¬ (48 ≤ c.val ∧ c.val ≤ 57) := by omega
    refine ⟨by simp [hexVal, h, hnot], Fin.ext ?_⟩
    simp only [hexVal, h, hnot, and_self, if_true, if_false, Option.getD_some, hexDigit]
    split <;> omega

theorem isLowerHex_hexDigit : ∀ d < 16, isLowerHex (hexDigit d) = true := by decide

/-- The groups of a text that `str` writes. -/
theorem isGroups_uuidText (n : Nat) : canonicalUuid (uuidText n) = true := by
  have hlength := hexPadded_length 32 n
  have hhex : ∀ c ∈ hexPadded 32 n, isLowerHex c = true := by
    intro c hc
    obtain ⟨d, hd, rfl⟩ := hexPadded_isDigit 32 n c hc
    exact isLowerHex_hexDigit d hd
  have hpart : ∀ part : PyStr, (∀ c ∈ part, c ∈ hexPadded 32 n) → isHex part = true :=
    fun part h => List.all_eq_true.mpr fun c hc => hhex c (h c hc)
  refine canonicalUuid_iff.mpr ⟨_, ⟨?_, ?_⟩, rfl⟩
  · simp [hlength]
  · simp only [List.mem_cons, List.not_mem_nil, or_false, forall_eq_or_imp, forall_eq]
    exact ⟨hpart _ fun _ => List.mem_of_mem_take,
      hpart _ fun _ h => List.mem_of_mem_drop (List.mem_of_mem_take h),
      hpart _ fun _ h => List.mem_of_mem_drop (List.mem_of_mem_take h),
      hpart _ fun _ h => List.mem_of_mem_drop (List.mem_of_mem_take h),
      hpart _ fun _ => List.mem_of_mem_drop⟩

/-- The digits of a canonical identifier, without its hyphens. -/
theorem uuidText_hexValue {parts : List PyStr} (h : IsGroups parts) :
    uuidText (hexValue parts.flatten) = [cp '-'].intercalate parts := by
  have hlength : parts.flatten.length = 32 := by rw [List.length_flatten, h.lengths]; rfl
  have hdigits : ∀ c ∈ parts.flatten, hexDigit ((hexVal c).getD 0) = c := by
    intro c hc
    obtain ⟨part, hpart, hc⟩ := List.mem_flatten.mp hc
    exact (hexDigit_of_isLowerHex (List.all_eq_true.mp (h.hex part hpart) c hc)).2
  have hpadded := hexPadded_hexValue hdigits
  rw [hlength] at hpadded
  obtain ⟨a, b, c, d, e, rfl, ha, hb, hc, hd, -⟩ := h.five
  have hcuts : ∀ t : PyStr, (a ++ t).take 8 = a ∧ (a ++ t).drop 8 = t := fun t =>
    ⟨List.take_left' ha, List.drop_left' ha⟩
  have hdrop12 : (a ++ (b ++ (c ++ (d ++ e)))).drop 12 = c ++ (d ++ e) := by
    rw [show 12 = 8 + 4 from rfl, ← List.drop_drop, (hcuts _).2, List.drop_left' hb]
  have hdrop16 : (a ++ (b ++ (c ++ (d ++ e)))).drop 16 = d ++ e := by
    rw [show 16 = 12 + 4 from rfl, ← List.drop_drop, hdrop12, List.drop_left' hc]
  have hdrop20 : (a ++ (b ++ (c ++ (d ++ e)))).drop 20 = e := by
    rw [show 20 = 16 + 4 from rfl, ← List.drop_drop, hdrop16, List.drop_left' hd]
  simp only [List.flatten_cons, List.flatten_nil, List.append_nil] at hpadded ⊢
  rw [uuidText, hpadded, (hcuts _).1, (hcuts _).2, hdrop12, hdrop16, hdrop20, List.take_left' hb,
    List.take_left' hc, List.take_left' hd]

/-- **`uuid.UUID`**: what is written again as it was is the canonical form. -/
theorem validateCanonicalUuid_iff (intOther : PyStr → Option Int) {s : PyStr} :
    validateCanonicalUuid intOther s = true ↔ canonicalUuid s = true := by
  constructor
  · intro h
    unfold validateCanonicalUuid at h
    split at h
    · rw [← of_decide_eq_true h]
      exact isGroups_uuidText _
    · cases h
  · intro h
    obtain ⟨parts, hparts, hs⟩ := canonicalUuid_iff.mp h
    have hu : cp 'u' ∉ s := not_mem_canonicalUuid h (by decide) (by decide)
    have hlength : parts.flatten.length = 32 := by rw [List.length_flatten, hparts.lengths]; rfl
    have hhex : parts.flatten.all (fun c => (hexVal c).isSome) = true := by
      refine List.all_eq_true.mpr fun c hc => ?_
      obtain ⟨part, hpart, hc⟩ := List.mem_flatten.mp hc
      exact (hexDigit_of_isLowerHex (List.all_eq_true.mp (hparts.hex part hpart) c hc)).1
    have hflat : s.filter (fun c => decide (c ≠ cp '-')) = parts.flatten := by
      rw [hs, filter_intercalate hparts.hyphen_not_mem]
    have hlt : hexValue parts.flatten < 2 ^ 128 := by
      have := hexValue_lt parts.flatten
      rwa [hlength] at this
    have hof : uuidOf intOther s = some (hexValue parts.flatten) := by
      have hurn : removeAll (py "urn:") s.length s = s :=
        removeAll_of_not_mem (c := cp 'u') (by decide) hu
      have huuid : removeAll (py "uuid:") s.length s = s :=
        removeAll_of_not_mem (c := cp 'u') (by decide) hu
      rw [uuidOf, hurn, huuid, stripBraces_of_canonicalUuid h, removeAll_hyphen (Nat.le_refl _), hflat,
        if_neg (not_not.mpr hlength), if_pos hhex, Option.bind_some,
        if_pos ⟨Int.natCast_nonneg _, by exact_mod_cast hlt⟩, Int.toNat_natCast]
    rw [validateCanonicalUuid, hof]
    exact decide_eq_true (by rw [uuidText_hexValue hparts, hs])

/-! ## Agreement -/

/-- The validators agree on `s`. -/
structure ValidatorsAgree (lowerOther : PyStr → Nat → PyStr) (intOther : PyStr → Option Int)
    (s : PyStr) : Prop where
  identity : isValidUuid s = true ↔ requestIdentity lowerOther s = some s
  context : isValidUuid s = true ↔ validateCanonicalUuid intOther s = true
  deletion : isValidUuid s = true ↔ requireUuidText s = true

/-- A canonical identifier with a line feed behind it. -/
def LineFeedBehind (s : PyStr) : Prop := ∃ u, canonicalUuid u = true ∧ s = u ++ [cp '\n']

theorem not_canonicalUuid_of_lineFeed {s : PyStr} (h : LineFeedBehind s) : canonicalUuid s ≠ true := by
  obtain ⟨u, hu, rfl⟩ := h
  intro hs
  have hlength := canonicalUuid_length hs
  rw [List.length_append, canonicalUuid_length hu] at hlength
  cases hlength

/-- **The validators agree on every text but a canonical identifier with a line feed behind it.** -/
theorem validators_agree_iff (lowerOther : PyStr → Nat → PyStr) (intOther : PyStr → Option Int)
    (s : PyStr) : ValidatorsAgree lowerOther intOther s ↔ ¬ LineFeedBehind s := by
  have hmatch : isValidUuid s = true ↔ canonicalUuid s = true ∨ LineFeedBehind s := matchUuidRe_iff
  constructor
  · intro h hfeed
    have hidentity := h.identity.mp (hmatch.mpr (.inr hfeed))
    exact not_canonicalUuid_of_lineFeed hfeed ((requestIdentity_iff lowerOther).mp hidentity)
  · intro hfeed
    have hcanonical : isValidUuid s = true ↔ canonicalUuid s = true :=
      hmatch.trans ⟨fun h => h.resolve_right hfeed, .inl⟩
    exact ⟨hcanonical.trans (requestIdentity_iff lowerOther).symm,
      hcanonical.trans (validateCanonicalUuid_iff intOther).symm, Iff.rfl⟩

def lineFeedId : PyStr := py "550e8400-e29b-41d4-a716-446655440000\n"

/-- **Two validators accept a line feed that the other two refuse.** -/
theorem line_feed_accepted :
    isValidUuid lineFeedId = true ∧ requireUuidText lineFeedId = true ∧
      (∀ lowerOther, requestIdentity lowerOther lineFeedId = none) ∧
      (∀ intOther, validateCanonicalUuid intOther lineFeedId = false) ∧
      ∀ lowerOther intOther, ¬ ValidatorsAgree lowerOther intOther lineFeedId := by
  have haccepted : matchUuidRe lineFeedId = true := by decide +kernel
  have hidentity : ∀ lowerOther, requestIdentity lowerOther lineFeedId = none := fun _ => rfl
  refine ⟨haccepted, haccepted, hidentity, fun _ => rfl, ?_⟩
  intro lowerOther intOther hagree
  have := hagree.identity.mp haccepted
  rw [hidentity] at this
  cases this

end Katherine.Cloud
