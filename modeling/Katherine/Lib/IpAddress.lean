import Katherine.Lib.Hex

/-!
# IP addresses

What `ip_address(s)`, `str(address)` and `address in network` of Python's `ipaddress` do.
An IPv6 text is up to nine parts between colons; an empty part that is not at an end
stands for a run of zeros, and the writer leaves out the longest run of two or more.

A text that is written is read back as the address it was written from
(`ipAddress_text`), so the written form is canonical.
-/

namespace Ip

open Py

/-- `IPv4Address` or `IPv6Address`; the scope is empty where there is none. -/
inductive Address
  | v4 (ip : Fin (2 ^ 32))
  | v6 (ip : Fin (2 ^ 128)) (scope : PyStr)
deriving DecidableEq

/-- `IPv4Network` or `IPv6Network`. -/
inductive Network
  | v4 (networkAddress netmask : Fin (2 ^ 32))
  | v6 (networkAddress netmask : Fin (2 ^ 128))
deriving DecidableEq

/-- `address in network`. -/
def Network.contains : Network → Address → Bool
  | .v4 net mask, .v4 ip => decide (ip.val &&& mask.val = net.val)
  | .v6 net mask, .v6 ip _ => decide (ip.val &&& mask.val = net.val)
  | _, _ => false

/-! ## IPv4 -/

/-- `_parse_octet`. -/
def parseOctet (s : PyStr) : Option (Fin 256) :=
  if s.isEmpty then none
  else if !s.all isDigit then none
  else if 3 < s.length then none
  else if s ≠ py "0" ∧ s.head? = some (cp '0') then none
  else if h : natOfText s < 256 then some ⟨natOfText s, h⟩
  else none

/-- `int.from_bytes(…, "big")` of four bytes. -/
def ofOctets (a b c d : Fin 256) : Fin (2 ^ 32) :=
  ⟨((a.val * 256 + b.val) * 256 + c.val) * 256 + d.val, by omega⟩

/-- `IPv4Address(s)`; the `/` is refused before the text is split. -/
def parseV4 (s : PyStr) : Option (Fin (2 ^ 32)) :=
  if cp '/' ∈ s then none
  else
    match s.splitOn (cp '.') with
    | [a, b, c, d] => do
        let a ← parseOctet a
        let b ← parseOctet b
        let c ← parseOctet c
        let d ← parseOctet d
        some (ofOctets a b c d)
    | _ => none

/-- `str` of an IPv4 address. -/
def v4Text (ip : Fin (2 ^ 32)) : PyStr :=
  [cp '.'].intercalate
    [natText (ip.val / 16777216 % 256), natText (ip.val / 65536 % 256), natText (ip.val / 256 % 256),
      natText (ip.val % 256)]

/-! ## Hextets -/

/-- `_parse_hextet`. -/
def parseHextet (s : PyStr) : Option (Fin 65536) :=
  if !s.all (fun c => (hexVal c).isSome) then none
  else if 4 < s.length then none
  -- `int("", 16)` raises
  else if s.isEmpty then none
  else if h : hexValue s < 65536 then some ⟨hexValue s, h⟩
  else none

/-- The number with these hextets. -/
def ofHextets (hs : List (Fin 65536)) : Nat := hs.foldl (fun a h => 65536 * a + h.val) 0

theorem mod_hextet_lt (n : Nat) : n % 65536 < 65536 := Nat.mod_lt n (by decide)

/-- The last `n` hextets of a number. -/
def hextets : Nat → Nat → List (Fin 65536)
  | 0, _ => []
  | n + 1, ip => hextets n (ip / 65536) ++ [⟨ip % 65536, mod_hextet_lt ip⟩]

/-! ## IPv6 -/

/-- An IPv4-style suffix becomes two hextets. -/
def expandSuffix (parts : List PyStr) : Option (List PyStr) :=
  let last := parts.getLast?.getD []
  if cp '.' ∈ last then
    (parseV4 last).map fun ip =>
      parts.dropLast ++ [hexText (ip.val / 65536), hexText (ip.val % 65536)]
  else some parts

/-- The search for the `::`, over the parts that are not at an end; `none` where there are two. -/
def skipIndex : List PyStr → Nat → Option Nat → Option (Option Nat)
  | [], _, skip => some skip
  | part :: parts, i, skip =>
      if part.isEmpty then
        match skip with
        | some _ => none
        | none => skipIndex parts (i + 1) (some i)
      else skipIndex parts (i + 1) skip

/-- `parts_hi` and `parts_lo`: how many parts there are before and behind the `::`. -/
def layout (parts : List PyStr) : Option Nat → Option (Nat × Nat)
  | some skip =>
      let leading := parts.head?.getD [] = []
      let trailing := parts.getLast?.getD [] = []
      let hi := if leading then skip - 1 else skip
      let lo := parts.length - skip - 1
      let lo := if trailing then lo - 1 else lo
      if leading ∧ 0 < hi then none
      else if trailing ∧ 0 < lo then none
      else if 8 < hi + lo + 1 then none
      else some (hi, lo)
  | none =>
      if parts.length ≠ 8 then none
      else if parts.head?.getD [] = [] then none
      else if parts.getLast?.getD [] = [] then none
      else some (8, 0)

/-- `_ip_int_from_string` of an IPv6 text, from its parts on. -/
def readParts (parts : List PyStr) : Option (Fin (2 ^ 128)) :=
  if 9 < parts.length then none
  else do
    let skip ← skipIndex parts.tail.dropLast 1 none
    let (hi, lo) ← layout parts skip
    let high ← (parts.take hi).mapM parseHextet
    let low ← (parts.drop (parts.length - lo)).mapM parseHextet
    let ip := ofHextets (high ++ List.replicate (8 - (hi + lo)) 0 ++ low)
    if h : ip < 2 ^ 128 then some ⟨ip, h⟩ else none

/-- `_ip_int_from_string` of an IPv6 text. -/
def parseV6 (s : PyStr) : Option (Fin (2 ^ 128)) :=
  let parts := s.splitOn (cp ':')
  if parts.length < 3 then none else (expandSuffix parts).bind readParts

/-- `_split_scope_id`. -/
def splitScopeId (s : PyStr) : Option (PyStr × PyStr) :=
  match s.dropWhile (· ≠ cp '%') with
  | [] => some (s, [])
  | _ :: scope =>
      if scope.isEmpty || decide (cp '%' ∈ scope) then none
      else some (s.takeWhile (· ≠ cp '%'), scope)

/-- `ip_address(s)`; `none` is the `ValueError`. -/
def ipAddress (s : PyStr) : Option Address :=
  match parseV4 s with
  | some ip => some (.v4 ip)
  | none =>
      if cp '/' ∈ s then none
      else do
        let (text, scope) ← splitScopeId s
        let ip ← parseV6 text
        some (.v6 ip scope)

/-! ## Writing -/

/-- The runs of zeros met so far: the longest with where it starts, and the current one. -/
structure ZeroRun where
  bestStart : Nat
  bestLen : Nat
  start : Nat
  len : Nat

/-- The loop of `_compress_hextets`. -/
def longestZeros : List PyStr → Nat → ZeroRun → ZeroRun
  | [], _, r => r
  | h :: hs, index, r =>
      if h = py "0" then
        let len := r.len + 1
        let start := if r.len = 0 then index else r.start
        if r.bestLen < len then longestZeros hs (index + 1) ⟨start, len, start, len⟩
        else longestZeros hs (index + 1) { r with start, len }
      else longestZeros hs (index + 1) { r with len := 0 }

/-- `_compress_hextets`. -/
def compressHextets (hs : List PyStr) : List PyStr :=
  let r := longestZeros hs 0 ⟨0, 0, 0, 0⟩
  if 1 < r.bestLen then
    let stop := r.bestStart + r.bestLen
    (if r.bestStart = 0 then [[]] else []) ++ hs.take r.bestStart ++ [[]] ++ hs.drop stop
      ++ (if stop = hs.length then [[]] else [])
  else hs

/-- `_string_from_ip_int` of an IPv6 address. -/
def v6Text (ip : Fin (2 ^ 128)) : PyStr :=
  [cp ':'].intercalate (compressHextets ((hextets 8 ip.val).map fun h => hexText h.val))

/-- `str(address)`. -/
def Address.text : Address → PyStr
  | .v4 ip => v4Text ip
  | .v6 ip scope => if scope.isEmpty then v6Text ip else v6Text ip ++ cp '%' :: scope

example : ipAddress (py "0:0:0:0:0:ffff:10.0.0.1") = (ipAddress (py "::FFFF:a00:1")) := by
  decide +kernel

/-! ## Reading back an IPv4 address -/

theorem parseOctet_natText : ∀ n : Fin 256, parseOctet (natText n.val) = some n := by
  decide +kernel

theorem parseOctet_isDigit {s : PyStr} {n : Fin 256} (h : parseOctet s = some n) :
    ∀ c ∈ s, isDigit c = true := by
  unfold parseOctet at h
  split at h
  · cases h
  · split at h
    · cases h
    · rename_i hdigits
      simpa using hdigits

theorem ofOctets_octets (ip : Fin (2 ^ 32)) :
    ofOctets ⟨ip.val / 16777216 % 256, Nat.mod_lt _ (by omega)⟩
      ⟨ip.val / 65536 % 256, Nat.mod_lt _ (by omega)⟩ ⟨ip.val / 256 % 256, Nat.mod_lt _ (by omega)⟩
      ⟨ip.val % 256, Nat.mod_lt _ (by omega)⟩ = ip := by
  apply Fin.ext
  have := ip.isLt
  simp only [ofOctets]
  omega

theorem not_mem_of_isDigit {s : PyStr} {c : CodePoint} (h : ∀ x ∈ s, isDigit x = true)
    (hc : isDigit c = false) : c ∉ s := by
  intro hmem
  rw [h c hmem] at hc
  cases hc

/-- The digits and the dots of an IPv4 text. -/
theorem mem_v4Text {ip : Fin (2 ^ 32)} {c : CodePoint} (h : c ∈ v4Text ip) :
    isDigit c = true ∨ c = cp '.' := by
  rcases mem_intercalate h with h | ⟨part, hpart, h⟩
  · exact .inr h
  · have hall : ∀ part ∈ [natText (ip.val / 16777216 % 256), natText (ip.val / 65536 % 256),
        natText (ip.val / 256 % 256), natText (ip.val % 256)], ∀ c ∈ part, isDigit c = true := by
      simpa using ⟨natText_all_digit _, natText_all_digit _, natText_all_digit _,
        natText_all_digit _⟩
    exact .inl (hall part hpart c h)

theorem parseV4_v4Text (ip : Fin (2 ^ 32)) : parseV4 (v4Text ip) = some ip := by
  have hslash : cp '/' ∉ v4Text ip := by
    intro h
    rcases mem_v4Text h with h | h <;> revert h <;> decide
  have hdot : ∀ n, cp '.' ∉ natText n := fun n =>
    not_mem_of_isDigit (natText_all_digit n) (by decide)
  have hsplit : (v4Text ip).splitOn (cp '.') =
      [natText (ip.val / 16777216 % 256), natText (ip.val / 65536 % 256),
        natText (ip.val / 256 % 256), natText (ip.val % 256)] := by
    unfold v4Text
    exact List.splitOn_intercalate _ (by simp [hdot]) (by simp)
  have hread : ∀ n, parseOctet (natText (n % 256)) = some ⟨n % 256, Nat.mod_lt _ (by omega)⟩ :=
    fun n => parseOctet_natText ⟨n % 256, Nat.mod_lt _ (by omega)⟩
  unfold parseV4
  rw [if_neg hslash, hsplit]
  simp only [hread, Option.bind_eq_bind, Option.bind_some, ofOctets_octets]

/-- An IPv4 text has nothing but digits and dots. -/
theorem parseV4_chars {s : PyStr} {ip : Fin (2 ^ 32)} (h : parseV4 s = some ip) :
    ∀ c ∈ s, isDigit c = true ∨ c = cp '.' := by
  unfold parseV4 at h
  split at h
  · cases h
  · split at h
    · rename_i a b c d hsplit
      simp only [Option.bind_eq_bind, Option.bind_eq_some_iff] at h
      obtain ⟨_, ha, _, hb, _, hc, _, hd, -⟩ := h
      have hs : [cp '.'].intercalate (s.splitOn (cp '.')) = s := List.intercalate_splitOn (cp '.')
      rw [hsplit] at hs
      have hall : ∀ part ∈ [a, b, c, d], ∀ x ∈ part, isDigit x = true := by
        simpa using ⟨parseOctet_isDigit ha, parseOctet_isDigit hb, parseOctet_isDigit hc,
          parseOctet_isDigit hd⟩
      intro x hx
      rw [← hs] at hx
      rcases mem_intercalate hx with hx | ⟨part, hpart, hx⟩
      · exact .inr hx
      · exact .inl (hall part hpart x hx)
    · cases h

/-! ## Reading back hextets -/

theorem parseHextet_hexText (h : Fin 65536) : parseHextet (hexText h.val) = some h := by
  have hvalue : hexValue (hexText h.val) = h.val := hexValue_hexRev 4 h.val (by omega)
  have hlength : ¬ 4 < (hexText h.val).length := by
    have := hexRev_length 4 h.val
    simp only [hexText, List.length_reverse]
    omega
  have hhex : (hexText h.val).all (fun c => (hexVal c).isSome) = true :=
    List.all_eq_true.mpr (hexText_isHex h.val)
  have hne : (hexText h.val).isEmpty = false := by simpa using hexText_ne_nil h.val
  simp [parseHextet, hhex, hlength, hne, hvalue]

theorem mapM_parseHextet (hs : List (Fin 65536)) :
    (hs.map fun h => hexText h.val).mapM parseHextet = some hs := by
  induction hs with
  | nil => rfl
  | cons h hs ih => simp [List.mapM_cons, parseHextet_hexText, ih]

theorem ofHextets_snoc (hs : List (Fin 65536)) (h : Fin 65536) :
    ofHextets (hs ++ [h]) = 65536 * ofHextets hs + h.val := by
  simp [ofHextets]

theorem ofHextets_hextets : ∀ n ip : Nat, ip < 65536 ^ n → ofHextets (hextets n ip) = ip
  | 0, ip, h => by
      obtain rfl : ip = 0 := by simpa using h
      rfl
  | n + 1, ip, h => by
      have hlt : ip / 65536 < 65536 ^ n := by
        rw [Nat.div_lt_iff_lt_mul (by omega)]
        rwa [Nat.pow_succ] at h
      rw [hextets, ofHextets_snoc, ofHextets_hextets n (ip / 65536) hlt]
      exact Nat.div_add_mod ip 65536

theorem hextets_length : ∀ n ip : Nat, (hextets n ip).length = n
  | 0, _ => rfl
  | n + 1, ip => by rw [hextets, List.length_append, hextets_length n, List.length_singleton]

/-! ## Reading back an IPv6 address -/

/-- The best run is a part of the list so far, and the current one is its end. -/
structure RunInv (done : List PyStr) (r : ZeroRun) : Prop where
  best : ∃ pre post, done = pre ++ List.replicate r.bestLen (py "0") ++ post ∧
    pre.length = r.bestStart
  current : 0 < r.len → ∃ pre, done = pre ++ List.replicate r.len (py "0") ∧ pre.length = r.start

theorem longestZeros_inv : ∀ (hs done : List PyStr) (r : ZeroRun), RunInv done r →
    RunInv (done ++ hs) (longestZeros hs done.length r)
  | [], done, r, h => by simpa [longestZeros] using h
  | h :: hs, done, r, hinv => by
      have hassoc : done ++ h :: hs = (done ++ [h]) ++ hs := by simp
      have hlength : done.length + 1 = (done ++ [h]).length := by simp
      obtain ⟨pre, post, hdone, hpre⟩ := hinv.best
      have hbest : done ++ [h] = pre ++ List.replicate r.bestLen (py "0") ++ (post ++ [h]) := by
        rw [hdone]
        simp
      rw [hassoc, longestZeros, hlength]
      by_cases hzero : h = py "0"
      · -- the current run gets longer, or starts here
        have hcurrent : ∃ pre, done ++ [h] = pre ++ List.replicate (r.len + 1) (py "0") ∧
            pre.length = if r.len = 0 then done.length else r.start := by
          by_cases hlen : r.len = 0
          · exact ⟨done, by simp [hlen, hzero], by simp [hlen]⟩
          · obtain ⟨pre', hdone', hpre'⟩ := hinv.current (Nat.pos_of_ne_zero hlen)
            refine ⟨pre', ?_, by simp [hlen, hpre']⟩
            rw [List.replicate_succ', hzero, ← List.append_assoc, ← hdone']
        rw [if_pos hzero]
        dsimp only
        split
        · refine longestZeros_inv hs (done ++ [h]) _ ⟨?_, fun _ => hcurrent⟩
          obtain ⟨pre', hdone', hpre'⟩ := hcurrent
          exact ⟨pre', [], by simpa using hdone', hpre'⟩
        · exact longestZeros_inv hs (done ++ [h]) _ ⟨⟨pre, post ++ [h], hbest, hpre⟩, fun _ => hcurrent⟩
      · rw [if_neg hzero]
        exact longestZeros_inv hs (done ++ [h]) _
          ⟨⟨pre, post ++ [h], hbest, hpre⟩, fun hlen => absurd hlen (Nat.lt_irrefl 0)⟩

/-- The empty part that a `::` at an end adds there. -/
def edge (parts : List PyStr) : List PyStr := if parts = [] then [[]] else []

/-- At most one run of zeros is left out, and it is one of two or more. -/
theorem compressHextets_cases (hs : List PyStr) : compressHextets hs = hs ∨
    ∃ pre n post, 1 < n ∧ hs = pre ++ List.replicate n (py "0") ++ post ∧
      compressHextets hs = edge pre ++ pre ++ [[]] ++ post ++ edge post := by
  obtain ⟨⟨pre, post, hhs, hpre⟩, -⟩ := longestZeros_inv hs [] ⟨0, 0, 0, 0⟩
    ⟨⟨[], [], rfl, rfl⟩, fun h => absurd h (Nat.lt_irrefl 0)⟩
  simp only [List.nil_append, List.length_nil] at hhs hpre
  unfold compressHextets
  dsimp only
  generalize longestZeros hs 0 ⟨0, 0, 0, 0⟩ = r at hhs hpre ⊢
  split
  · rename_i hlen
    refine .inr ⟨pre, r.bestLen, post, hlen, hhs, ?_⟩
    have htake : hs.take r.bestStart = pre := by rw [hhs, ← hpre]; simp
    have hdrop : hs.drop (r.bestStart + r.bestLen) = post := by
      rw [hhs, ← hpre, List.drop_left' (by simp)]
    have hstop : r.bestStart + r.bestLen = hs.length ↔ post = [] := by
      rw [hhs, ← hpre]
      simp
    have hstart : r.bestStart = 0 ↔ pre = [] := by rw [← hpre, List.length_eq_zero_iff]
    simp only [htake, hdrop, hstop, hstart, edge]
  · exact .inl rfl

theorem skipIndex_full : ∀ {parts : List PyStr} (i : Nat) (skip : Option Nat),
    (∀ part ∈ parts, part ≠ []) → skipIndex parts i skip = some skip
  | [], _, _, _ => rfl
  | part :: parts, i, skip, h => by
      have hpart : part.isEmpty = false := by simpa using h part (by simp)
      simp only [skipIndex, hpart, Bool.false_eq_true, if_false]
      exact skipIndex_full (i + 1) skip fun p hp => h p (by simp [hp])

theorem skipIndex_one : ∀ {pre post : List PyStr} (i : Nat), (∀ part ∈ pre, part ≠ []) →
    (∀ part ∈ post, part ≠ []) → skipIndex (pre ++ [] :: post) i none = some (some (i + pre.length))
  | [], post, i, _, hpost => by
      simp only [List.nil_append, skipIndex, List.isEmpty_nil, if_true, List.length_nil]
      exact skipIndex_full (i + 1) (some i) hpost
  | part :: pre, post, i, hpre, hpost => by
      have hpart : part.isEmpty = false := by simpa using hpre part (by simp)
      have hrest : ∀ p ∈ pre, p ≠ [] := fun p hp => hpre p (List.mem_cons_of_mem _ hp)
      have := skipIndex_one (i + 1) hrest hpost
      simp only [List.cons_append, skipIndex, hpart, Bool.false_eq_true, if_false, List.length_cons]
      rw [this, Nat.add_assoc, Nat.add_comm 1]

/-- The parts of a text with a `::` between `pre` and `post`. -/
def gapParts (pre post : List PyStr) : List PyStr := edge pre ++ pre ++ [[]] ++ post ++ edge post

section

variable {pre post : List PyStr}

/-- The parts at the two ends are empty where the `::` is at an end. -/
theorem gapParts_ends (hpre : ∀ part ∈ pre, part ≠ []) (hpost : ∀ part ∈ post, part ≠ []) :
    ∃ first last, gapParts pre post = first :: (pre.tail ++ [] :: (post.dropLast ++ [last])) ∧
      (first = [] ↔ pre = []) ∧ (last = [] ↔ post = []) := by
  have hfirst : ∃ first, edge pre ++ pre = first :: pre.tail ∧ (first = [] ↔ pre = []) := by
    cases pre with
    | nil => exact ⟨[], rfl, by simp⟩
    | cons p ps => exact ⟨p, by simp [edge], by simp [hpre p]⟩
  have hlast : ∃ last, post ++ edge post = post.dropLast ++ [last] ∧ (last = [] ↔ post = []) := by
    rcases List.eq_nil_or_concat' post with rfl | ⟨ps, p, rfl⟩
    · exact ⟨[], rfl, by simp⟩
    · exact ⟨p, by simp [edge], by simp [hpost p]⟩
  obtain ⟨first, hfirst, hleading⟩ := hfirst
  obtain ⟨last, hlast, htrailing⟩ := hlast
  refine ⟨first, last, ?_, hleading, htrailing⟩
  rw [gapParts, hfirst, List.append_assoc, hlast]
  simp

theorem skipIndex_gap (hpre : ∀ part ∈ pre, part ≠ []) (hpost : ∀ part ∈ post, part ≠ []) :
    skipIndex (gapParts pre post).tail.dropLast 1 none = some (some (1 + pre.tail.length)) := by
  obtain ⟨first, last, hparts, -⟩ := gapParts_ends hpre hpost
  have hdrop : (pre.tail ++ [] :: (post.dropLast ++ [last])).dropLast
      = pre.tail ++ [] :: post.dropLast := by
    rw [← List.cons_append, ← List.append_assoc, List.dropLast_concat]
  rw [hparts, List.tail_cons, hdrop]
  exact skipIndex_one 1 (fun p hp => hpre p (List.mem_of_mem_tail hp))
    fun p hp => hpost p (List.dropLast_subset _ hp)

theorem layout_gap (hpre : ∀ part ∈ pre, part ≠ []) (hpost : ∀ part ∈ post, part ≠ [])
    (hlength : pre.length + post.length + 1 < 8) :
    layout (gapParts pre post) (some (1 + pre.tail.length)) = some (pre.length, post.length) := by
  obtain ⟨first, last, hparts, hhead, htail⟩ := gapParts_ends hpre hpost
  have hgetLast : (first :: (pre.tail ++ [] :: (post.dropLast ++ [last]))).getLast? = some last := by
    rw [← List.cons_append, ← List.cons_append, ← List.append_assoc, List.getLast?_concat]
  have hcount : (first :: (pre.tail ++ [] :: (post.dropLast ++ [last]))).length
      = pre.tail.length + post.dropLast.length + 3 := by
    simp only [List.length_cons, List.length_append, List.length_nil]
    omega
  have hhi : (if pre = [] then 1 + pre.tail.length - 1 else 1 + pre.tail.length) = pre.length := by
    cases pre with
    | nil => rfl
    | cons p ps => exact Nat.add_comm _ _
  have hlo : (if post = [] then
      pre.tail.length + post.dropLast.length + 3 - (1 + pre.tail.length) - 1 - 1
      else pre.tail.length + post.dropLast.length + 3 - (1 + pre.tail.length) - 1)
      = post.length := by
    rcases List.eq_nil_or_concat' post with rfl | ⟨ps, p, rfl⟩
    · simp only [if_true, List.dropLast_nil, List.length_nil]
      omega
    · simp only [List.append_eq_nil_iff, List.cons_ne_self, and_false, if_false,
        List.dropLast_concat, List.length_append, List.length_singleton]
      omega
  rw [hparts]
  simp only [layout, List.head?_cons, Option.getD_some, hgetLast, hhead, htail, hcount, hhi, hlo]
  rw [if_neg, if_neg, if_neg (by omega)]
  · rintro ⟨hnil, hpos⟩
    simp [hnil] at hpos
  · rintro ⟨hnil, hpos⟩
    simp [hnil] at hpos

theorem take_gap : (gapParts pre post).take pre.length = pre := by
  cases pre with
  | nil => rfl
  | cons p ps => simp [gapParts, edge]

theorem drop_gap : (gapParts pre post).drop ((gapParts pre post).length - post.length) = post := by
  rcases List.eq_nil_or_concat' post with rfl | ⟨ps, p, rfl⟩
  · simp
  · have hedge : edge (ps ++ [p]) = [] := by simp [edge]
    rw [gapParts, hedge, List.append_nil, List.drop_left' (by simp only [List.length_append]; omega)]

theorem length_gap : (gapParts pre post).length ≤ pre.length + post.length + 3 := by
  have hedge : ∀ parts, (edge parts).length ≤ 1 := by
    intro parts
    unfold edge
    split <;> simp
  have h1 := hedge pre
  have h2 := hedge post
  simp only [gapParts, List.length_append, List.length_singleton]
  omega

end

theorem map_hexText_ne_nil (hs : List (Fin 65536)) :
    ∀ part ∈ hs.map (fun h => hexText h.val), part ≠ [] := by
  intro part hpart
  obtain ⟨h, -, rfl⟩ := List.mem_map.mp hpart
  exact hexText_ne_nil h.val

/-- The parts of a text with a `::`, read back. -/
theorem readParts_gap {high low : List (Fin 65536)} {ip : Fin (2 ^ 128)}
    (hlength : high.length + low.length + 1 < 8)
    (hip : ofHextets (high ++ List.replicate (8 - (high.length + low.length)) 0 ++ low) = ip.val) :
    readParts (gapParts (high.map fun h => hexText h.val) (low.map fun h => hexText h.val))
      = some ip := by
  have hpre := map_hexText_ne_nil high
  have hpost := map_hexText_ne_nil low
  have hlayout := layout_gap hpre hpost (by simpa using hlength)
  have hcount : ¬ 9 < (gapParts (high.map fun h => hexText h.val)
      (low.map fun h => hexText h.val)).length := by
    have := @length_gap (high.map fun h => hexText h.val) (low.map fun h => hexText h.val)
    simp only [List.length_map] at this
    omega
  rw [readParts, if_neg hcount, skipIndex_gap hpre hpost]
  simp only [Option.bind_eq_bind, Option.bind_some, hlayout, take_gap, drop_gap, mapM_parseHextet]
  simp only [List.length_map, hip, ip.isLt, dite_true]

/-- The parts of a text without one. -/
theorem readParts_full {hs : List (Fin 65536)} {ip : Fin (2 ^ 128)} (hlength : hs.length = 8)
    (hip : ofHextets hs = ip.val) : readParts (hs.map fun h => hexText h.val) = some ip := by
  have hne := map_hexText_ne_nil hs
  have hmem : ∀ part, part ∈ (hs.map fun h => hexText h.val).tail.dropLast → part ≠ [] :=
    fun part hpart => hne part (List.mem_of_mem_tail (List.dropLast_subset _ hpart))
  have hcount : (hs.map fun h => hexText h.val).length = 8 := by rw [List.length_map, hlength]
  have hsome : (hs.map fun h => hexText h.val) ≠ [] := by
    intro hnil
    rw [hnil] at hcount
    cases hcount
  have hlayout : layout (hs.map fun h => hexText h.val) none = some (8, 0) := by
    have hhead := hne _ (List.head_mem hsome)
    have hlast := hne _ (List.getLast_mem hsome)
    simp only [layout, hcount, List.head?_eq_some_head hsome, List.getLast?_eq_some_getLast hsome,
      Option.getD_some, hhead, hlast, ne_eq, not_true, if_false]
  rw [readParts, if_neg (by omega), skipIndex_full 1 none hmem]
  simp only [Option.bind_eq_bind, Option.bind_some, hlayout]
  rw [List.take_of_length_le (by omega), List.drop_of_length_le (by omega), mapM_parseHextet]
  simp [hip]

/-- Hextets that are written `0` are zero. -/
theorem eq_replicate_of_map {hs : List (Fin 65536)} {n : Nat}
    (h : (hs.map fun h => hexText h.val) = List.replicate n (py "0")) : hs = List.replicate n 0 := by
  have hread := congrArg (List.mapM parseHextet) h
  have hzeros : (List.replicate n (py "0")).mapM parseHextet = some (List.replicate n 0) := by
    have := mapM_parseHextet (List.replicate n 0)
    rwa [List.map_replicate] at this
  rw [mapM_parseHextet, hzeros] at hread
  exact Option.some.inj hread

theorem readParts_compress (ip : Fin (2 ^ 128)) :
    readParts (compressHextets ((hextets 8 ip.val).map fun h => hexText h.val)) = some ip := by
  have hlength := hextets_length 8 ip.val
  have hip : ofHextets (hextets 8 ip.val) = ip.val := ofHextets_hextets 8 ip.val (by omega)
  rcases compressHextets_cases ((hextets 8 ip.val).map fun h => hexText h.val) with hfull | hgap
  · rw [hfull]
    exact readParts_full hlength hip
  · obtain ⟨pre, n, post, hn, hparts, hgap⟩ := hgap
    obtain ⟨front, low, hhs, hfront, rfl⟩ := List.map_eq_append_iff.mp hparts
    obtain ⟨high, zeros, rfl, rfl, hzeros⟩ := List.map_eq_append_iff.mp hfront
    obtain rfl := eq_replicate_of_map hzeros
    rw [hhs] at hlength hip
    simp only [List.length_append, List.length_replicate] at hlength
    have hcount : 8 - (high.length + low.length) = n := by omega
    rw [hgap]
    exact readParts_gap (by omega) (by rw [hcount, hip])

/-! ## The text of an address -/

/-- The parts of an IPv6 text: hextets, and empty ones. -/
theorem mem_compressHextets {hs : List PyStr} {part : PyStr} (h : part ∈ compressHextets hs) :
    part = [] ∨ part ∈ hs := by
  rcases compressHextets_cases hs with hfull | ⟨pre, n, post, -, hhs, hgap⟩
  · rw [hfull] at h
    exact .inr h
  · have hedge : ∀ parts, part ∈ edge parts → part = [] := by
      intro parts hpart
      unfold edge at hpart
      split at hpart
      · simpa using hpart
      · cases hpart
    rw [hgap] at h
    simp only [List.mem_append, List.mem_singleton] at h
    rcases h with (((h | h) | h) | h) | h
    · exact .inl (hedge _ h)
    · exact .inr (by simp [hhs, h])
    · exact .inl h
    · exact .inr (by simp [hhs, h])
    · exact .inl (hedge _ h)

theorem three_le_compressHextets {hs : List PyStr} (h : hs.length = 8) :
    3 ≤ (compressHextets hs).length := by
  rcases compressHextets_cases hs with hfull | ⟨pre, n, post, -, -, hgap⟩
  · rw [hfull]
    omega
  · have hpos : ∀ parts, 1 ≤ (edge parts).length + parts.length := by
      intro parts
      cases parts <;> simp [edge]
    have h1 := hpos pre
    have h2 := hpos post
    rw [hgap]
    simp only [List.length_append, List.length_singleton]
    omega

/-- The parts of the text of `ip`. -/
def v6Parts (ip : Fin (2 ^ 128)) : List PyStr :=
  compressHextets ((hextets 8 ip.val).map fun h => hexText h.val)

theorem not_mem_v6Parts {ip : Fin (2 ^ 128)} {c : CodePoint} (hc : hexVal c = none) :
    ∀ part ∈ v6Parts ip, c ∉ part := by
  intro part hpart hmem
  rcases mem_compressHextets hpart with rfl | h
  · cases hmem
  · obtain ⟨n, -, rfl⟩ := List.mem_map.mp h
    exact not_mem_hexText hc hmem

/-- Nothing but hexadecimal digits and colons. -/
theorem not_mem_v6Text {ip : Fin (2 ^ 128)} {c : CodePoint} (hc : hexVal c = none) (hcolon : c ≠ cp ':') :
    c ∉ v6Text ip := by
  intro h
  rcases mem_intercalate h with h | ⟨part, hpart, h⟩
  · exact hcolon h
  · exact not_mem_v6Parts hc part hpart h

theorem three_le_v6Parts (ip : Fin (2 ^ 128)) : 3 ≤ (v6Parts ip).length :=
  three_le_compressHextets (by rw [List.length_map, hextets_length])

theorem splitOn_v6Text (ip : Fin (2 ^ 128)) : (v6Text ip).splitOn (cp ':') = v6Parts ip := by
  have hne : v6Parts ip ≠ [] := by
    intro hnil
    have := three_le_v6Parts ip
    simp [hnil] at this
  exact List.splitOn_intercalate _ (not_mem_v6Parts (by decide)) hne

theorem expandSuffix_v6Parts (ip : Fin (2 ^ 128)) : expandSuffix (v6Parts ip) = some (v6Parts ip) := by
  have hdot : cp '.' ∉ (v6Parts ip).getLast?.getD [] := by
    cases hlast : (v6Parts ip).getLast? with
    | none => simp
    | some part => exact not_mem_v6Parts (by decide) part (List.mem_of_getLast? hlast)
  unfold expandSuffix
  exact if_neg hdot

theorem parseV6_v6Text (ip : Fin (2 ^ 128)) : parseV6 (v6Text ip) = some ip := by
  have hlength : ¬ (v6Parts ip).length < 3 := Nat.not_lt.mpr (three_le_v6Parts ip)
  unfold parseV6
  simp only [splitOn_v6Text, if_neg hlength, expandSuffix_v6Parts, Option.bind_some]
  rw [v6Parts, readParts_compress]

/-- A colon, with which no IPv4 text begins to read. -/
theorem colon_mem_v6Text (ip : Fin (2 ^ 128)) : cp ':' ∈ v6Text ip := by
  by_contra h
  have hone := List.splitOn_eq_singleton h
  have := three_le_v6Parts ip
  rw [← splitOn_v6Text, hone] at this
  simp at this

theorem v6Text_injective : Function.Injective v6Text := by
  intro ip ip' h
  have := parseV6_v6Text ip
  rw [h, parseV6_v6Text] at this
  exact (Option.some.inj this).symm

theorem v4Text_injective : Function.Injective v4Text := by
  intro ip ip' h
  have := parseV4_v4Text ip
  rw [h, parseV4_v4Text] at this
  exact (Option.some.inj this).symm

/-- The scope as it is written, with the `%`. -/
def scopeText (scope : PyStr) : PyStr := if scope.isEmpty then [] else cp '%' :: scope

theorem Address.text_v6 (ip : Fin (2 ^ 128)) (scope : PyStr) :
    (Address.v6 ip scope).text = v6Text ip ++ scopeText scope := by
  cases scope with
  | nil => exact (List.append_nil _).symm
  | cons c cs => rfl

theorem percent_not_mem_v6Text (ip : Fin (2 ^ 128)) :
    ∀ c ∈ v6Text ip, decide (c ≠ cp '%') = true := by
  intro c hc
  refine decide_eq_true ?_
  rintro rfl
  exact not_mem_v6Text (by decide) (by decide) hc

/-- The text up to the first `%`. -/
theorem takeWhile_text (ip : Fin (2 ^ 128)) (scope : PyStr) :
    (Address.v6 ip scope).text.takeWhile (fun c => decide (c ≠ cp '%')) = v6Text ip := by
  rw [Address.text_v6, List.takeWhile_append_of_pos (percent_not_mem_v6Text ip)]
  cases scope <;> simp [scopeText]

theorem dropWhile_text (ip : Fin (2 ^ 128)) (scope : PyStr) :
    (Address.v6 ip scope).text.dropWhile (fun c => decide (c ≠ cp '%')) = scopeText scope := by
  rw [Address.text_v6, List.dropWhile_append_of_pos (percent_not_mem_v6Text ip)]
  cases scope <;> simp [scopeText]

theorem colon_mem_text (ip : Fin (2 ^ 128)) (scope : PyStr) : cp ':' ∈ (Address.v6 ip scope).text := by
  rw [Address.text_v6]
  exact List.mem_append_left _ (colon_mem_v6Text ip)

theorem colon_not_mem_v4Text (ip : Fin (2 ^ 32)) : cp ':' ∉ v4Text ip := by
  intro h
  rcases mem_v4Text h with h | h <;> revert h <;> decide

/-- **Different addresses are written differently.** -/
theorem Address.text_injective : Function.Injective Address.text := by
  intro a b h
  cases a with
  | v4 ip =>
      cases b with
      | v4 ip' => exact congrArg _ (v4Text_injective h)
      | v6 ip' scope =>
          have hcolon := colon_mem_text ip' scope
          rw [← h] at hcolon
          exact absurd hcolon (colon_not_mem_v4Text ip)
  | v6 ip scope =>
      cases b with
      | v4 ip' =>
          have hcolon := colon_mem_text ip scope
          rw [h] at hcolon
          exact absurd hcolon (colon_not_mem_v4Text ip')
      | v6 ip' scope' =>
          have htake := takeWhile_text ip scope
          have hdrop := dropWhile_text ip scope
          rw [h, takeWhile_text] at htake
          rw [h, dropWhile_text] at hdrop
          obtain rfl := v6Text_injective htake
          cases scope <;> cases scope' <;> simp_all [scopeText]

/-- The scopes that `ip_address` reads. -/
def Address.ScopeOk : Address → Prop
  | .v4 _ => True
  | .v6 _ scope => cp '%' ∉ scope ∧ cp '/' ∉ scope

theorem scopeOk_of_ipAddress {s : PyStr} {a : Address} (h : ipAddress s = some a) : a.ScopeOk := by
  unfold ipAddress at h
  split at h
  · obtain rfl := Option.some.inj h
    trivial
  · split at h
    · cases h
    · rename_i hslash
      simp only [Option.bind_eq_bind, Option.bind_eq_some_iff] at h
      obtain ⟨⟨text, scope⟩, hscope, ip, -, h⟩ := h
      obtain rfl := Option.some.inj h
      unfold splitScopeId at hscope
      split at hscope
      · obtain ⟨-, rfl⟩ := Prod.mk.inj (Option.some.inj hscope)
        exact ⟨by simp, by simp⟩
      · rename_i c rest hrest
        split at hscope
        · cases hscope
        · rename_i hgood
          obtain ⟨-, rfl⟩ := Prod.mk.inj (Option.some.inj hscope)
          simp only [Bool.or_eq_true, decide_eq_true_eq, not_or] at hgood
          refine ⟨hgood.2, fun hmem => hslash ?_⟩
          exact List.dropWhile_subset _ (hrest ▸ List.mem_cons_of_mem _ hmem)

/-- **What is written is read back.** -/
theorem ipAddress_text {a : Address} (h : a.ScopeOk) : ipAddress a.text = some a := by
  cases a with
  | v4 ip => simp [ipAddress, Address.text, parseV4_v4Text]
  | v6 ip scope =>
      obtain ⟨hpercent, hslash⟩ := h
      have hv4 : parseV4 (Address.v6 ip scope).text = none := by
        rw [Option.eq_none_iff_forall_ne_some]
        intro ip' hip'
        rcases parseV4_chars hip' _ (colon_mem_text ip scope) with h | h <;> revert h <;> decide
      have hslash' : cp '/' ∉ (Address.v6 ip scope).text := by
        have hscope : cp '/' ∉ scopeText scope := by
          cases scope with
          | nil => simp [scopeText]
          | cons c cs =>
              have hne : cp '/' ≠ cp '%' := by decide
              simpa [scopeText, hne] using hslash
        rw [Address.text_v6, List.mem_append, not_or]
        exact ⟨not_mem_v6Text (by decide) (by decide), hscope⟩
      have hscope : splitScopeId (Address.v6 ip scope).text = some (v6Text ip, scope) := by
        rw [splitScopeId, dropWhile_text, takeWhile_text]
        cases scope with
        | nil => simp [scopeText, Address.text]
        | cons c cs => simpa [scopeText] using hpercent
      rw [ipAddress, hv4]
      simp only [if_neg hslash', hscope, Option.bind_eq_bind, Option.bind_some, parseV6_v6Text]

end Ip
