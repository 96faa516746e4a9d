import Katherine.Local.Statements

/-!
# Splitting a migration into statements

`_split_sql_statements` of `backend/local_storage/storage.py`. It reads the text once, with
two flags for the quotes, the letters of the word it is in, and a depth that `BEGIN` raises
and `END` lowers; a semicolon outside quotes cuts where the depth is zero.

Reading a stretch moves the depth by the marks of the stretch, whatever is quoted in it
(`scan_sql`), so the scanner goes from semicolon to semicolon (`scan_segments`). There it
takes the word `BEGIN` in `begin_at` for a keyword, and the `END` of a `CASE` for the end of
the body: `split_exact_iff` says when it takes no statement apart and leaves no two together.
-/

namespace Katherine.Local.Migrations

open Py Nesting

variable (t : LetterTable)

/-! ## The scanner -/

/-- The local variables of `_split_sql_statements`. -/
structure Splitter where
  statements : List PyStr
  current : PyStr
  inSingle : Bool
  inDouble : Bool
  depth : Nat
  word : PyStr
deriving DecidableEq

/-- `fragment = "".join(current).strip()`, kept `if fragment`. -/
def keep (statements : List PyStr) (current : PyStr) : List PyStr :=
  let fragment := strip current
  if fragment = [] then statements else statements ++ [fragment]

/-- The branch for a character that ends a word. -/
def Splitter.closeWord (s : Splitter) : Splitter :=
  let joined := upperText t s.word
  { s with
    depth :=
      if joined = py "BEGIN" then s.depth + 1
      else if joined = py "END" ∧ 0 < s.depth then s.depth - 1
      else s.depth
    word := [] }

/-- The two flags, which a mark inside the other kind of quotes leaves alone. -/
def Splitter.toggle (s : Splitter) (ch : CodePoint) : Splitter :=
  if ch = cp '\x27' ∧ s.inDouble = false then { s with inSingle := !s.inSingle }
  else if ch = cp '"' ∧ s.inSingle = false then { s with inDouble := !s.inDouble }
  else s

/-- "track BEGIN/END keywords for trigger bodies". -/
def Splitter.track (s : Splitter) (ch : CodePoint) : Splitter :=
  if t.isAlpha ch then { s with word := s.word ++ [ch] } else s.closeWord t

/-- One turn of the loop. -/
def Splitter.step (s : Splitter) (ch : CodePoint) : Splitter :=
  let s := s.toggle ch
  if s.inSingle = false ∧ s.inDouble = false then
    -- a mark that closes is outside already: it ends the word that stood before the quotes
    let s := s.track t ch
    if ch = cp ';' ∧ s.depth = 0 then
      { s with statements := keep s.statements s.current, current := [] }
    else { s with current := s.current ++ [ch] }
  else { s with current := s.current ++ [ch] }

def Splitter.start : Splitter := ⟨[], [], false, false, 0, []⟩

/-- The tail behind the last cut is a statement too. -/
def Splitter.finish (s : Splitter) : List PyStr := keep s.statements s.current

/-- `_split_sql_statements`. -/
def splitSqlStatements (sql : PyStr) : List PyStr := (sql.foldl (Splitter.step t) .start).finish

/-! ## One turn of the loop -/

/-- The scanner outside quotes. -/
def outside (sts : List PyStr) (cur : PyStr) (d : Nat) (word : PyStr) : Splitter :=
  ⟨sts, cur, false, false, d, word⟩

/-- The scanner between two quote marks. -/
def inside (q : Quote) (sts : List PyStr) (cur : PyStr) (d : Nat) (word : PyStr) : Splitter :=
  ⟨sts, cur, decide (q = .single), decide (q = .double), d, word⟩

theorem Quote.mark_ascii (q : Quote) : q.mark.val < 128 ∧ asciiAlpha q.mark = false ∧ q.mark ≠ cp ';' := by
  cases q <;> decide

/-- A word that ends moves the depth by its mark. -/
theorem closeWord_outside (sts : List PyStr) (cur : PyStr) (d : Nat) (word : PyStr) :
    (outside sts cur d word).closeWord t = outside sts cur (depthFrom d (markOf t word)) [] := by
  have hdepth : (if upperText t word = py "BEGIN" then d + 1
      else if upperText t word = py "END" ∧ 0 < d then d - 1 else d) = depthFrom d (markOf t word) := by
    unfold markOf
    by_cases hbegin : upperText t word = py "BEGIN"
    · rw [if_pos hbegin, if_pos hbegin]
      rfl
    · rw [if_neg hbegin, if_neg hbegin]
      by_cases hend : upperText t word = py "END"
      · rw [if_pos hend]
        show (if upperText t word = py "END" ∧ 0 < d then d - 1 else d) = d - 1
        by_cases hpos : 0 < d
        · rw [if_pos ⟨hend, hpos⟩]
        · rw [if_neg fun h => hpos h.2]
          omega
      · rw [if_neg fun h => hend h.1, if_neg hend]
        rfl
  exact congrArg (fun d => outside sts cur d []) hdepth

theorem toggle_open (q : Quote) (sts : List PyStr) (cur : PyStr) (d : Nat) (word : PyStr) :
    (outside sts cur d word).toggle q.mark = inside q sts cur d word := by
  cases q <;> rfl

theorem toggle_close (q : Quote) (sts : List PyStr) (cur : PyStr) (d : Nat) (word : PyStr) :
    (inside q sts cur d word).toggle q.mark = outside sts cur d word := by
  cases q <;> rfl

theorem toggle_outside {c : CodePoint} (hsingle : c ≠ cp '\x27') (hdouble : c ≠ cp '"') (sts : List PyStr)
    (cur : PyStr) (d : Nat) (word : PyStr) :
    (outside sts cur d word).toggle c = outside sts cur d word := by
  rw [Splitter.toggle, if_neg fun h => hsingle h.1, if_neg fun h => hdouble h.1]

theorem toggle_inside {q : Quote} {c : CodePoint} (h : c ≠ q.mark) (sts : List PyStr) (cur : PyStr) (d : Nat)
    (word : PyStr) : (inside q sts cur d word).toggle c = inside q sts cur d word := by
  -- its own mark it is not, and for the other kind the flag is set
  have hsingle : ¬ (c = cp '\x27' ∧ (inside q sts cur d word).inDouble = false) := by
    cases q with
    | single => exact fun hc => h hc.1
    | double => exact fun hc => Bool.noConfusion hc.2
  have hdouble : ¬ (c = cp '"' ∧ (inside q sts cur d word).inSingle = false) := by
    cases q with
    | single => exact fun hc => Bool.noConfusion hc.2
    | double => exact fun hc => h hc.1
  rw [Splitter.toggle, if_neg hsingle, if_neg hdouble]

/-- A character that leaves the scanner inside quotes is taken as it is. -/
theorem step_of_inside {s : Splitter} {c : CodePoint} {q : Quote} {sts : List PyStr} {cur : PyStr} {d : Nat}
    {word : PyStr} (h : s.toggle c = inside q sts cur d word) :
    s.step t c = inside q sts (cur ++ [c]) d word := by
  unfold Splitter.step
  rw [h]
  cases q <;> rfl

/-- Outside quotes, what is no letter ends the word, and may then cut. -/
theorem step_of_outside {s : Splitter} {c : CodePoint} {sts : List PyStr} {cur : PyStr} {d : Nat}
    {word : PyStr} (h : s.toggle c = outside sts cur d word) (halpha : t.isAlpha c = false) :
    s.step t c =
      if c = cp ';' ∧ depthFrom d (markOf t word) = 0 then
        outside (keep sts cur) [] (depthFrom d (markOf t word)) []
      else outside sts (cur ++ [c]) (depthFrom d (markOf t word)) [] := by
  unfold Splitter.step
  have htrack : (outside sts cur d word).track t c = outside sts cur (depthFrom d (markOf t word)) [] := by
    rw [Splitter.track, if_neg (by rw [halpha]; exact Bool.false_ne_true), closeWord_outside]
  simp only [h, htrack]
  rfl

theorem step_letter {c : CodePoint} (h : isBare c = true) (halpha : t.isAlpha c = true) (sts : List PyStr)
    (cur : PyStr) (d : Nat) (word : PyStr) :
    (outside sts cur d word).step t c = outside sts (cur ++ [c]) d (word ++ [c]) := by
  unfold Splitter.step
  obtain ⟨hsingle, hdouble, hsemi⟩ := of_isBare h
  have htrack : (outside sts cur d word).track t c = outside sts cur d (word ++ [c]) := if_pos halpha
  have hcut : ¬ (c = cp ';' ∧ d = 0) := fun hc => hsemi hc.1
  simp only [toggle_outside hsingle hdouble, htrack]
  exact if_neg hcut

theorem step_bare {c : CodePoint} (h : isBare c = true) (halpha : t.isAlpha c = false) (sts : List PyStr)
    (cur : PyStr) (d : Nat) (word : PyStr) :
    (outside sts cur d word).step t c = outside sts (cur ++ [c]) (depthFrom d (markOf t word)) [] := by
  obtain ⟨hsingle, hdouble, hsemi⟩ := of_isBare h
  rw [step_of_outside t (toggle_outside hsingle hdouble sts cur d word) halpha, if_neg fun hc => hsemi hc.1]

theorem step_semicolon (sts : List PyStr) (cur : PyStr) (d : Nat) (word : PyStr) :
    (outside sts cur d word).step t (cp ';') =
      if depthFrom d (markOf t word) = 0 then outside (keep sts cur) [] 0 []
      else outside sts (cur ++ [cp ';']) (depthFrom d (markOf t word)) [] := by
  have htoggle := toggle_outside (c := cp ';') (by decide) (by decide) sts cur d word
  rw [step_of_outside t htoggle (t.isAlpha_ascii _ (by decide))]
  by_cases hzero : depthFrom d (markOf t word) = 0
  · rw [if_pos hzero, if_pos ⟨rfl, hzero⟩, hzero]
  · rw [if_neg hzero, if_neg fun h => hzero h.2]

theorem step_close (q : Quote) (sts : List PyStr) (cur : PyStr) (d : Nat) (word : PyStr) :
    (inside q sts cur d word).step t q.mark =
      outside sts (cur ++ [q.mark]) (depthFrom d (markOf t word)) [] := by
  obtain ⟨hascii, halpha, hsemi⟩ := q.mark_ascii
  rw [step_of_outside t (toggle_close q sts cur d word) ((t.isAlpha_ascii _ hascii).trans halpha),
    if_neg fun h => hsemi h.1]

/-! ## A stretch without semicolons -/

theorem doubled_cons (q : Quote) (c : CodePoint) (value : PyStr) :
    doubled q (c :: value) = (if c = q.mark then [c, c] else [c]) ++ doubled q value := List.flatMap_cons

/-- What is quoted is taken as it is, and ends the word before it. -/
theorem scan_quoted (q : Quote) (value : PyStr) (sts : List PyStr) (cur : PyStr) (d : Nat) (word : PyStr) :
    (doubled q value ++ [q.mark]).foldl (Splitter.step t) (inside q sts cur d word) =
      outside sts (cur ++ (doubled q value ++ [q.mark])) (depthFrom d (markOf t word)) [] := by
  induction value generalizing cur d word with
  | nil => exact step_close t q sts cur d word
  | cons c value ih =>
      rw [doubled_cons, List.append_assoc, List.foldl_append]
      by_cases hc : c = q.mark
      · -- closed and opened again, with the word read off in between
        subst hc
        rw [if_pos rfl, List.foldl_cons, List.foldl_cons, List.foldl_nil, step_close,
          step_of_inside t (toggle_open q _ _ _ _), ih, markOf_nil, depthFrom_nil]
        simp only [List.append_assoc, List.cons_append, List.nil_append]
      · rw [if_neg hc, List.foldl_cons, List.foldl_nil, step_of_inside t (toggle_inside hc _ _ _ _), ih]
        simp only [List.append_assoc, List.cons_append, List.nil_append]

/-- **A stretch is taken as it is, and its marks move the depth**, the last word's once it ends. -/
theorem scan_sql (sql : Sql) (sts : List PyStr) (cur : PyStr) (d : Nat) (word : PyStr) :
    ∃ d' word', sql.text.foldl (Splitter.step t) (outside sts cur d word) =
        outside sts (cur ++ sql.text) d' word' ∧
      depthFrom d' (markOf t word') = depthFrom d (marksFrom t word sql) := by
  induction sql generalizing cur d word with
  | nil => exact ⟨d, word, by rw [Sql.text, List.flatMap_nil, List.append_nil]; rfl, rfl⟩
  | cons p sql ih =>
      rw [text_cons, List.foldl_append, ← List.append_assoc]
      cases p with
      | bare c h =>
          rw [marksFrom, Piece.text, List.foldl_cons, List.foldl_nil]
          by_cases halpha : t.isAlpha c = true
          · -- a letter leaves the depth alone, and the word grows on both sides
            rw [if_pos halpha, step_letter t h halpha]
            exact ih _ _ _
          · rw [if_neg halpha, step_bare t h (Bool.not_eq_true _ ▸ halpha), depthFrom_append]
            exact ih _ _ _
      | quoted q value =>
          rw [marksFrom, depthFrom_append, Piece.text, List.foldl_cons,
            step_of_inside t (toggle_open q _ _ _ _), scan_quoted, List.append_assoc]
          exact ih _ _ _

/-! ## The whole text -/

/-- What a text is cut into, from the depth before it and what was taken since the last cut. -/
def cutFrom (d : Nat) (cur : PyStr) : List Sql → List PyStr
  | [] => keep [] cur
  | [sql] => keep [] (cur ++ sql.text)
  | sql :: next :: rest =>
      let d' := depthFrom d (sql.marks t)
      if d' = 0 then keep [] (cur ++ sql.text) ++ cutFrom 0 [] (next :: rest)
      else cutFrom d' (cur ++ sql.text ++ [cp ';']) (next :: rest)

theorem keep_append (sts : List PyStr) (cur : PyStr) : keep sts cur = sts ++ keep [] cur := by
  unfold keep
  by_cases hempty : strip cur = []
  · simp [hempty]
  · simp [hempty]

/-- The scanner cuts as `cutFrom` does. -/
theorem scan_segments (segs : List Sql) (sts : List PyStr) (cur : PyStr) (d : Nat) :
    ((segmentsText segs).foldl (Splitter.step t) (outside sts cur d [])).finish =
      sts ++ cutFrom t d cur segs := by
  induction segs generalizing sts cur d with
  | nil => exact keep_append sts cur
  | cons sql rest ih =>
      obtain ⟨d', word, hscan, hmarks⟩ := scan_sql t sql sts cur d []
      cases rest with
      | nil =>
          -- the word at the very end is never read off, and nothing depends on it
          rw [segmentsText_singleton, hscan]
          exact keep_append sts _
      | cons next rest =>
          rw [segmentsText_cons, List.foldl_append, hscan, List.foldl_cons, step_semicolon, hmarks, cutFrom]
          by_cases hzero : depthFrom d (sql.marks t) = 0
          · have hzero' : depthFrom d (marksFrom t [] sql) = 0 := hzero
            rw [if_pos hzero', ih, keep_append, List.append_assoc]
            exact congrArg _ (if_pos hzero).symm
          · have hzero' : ¬ depthFrom d (marksFrom t [] sql) = 0 := hzero
            rw [if_neg hzero', ih]
            exact congrArg _ (if_neg hzero).symm

/-! ## When the cuts are the separators -/

/-- Stripping takes spaces only. -/
theorem count_strip {c : CodePoint} (hc : isSpace c = false) (s : PyStr) : (strip s).count c = s.count c := by
  have hdrop : ∀ s : PyStr, (s.dropWhile isSpace).count c = s.count c := fun s => by
    induction s with
    | nil => rfl
    | cons x s ih =>
        by_cases hx : isSpace x = true
        · rw [List.dropWhile_cons_of_pos hx, ih, List.count_cons_of_ne fun h => by
            rw [← h, hx] at hc
            exact Bool.noConfusion hc]
        · rw [List.dropWhile_cons_of_neg hx]
  rw [strip, List.count_reverse, hdrop, List.count_reverse, hdrop]

theorem keep_of_not_blank {cur : PyStr} (h : blank cur = false) : keep [] cur = [strip cur] := by
  have hne : strip cur ≠ [] := fun hnil => by
    rw [(strip_eq_nil_iff cur).mp hnil] at h
    exact Bool.noConfusion h
  exact if_neg hne

theorem count_semicolon_strip (s : PyStr) : (strip s).count (cp ';') = s.count (cp ';') :=
  count_strip (by decide) s

/-- What comes out next has the semicolons of what is kept. -/
theorem count_of_keep {cur f : PyStr} {more out : List PyStr} (hcur : blank cur = false)
    (h : keep [] cur ++ more = f :: out) : f.count (cp ';') = cur.count (cp ';') := by
  rw [keep_of_not_blank hcur, List.singleton_append] at h
  rw [← (List.cons.inj h).1, count_semicolon_strip]

/-- The next statement that comes out has in it what was taken since the last cut. -/
theorem count_head_cutFrom {d : Nat} {cur : PyStr} {segs : List Sql} {f : PyStr} {out : List PyStr}
    (hcur : blank cur = false) (h : cutFrom t d cur segs = f :: out) :
    cur.count (cp ';') ≤ f.count (cp ';') := by
  induction segs generalizing d cur with
  | nil =>
      rw [cutFrom, ← List.append_nil (keep [] cur)] at h
      exact (count_of_keep hcur h).ge
  | cons sql rest ih =>
      have hmore := not_blank_append (b := sql.text) hcur
      have hle : cur.count (cp ';') ≤ (cur ++ sql.text).count (cp ';') := by
        rw [List.count_append]
        exact Nat.le_add_right _ _
      cases rest with
      | nil =>
          rw [cutFrom, ← List.append_nil (keep [] (cur ++ sql.text))] at h
          exact hle.trans (count_of_keep hmore h).ge
      | cons next rest =>
          rw [cutFrom] at h
          by_cases hzero : depthFrom d (sql.marks t) = 0
          · rw [if_pos hzero] at h
            exact hle.trans (count_of_keep hmore h).ge
          · -- not cut here, so it goes on growing
            rw [if_neg hzero] at h
            have hrest := ih (not_blank_append hmore) h
            rw [List.count_append] at hrest
            omega

/--
**A statement comes out whole** if and only if the depth is above zero at each of its own
semicolons and zero at the separator behind it.
-/
theorem cutFrom_eq_iff {d : Nat} {cur : PyStr} {sql : Sql} {segs rest : List Sql} {out : List PyStr}
    (h : blank (cur ++ sql.text) = false) :
    cutFrom t d cur (sql :: segs ++ rest) = strip (cur ++ segmentsText (sql :: segs)) :: out ↔
      (∀ i, 0 < i → i < (sql :: segs).length →
        depthFrom d (((sql :: segs).take i).flatMap (Sql.marks t)) ≠ 0) ∧
      (rest ≠ [] → depthFrom d ((sql :: segs).flatMap (Sql.marks t)) = 0) ∧ cutFrom t 0 [] rest = out := by
  induction segs generalizing d cur sql with
  | nil =>
      have hown : ∀ i, 0 < i → i < [sql].length →
          depthFrom d (([sql].take i).flatMap (Sql.marks t)) ≠ 0 := fun i hpos hi => by
        rw [List.length_singleton] at hi
        omega
      rw [segmentsText_singleton, List.flatMap_singleton, and_iff_right hown]
      cases rest with
      | nil =>
          have hlast : cutFrom t d cur [sql] = keep [] (cur ++ sql.text) := rfl
          rw [List.append_nil, hlast, keep_of_not_blank h, List.cons.injEq, and_iff_right rfl,
            and_iff_right fun hne => absurd rfl hne]
          rfl
      | cons next rest =>
          rw [List.singleton_append, cutFrom]
          by_cases hzero : depthFrom d (sql.marks t) = 0
          · rw [if_pos hzero, keep_of_not_blank h, List.singleton_append, List.cons.injEq, and_iff_right rfl,
              and_iff_right fun _ => hzero]
          · -- the separator is taken into the statement
            rw [if_neg hzero]
            refine iff_of_false (fun hcut => ?_) fun hcut => hzero (hcut.1 (List.cons_ne_nil _ _))
            have hcount := count_head_cutFrom t (not_blank_append h) hcut
            rw [count_semicolon_strip, List.count_append, List.count_singleton_self] at hcount
            omega
  | cons next segs ih =>
      rw [List.cons_append, List.cons_append, cutFrom, segmentsText_cons]
      by_cases hzero : depthFrom d (sql.marks t) = 0
      · -- the cut comes early, at the statement's first semicolon
        rw [if_pos hzero, keep_of_not_blank h]
        refine iff_of_false (fun hcut => ?_) fun hcut => hcut.1 1 Nat.one_pos (by simp) (by simpa using hzero)
        have hcount := congrArg (List.count (cp ';')) (List.cons.inj hcut).1
        rw [count_semicolon_strip, count_semicolon_strip] at hcount
        have hwhole : (cur ++ (sql.text ++ cp ';' :: segmentsText (next :: segs))).count (cp ';') =
            (cur ++ sql.text).count (cp ';') + ((segmentsText (next :: segs)).count (cp ';') + 1) := by
          rw [← List.append_assoc, List.count_append, List.count_cons_self]
        omega
      · have hnext : cur ++ (sql.text ++ cp ';' :: segmentsText (next :: segs)) =
            cur ++ sql.text ++ [cp ';'] ++ segmentsText (next :: segs) := by
          simp only [List.append_assoc, List.singleton_append]
        have hdepth : ∀ segs : List Sql, depthFrom d ((sql :: segs).flatMap (Sql.marks t)) =
            depthFrom (depthFrom d (sql.marks t)) (segs.flatMap (Sql.marks t)) := fun segs => by
          rw [List.flatMap_cons, depthFrom_append]
        have hblank : blank (cur ++ sql.text ++ [cp ';'] ++ next.text) = false :=
          not_blank_append (not_blank_append h)
        rw [if_neg hzero, hnext, ← List.cons_append, hdepth]
        refine (ih hblank).trans ?_
        refine and_congr_left fun _ => ?_
        -- the first of its semicolons is passed, the others are those of the rest
        constructor
        · intro hown i hpos hi
          cases i with
          | zero => exact absurd hpos (Nat.lt_irrefl 0)
          | succ i =>
              rw [List.take_succ_cons, hdepth]
              cases i with
              | zero => exact hzero
              | succ i => exact hown (i + 1) (Nat.succ_pos i) (Nat.lt_of_succ_lt_succ hi)
        · intro hown i hpos hi
          have hi' := hown (i + 1) (Nat.succ_pos i) (Nat.succ_lt_succ hi)
          rw [List.take_succ_cons, hdepth] at hi'
          exact hi'

/--
**The splitter is exact** on a list of statements if and only if each of its triggers opens
more than it closes up to each of its semicolons, read from some place before it, and no
statement with another behind it does so up to its end.
-/
theorem split_exact_iff (stmts : List Statement) :
    splitSqlStatements t (join stmts) = stmts.map (fun s => strip s.text) ↔
      (∀ s ∈ stmts, s.KeepsTogether t) ∧ ∀ s ∈ stmts.dropLast, Settled (s.marks t) := by
  rw [join_eq]
  refine Iff.trans (Eq.congr_left (scan_segments t _ [] [] 0)) ?_
  rw [List.nil_append]
  -- the first statement comes out whole or the lists differ in their heads
  induction stmts with
  | nil => exact iff_of_true rfl ⟨fun _ h => absurd h List.not_mem_nil, fun _ h => absurd h List.not_mem_nil⟩
  | cons s rest ih =>
      obtain ⟨sql, segs, hsegs, hblank⟩ := s.segments_cons
      have htext : s.text = [] ++ segmentsText (sql :: segs) := by
        rw [← hsegs]
        rfl
      rw [List.flatMap_cons, hsegs, List.map_cons, htext]
      refine (cutFrom_eq_iff t hblank).trans ?_
      rw [ih, ← hsegs]
      have hown : (∀ i, 0 < i → i < s.segments.length →
          depthFrom 0 ((s.segments.take i).flatMap (Sql.marks t)) ≠ 0) ↔ s.KeepsTogether t :=
        forall₃_congr fun _ _ _ => not_congr depth_eq_zero_iff
      have hend : depthFrom 0 (s.segments.flatMap (Sql.marks t)) = 0 ↔ Settled (s.marks t) := depth_eq_zero_iff
      rw [hown, hend]
      cases rest with
      | nil => simp
      | cons next rest =>
          have hrest := flatMap_segments_ne_nil next rest
          rw [List.dropLast_cons_of_ne_nil (List.cons_ne_nil _ _)]
          constructor
          · rintro ⟨hs, hsettled, hkeep, hends⟩
            exact ⟨List.forall_mem_cons.mpr ⟨hs, hkeep⟩, List.forall_mem_cons.mpr ⟨hsettled hrest, hends⟩⟩
          · rintro ⟨hkeep, hends⟩
            obtain ⟨hs, hkeep⟩ := List.forall_mem_cons.mp hkeep
            obtain ⟨hsettled, hends⟩ := List.forall_mem_cons.mp hends
            exact ⟨hs, fun _ => hsettled, hkeep, hends⟩

/-! ## The two ways to miss -/

def addColumn : Statement :=
  .plain (bareText (py "alter table t add begin_at text") (by decide +kernel)) (by decide +kernel)

def dropTable : Statement := .plain (bareText (py "drop table u") (by decide +kernel)) (by decide +kernel)

/-- A trigger with a `CASE` in the first of the two statements of its body. -/
def wrapTrigger : Trigger where
  header := bareText (py "create trigger r after update on t ") (by decide +kernel)
  opening := ⟨py "begin", by decide +kernel⟩
  first := bareText (py " update t set n = case when n > 9 then 0 else n end") (by decide +kernel)
  more := [bareText (py " delete from u") (by decide +kernel)]
  gap := bareText (py " ") (by decide +kernel)
  closing := ⟨py "end", by decide +kernel⟩
  trailing := []
  header_apart := by decide +kernel
  first_apart := by decide +kernel
  gap_apart := by decide +kernel
  trailing_apart := by decide +kernel

/--
Behind a column called `begin_at` the next statement is not cut off, and a trigger is cut
behind the `END` of a `CASE`.
-/
theorem split_not_exact :
    splitSqlStatements asciiLetters (join [addColumn, dropTable]) =
        [py "alter table t add begin_at text;drop table u"] ∧
      splitSqlStatements asciiLetters (join [.trigger wrapTrigger]) =
        [py "create trigger r after update on t begin update t set n = case when n > 9 then 0 else n end",
          py "delete from u", py "end"] ∧
      ¬ ∀ (t : LetterTable) (stmts : List Statement),
        splitSqlStatements t (join stmts) = stmts.map fun s => strip s.text := by
  have hmerged : splitSqlStatements asciiLetters (join [addColumn, dropTable]) =
      [py "alter table t add begin_at text;drop table u"] := by decide +kernel
  refine ⟨hmerged, by decide +kernel, fun hexact => ?_⟩
  -- one statement came out, and two went in
  have htwo := hexact asciiLetters [addColumn, dropTable]
  rw [hmerged] at htwo
  exact Nat.noConfusion (Nat.succ.inj (congrArg List.length htwo))

end Katherine.Local.Migrations
