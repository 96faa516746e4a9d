import Katherine.Lib.Nesting
import Katherine.Lib.Text

/-!
# SQL statements as text

A stretch of SQL is a list of pieces: characters outside quotes, none of them a semicolon,
and quoted texts, in which anything may stand. A statement is such a stretch, or a trigger,
which has a semicolon behind each statement of its body; between its semicolons lie its
`segments`.

Each run of letters outside quotes that reads `BEGIN` or `END` is a mark. For a reader of SQL
these are the keywords; but `begin_at` and `week_end` have such runs in them too, and not
every `END` is that of a body. `marks_first` and `marks_last` say which marks a trigger has
of its own.
-/

namespace Katherine.Local.Migrations

open Py Nesting

/-! ## Letters -/

def asciiAlpha (c : CodePoint) : Bool :=
  (decide (65 ≤ c.val) && decide (c.val ≤ 90)) || (decide (97 ≤ c.val) && decide (c.val ≤ 122))

def asciiUpper (c : CodePoint) : CodePoint :=
  if 97 ≤ c.val ∧ c.val ≤ 122 then ⟨c.val - 32, by omega⟩ else c

/--
`str.isalpha` and `str.upper` of one code point. Beyond ASCII they depend on the Unicode
version of the interpreter, and one letter can have several in upper case.
-/
structure LetterTable where
  isAlpha : CodePoint → Bool
  upper : CodePoint → PyStr
  isAlpha_ascii : ∀ c, c.val < 128 → isAlpha c = asciiAlpha c
  upper_ascii : ∀ c, c.val < 128 → upper c = [asciiUpper c]

/-- The table that knows no letters beyond ASCII. -/
def asciiLetters : LetterTable where
  isAlpha := asciiAlpha
  upper c := [asciiUpper c]
  isAlpha_ascii _ _ := rfl
  upper_ascii _ _ := rfl

/-- `word.upper()`. -/
def upperText (t : LetterTable) (word : PyStr) : PyStr := word.flatMap t.upper

theorem ascii_of_alpha {c : CodePoint} (h : asciiAlpha c = true) : c.val < 128 := by
  simp only [asciiAlpha, Bool.or_eq_true, Bool.and_eq_true, decide_eq_true_eq] at h
  omega

theorem not_isSpace_of_alpha {c : CodePoint} (h : asciiAlpha c = true) : isSpace c = false := by
  simp only [asciiAlpha, Bool.or_eq_true, Bool.and_eq_true, decide_eq_true_eq] at h
  simp only [isSpace, List.mem_cons, List.not_mem_nil, or_false, Bool.or_eq_false_iff, Bool.and_eq_false_iff,
    decide_eq_false_iff_not]
  omega

theorem asciiAlpha_of_upper {c : CodePoint} (h : asciiAlpha (asciiUpper c) = true) : asciiAlpha c = true := by
  unfold asciiUpper at h
  split at h
  · rename_i hlower
    simp only [asciiAlpha, Bool.or_eq_true, Bool.and_eq_true, decide_eq_true_eq]
    exact .inr hlower
  · exact h

/-! ## Stretches -/

/-- The two ways to quote: a literal, or an identifier. -/
inductive Quote
  | single
  | double
deriving DecidableEq

def Quote.mark : Quote → CodePoint
  | .single => cp '\x27'
  | .double => cp '"'

/-- A character that may stand outside quotes and separates no statements. -/
def isBare (c : CodePoint) : Bool :=
  decide (c ≠ Quote.single.mark) && decide (c ≠ Quote.double.mark) && decide (c ≠ cp ';')

theorem of_isBare {c : CodePoint} (h : isBare c = true) : c ≠ cp '\x27' ∧ c ≠ cp '"' ∧ c ≠ cp ';' := by
  simp only [isBare, Bool.and_eq_true, decide_eq_true_eq] at h
  exact ⟨h.1.1, h.1.2, h.2⟩

theorem isBare_of_alpha {c : CodePoint} (h : asciiAlpha c = true) : isBare c = true := by
  have hne : ∀ k : CodePoint, asciiAlpha k = false → c ≠ k := fun k hk hck => by
    rw [hck, hk] at h
    exact Bool.noConfusion h
  simp only [isBare, Bool.and_eq_true, decide_eq_true_eq]
  exact ⟨⟨hne _ (by decide), hne _ (by decide)⟩, hne _ (by decide)⟩

/-- A character outside quotes, or something quoted, of any content. -/
inductive Piece
  | bare (c : CodePoint) (h : isBare c = true)
  | quoted (q : Quote) (value : PyStr)

/-- Between its marks a quoted text has its own mark twice. -/
def doubled (q : Quote) (value : PyStr) : PyStr :=
  value.flatMap fun c => if c = q.mark then [c, c] else [c]

def Piece.text : Piece → PyStr
  | .bare c _ => [c]
  | .quoted q value => q.mark :: (doubled q value ++ [q.mark])

/-- A stretch of SQL without a semicolon outside quotes. -/
abbrev Sql := List Piece

def Sql.text (sql : Sql) : PyStr := sql.flatMap Piece.text

def bareText : (s : PyStr) → s.all isBare = true → Sql
  | [], _ => []
  | c :: s, h =>
      have h : isBare c = true ∧ s.all isBare = true := by rwa [List.all_cons, Bool.and_eq_true] at h
      .bare c h.1 :: bareText s h.2

theorem text_cons (p : Piece) (sql : Sql) : Sql.text (p :: sql) = p.text ++ Sql.text sql := List.flatMap_cons

theorem text_append (a b : Sql) : Sql.text (a ++ b) = a.text ++ b.text := List.flatMap_append

theorem text_bareText (s : PyStr) (h : s.all isBare = true) : (bareText s h).text = s := by
  induction s with
  | nil => rfl
  | cons c s ih =>
      rw [bareText, text_cons, ih]
      rfl

/-! ## Keywords -/

def keywordName : Mark → PyStr
  | .opening => py "BEGIN"
  | .closing => py "END"

/-- A keyword, in any mixture of upper and lower case. -/
structure Keyword (m : Mark) where
  word : PyStr
  spells : word.map asciiUpper = keywordName m

theorem Keyword.letters {m : Mark} (k : Keyword m) : k.word.all asciiAlpha = true := by
  have hname : (keywordName m).all asciiAlpha = true := by cases m <;> decide +kernel
  rw [← k.spells, List.all_map, List.all_eq_true] at hname
  exact List.all_eq_true.mpr fun c hc => asciiAlpha_of_upper (hname c hc)

/-- The keyword as SQL. -/
def Keyword.sql {m : Mark} (k : Keyword m) : Sql :=
  bareText k.word (List.all_eq_true.mpr fun c hc => isBare_of_alpha (List.all_eq_true.mp k.letters c hc))

theorem Keyword.not_blank {m : Mark} (k : Keyword m) : blank k.sql.text = false := by
  rw [Keyword.sql, text_bareText]
  have hletters := k.letters
  cases hword : k.word with
  | nil =>
      have hname : [] = keywordName m := by rw [← k.spells, hword, List.map_nil]
      cases m <;> exact absurd hname (by decide)
  | cons c word =>
      rw [hword, List.all_cons, Bool.and_eq_true] at hletters
      rw [blank, List.all_cons, not_isSpace_of_alpha hletters.1, Bool.false_and]

/-- What identifiers and keywords are made of. -/
def isIdent (c : CodePoint) : Bool :=
  decide (128 ≤ c.val) || asciiAlpha c || isDigit c || decide (c = cp '_') || decide (c = cp '$')

def Piece.isIdent : Piece → Bool
  | .bare c _ => Migrations.isIdent c
  | .quoted _ _ => false

/-- No identifier runs over the end of this stretch. -/
def Sql.endsApart (sql : Sql) : Bool := !sql.getLast?.any Piece.isIdent

/-- No identifier runs over its beginning. -/
def Sql.beginsApart (sql : Sql) : Bool := !sql.head?.any Piece.isIdent

/-! ## Statements -/

/--
`header BEGIN first; …; gap END trailing`, such as a `CREATE TRIGGER`. The stretches are
arbitrary, but what stands beside `BEGIN` or `END` does not join the word.
-/
structure Trigger where
  header : Sql
  opening : Keyword .opening
  first : Sql
  more : List Sql
  gap : Sql
  closing : Keyword .closing
  trailing : Sql
  header_apart : header.endsApart = true
  first_apart : first.beginsApart = true
  gap_apart : gap.endsApart = true
  trailing_apart : trailing.beginsApart = true

def Trigger.firstSegment (g : Trigger) : Sql := g.header ++ g.opening.sql ++ g.first

def Trigger.lastSegment (g : Trigger) : Sql := g.gap ++ g.closing.sql ++ g.trailing

/-- A plain statement, which is not blank, or a trigger. -/
inductive Statement
  | plain (sql : Sql) (h : blank sql.text = false)
  | trigger (g : Trigger)

/-- A statement between its own semicolons. -/
def Statement.segments : Statement → List Sql
  | .plain sql _ => [sql]
  | .trigger g => g.firstSegment :: (g.more ++ [g.lastSegment])

/-- The text of these segments. -/
def segmentsText (segs : List Sql) : PyStr := [cp ';'].intercalate (segs.map Sql.text)

def Statement.text (s : Statement) : PyStr := segmentsText s.segments

/-- `";".join(…)`. -/
def join (stmts : List Statement) : PyStr := [cp ';'].intercalate (stmts.map Statement.text)

theorem not_blank_append {a b : PyStr} (h : blank a = false) : blank (a ++ b) = false := by
  rw [blank, List.all_append, Bool.and_eq_false_iff]
  exact .inl h

/-- A statement starts with something to keep. -/
theorem Statement.segments_cons (s : Statement) :
    ∃ sql segs, s.segments = sql :: segs ∧ blank sql.text = false := by
  cases s with
  | plain sql h => exact ⟨sql, [], rfl, h⟩
  | trigger g =>
      refine ⟨g.firstSegment, g.more ++ [g.lastSegment], rfl, ?_⟩
      rw [Trigger.firstSegment, text_append, text_append]
      refine not_blank_append ?_
      rw [blank, List.all_append, Bool.and_eq_false_iff]
      exact .inr g.opening.not_blank

theorem Statement.segments_ne_nil (s : Statement) : s.segments ≠ [] := by
  obtain ⟨sql, segs, hsegs, -⟩ := s.segments_cons
  rw [hsegs]
  exact List.cons_ne_nil _ _

theorem segmentsText_singleton (sql : Sql) : segmentsText [sql] = sql.text := List.intercalate_singleton

theorem segmentsText_cons (sql next : Sql) (segs : List Sql) :
    segmentsText (sql :: next :: segs) = sql.text ++ cp ';' :: segmentsText (next :: segs) := by
  rw [segmentsText, List.map_cons, List.map_cons, List.intercalate_cons_cons, List.append_assoc]
  rfl

theorem segmentsText_append {segs rest : List Sql} (hsegs : segs ≠ []) (hrest : rest ≠ []) :
    segmentsText (segs ++ rest) = segmentsText segs ++ cp ';' :: segmentsText rest := by
  induction segs with
  | nil => exact absurd rfl hsegs
  | cons sql segs ih =>
      cases segs with
      | nil =>
          obtain ⟨next, rest, rfl⟩ := List.exists_cons_of_ne_nil hrest
          rw [List.singleton_append, segmentsText_cons, segmentsText_singleton]
      | cons next segs =>
          rw [List.cons_append, List.cons_append, segmentsText_cons, ← List.cons_append,
            ih (List.cons_ne_nil _ _), segmentsText_cons, List.append_assoc, List.cons_append]

theorem flatMap_segments_ne_nil (s : Statement) (stmts : List Statement) :
    (s :: stmts).flatMap Statement.segments ≠ [] := fun h =>
  s.segments_ne_nil (List.append_eq_nil_iff.mp h).1

/-- In the joined text a semicolon inside a statement looks like one between two. -/
theorem join_eq (stmts : List Statement) : join stmts = segmentsText (stmts.flatMap Statement.segments) := by
  induction stmts with
  | nil => rfl
  | cons s rest ih =>
      cases rest with
      | nil =>
          -- one statement has no separator
          rw [List.flatMap_singleton]
          exact List.intercalate_singleton
      | cons next rest =>
          rw [List.flatMap_cons, segmentsText_append s.segments_ne_nil (flatMap_segments_ne_nil next rest), ← ih,
            join, List.map_cons, List.map_cons, List.intercalate_cons_cons, List.append_assoc]
          rfl

/-! ## Marks -/

variable (t : LetterTable)

/-- The mark a run of letters makes. -/
def markOf (word : PyStr) : List Mark :=
  if upperText t word = py "BEGIN" then [.opening]
  else if upperText t word = py "END" then [.closing]
  else []

/-- The marks of what follows `word`, the letters read last. -/
def marksFrom (word : PyStr) : Sql → List Mark
  | [] => markOf t word
  | .bare c _ :: sql =>
      if t.isAlpha c then marksFrom (word ++ [c]) sql else markOf t word ++ marksFrom [] sql
  -- nothing of what is quoted is read
  | .quoted _ _ :: sql => markOf t word ++ marksFrom [] sql

/-- A mark for each run of letters outside quotes that reads `BEGIN` or `END` in upper case. -/
def Sql.marks (sql : Sql) : List Mark := marksFrom t [] sql

def Statement.marks (s : Statement) : List Mark := s.segments.flatMap (Sql.marks t)

/-- Up to each semicolon in the statement, some stretch that ends there opens more than it closes. -/
def Statement.KeepsTogether (s : Statement) : Prop :=
  ∀ i, 0 < i → i < s.segments.length → ¬ Settled ((s.segments.take i).flatMap (Sql.marks t))

@[simp] theorem markOf_nil : markOf t [] = [] := by
  have hempty : upperText t [] = [] := rfl
  rw [markOf, if_neg (by rw [hempty]; decide), if_neg (by rw [hempty]; decide)]

theorem isIdent_of_isAlpha {c : CodePoint} (h : t.isAlpha c = true) : isIdent c = true := by
  by_cases hascii : c.val < 128
  · rw [t.isAlpha_ascii c hascii] at h
    simp only [isIdent, h, Bool.or_true, Bool.true_or]
  · simp only [isIdent, Nat.le_of_not_lt hascii, decide_true, Bool.true_or]

/-- A piece outside every identifier ends the word before it, and begins none. -/
theorem marksFrom_apart {p : Piece} (h : p.isIdent = false) (word : PyStr) (sql : Sql) :
    marksFrom t word (p :: sql) = markOf t word ++ sql.marks t := by
  cases p with
  | bare c hc =>
      have hident : isIdent c = false := h
      have halpha : ¬ t.isAlpha c = true := fun h => by
        rw [isIdent_of_isAlpha t h] at hident
        exact Bool.noConfusion hident
      rw [marksFrom, if_neg halpha]
      rfl
  | quoted q value => rfl

theorem marks_apart {p : Piece} (h : p.isIdent = false) (sql : Sql) : Sql.marks t (p :: sql) = Sql.marks t sql := by
  rw [Sql.marks, marksFrom_apart t h, markOf_nil, List.nil_append]

theorem marks_nil : Sql.marks t [] = [] := markOf_nil t

/-- A stretch that no identifier runs into has its own marks. -/
theorem marksFrom_append (word : PyStr) (a : Sql) {b : Sql} (h : b.beginsApart = true) :
    marksFrom t word (a ++ b) = marksFrom t word a ++ b.marks t := by
  induction a generalizing word with
  | nil =>
      cases b with
      | nil =>
          rw [marks_nil, List.append_nil, List.append_nil]
      | cons p b =>
          have hp : p.isIdent = false := by simpa [Sql.beginsApart] using h
          rw [List.nil_append, marksFrom_apart t hp, marks_apart t hp]
          rfl
  | cons p a ih =>
      cases p with
      | bare c hc =>
          rw [List.cons_append, marksFrom, marksFrom]
          by_cases halpha : t.isAlpha c = true
          · rw [if_pos halpha, if_pos halpha, ih]
          · rw [if_neg halpha, if_neg halpha, ih, List.append_assoc]
      | quoted q value => rw [List.cons_append, marksFrom, marksFrom, ih, List.append_assoc]

theorem marks_append_of_endsApart {a : Sql} (b : Sql) (h : a.endsApart = true) :
    (a ++ b).marks t = a.marks t ++ b.marks t := by
  rcases List.eq_nil_or_concat a with rfl | ⟨a, p, rfl⟩
  · rw [marks_nil]
    rfl
  · have hp : p.isIdent = false := by simpa [Sql.endsApart] using h
    -- the last piece belongs to no word, so what begins with it begins apart
    have hsplit : ∀ b : Sql, Sql.marks t (a ++ p :: b) = Sql.marks t a ++ Sql.marks t b := fun b => by
      have hapart : Sql.beginsApart (p :: b) = true := by simpa [Sql.beginsApart] using hp
      rw [Sql.marks, marksFrom_append t [] a hapart, marks_apart t hp]
      rfl
    rw [List.concat_eq_append, List.append_assoc, List.singleton_append, hsplit, hsplit, marks_nil,
      List.append_nil]

theorem marksFrom_bareText (word s : PyStr) (h : s.all isBare = true) (hletters : s.all asciiAlpha = true) :
    marksFrom t word (bareText s h) = markOf t (word ++ s) := by
  induction s generalizing word with
  | nil =>
      rw [List.append_nil]
      rfl
  | cons c s ih =>
      rw [List.all_cons, Bool.and_eq_true] at hletters
      have halpha := (t.isAlpha_ascii c (ascii_of_alpha hletters.1)).trans hletters.1
      rw [bareText, marksFrom, if_pos halpha, ih _ _ hletters.2, List.append_assoc, List.singleton_append]

/-- A keyword makes its mark, however it is written. -/
theorem Keyword.marks {m : Mark} (k : Keyword m) : k.sql.marks t = [m] := by
  -- its letters are ASCII, where every table agrees
  have hupper : upperText t k.word = keywordName m := by
    refine Eq.trans ?_ k.spells
    rw [upperText, List.map_eq_flatMap]
    exact List.flatMap_congr fun c hc => t.upper_ascii c (ascii_of_alpha (List.all_eq_true.mp k.letters c hc))
  rw [Sql.marks, Keyword.sql, marksFrom_bareText t [] _ _ k.letters, List.nil_append, markOf, hupper]
  cases m with
  | opening => exact if_pos rfl
  | closing => exact (if_neg (by decide)).trans (if_pos rfl)

/-! ## The marks of a trigger -/

theorem Trigger.marks_first (g : Trigger) :
    g.firstSegment.marks t = g.header.marks t ++ .opening :: g.first.marks t := by
  rw [Trigger.firstSegment, Sql.marks, marksFrom_append t [] _ g.first_apart, ← Sql.marks,
    marks_append_of_endsApart t _ g.header_apart, g.opening.marks, List.append_assoc]
  rfl

theorem Trigger.marks_last (g : Trigger) :
    g.lastSegment.marks t = g.gap.marks t ++ .closing :: g.trailing.marks t := by
  rw [Trigger.lastSegment, Sql.marks, marksFrom_append t [] _ g.trailing_apart, ← Sql.marks,
    marks_append_of_endsApart t _ g.gap_apart, g.closing.marks, List.append_assoc]
  rfl

theorem Trigger.length_segments (g : Trigger) : (Statement.trigger g).segments.length = g.more.length + 2 := by
  rw [Statement.segments, List.length_cons, List.length_append, List.length_singleton]

theorem Trigger.take_segments (g : Trigger) {i : Nat} (h : i ≤ g.more.length) :
    (Statement.trigger g).segments.take (i + 1) = g.firstSegment :: g.more.take i := by
  rw [Statement.segments, List.take_succ_cons, List.take_append_of_le_length h]

/-- The `END` of a `CASE` in the first statement of a body is as good as that of the body. -/
theorem Trigger.not_keepsTogether {g : Trigger} (hheader : g.header.marks t = [])
    (hfirst : g.first.marks t = [.closing]) : ¬ (Statement.trigger g).KeepsTogether t := by
  intro h
  refine h 1 Nat.one_pos (by rw [g.length_segments]; omega) ?_
  rw [g.take_segments (Nat.zero_le _), List.take_zero, List.flatMap_singleton, g.marks_first, hheader, hfirst]
  decide

/-- A trigger with no marks but its own stays together, and ends where it ends. -/
theorem Trigger.quiet {g : Trigger} (hheader : g.header.marks t = []) (hfirst : g.first.marks t = [])
    (hmore : ∀ sql ∈ g.more, sql.marks t = []) (hgap : g.gap.marks t = []) (htrailing : g.trailing.marks t = []) :
    (Statement.trigger g).KeepsTogether t ∧ Settled ((Statement.trigger g).marks t) := by
  have hfirst : g.firstSegment.marks t = [.opening] := by
    rw [g.marks_first, hheader, hfirst, List.nil_append]
  have hlast : g.lastSegment.marks t = [.closing] := by
    rw [g.marks_last, hgap, htrailing, List.nil_append]
  constructor
  · intro i hpos hi
    obtain ⟨i, rfl⟩ := Nat.exists_eq_succ_of_ne_zero (Nat.pos_iff_ne_zero.mp hpos)
    rw [g.length_segments] at hi
    have hbody : (g.more.take i).flatMap (Sql.marks t) = [] :=
      List.flatMap_eq_nil_iff.mpr fun sql hsql => hmore sql (List.mem_of_mem_take hsql)
    rw [g.take_segments (by omega), List.flatMap_cons, hfirst, hbody]
    decide
  · have hbody : g.more.flatMap (Sql.marks t) = [] := List.flatMap_eq_nil_iff.mpr hmore
    rw [Statement.marks, Statement.segments, List.flatMap_cons, List.flatMap_append, List.flatMap_singleton,
      hfirst, hbody, hlast]
    decide

end Katherine.Local.Migrations
