import Katherine.Lib.Text

/-!
# Timestamps

`datetime.fromisoformat` and `datetime.isoformat`, as CPython 3.12 has them. The reader
takes most of ISO 8601: dates by month or by week, with or without dashes, any one
character between date and time, times with or without colons, fractions of any length
(digits past the sixth are dropped), `Z` or a numeric offset. Its habits are kept because
they decide what is accepted. The fraction may follow any field, and a third colon starts
one too. It counts as microseconds wherever it stands. A time that is followed by an offset
may end in one stray ASCII character. An offset of less than a second is UTC. A text ends at
its first NUL.

A `DateTime` is a day of the calendar and a number of microseconds into it.
-/

namespace Py

/-! ## The calendar -/

def isLeap (year : Nat) : Bool :=
  decide (year % 4 = 0) && (decide (year % 100 ≠ 0) || decide (year % 400 = 0))

def daysInMonth (year month : Nat) : Nat :=
  if month = 2 then (if isLeap year then 29 else 28)
  else if month ∈ [4, 6, 9, 11] then 30
  else 31

theorem daysInMonth_bound (year month : Nat) :
    28 ≤ daysInMonth year month ∧ daysInMonth year month ≤ 31 := by
  unfold daysInMonth
  split
  · split <;> omega
  · split <;> omega

/-- A day between the years 1 and 9999. -/
structure Date where
  year : Nat
  month : Nat
  day : Nat
  year_ok : 1 ≤ year ∧ year ≤ 9999
  month_ok : 1 ≤ month ∧ month ≤ 12
  day_ok : 1 ≤ day ∧ day ≤ daysInMonth year month
deriving DecidableEq

/-- `date(year, month, day)`. -/
def Date.ofParts (year month day : Nat) : Option Date :=
  if h : (1 ≤ year ∧ year ≤ 9999) ∧ (1 ≤ month ∧ month ≤ 12)
      ∧ 1 ≤ day ∧ day ≤ daysInMonth year month then
    some ⟨year, month, day, h.1, h.2.1, h.2.2⟩
  else none

/-- The next day, if there is one. -/
def Date.succ (d : Date) : Option Date :=
  if d.day < daysInMonth d.year d.month then Date.ofParts d.year d.month (d.day + 1)
  else if d.month < 12 then Date.ofParts d.year (d.month + 1) 1
  else Date.ofParts (d.year + 1) 1 1

/-- The day before, if there is one. -/
def Date.pred (d : Date) : Option Date :=
  if 1 < d.day then Date.ofParts d.year d.month (d.day - 1)
  else if 1 < d.month then Date.ofParts d.year (d.month - 1) (daysInMonth d.year (d.month - 1))
  else Date.ofParts (d.year - 1) 12 31

/-- `n` days later. -/
def Date.later : Nat → Date → Option Date
  | 0, d => some d
  | n + 1, d => d.succ.bind (Date.later n)

/-- `n` days earlier. -/
def Date.earlier : Nat → Date → Option Date
  | 0, d => some d
  | n + 1, d => d.pred.bind (Date.earlier n)

/-- `weekday(year, 1, 1)`: 0 is a Monday. -/
def firstWeekday (year : Nat) : Nat :=
  let y := year - 1
  (y + y / 4 - y / 100 + y / 400) % 7

/-- A year has a week 53 if it starts on a Thursday, or is a leap year that starts on a
Wednesday. -/
def hasWeek53 (year : Nat) : Bool :=
  decide (firstWeekday year = 3) || (decide (firstWeekday year = 2) && isLeap year)

/-- `date.fromisocalendar`. Week 1 is the one with the first Thursday. -/
def Date.ofWeek (year week day : Nat) : Option Date := do
  if !((decide (1 ≤ week) && decide (week ≤ 52)) || (decide (week = 53) && hasWeek53 year)) then none
  if !(decide (1 ≤ day) && decide (day ≤ 7)) then none
  let newYear ← Date.ofParts year 1 1
  let n := 7 * (week - 1) + (day - 1)
  let w := firstWeekday year
  if w ≤ 3 then
    if w ≤ n then newYear.later (n - w) else newYear.earlier (w - n)
  else newYear.later (n + (7 - w))

/-! ## Reading -/

/-- `parse_digits`: exactly `n` ASCII digits. -/
def readDigits (n : Nat) (s : PyStr) : Option (Nat × PyStr) :=
  if (s.take n).length = n ∧ (s.take n).all isDigit then some (natOfText (s.take n), s.drop n)
  else none

/-- The text starts with `c`. -/
def startsWith (c : Char) : PyStr → Bool
  | [] => false
  | x :: _ => decide (x = cp c)

/-- A C string ends here. -/
def atEnd : PyStr → Bool
  | [] => true
  | c :: _ => decide (c.val = 0)

/-- `_find_isoformat_datetime_separator`: how long the date is. -/
def separatorAt (s : PyStr) : Nat :=
  if s.length = 7 then 7
  else if startsWith '-' (s.drop 4) then
    if startsWith 'W' (s.drop 5) then
      if startsWith '-' (s.drop 8) then
        -- `YYYY-Www-##`: the second dash is taken for the separator
        if ((s.drop 10).head?.map isDigit).getD false then 8 else 10
      else 8
    else 10
  else if startsWith 'W' (s.drop 4) then
    let n := 7 + ((s.drop 7).takeWhile isDigit).length
    if n < 9 then n else if n % 2 = 0 then 7 else 8
  else 8

/-- `parse_isoformat_date`, on the characters of the date. -/
def readDate (s : PyStr) : Option Date := do
  let (year, s) ← readDigits 4 s
  let dashed := startsWith '-' s
  let s := if dashed then s.drop 1 else s
  if startsWith 'W' s then
    let (week, s) ← readDigits 2 (s.drop 1)
    if s = [] then Date.ofWeek year week 1
    else
      if dashed && !startsWith '-' s then none
      let (day, _) ← readDigits 1 (if dashed then s.drop 1 else s)
      Date.ofWeek year week day
  else
    let (month, s) ← readDigits 2 s
    if dashed && !startsWith '-' s then none
    let (day, _) ← readDigits 2 (if dashed then s.drop 1 else s)
    Date.ofParts year month day

/-- What follows the fields of a time. -/
inductive ClockRest
  /-- The text ends, perhaps with one character nobody looked at. -/
  | done (stray : Bool)
  | fraction (s : PyStr)

/-- One byte of UTF-8. -/
def isAscii (c : CodePoint) : Bool := decide (c.val < 128)

/-- At most `n` two-digit fields. The first character after the hour decides whether colons
separate them. -/
def readFields : Nat → Option Bool → PyStr → Option (List Nat × ClockRest)
  | 0, _, s => some ([], .fraction s)
  | n + 1, colons, s => do
      let (v, s) ← readDigits 2 s
      match s with
      | [] => some ([v], .done false)
      -- a longer character does not end where the field does
      | [c] => if isAscii c then some ([v], .done (!atEnd [c])) else none
      | c :: r =>
          let colons := colons.getD (decide (c = cp ':'))
          if colons && decide (c = cp ':') then
            let (vs, rest) ← readFields n (some colons) r
            some (v :: vs, rest)
          else if c = cp '.' ∨ c = cp ',' then some ([v], .fraction r)
          else if !colons then
            let (vs, rest) ← readFields n (some colons) (c :: r)
            some (v :: vs, rest)
          else none

/-- Microseconds: up to six digits, and digits past them ignored. The flag says that something
else follows. -/
def readFraction (s : PyStr) : Option (Nat × Bool) := do
  let n := min 6 s.length
  let (v, rest) ← readDigits n s
  some (v * 10 ^ (6 - n), !atEnd (rest.dropWhile isDigit))

/-- `parse_hh_mm_ss_ff`: hour, minute, second, microsecond, and whether something is left. -/
def readClock (s : PyStr) : Option ((Nat × Nat × Nat × Nat) × Bool) := do
  let (vs, rest) ← readFields 3 none s
  let (micro, left) ← match rest with
    | .done stray => some (0, stray)
    | .fraction s => readFraction s
  some ((vs.getD 0 0, vs.getD 1 0, vs.getD 2 0, micro), left)

/-- Microseconds in a second, and in a day. -/
def secondMicros : Nat := 1000000

def dayMicros : Nat := 86400 * secondMicros

/-- A point in time without a zone. -/
structure DateTime where
  date : Date
  micros : Nat
  micros_ok : micros < dayMicros
deriving DecidableEq

/-- The point `micros` into the day. -/
def DateTime.on (date : Date) (micros : Nat) : Option DateTime :=
  if h : micros < dayMicros then some ⟨date, micros, h⟩ else none

def isZoneChar (c : CodePoint) : Bool :=
  decide (c = cp '+') || decide (c = cp '-') || decide (c = cp 'Z')

/-- The fields of a clock, as microseconds. -/
def clockMicros (v : Nat × Nat × Nat × Nat) : Nat :=
  (v.1 * 3600 + v.2.1 * 60 + v.2.2.1) * secondMicros + v.2.2.2

/-- The offset, from its sign or `Z` on, in microseconds. -/
def readZone : PyStr → Option Int
  | [] => none
  | z :: s =>
      if z = cp 'Z' then (if atEnd s then some 0 else none)
      else do
        let (v, left) ← readClock s
        if left then none
        -- without a second to it the fraction is not looked at
        if clockMicros v < secondMicros then some 0
        else
        let offset : Int := clockMicros v
        -- `timezone` takes what is strictly between minus one day and one day
        if (dayMicros : Int) ≤ offset then none
        some (if z = cp '-' then -offset else offset)

/-- `parse_isoformat_time`: the microseconds into the day, and the offset if there is one. -/
def readTime (s : PyStr) : Option (Nat × Option Int) := do
  let t := s.takeWhile fun c => !isZoneChar c
  let zone := s.dropWhile fun c => !isZoneChar c
  let (v, left) ← readClock t
  let offset ← match zone with
    | [] => if left then none else some none
    | z => (readZone z).map some
  if !(decide (v.1 < 24) && decide (v.2.1 < 60) && decide (v.2.2.1 < 60)) then none
  some (clockMicros v, offset)

/-- What follows a date of `n` characters: nothing, or a separator and a time. -/
def readTail (s : PyStr) (n : Nat) : Option (Nat × Option Int) :=
  if s.length ≤ n then some (0, none) else readTime (s.drop (n + 1))

/-- `_sanitize_isoformat_str`: the first surrogate where a separator can be becomes a `T`. -/
def sanitizeIsoFormat (s : PyStr) : PyStr :=
  match [7, 8, 10].find? fun i => (s[i]?).any isSurrogate with
  | some i => s.set i (cp 'T')
  | none => s

/-- `datetime.fromisoformat`; `none` is a `ValueError`. -/
def fromIsoFormat (text : PyStr) : Option (DateTime × Option Int) := do
  if text.length < 7 then none
  let s := sanitizeIsoFormat text
  if !encodable s then none
  let date ← readDate (s.take (separatorAt s))
  let (micros, offset) ← readTail s (separatorAt s)
  let t ← DateTime.on date micros
  some (t, offset)

/-! ## Universal time -/

/-- `astimezone(timezone.utc).replace(tzinfo=None)`; `none` is an `OverflowError`. -/
def DateTime.toUtc (t : DateTime) (offset : Int) : Option DateTime :=
  let m : Int := t.micros - offset
  if m < 0 then t.date.pred.bind (DateTime.on · (m + dayMicros).toNat)
  else if (dayMicros : Int) ≤ m then t.date.succ.bind (DateTime.on · (m - dayMicros).toNat)
  else DateTime.on t.date m.toNat

/-! ## Writing -/

def pad2 (n : Nat) : PyStr := [digit (n / 10), digit n]

def pad3 (n : Nat) : PyStr := digit (n / 100) :: pad2 n

def Date.text (d : Date) : PyStr :=
  pad2 (d.year / 100) ++ pad2 d.year ++ [cp '-'] ++ pad2 d.month ++ [cp '-'] ++ pad2 d.day

/-- `HH:MM:SS` of a number of seconds. -/
def clockText (seconds : Nat) : PyStr :=
  pad2 (seconds / 3600) ++ [cp ':'] ++ pad2 (seconds / 60 % 60) ++ [cp ':'] ++ pad2 (seconds % 60)

def microText (micro : Nat) : PyStr := [cp '.'] ++ pad3 (micro / 1000) ++ pad3 micro

/-- `isoformat`. The fraction is left out where it is zero. -/
def DateTime.isoFormat (t : DateTime) : PyStr :=
  t.date.text ++ [cp 'T'] ++ clockText (t.micros / secondMicros)
    ++ (if t.micros % secondMicros = 0 then [] else microText (t.micros % secondMicros))

/-! ## What is written is read back -/

theorem readDigits_append {n : Nat} {ds : PyStr} (rest : PyStr) (hlen : ds.length = n)
    (hdigits : ds.all isDigit = true) : readDigits n (ds ++ rest) = some (natOfText ds, rest) := by
  subst hlen
  simp [readDigits, hdigits]

theorem digit_val (d : Nat) : (digit d).val = 48 + d % 10 := rfl

theorem natOfText_pad2 {n : Nat} (h : n < 100) : natOfText (pad2 n) = n := by
  simp only [pad2, natOfText, List.foldl_cons, List.foldl_nil, digit_val]
  omega

theorem readDigits_pad2 {n : Nat} (h : n < 100) (rest : PyStr) :
    readDigits 2 (pad2 n ++ rest) = some (n, rest) := by
  have hlen : (pad2 n).length = 2 := rfl
  rw [readDigits_append rest hlen (by simp [pad2]), natOfText_pad2 h]

theorem readDigits_year {n : Nat} (h : n < 10000) (rest : PyStr) :
    readDigits 4 (pad2 (n / 100) ++ (pad2 n ++ rest)) = some (n, rest) := by
  have hlen : (pad2 (n / 100) ++ pad2 n).length = 4 := rfl
  rw [← List.append_assoc, readDigits_append rest hlen (by simp [pad2])]
  simp only [pad2, natOfText, List.cons_append, List.nil_append, List.foldl_cons, List.foldl_nil,
    digit_val]
  congr 2
  omega

theorem readDigits_micro {n : Nat} (h : n < 1000000) :
    readDigits 6 (pad3 (n / 1000) ++ pad3 n) = some (n, []) := by
  have hlen : (pad3 (n / 1000) ++ pad3 n).length = 6 := rfl
  rw [← List.append_nil (pad3 (n / 1000) ++ pad3 n), readDigits_append [] hlen (by simp [pad3, pad2])]
  simp only [pad3, pad2, natOfText, List.cons_append, List.nil_append, List.foldl_cons,
    List.foldl_nil, digit_val]
  congr 2
  omega

theorem digit_not_zone (d : Nat) : isZoneChar (digit d) = false := by
  have hd : (digit d).val = 48 + d % 10 := rfl
  have hne : ∀ c : CodePoint, c.val < 48 ∨ 57 < c.val → digit d ≠ c := by
    intro c hc he
    rw [← he, hd] at hc
    omega
  simp [isZoneChar, hne (cp '+') (by decide), hne (cp '-') (by decide), hne (cp 'Z') (by decide)]

theorem Date.text_length (d : Date) : d.text.length = 10 := rfl

theorem Date.ofParts_self (d : Date) : Date.ofParts d.year d.month d.day = some d := by
  rw [Date.ofParts, dif_pos ⟨d.year_ok, d.month_ok, d.day_ok⟩]

theorem readDate_text (d : Date) : readDate d.text = some d := by
  have hm : d.month < 100 := by have := d.month_ok; omega
  have hd : d.day < 100 := by
    have := d.day_ok
    have := daysInMonth_bound d.year d.month
    omega
  have htext : d.text = pad2 (d.year / 100) ++ (pad2 d.year ++ (cp '-' :: (pad2 d.month
      ++ (cp '-' :: (pad2 d.day ++ []))))) := by
    simp [Date.text]
  have hw : startsWith 'W' (pad2 d.month ++ (cp '-' :: (pad2 d.day ++ []))) = false := by
    have : digit (d.month / 10) ≠ cp 'W' := by
      intro h
      have h2 := congrArg Fin.val h
      rw [digit_val, show (cp 'W').val = 87 from rfl] at h2
      omega
    simp [startsWith, pad2, this]
  have hdash : ∀ s : PyStr, startsWith '-' (cp '-' :: s) = true := by
    intro s
    simp [startsWith]
  rw [htext, readDate]
  simp only [readDigits_year (show d.year < 10000 by have := d.year_ok; omega), hdash, if_true,
    Option.bind_eq_bind, Option.bind_some, List.drop_succ_cons, List.drop_zero, hw,
    readDigits_pad2 hm, readDigits_pad2 hd, Bool.not_true, Bool.and_false, Bool.false_eq_true,
    if_false]
  exact d.ofParts_self

/-- A field before a colon. -/
theorem readFields_colon {n v : Nat} {colons : Option Bool} {r : PyStr} (hv : v < 100)
    (hcolons : colons ≠ some false) (hr : r ≠ []) :
    readFields (n + 1) colons (pad2 v ++ (cp ':' :: r))
      = (readFields n (some true) r).map fun p => (v :: p.1, p.2) := by
  obtain ⟨x, r, rfl⟩ := List.exists_cons_of_ne_nil hr
  have htrue : colons.getD true = true := by
    cases colons with
    | none => rfl
    | some b =>
        cases b with
        | false => exact absurd rfl hcolons
        | true => rfl
  simp only [readFields, readDigits_pad2 hv, Option.bind_eq_bind, Option.bind_some, decide_true,
    htrue, Bool.and_true, if_true]
  cases readFields n (some true) (x :: r) with
  | none => rfl
  | some p => rfl

/-- The last field, before the fraction. -/
theorem readFields_dot {v : Nat} {r : PyStr} (hv : v < 100) (hr : r ≠ []) :
    readFields 1 (some true) (pad2 v ++ (cp '.' :: r)) = some ([v], .fraction r) := by
  obtain ⟨x, r, rfl⟩ := List.exists_cons_of_ne_nil hr
  have hdot : decide (cp '.' = cp ':') = false := by decide
  simp only [readFields, readDigits_pad2 hv, Option.bind_eq_bind, Option.bind_some, hdot,
    Bool.and_false, Bool.false_eq_true, if_false, true_or, if_true]

theorem readClock_full {h m s us : Nat} (hh : h < 100) (hm : m < 100) (hs : s < 100)
    (hus : us < 1000000) :
    readClock (pad2 h ++ (cp ':' :: (pad2 m ++ (cp ':' :: (pad2 s ++ microText us)))))
      = some ((h, m, s, us), false) := by
  have hne : pad3 (us / 1000) ++ pad3 us ≠ [] := by simp [pad3]
  have hmicro : microText us = cp '.' :: (pad3 (us / 1000) ++ pad3 us) := rfl
  have hfraction : readFraction (pad3 (us / 1000) ++ pad3 us) = some (us, false) := by
    have hlen : min 6 (pad3 (us / 1000) ++ pad3 us).length = 6 := by simp [pad3, pad2]
    rw [readFraction, hlen, readDigits_micro hus]
    simp [atEnd]
  rw [readClock, hmicro, readFields_colon hh (by simp) (by simp [pad2]),
    readFields_colon hm (by simp) (by simp [pad2]), readFields_dot hs hne]
  simp only [Option.map_some, Option.bind_eq_bind, Option.bind_some, hfraction]
  rfl

/-- `YYYY-MM-DDTHH:MM:SS.ffffffZ`. -/
def zuluText (d : Date) (h m s us : Nat) : PyStr :=
  d.text ++ (cp 'T' :: (pad2 h ++ (cp ':' :: (pad2 m ++ (cp ':' :: (pad2 s ++ microText us)))))
    ++ [cp 'Z'])

theorem clockMicros_lt {h m s us : Nat} (hh : h < 24) (hm : m < 60) (hs : s < 60)
    (hus : us < 1000000) : clockMicros (h, m, s, us) < dayMicros := by
  simp only [clockMicros, dayMicros, secondMicros]
  omega

/-- A text of scalar values is read as it is. -/
theorem sanitizeIsoFormat_eq {s : PyStr} (h : encodable s = true) : sanitizeIsoFormat s = s := by
  have hnone : ([7, 8, 10].find? fun i => (s[i]?).any isSurrogate) = none := by
    refine List.find?_eq_none.mpr fun i _ hi => ?_
    cases hc : s[i]? with
    | none =>
        rw [hc] at hi
        cases hi
    | some c =>
        have hscalar := List.all_eq_true.mp h c (List.mem_of_getElem? hc)
        rw [hc, Option.any_some] at hi
        rw [hi] at hscalar
        cases hscalar
  rw [sanitizeIsoFormat, hnone]

theorem fromIsoFormat_eq {s : PyStr} {n micros : Nat} {date : Date} {t : DateTime}
    {offset : Option Int} (hscalar : encodable s = true) (hlen : 7 ≤ s.length) (hsep : separatorAt s = n)
    (hdate : readDate (s.take n) = some date) (htail : readTail s n = some (micros, offset))
    (ht : DateTime.on date micros = some t) : fromIsoFormat s = some (t, offset) := by
  subst hsep
  have hlen : ¬ s.length < 7 := by omega
  simp only [fromIsoFormat, sanitizeIsoFormat_eq hscalar, hscalar, hlen, if_false, Bool.not_true,
    Bool.false_eq_true, hdate, htail, ht, Option.bind_eq_bind, Option.bind_some]

/-- A full time in universal time is read back as it was written. -/
theorem fromIsoFormat_zuluText (d : Date) {h m s us : Nat} (hh : h < 24) (hm : m < 60)
    (hs : s < 60) (hus : us < 1000000) : fromIsoFormat (zuluText d h m s us) =
      some (⟨d, clockMicros (h, m, s, us), clockMicros_lt hh hm hs hus⟩, some 0) := by
  have hcolon : isZoneChar (cp ':') = false := by decide
  have hdot : isZoneChar (cp '.') = false := by decide
  have hz : isZoneChar (cp 'Z') = true := by decide
  have hsep : separatorAt (zuluText d h m s us) = 10 := by
    have hw : ¬ digit (d.month / 10) = cp 'W' := by
      intro he
      have := congrArg Fin.val he
      rw [digit_val, show (cp 'W').val = 87 from rfl] at this
      omega
    simp [separatorAt, zuluText, Date.text, pad2, microText, startsWith, hw]
  have htime : readTime (pad2 h ++ (cp ':' :: (pad2 m ++ (cp ':' :: (pad2 s ++ microText us))))
      ++ [cp 'Z']) = some (clockMicros (h, m, s, us), some 0) := by
    have hclock : ∀ c ∈ pad2 h ++ (cp ':' :: (pad2 m ++ (cp ':' :: (pad2 s ++ microText us)))),
        (!isZoneChar c) = true := by
      simp [pad2, pad3, microText, digit_not_zone, hcolon, hdot]
    have hzone : readZone [cp 'Z'] = some 0 := by decide
    have hfields : (decide (h < 24) && decide (m < 60) && decide (s < 60)) = true := by
      simp [hh, hm, hs]
    rw [readTime, List.takeWhile_append_of_pos hclock, List.dropWhile_append_of_pos hclock,
      List.takeWhile_cons_of_neg (by simp [hz]), List.dropWhile_cons_of_neg (by simp [hz]),
      List.append_nil, readClock_full (by omega) (by omega) (by omega) hus]
    simp only [Option.bind_eq_bind, Option.bind_some, hzone, Option.map_some, hfields,
      Bool.not_true, Bool.false_eq_true, if_false]
  have hlen : (zuluText d h m s us).length = 10 + (17 : Nat) := by
    simp [zuluText, Date.text_length, pad2, pad3, microText]
  have hdate : readDate ((zuluText d h m s us).take 10) = some d := by
    rw [zuluText, List.take_append_of_le_length (by rw [Date.text_length]),
      List.take_of_length_le (by rw [Date.text_length]), readDate_text]
  have htail : readTail (zuluText d h m s us) 10 = some (clockMicros (h, m, s, us), some 0) := by
    rw [readTail, if_neg (by omega), zuluText, ← d.text_length, List.drop_length_add_append,
      List.cons_append, List.drop_succ_cons, List.drop_zero, htime]
  have hscalar : encodable (zuluText d h m s us) = true := by
    simp [encodable, zuluText, Date.text, pad2, pad3, microText, isSurrogate_of_isDigit]
  exact fromIsoFormat_eq hscalar (by omega) hsep hdate htail (dif_pos (clockMicros_lt hh hm hs hus))

end Py
