import Katherine.Lib.IsoTime
import Mathlib.Order.Monotone.Basic

/-!
# The order of timestamps

The time a `DateTime` is at is counted here: the days of the years and months before it,
and the microseconds into its day. Moving to universal time subtracts the offset from
that count (`DateTime.toUtc_instant`).

`isoFormat` writes fields of a fixed width, the most significant first, and leaves the
fraction out where it is zero; a text that ends there is a prefix of the others of its
second, so it comes before them. The order of the texts is therefore the order of time
(`isoFormat_lt_iff`).
-/

namespace Py

/-! ## Counting days -/

/-- The days of the first `n` months of a year. -/
def daysInMonths (year : Nat) : Nat → Nat
  | 0 => 0
  | n + 1 => daysInMonths year n + daysInMonth year (n + 1)

/-- The days of the first `n` years. -/
def daysInYears : Nat → Nat
  | 0 => 0
  | n + 1 => daysInYears n + daysInMonths (n + 1) 12

/-- `date.toordinal`. -/
def Date.ordinal (d : Date) : Nat :=
  daysInYears (d.year - 1) + daysInMonths d.year (d.month - 1) + d.day

/-- Microseconds since the day before year 1. -/
def DateTime.instant (t : DateTime) : Int := t.date.ordinal * dayMicros + t.micros

theorem daysInMonths_mono (year : Nat) : Monotone (daysInMonths year) :=
  monotone_nat_of_le_succ fun _ => Nat.le_add_right _ _

theorem daysInYears_mono : Monotone daysInYears :=
  monotone_nat_of_le_succ fun _ => Nat.le_add_right _ _

theorem Date.ofParts_eq_some {year month day : Nat} {d : Date}
    (h : Date.ofParts year month day = some d) : d.year = year ∧ d.month = month ∧ d.day = day := by
  unfold Date.ofParts at h
  split at h
  · cases h
    exact ⟨rfl, rfl, rfl⟩
  · cases h

/-- A day is within its month. -/
theorem Date.day_le (d : Date) :
    daysInMonths d.year (d.month - 1) + d.day ≤ daysInMonths d.year d.month := by
  have hmonth : d.month - 1 + 1 = d.month := Nat.sub_add_cancel d.month_ok.1
  have hsucc : daysInMonths d.year d.month =
      daysInMonths d.year (d.month - 1) + daysInMonth d.year d.month := by
    conv_lhs => rw [← hmonth]
    rw [daysInMonths, hmonth]
  rw [hsucc]
  exact Nat.add_le_add_left d.day_ok.2 _

/-- A month is within its year. -/
theorem Date.month_le (d : Date) :
    daysInYears (d.year - 1) + daysInMonths d.year d.month ≤ daysInYears d.year := by
  have hyear : d.year - 1 + 1 = d.year := Nat.sub_add_cancel d.year_ok.1
  have hsucc : daysInYears d.year = daysInYears (d.year - 1) + daysInMonths d.year 12 := by
    conv_lhs => rw [← hyear]
    rw [daysInYears, hyear]
  rw [hsucc]
  exact Nat.add_le_add_left (daysInMonths_mono d.year d.month_ok.2) _

theorem Date.ordinal_succ {d e : Date} (h : d.succ = some e) : e.ordinal = d.ordinal + 1 := by
  have hday := d.day_ok
  have hmonth := d.month_ok
  have hyear := d.year_ok
  have hlength : daysInMonths d.year (d.month - 1) + daysInMonth d.year d.month =
      daysInMonths d.year d.month := by
    have hm : d.month - 1 + 1 = d.month := by omega
    conv_rhs => rw [← hm]
    rw [daysInMonths, hm]
  unfold Date.succ at h
  split at h
  · obtain ⟨hy, hm, hd⟩ := Date.ofParts_eq_some h
    rw [ordinal, ordinal, hy, hm, hd]
    omega
  · split at h
    · obtain ⟨hy, hm, hd⟩ := Date.ofParts_eq_some h
      rw [ordinal, ordinal, hy, hm, hd, Nat.add_sub_cancel]
      omega
    · -- the last day of a year
      obtain ⟨hy, hm, hd⟩ := Date.ofParts_eq_some h
      have htwelve : d.month = 12 := by omega
      have hlast : daysInYears d.year = daysInYears (d.year - 1) + daysInMonths d.year 12 := by
        have hsucc : d.year - 1 + 1 = d.year := by omega
        conv_lhs => rw [← hsucc]
        rw [daysInYears, hsucc]
      have hjanuary : daysInMonths (d.year + 1) 0 = 0 := rfl
      rw [ordinal, ordinal, hy, hm, hd, Nat.add_sub_cancel, Nat.sub_self, hjanuary, hlast]
      rw [← htwelve]
      omega

theorem Date.succ_pred {d e : Date} (h : d.pred = some e) : e.succ = some d := by
  have hday := d.day_ok
  have hmonth := d.month_ok
  have hself := d.ofParts_self
  unfold Date.pred at h
  split at h
  · obtain ⟨hy, hm, hd⟩ := Date.ofParts_eq_some h
    have hlt : e.day < daysInMonth e.year e.month := by
      rw [hy, hm, hd]
      omega
    rw [succ, if_pos hlt, hy, hm, hd, Nat.sub_add_cancel hday.1]
    exact hself
  · have hone : d.day = 1 := by omega
    split at h
    · obtain ⟨hy, hm, hd⟩ := Date.ofParts_eq_some h
      have hlast : ¬ e.day < daysInMonth e.year e.month := by
        rw [hy, hm, hd]
        omega
      have hnext : e.month < 12 := by omega
      rw [succ, if_neg hlast, if_pos hnext, hy, hm, Nat.sub_add_cancel hmonth.1, ← hone]
      exact hself
    · obtain ⟨hy, hm, hd⟩ := Date.ofParts_eq_some h
      have hjanuary : d.month = 1 := by omega
      have hdecember : daysInMonth e.year 12 = 31 := rfl
      have hlast : ¬ e.day < daysInMonth e.year e.month := by
        rw [hm, hd, hdecember]
        exact Nat.lt_irrefl 31
      have hnext : ¬ e.month < 12 := by omega
      have hyear := d.year_ok
      rw [succ, if_neg hlast, if_neg hnext, hy, Nat.sub_add_cancel hyear.1]
      rw [hjanuary, hone] at hself
      exact hself

theorem Date.ordinal_pred {d e : Date} (h : d.pred = some e) : e.ordinal + 1 = d.ordinal :=
  (Date.ordinal_succ (Date.succ_pred h)).symm

theorem DateTime.on_eq_some {date : Date} {micros : Nat} {t : DateTime}
    (h : DateTime.on date micros = some t) : t.date = date ∧ t.micros = micros := by
  unfold DateTime.on at h
  split at h
  · cases h
    exact ⟨rfl, rfl⟩
  · cases h

/-- **Universal time is the instant without the offset.** -/
theorem DateTime.toUtc_instant {t u : DateTime} {offset : Int} (h : t.toUtc offset = some u)
    (hoffset : -(dayMicros : Int) < offset ∧ offset < dayMicros) :
    u.instant = t.instant - offset := by
  have hmicros := t.micros_ok
  unfold toUtc at h
  simp only at h
  split at h
  · obtain ⟨e, he, h⟩ := Option.bind_eq_some_iff.mp h
    obtain ⟨hdate, hm⟩ := on_eq_some h
    have hpred := Date.ordinal_pred he
    rw [instant, instant, hdate, hm, ← hpred]
    push_cast
    rw [Int.toNat_of_nonneg (by omega), Int.add_mul]
    omega
  · split at h
    · obtain ⟨e, he, h⟩ := Option.bind_eq_some_iff.mp h
      obtain ⟨hdate, hm⟩ := on_eq_some h
      rw [instant, instant, hdate, hm, Date.ordinal_succ he]
      push_cast
      rw [Int.toNat_of_nonneg (by omega), Int.add_mul]
      omega
    · obtain ⟨hdate, hm⟩ := on_eq_some h
      rw [instant, instant, hdate, hm, Int.toNat_of_nonneg (by omega)]
      omega

/-! ## The order of texts -/

/-- Texts with prefixes of one length are compared by the prefixes first. -/
theorem append_lt_append_iff {s t : PyStr} (h : s.length = t.length) {x y : PyStr} :
    s ++ x < t ++ y ↔ s < t ∨ s = t ∧ x < y := by
  induction s generalizing t with
  | nil =>
      obtain rfl := List.eq_nil_of_length_eq_zero h.symm
      simp
  | cons c s ih =>
      cases t with
      | nil => cases h
      | cons d t =>
          rw [List.cons_append, List.cons_append, List.cons_lt_cons_iff, List.cons_lt_cons_iff,
            ih (Nat.succ.inj h), List.cons.injEq]
          tauto

theorem digit_lt_digit_iff {m n : Nat} : digit m < digit n ↔ m % 10 < n % 10 := by
  rw [Fin.lt_def, digit_val, digit_val]
  omega

theorem digit_inj_iff {m n : Nat} : digit m = digit n ↔ m % 10 = n % 10 := by
  rw [Fin.ext_iff, digit_val, digit_val]
  omega

theorem pad2_lt_iff {m n : Nat} (hm : m < 100) (hn : n < 100) {x y : PyStr} :
    pad2 m ++ x < pad2 n ++ y ↔ m < n ∨ m = n ∧ x < y := by
  simp only [pad2, List.cons_append, List.nil_append, List.cons_lt_cons_iff, digit_lt_digit_iff,
    digit_inj_iff]
  constructor
  · rintro (h | ⟨h, h' | ⟨h', hxy⟩⟩)
    · omega
    · omega
    · exact .inr ⟨by omega, hxy⟩
  · rintro (h | ⟨rfl, hxy⟩)
    · omega
    · exact .inr ⟨rfl, .inr ⟨rfl, hxy⟩⟩

theorem singleton_append_lt_iff (c : CodePoint) {x y : PyStr} : [c] ++ x < [c] ++ y ↔ x < y := by
  rw [append_lt_append_iff rfl]
  simp

/-- One date is before another, field by field. -/
def Date.Before (d e : Date) : Prop :=
  d.year < e.year ∨ d.year = e.year ∧ (d.month < e.month ∨ d.month = e.month ∧ d.day < e.day)

theorem Date.before_or_eq_or_before (d e : Date) : d.Before e ∨ d = e ∨ e.Before d := by
  have heq : d.year = e.year → d.month = e.month → d.day = e.day → d = e := by
    cases d
    cases e
    rintro rfl rfl rfl
    rfl
  unfold Before
  rcases lt_trichotomy d.year e.year with h | h | h
  · exact .inl (.inl h)
  · rcases lt_trichotomy d.month e.month with h' | h' | h'
    · exact .inl (.inr ⟨h, .inl h'⟩)
    · rcases lt_trichotomy d.day e.day with h'' | h'' | h''
      · exact .inl (.inr ⟨h, .inr ⟨h', h''⟩⟩)
      · exact .inr (.inl (heq h h' h''))
      · exact .inr (.inr (.inr ⟨h.symm, .inr ⟨h'.symm, h''⟩⟩))
    · exact .inr (.inr (.inr ⟨h.symm, .inl h'⟩))
  · exact .inr (.inr (.inl h))

theorem Date.Before.ordinal_lt {d e : Date} (h : d.Before e) : d.ordinal < e.ordinal := by
  have hday := d.day_le
  have hmonth := d.month_le
  have hpos := e.day_ok.1
  unfold Date.ordinal
  rcases h with hyear | ⟨hyear, hrest⟩
  · have hyears := daysInYears_mono (show d.year ≤ e.year - 1 by omega)
    omega
  · rw [hyear] at hday ⊢
    rcases hrest with hlt | ⟨hmonth, hlt⟩
    · have hmonths := daysInMonths_mono e.year (show d.month ≤ e.month - 1 by omega)
      omega
    · rw [hmonth]
      omega

theorem Date.ordinal_lt_iff {d e : Date} : d.ordinal < e.ordinal ↔ d.Before e := by
  refine ⟨fun h => ?_, Before.ordinal_lt⟩
  rcases Date.before_or_eq_or_before d e with hlt | rfl | hgt
  · exact hlt
  · exact absurd h (Nat.lt_irrefl _)
  · exact absurd (hgt.ordinal_lt.trans h) (Nat.lt_irrefl _)

theorem pad2_mod (n : Nat) : pad2 (n % 100) = pad2 n := by
  have htens : n % 100 / 10 % 10 = n / 10 % 10 := by omega
  have hones : n % 100 % 10 = n % 10 := by omega
  simp [pad2, digit, htens, hones]

theorem div_mod_lt_iff {m n : Nat} {p : Prop} :
    (m / 100 < n / 100 ∨ m / 100 = n / 100 ∧ (m % 100 < n % 100 ∨ m % 100 = n % 100 ∧ p)) ↔
      m < n ∨ m = n ∧ p := by
  constructor
  · rintro (h | ⟨h, h' | ⟨h', hp⟩⟩)
    · omega
    · omega
    · exact .inr ⟨by omega, hp⟩
  · rintro (h | ⟨rfl, hp⟩)
    · omega
    · exact .inr ⟨rfl, .inr ⟨rfl, hp⟩⟩

theorem Date.text_lt_iff {d e : Date} {x y : PyStr} :
    d.text ++ x < e.text ++ y ↔ d.ordinal < e.ordinal ∨ d = e ∧ x < y := by
  have hd : d.month < 100 ∧ d.day < 100 := by
    have := daysInMonth_bound d.year d.month
    have := d.day_ok
    have := d.month_ok
    omega
  have he : e.month < 100 ∧ e.day < 100 := by
    have := daysInMonth_bound e.year e.month
    have := e.day_ok
    have := e.month_ok
    omega
  have hdy := d.year_ok
  have hey := e.year_ok
  have hfields : d.text ++ x < e.text ++ y ↔ d.year < e.year ∨ d.year = e.year ∧
      (d.month < e.month ∨ d.month = e.month ∧ (d.day < e.day ∨ d.day = e.day ∧ x < y)) := by
    simp only [text, List.append_assoc]
    rw [← pad2_mod d.year, ← pad2_mod e.year, pad2_lt_iff (by omega) (by omega),
      pad2_lt_iff (by omega) (by omega), singleton_append_lt_iff, pad2_lt_iff hd.1 he.1,
      singleton_append_lt_iff, pad2_lt_iff hd.2 he.2, div_mod_lt_iff]
  rw [hfields, Date.ordinal_lt_iff]
  constructor
  · rintro (h | ⟨hyear, h | ⟨hmonth, h | ⟨hday, h⟩⟩⟩)
    · exact .inl (.inl h)
    · exact .inl (.inr ⟨hyear, .inl h⟩)
    · exact .inl (.inr ⟨hyear, .inr ⟨hmonth, h⟩⟩)
    · refine .inr ⟨?_, h⟩
      cases d
      cases e
      cases hyear
      cases hmonth
      cases hday
      rfl
  · rintro ((h | ⟨hyear, h | ⟨hmonth, h⟩⟩) | ⟨rfl, h⟩)
    · exact .inl h
    · exact .inr ⟨hyear, .inl h⟩
    · exact .inr ⟨hyear, .inr ⟨hmonth, .inl h⟩⟩
    · exact .inr ⟨rfl, .inr ⟨rfl, .inr ⟨rfl, h⟩⟩⟩

theorem clockText_lt_iff {s s' : Nat} (h : s < 86400) (h' : s' < 86400) {x y : PyStr} :
    clockText s ++ x < clockText s' ++ y ↔ s < s' ∨ s = s' ∧ x < y := by
  simp only [clockText, List.append_assoc]
  rw [pad2_lt_iff (by omega) (by omega), singleton_append_lt_iff, pad2_lt_iff (by omega) (by omega),
    singleton_append_lt_iff, pad2_lt_iff (by omega) (by omega)]
  constructor
  · rintro (hlt | ⟨hhour, hlt | ⟨hminute, hlt | ⟨hsecond, hxy⟩⟩⟩)
    · omega
    · omega
    · omega
    · exact .inr ⟨by omega, hxy⟩
  · rintro (hlt | ⟨rfl, hxy⟩)
    · omega
    · exact .inr ⟨rfl, .inr ⟨rfl, .inr ⟨rfl, hxy⟩⟩⟩

theorem pad3_lt_iff {m n : Nat} (hm : m < 1000) (hn : n < 1000) {x y : PyStr} :
    pad3 m ++ x < pad3 n ++ y ↔ m < n ∨ m = n ∧ x < y := by
  simp only [pad3, List.cons_append, List.cons_lt_cons_iff, digit_lt_digit_iff, digit_inj_iff]
  rw [← pad2_mod m, ← pad2_mod n, pad2_lt_iff (by omega) (by omega)]
  constructor
  · rintro (h | ⟨h, h' | ⟨h', hxy⟩⟩)
    · omega
    · omega
    · exact .inr ⟨by omega, hxy⟩
  · rintro (h | ⟨rfl, hxy⟩)
    · omega
    · exact .inr ⟨rfl, .inr ⟨rfl, hxy⟩⟩

theorem microText_lt_iff {m n : Nat} (hm : m < 1000000) (hn : n < 1000000) :
    microText m < microText n ↔ m < n := by
  have hmod : ∀ k, pad3 (k % 1000) = pad3 k := by
    intro k
    have hhundreds : k % 1000 / 100 % 10 = k / 100 % 10 := by omega
    have hlow : k % 1000 % 100 = k % 100 := by omega
    rw [pad3, pad3, ← pad2_mod (k % 1000), hlow, pad2_mod]
    simp [digit, hhundreds]
  have hnil : ∀ k, pad3 k = pad3 k ++ [] := fun k => (List.append_nil _).symm
  simp only [microText, List.append_assoc]
  rw [singleton_append_lt_iff, pad3_lt_iff (by omega) (by omega), ← hmod m, ← hmod n,
    hnil (m % 1000), hnil (n % 1000), pad3_lt_iff (by omega) (by omega)]
  simp only [lt_irrefl, and_false, or_false]
  omega

/-- **The order of the texts is the order of time.** -/
theorem DateTime.isoFormat_lt_iff {t u : DateTime} : t.isoFormat < u.isoFormat ↔ t.instant < u.instant := by
  have ht : t.micros / secondMicros < 86400 := Nat.div_lt_of_lt_mul (by
    have := t.micros_ok
    rwa [dayMicros, Nat.mul_comm] at this)
  have hu : u.micros / secondMicros < 86400 := Nat.div_lt_of_lt_mul (by
    have := u.micros_ok
    rwa [dayMicros, Nat.mul_comm] at this)
  have hfraction : ∀ m n : Nat, m < 1000000 → n < 1000000 →
      ((if m = 0 then [] else microText m) < (if n = 0 then [] else microText n) ↔ m < n) := by
    intro m n hm hn
    by_cases hm0 : m = 0
    · rw [if_pos hm0, hm0]
      split
      · simp [*]
      · have : ([] : PyStr) < microText n := by simp [microText]
        simp only [this, true_iff]
        omega
    · rw [if_neg hm0]
      split
      · simp [*]
      · exact microText_lt_iff hm hn
  simp only [isoFormat, List.append_assoc]
  rw [Date.text_lt_iff, singleton_append_lt_iff, clockText_lt_iff ht hu,
    hfraction (t.micros % secondMicros) (u.micros % secondMicros) (Nat.mod_lt _ (by decide))
      (Nat.mod_lt _ (by decide))]
  have hclock : (t.micros / secondMicros < u.micros / secondMicros ∨
      t.micros / secondMicros = u.micros / secondMicros ∧
        t.micros % secondMicros < u.micros % secondMicros) ↔ t.micros < u.micros := by
    simp only [secondMicros]
    omega
  have ht := t.micros_ok
  have hu := u.micros_ok
  rw [hclock, instant, instant]
  constructor
  · rintro (h | ⟨h, hmicros⟩)
    · have := Int.mul_le_mul_of_nonneg_right (show (t.date.ordinal + 1 : Int) ≤ u.date.ordinal by omega)
        (show (0 : Int) ≤ dayMicros by decide)
      rw [Int.add_mul] at this
      omega
    · rw [h]
      omega
  · intro h
    rcases Nat.lt_trichotomy t.date.ordinal u.date.ordinal with hlt | heq | hgt
    · exact .inl hlt
    · refine .inr ⟨?_, ?_⟩
      · rcases Date.before_or_eq_or_before t.date u.date with hb | hb | hb
        · exact absurd hb.ordinal_lt (by omega)
        · exact hb
        · exact absurd hb.ordinal_lt (by omega)
      · rw [heq] at h
        omega
    · have := Int.mul_le_mul_of_nonneg_right (show (u.date.ordinal + 1 : Int) ≤ t.date.ordinal by omega)
        (show (0 : Int) ≤ dayMicros by decide)
      rw [Int.add_mul] at this
      omega

/-- So texts are equal exactly where the instants are. -/
theorem DateTime.isoFormat_inj_iff {t u : DateTime} : t.isoFormat = u.isoFormat ↔ t.instant = u.instant := by
  rw [eq_iff_le_not_lt, eq_iff_le_not_lt, ← not_lt, ← not_lt, isoFormat_lt_iff, isoFormat_lt_iff]

/-! ## What a text denotes -/

/-- The instant a timestamp denotes; without an offset it is one in universal time. -/
def instantOf (s : PyStr) : Option Int :=
  (fromIsoFormat s).map fun p => p.1.instant - p.2.getD 0

/-- An offset is less than a day. -/
theorem readZone_bound {s : PyStr} {offset : Int} (h : readZone s = some offset) :
    -(dayMicros : Int) < offset ∧ offset < dayMicros := by
  have hday : (0 : Int) < dayMicros := by decide
  cases s with
  | nil => cases h
  | cons z s =>
      simp only [readZone] at h
      split at h
      · split at h
        · cases h
          omega
        · cases h
      · simp only [Option.bind_eq_bind, Option.bind_eq_some_iff] at h
        obtain ⟨⟨v, left⟩, _, h⟩ := h
        split at h
        · cases h
        · split at h
          · cases h
            omega
          · split at h
            · cases h
            · have hnonneg : (0 : Int) ≤ clockMicros v := Int.natCast_nonneg _
              cases h
              split <;> omega

theorem fromIsoFormat_bound {s : PyStr} {t : DateTime} {offset : Int}
    (h : fromIsoFormat s = some (t, some offset)) :
    -(dayMicros : Int) < offset ∧ offset < dayMicros := by
  simp only [fromIsoFormat, Option.bind_eq_bind] at h
  split at h
  · cases h
  · split at h
    · cases h
    simp only [Option.bind_eq_some_iff] at h
    obtain ⟨date, _, ⟨micros, zone⟩, htail, u, _, h⟩ := h
    cases h
    unfold readTail at htail
    split at htail
    · cases htail
    · simp only [readTime, Option.bind_eq_bind] at htail
      obtain ⟨⟨v, left⟩, _, htail⟩ := Option.bind_eq_some_iff.mp htail
      split at htail
      · -- no zone, no offset
        split at htail
        · cases htail
        · rw [Option.bind_some] at htail
          split at htail
          · cases htail
          · cases htail
      · obtain ⟨zone, hzone, htail⟩ := Option.bind_eq_some_iff.mp htail
        obtain ⟨offset', hoffset, rfl⟩ := Option.map_eq_some_iff.mp hzone
        split at htail
        · cases htail
        · cases htail
          exact readZone_bound hoffset

end Py
