import Mathlib.Algebra.GroupWithZero.Nat
import Mathlib.Data.Int.Init
import Mathlib.Data.List.Lex
import Mathlib.Order.MinMax

/-!
# The Gregorian calendar

Days are counted from the first of January 1970. A year starts in March here, so that the leap day
is its last; four hundred years are an era, and all eras have the same number of days. The date of a
day has that day's number again.
-/

namespace Flockctl.Calendar

/-- A calendar date. Months and days start at one. -/
structure Date where
  year : ℤ
  month : ℤ
  day : ℤ
  deriving DecidableEq, Repr

/-- The days of an era in front of a year of it. -/
def yearStart (yearOfEra : ℤ) : ℤ := 365 * yearOfEra + yearOfEra / 4 - yearOfEra / 100

/-- The days of a year that starts in March in front of a month of it. -/
def monthStart (monthOfYear : ℤ) : ℤ := (153 * monthOfYear + 2) / 5

/-- The number of a day. The day of the month may lie outside the month. -/
def dayNumber (date : Date) : ℤ :=
  let year := if date.month ≤ 2 then date.year - 1 else date.year
  let month := if date.month ≤ 2 then date.month + 9 else date.month - 3
  146097 * (year / 400) + yearStart (year % 400) + monthStart month + date.day - 1 - 719468

/-- The century of an era, the leap period of the century and the year of the period that a day of
the era is in. The last of each may be a day longer. -/
def yearParts (dayOfEra : ℤ) : ℤ × ℤ × ℤ :=
  let century := min 3 (dayOfEra / 36524)
  let dayOfCentury := dayOfEra - 36524 * century
  let period := dayOfCentury / 1461
  (century, period, min 3 ((dayOfCentury - 1461 * period) / 365))

def yearOfDay (dayOfEra : ℤ) : ℤ :=
  100 * (yearParts dayOfEra).1 + 4 * (yearParts dayOfEra).2.1 + (yearParts dayOfEra).2.2

/-- A day of a year that starts in March, with its month. -/
def dateInYear (year dayOfYear : ℤ) : Date :=
  let month := (5 * dayOfYear + 2) / 153
  { year := if month < 10 then year else year + 1
    month := if month < 10 then month + 3 else month - 9
    day := dayOfYear - monthStart month + 1 }

/-- The date of the day with this number. -/
def dateOf (number : ℤ) : Date :=
  let dayOfEra := (number + 719468) % 146097
  dateInYear (400 * ((number + 719468) / 146097) + yearOfDay dayOfEra)
    (dayOfEra - yearStart (yearOfDay dayOfEra))

/-- The parts of a year are in their ranges, and what is left is a day of the year. -/
theorem yearParts_spec {dayOfEra century period year : ℤ} (h : 0 ≤ dayOfEra)
    (h' : dayOfEra < 146097) (hparts : yearParts dayOfEra = (century, period, year)) :
    (0 ≤ century ∧ century ≤ 3) ∧ (0 ≤ period ∧ period ≤ 24) ∧ (0 ≤ year ∧ year ≤ 3) ∧
      0 ≤ dayOfEra - 36524 * century - 1461 * period - 365 * year ∧
      dayOfEra - 36524 * century - 1461 * period - 365 * year < 366 := by
  simp only [yearParts, Prod.mk.injEq] at hparts
  obtain ⟨hcentury, hperiod, hyear⟩ := hparts
  rw [hcentury] at hperiod hyear
  rw [hperiod] at hyear
  have hcenturies : (0 ≤ century ∧ century ≤ 3) ∧ 0 ≤ dayOfEra - 36524 * century ∧
      dayOfEra - 36524 * century ≤ 36524 := by omega
  have hperiods : (0 ≤ period ∧ period ≤ 24) ∧ 0 ≤ dayOfEra - 36524 * century - 1461 * period ∧
      dayOfEra - 36524 * century - 1461 * period < 1461 := by omega
  omega

theorem yearOfDay_spec {dayOfEra : ℤ} (h : 0 ≤ dayOfEra) (h' : dayOfEra < 146097) :
    (0 ≤ yearOfDay dayOfEra ∧ yearOfDay dayOfEra < 400) ∧
      0 ≤ dayOfEra - yearStart (yearOfDay dayOfEra) ∧
      dayOfEra - yearStart (yearOfDay dayOfEra) < 366 := by
  rcases hparts : yearParts dayOfEra with ⟨century, period, year⟩
  obtain ⟨hcentury, hperiod, hyear, hday⟩ := yearParts_spec h h' hparts
  have hwhole : yearOfDay dayOfEra = 100 * century + 4 * period + year := by
    rw [yearOfDay, hparts]
  have hfour : (100 * century + 4 * period + year) / 4 = 25 * century + period := by omega
  have hhundred : (100 * century + 4 * period + year) / 100 = century := by omega
  rw [yearStart, hwhole, hfour, hhundred]
  omega

/-- A day of a year has its number. -/
theorem dayNumber_dateInYear {era year dayOfYear : ℤ} (hyear : 0 ≤ year ∧ year < 400)
    (hday : 0 ≤ dayOfYear ∧ dayOfYear < 366) :
    dayNumber (dateInYear (400 * era + year) dayOfYear) =
      146097 * era + yearStart year + dayOfYear - 719468 := by
  have hdiv : (400 * era + year) / 400 = era := by omega
  have hmod : (400 * era + year) % 400 = year := by omega
  have hmonth : 0 ≤ (5 * dayOfYear + 2) / 153 ∧ (5 * dayOfYear + 2) / 153 < 12 := by omega
  unfold dayNumber dateInYear
  dsimp only
  generalize (5 * dayOfYear + 2) / 153 = month at hmonth ⊢
  by_cases hlate : month < 10
  · have hnot : ¬month + 3 ≤ 2 := by omega
    simp only [hlate, hnot, if_true, if_false, hdiv, hmod, Int.add_sub_cancel]
    omega
  · have hearly : month - 9 ≤ 2 := by omega
    simp only [hlate, hearly, if_true, if_false, hdiv, hmod, Int.add_sub_cancel,
      Int.sub_add_cancel]
    omega

/-- The date of a day has its number. -/
theorem dayNumber_dateOf (number : ℤ) : dayNumber (dateOf number) = number := by
  have hera := Int.emod_nonneg (number + 719468) (by decide : (146097 : ℤ) ≠ 0)
  have hera' := Int.emod_lt_of_pos (number + 719468) (by decide : (0 : ℤ) < 146097)
  obtain ⟨hyear, hday⟩ := yearOfDay_spec hera hera'
  rw [dateOf, dayNumber_dateInYear hyear hday]
  omega

/-- The next day of the month is the next day. -/
theorem dayNumber_succ (date : Date) :
    dayNumber { date with day := date.day + 1 } = dayNumber date + 1 := by
  unfold dayNumber
  dsimp only
  omega

/-- From the era of the year 1600 on, years have four digits at least. -/
theorem year_dateOf_ge {number : ℤ} (h : -100000 ≤ number) : 1600 ≤ (dateOf number).year := by
  have hera := Int.emod_nonneg (number + 719468) (by decide : (146097 : ℤ) ≠ 0)
  have hera' := Int.emod_lt_of_pos (number + 719468) (by decide : (0 : ℤ) < 146097)
  obtain ⟨⟨hyear, -⟩, -⟩ := yearOfDay_spec hera hera'
  unfold dateOf dateInYear
  dsimp only
  split <;> omega

example : dateOf 20454 = { year := 2026, month := 1, day := 1 } := by decide

end Flockctl.Calendar

/-!
# Instants as texts

An instant of UTC has its date, its time of day and the milliseconds. A text of numbers of fixed
widths, with fixed texts between them, is compared like the list of the numbers, so two instants in
one format compare as instants. The database writes a blank between the date and the time, and
`toISOString` a `T`, which is greater: in a comparison of the one format with the other only the
dates count.
-/

namespace Flockctl.Calendar

/-- The last digits of a number. -/
def fixed : ℕ → ℕ → List Char
  | 0, _ => []
  | width + 1, n => fixed width (n / 10) ++ [Nat.digitChar (n % 10)]

@[simp] theorem length_fixed (width n : ℕ) : (fixed width n).length = width := by
  induction width generalizing n with
  | zero => rfl
  | succ width ih => rw [fixed, List.length_append, ih, List.length_singleton]

theorem digitChar_lt_iff {n m : ℕ} (hn : n < 10) (hm : m < 10) :
    Nat.digitChar n < Nat.digitChar m ↔ n < m := by
  have hall : ∀ a : Fin 10, ∀ b : Fin 10,
      Nat.digitChar a < Nat.digitChar b ↔ a.val < b.val := by decide
  exact hall ⟨n, hn⟩ ⟨m, hm⟩

/-- Lists that begin with parts of one length. -/
theorem append_lt_append_iff {α : Type} [LT α] {front other back rest : List α}
    (h : front.length = other.length) :
    front ++ back < other ++ rest ↔ front < other ∨ (front = other ∧ back < rest) := by
  induction front generalizing other with
  | nil =>
    rw [List.length_nil, eq_comm, List.length_eq_zero_iff] at h
    subst h
    simp
  | cons c front ih =>
    cases other with
    | nil => cases h
    | cons d other =>
      rw [List.cons_append, List.cons_append, List.cons_lt_cons_iff, List.cons_lt_cons_iff,
        ih (Nat.succ.inj h), List.cons_eq_cons]
      tauto

theorem digitChar_inj {n m : ℕ} (hn : n < 10) (hm : m < 10)
    (h : Nat.digitChar n = Nat.digitChar m) : n = m := by
  have hall : ∀ a : Fin 10, ∀ b : Fin 10, Nat.digitChar a = Nat.digitChar b → a.val = b.val := by
    decide
  exact hall ⟨n, hn⟩ ⟨m, hm⟩ h

theorem fixed_inj {width n m : ℕ} (hn : n < 10 ^ width) (hm : m < 10 ^ width)
    (h : fixed width n = fixed width m) : n = m := by
  induction width generalizing n m with
  | zero =>
    rw [Nat.pow_zero, Nat.lt_one_iff] at hn hm
    rw [hn, hm]
  | succ width ih =>
    rw [fixed, fixed] at h
    obtain ⟨hfront, hlast⟩ := List.append_inj h (by rw [length_fixed, length_fixed])
    rw [Nat.pow_succ] at hn hm
    have htens := ih (by omega) (by omega) hfront
    have hones := digitChar_inj (Nat.mod_lt n (by omega)) (Nat.mod_lt m (by omega))
      (List.cons_eq_cons.mp hlast).1
    omega

/-- Numbers of one width compare like their texts. -/
theorem fixed_lt_iff {width n m : ℕ} (hn : n < 10 ^ width) (hm : m < 10 ^ width) :
    fixed width n < fixed width m ↔ n < m := by
  induction width generalizing n m with
  | zero =>
    rw [Nat.pow_zero, Nat.lt_one_iff] at hn hm
    rw [hn, hm]
    exact iff_of_false (List.lt_irrefl _) (Nat.lt_irrefl 0)
  | succ width ih =>
    rw [Nat.pow_succ] at hn hm
    have htens : n / 10 < 10 ^ width := by omega
    have htens' : m / 10 < 10 ^ width := by omega
    have hequal : fixed width (n / 10) = fixed width (m / 10) ↔ n / 10 = m / 10 :=
      ⟨fixed_inj htens htens', fun h ↦ by rw [h]⟩
    rw [fixed, fixed, append_lt_append_iff (by rw [length_fixed, length_fixed]), ih htens htens',
      hequal, List.cons_lt_cons_iff,
      digitChar_lt_iff (Nat.mod_lt n (by omega)) (Nat.mod_lt m (by omega))]
    have hnil : ¬([] : List Char) < [] := List.lt_irrefl _
    simp only [hnil, and_false, or_false]
    omega

/-- Numbers, each with its width and the text behind it. -/
def rendered : List (ℕ × List Char) → List ℕ → List Char
  | (width, behind) :: shape, n :: numbers => fixed width n ++ (behind ++ rendered shape numbers)
  | _, _ => []

/-- The numbers are as many as the shape has places, and each has its width. -/
def Fits : List (ℕ × List Char) → List ℕ → Prop
  | [], [] => True
  | (width, _) :: shape, n :: numbers => n < 10 ^ width ∧ Fits shape numbers
  | _, _ => False

/-- Texts of one shape, with whatever follows them, compare like the lists of their numbers. -/
theorem rendered_append_lt_iff {shape : List (ℕ × List Char)} {numbers others : List ℕ}
    (hnumbers : Fits shape numbers) (hothers : Fits shape others) (back rest : List Char) :
    rendered shape numbers ++ back < rendered shape others ++ rest ↔
      numbers < others ∨ (numbers = others ∧ back < rest) := by
  induction shape generalizing numbers others with
  | nil =>
    match numbers, others with
    | [], [] => simp [rendered]
  | cons place shape ih =>
    match numbers, others with
    | n :: numbers, m :: others =>
      obtain ⟨hn, hnumbers⟩ := hnumbers
      obtain ⟨hm, hothers⟩ := hothers
      have hequal : fixed place.1 n = fixed place.1 m ↔ n = m :=
        ⟨fixed_inj hn hm, fun h ↦ by rw [h]⟩
      rw [rendered, rendered, List.append_assoc, List.append_assoc, List.append_assoc,
        List.append_assoc, append_lt_append_iff (by rw [length_fixed, length_fixed]),
        append_lt_append_iff rfl, fixed_lt_iff hn hm, hequal, ih hnumbers hothers,
        List.cons_lt_cons_iff, List.cons_eq_cons]
      have hirrefl : ¬place.2 < place.2 := List.lt_irrefl _
      tauto

theorem rendered_lt_iff {shape : List (ℕ × List Char)} {numbers others : List ℕ}
    (hnumbers : Fits shape numbers) (hothers : Fits shape others) :
    rendered shape numbers < rendered shape others ↔ numbers < others := by
  have hlt := rendered_append_lt_iff hnumbers hothers [] []
  rw [List.append_nil, List.append_nil] at hlt
  have hnil : ¬([] : List Char) < [] := List.lt_irrefl _
  rw [hlt, or_iff_left fun h ↦ hnil h.2]

structure Instant where
  year : ℕ
  month : ℕ
  day : ℕ
  hour : ℕ := 0
  minute : ℕ := 0
  second : ℕ := 0
  milli : ℕ := 0
  inYears : year < 10000 := by decide
  inMonths : 1 ≤ month ∧ month ≤ 12 := by decide
  inDays : 1 ≤ day ∧ day ≤ 31 := by decide
  inHours : hour < 24 := by decide
  inMinutes : minute < 60 := by decide
  inSeconds : second < 60 := by decide
  inMillis : milli < 1000 := by decide
  deriving DecidableEq

namespace Instant

def date (instant : Instant) : List ℕ := [instant.year, instant.month, instant.day]

def time (instant : Instant) : List ℕ := [instant.hour, instant.minute, instant.second]

/-- The one instant is before the other. -/
def Before (instant other : Instant) : Prop :=
  instant.date ++ (instant.time ++ [instant.milli]) <
    other.date ++ (other.time ++ [other.milli])

instance (instant other : Instant) : Decidable (instant.Before other) :=
  inferInstanceAs (Decidable (_ < _))

def dateShape : List (ℕ × List Char) := [(4, ['-']), (2, ['-']), (2, [])]

def timeShape : List (ℕ × List Char) := [(2, [':']), (2, [':']), (2, [])]

/-- The first ten characters of either format. -/
def dateText (instant : Instant) : List Char := rendered dateShape instant.date

def timeText (instant : Instant) : List Char := rendered timeShape instant.time

/-- `datetime('now')`, which has no milliseconds. -/
def sqliteText (instant : Instant) : List Char := instant.dateText ++ ' ' :: instant.timeText

/-- `toISOString()`. -/
def isoText (instant : Instant) : List Char :=
  instant.dateText ++ 'T' :: (instant.timeText ++ '.' :: (fixed 3 instant.milli ++ ['Z']))

theorem fits_date (instant : Instant) : Fits dateShape instant.date := by
  have hmonth := instant.inMonths
  have hday := instant.inDays
  exact ⟨instant.inYears, by omega, by omega, trivial⟩

theorem fits_time (instant : Instant) : Fits timeShape instant.time := by
  have hhour := instant.inHours
  have hminute := instant.inMinutes
  have hsecond := instant.inSeconds
  exact ⟨by omega, by omega, by omega, trivial⟩

example : (sqliteText { year := 2026, month := 3, day := 9, hour := 7 }) =
    "2026-03-09 07:00:00".toList := by
  decide

variable (instant other : Instant)

theorem length_date : instant.date.length = other.date.length := rfl

theorem not_lt_self (numbers : List ℕ) : ¬numbers < numbers := List.lt_irrefl numbers

theorem dateText_append_lt_iff (back rest : List Char) :
    instant.dateText ++ back < other.dateText ++ rest ↔
      instant.date < other.date ∨ (instant.date = other.date ∧ back < rest) :=
  rendered_append_lt_iff instant.fits_date other.fits_date back rest

/-- In the format of the database the seconds count. -/
theorem sqliteText_lt_iff :
    instant.sqliteText < other.sqliteText ↔
      instant.date ++ instant.time < other.date ++ other.time := by
  have htime : instant.timeText < other.timeText ↔ instant.time < other.time :=
    rendered_lt_iff instant.fits_time other.fits_time
  have hblank : ¬(' ' < ' ') := by decide
  rw [sqliteText, sqliteText, dateText_append_lt_iff, List.cons_lt_cons_iff, htime,
    append_lt_append_iff (length_date instant other)]
  tauto

end Instant

end Flockctl.Calendar
