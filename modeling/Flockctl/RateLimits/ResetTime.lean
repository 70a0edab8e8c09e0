import Flockctl.Calendar.Stamps
import Flockctl.Collections.JsText

/-!
# The reset time in a message of the CLI

A session-cap message names the wall-clock time at which the limit is reset and the time zone of
that clock. The time is turned into an instant by one round trip: the time is taken for UTC, the
offset of the zone at that instant is looked up, and the instant is moved by it.
-/

namespace Flockctl.RateLimits

open Calendar Collections

def RESET_TIME_GRACE_MS : ℤ := 30 * 1000

/-! ## The stanza -/

/-- The groups of `RESET_TIME_PATTERN`. -/
structure ResetGroups where
  hour : List Char
  minute : Option (List Char)
  meridiem : List Char
  zone : List Char
  deriving DecidableEq, Repr

/-- A word in front of the text, in letters of any case. -/
def takeWord : List Char → List Char → Option (List Char)
  | [], text => some text
  | letter :: word, c :: text => if c.toLower = letter then takeWord word text else none
  | _ :: _, [] => none

/-- `\s+`. -/
def takeBlanks (text : List Char) : Option (List Char) :=
  if text.head?.any isWhitespace then some (text.dropWhile isWhitespace) else none

/-- `(\d{1,2})`. -/
def takeHour (text : List Char) : Option (List Char × List Char) :=
  let hour := (text.take 2).takeWhile Char.isDigit
  if hour = [] then none else some (hour, text.drop hour.length)

/-- `(?::(\d{2}))?`. -/
def takeMinute (text : List Char) : Option (List Char) × List Char :=
  match text with
  | ':' :: first :: second :: rest =>
    if first.isDigit && second.isDigit then (some [first, second], rest) else (none, text)
  | _ => (none, text)

/-- `(am|pm)`. -/
def takeMeridiem (text : List Char) : Option (List Char × List Char) :=
  match takeWord ['a', 'm'] text, takeWord ['p', 'm'] text with
  | some rest, _ | none, some rest => some (text.take 2, rest)
  | none, none => none

/-- `\(([^)]+)\)`. -/
def takeZone (text : List Char) : Option (List Char) :=
  match text with
  | '(' :: rest =>
    let zone := rest.takeWhile fun c ↦ c != ')'
    if zone = [] ∨ rest.drop zone.length = [] then none else some zone
  | _ => none

/-- `RESET_TIME_PATTERN` at the start of the text, behind the word boundary. -/
def matchHere (text : List Char) : Option ResetGroups := do
  let text ← takeWord "resets".toList text
  let text ← takeBlanks text
  let (hour, text) ← takeHour text
  let (minute, text) := takeMinute text
  let (meridiem, text) ← takeMeridiem (text.dropWhile isWhitespace)
  let text ← takeBlanks text
  let zone ← takeZone text
  return { hour, minute, meridiem, zone }

def isWordChar (c : Char) : Bool := c.isAlphanum || c == '_'

/-- `RESET_TIME_PATTERN.exec`, from a position behind this character on. -/
def execFrom (previous : Option Char) : List Char → Option ResetGroups
  | [] => none
  | c :: rest =>
    (if previous.any isWordChar then none else matchHere (c :: rest)).orElse
      fun _ ↦ execFrom (some c) rest

/-- The wall-clock time of a message, on a clock of 24 hours, and the zone of the clock. -/
@[ext]
structure Stanza where
  hour : ℕ
  minute : ℕ
  zone : List Char
  hour_lt : hour < 24
  minute_lt : minute < 60

instance : DecidableEq Stanza := fun stanza other ↦
  decidable_of_iff
    (stanza.hour = other.hour ∧ stanza.minute = other.minute ∧ stanza.zone = other.zone)
    Stanza.ext_iff.symm

/-- The first checks of `parseClaudeCliResetTime`, and its conversion to 24 hours. -/
def stanzaOf (message : List Char) : Option Stanza := do
  let groups ← execFrom none message
  let hour := Nat.ofDigitChars 10 groups.hour 0
  let minute := groups.minute.elim 0 fun digits ↦ Nat.ofDigitChars 10 digits 0
  let isPm := groups.meridiem.map Char.toLower = ['p', 'm']
  if h : (1 ≤ hour ∧ hour ≤ 12) ∧ minute ≤ 59 then
    return {
      hour := if isPm ∧ hour < 12 then hour + 12 else if ¬isPm ∧ hour = 12 then 0 else hour
      minute
      zone := trim groups.zone
      hour_lt := by split <;> [skip; split] <;> omega
      minute_lt := by omega }
  else none

example : (stanzaOf "You've hit your limit, resets 10:50pm (Europe/Istanbul)".toList).map
    (fun stanza ↦ (stanza.hour, stanza.minute)) = some (22, 50) := by
  decide +kernel

def DAY_MS : ℤ := 24 * 60 * 60 * 1000

/-- A time zone: its offset to UTC in seconds at every instant. Within two days the offset changes
once at most, and by one hour at most. -/
structure Zone where
  offset : ℤ → ℤ
  bounded : ∀ instant, -(14 * 3600) ≤ offset instant ∧ offset instant ≤ 14 * 3600
  gentle : ∀ first second, first ≤ second → second ≤ first + 2 * DAY_MS →
    offset first - 3600 ≤ offset second ∧ offset second ≤ offset first + 3600
  settled : ∀ first second, first ≤ second → second ≤ first + 2 * DAY_MS → ∃ change,
    (∀ instant, first ≤ instant → instant < change → offset instant = offset first) ∧
    ∀ instant, change ≤ instant → instant ≤ second → offset instant = offset second

/-- What the clock of the zone shows, as the instant at which a clock on UTC shows it. -/
def Zone.wall (zone : Zone) (instant : ℤ) : ℤ := instant + 1000 * zone.offset instant

/-! ## The instant -/

/-- `Date.UTC(year, …)` counts the years from 0 to 99 from 1900 on. -/
def fullYear (date : Date) : Date :=
  { date with year := if 0 ≤ date.year ∧ date.year ≤ 99 then 1900 + date.year else date.year }

/-- `Date.UTC`. -/
def dateUTC (date : Date) (hour minute second : ℤ) : ℤ :=
  (dayNumber (fullYear date) * 86400 + hour * 3600 + minute * 60 + second) * 1000

/-- What `formatToParts` gives for an instant, by the reading of the clock. -/
structure Parts where
  date : Date
  hour : ℤ
  minute : ℤ
  second : ℤ

def formatToParts (zone : Zone) (instant : ℤ) : Parts :=
  let second := zone.wall instant % DAY_MS / 1000
  { date := dateOf (zone.wall instant / DAY_MS)
    hour := second / 3600
    minute := second / 60 % 60
    second := second % 60 }

def tzDateParts (instant : ℤ) (zone : Zone) : Date := (formatToParts zone instant).date

def wallTimeInTzToUtcMs (date : Date) (hour minute : ℤ) (zone : Zone) : ℤ :=
  let naive := dateUTC date hour minute 0
  let parts := formatToParts zone naive
  let tzAsUtc := dateUTC parts.date parts.hour parts.minute parts.second
  let offset := tzAsUtc - naive
  naive - offset

def addOneDay (date : Date) : Date :=
  let t := dateOf (dayNumber (fullYear date))
  dateOf (dayNumber { t with day := t.day + 1 })

/-- The zones that exist, by their names: formatting in any other zone throws. -/
abbrev Zones := List Char → Option Zone

/-- The clock does not stand before 1970. -/
def parseClaudeCliResetTime (zones : Zones) (message : List Char) (nowMs : ℕ) : Option ℤ := do
  let stanza ← stanzaOf message
  let zone ← zones stanza.zone
  let today := tzDateParts nowMs zone
  let candidate := wallTimeInTzToUtcMs today stanza.hour stanza.minute zone
  if candidate ≤ nowMs then
    let tomorrow := addOneDay today
    let next := wallTimeInTzToUtcMs tomorrow stanza.hour stanza.minute zone
    return next + RESET_TIME_GRACE_MS
  else return candidate + RESET_TIME_GRACE_MS

end Flockctl.RateLimits

/-!
# Which reset times are resolved right

The advertised reset is the first instant from now on at which the clock of the zone turns to the
named time. The offset used for it is that of the zone at the instant at which a clock on UTC shows
the time. Where the zone has another offset at the reset itself, the result is off by the
difference; and a candidate of today that is not yet over keeps tomorrow from being tried.
-/

namespace Flockctl.RateLimits

open Calendar

/-! ## The advertised reset -/

/-- The reading of the wall clock at the time of the stanza on this day. -/
def Stanza.reading (stanza : Stanza) (day : ℤ) : ℤ :=
  day * DAY_MS + (stanza.hour * 3600 + stanza.minute * 60) * 1000

/-- The day that the wall clock shows. -/
def Zone.day (zone : Zone) (instant : ℤ) : ℤ := zone.wall instant / DAY_MS

/-- The wall clock turns to the time of the stanza. -/
def Shows (zone : Zone) (stanza : Stanza) (instant : ℤ) : Prop :=
  zone.wall instant = stanza.reading (zone.day instant)

/-- The first instant from now on at which the wall clock turns to the time of the stanza. -/
structure IsReset (zone : Zone) (stanza : Stanza) (now reset : ℤ) : Prop where
  later : now < reset
  shows_ : Shows zone stanza reset
  first : ∀ instant, now < instant → instant < reset → ¬Shows zone stanza instant

/-- On this day the wall clock shows the time exactly once. -/
def OnceOn (zone : Zone) (stanza : Stanza) (day : ℤ) : Prop :=
  ∃! instant, zone.wall instant = stanza.reading day

/-- The result is the reset and the grace, if the wall clock shows the time exactly once on the day
of the reset; then it is not before the reset and at most 25 hours and the grace from now. -/
def ResolvesReset (zones : Zones) (message : List Char) (stanza : Stanza) (zone : Zone)
    (nowMs : ℕ) : Prop :=
  ∀ reset, IsReset zone stanza nowMs reset → OnceOn zone stanza (zone.day reset) →
    ∃ result, parseClaudeCliResetTime zones message nowMs = some result ∧
      result = reset + RESET_TIME_GRACE_MS ∧ reset ≤ result ∧
      result ≤ nowMs + 25 * 3600 * 1000 + RESET_TIME_GRACE_MS

/-- The offset at the instant at which a clock on UTC shows this time on this day. -/
def naiveOffset (zone : Zone) (stanza : Stanza) (day : ℤ) : ℤ :=
  zone.offset (stanza.reading day)

/-- The reset is today or tomorrow, with the offset at which the time is looked up; and in the
latter case the time of today, by the offset looked up for it, is over. -/
def OffsetHolds (zone : Zone) (stanza : Stanza) (now reset : ℤ) : Prop :=
  (zone.day reset = zone.day now ∧
    naiveOffset zone stanza (zone.day now) = zone.offset reset) ∨
  (zone.day reset = zone.day now + 1 ∧
    stanza.reading (zone.day now) - 1000 * naiveOffset zone stanza (zone.day now) ≤ now ∧
    naiveOffset zone stanza (zone.day now + 1) = zone.offset reset)

/-! ## The round trip -/

theorem fullYear_dateOf {number : ℤ} (h : -100000 ≤ number) :
    fullYear (dateOf number) = dateOf number := by
  have hyear := year_dateOf_ge h
  have hnot : ¬(0 ≤ (dateOf number).year ∧ (dateOf number).year ≤ 99) := by omega
  rw [fullYear, if_neg hnot]

theorem dateUTC_dateOf {number : ℤ} (h : -100000 ≤ number) (hour minute second : ℤ) :
    dateUTC (dateOf number) hour minute second =
      number * DAY_MS + (hour * 3600 + minute * 60 + second) * 1000 := by
  rw [dateUTC, fullYear_dateOf h, dayNumber_dateOf, DAY_MS]
  omega

/-- The parts of a whole second give it back. -/
theorem dateUTC_formatToParts (zone : Zone) {instant : ℤ} (h : -100000 ≤ zone.day instant)
    (hsecond : zone.wall instant % 1000 = 0) :
    dateUTC (formatToParts zone instant).date (formatToParts zone instant).hour
      (formatToParts zone instant).minute (formatToParts zone instant).second =
      zone.wall instant := by
  unfold Zone.day at h
  unfold formatToParts
  rw [dateUTC_dateOf h]
  dsimp only
  unfold DAY_MS at *
  omega

theorem Stanza.reading_bounds (stanza : Stanza) (day : ℤ) :
    day * DAY_MS ≤ stanza.reading day ∧ stanza.reading day < (day + 1) * DAY_MS ∧
      stanza.reading day % 1000 = 0 := by
  have hhour := stanza.hour_lt
  have hminute := stanza.minute_lt
  unfold Stanza.reading DAY_MS
  omega

/-- A wall-clock time becomes the instant at which it is shown with the looked-up offset. -/
theorem wallTimeInTzToUtcMs_dateOf (zone : Zone) (stanza : Stanza) {day : ℤ} (h : -90000 ≤ day) :
    wallTimeInTzToUtcMs (dateOf day) stanza.hour stanza.minute zone =
      stanza.reading day - 1000 * naiveOffset zone stanza day := by
  have hnaive : dateUTC (dateOf day) stanza.hour stanza.minute 0 = stanza.reading day := by
    have hday : -100000 ≤ day := by omega
    rw [dateUTC_dateOf hday, Stanza.reading, Int.add_zero]
  obtain ⟨hlow, -, hwhole⟩ := stanza.reading_bounds day
  have hbounded := zone.bounded (stanza.reading day)
  have hday : -100000 ≤ zone.day (stanza.reading day) := by
    unfold Zone.day Zone.wall DAY_MS at *
    omega
  have hsecond : zone.wall (stanza.reading day) % 1000 = 0 := by
    unfold Zone.wall
    omega
  rw [wallTimeInTzToUtcMs, hnaive, dateUTC_formatToParts zone hday hsecond, Zone.wall, naiveOffset]
  omega

theorem day_now_ge (zone : Zone) (nowMs : ℕ) : -1 ≤ zone.day nowMs := by
  have hbounded := zone.bounded nowMs
  unfold Zone.day Zone.wall DAY_MS
  omega

theorem addOneDay_dateOf {day : ℤ} (h : -100000 ≤ day) : addOneDay (dateOf day) = dateOf (day + 1) := by
  rw [addOneDay, fullYear_dateOf h]
  simp only [dayNumber_dateOf, dayNumber_succ]

/-- The result, for a message with a stanza that names an existing zone. -/
theorem parseClaudeCliResetTime_eq {zones : Zones} {message : List Char} {stanza : Stanza}
    {zone : Zone} (hstanza : stanzaOf message = some stanza)
    (hzone : zones stanza.zone = some zone) (nowMs : ℕ) :
    parseClaudeCliResetTime zones message nowMs =
      some (if stanza.reading (zone.day nowMs) -
            1000 * naiveOffset zone stanza (zone.day nowMs) ≤ nowMs then
          stanza.reading (zone.day nowMs + 1) -
            1000 * naiveOffset zone stanza (zone.day nowMs + 1) + RESET_TIME_GRACE_MS
        else stanza.reading (zone.day nowMs) -
          1000 * naiveOffset zone stanza (zone.day nowMs) + RESET_TIME_GRACE_MS) := by
  have hday := day_now_ge zone nowMs
  have htoday : tzDateParts nowMs zone = dateOf (zone.day nowMs) := rfl
  have hcandidate : wallTimeInTzToUtcMs (dateOf (zone.day nowMs)) stanza.hour stanza.minute zone =
      stanza.reading (zone.day nowMs) - 1000 * naiveOffset zone stanza (zone.day nowMs) :=
    wallTimeInTzToUtcMs_dateOf zone stanza (by omega)
  have htomorrow : addOneDay (dateOf (zone.day nowMs)) = dateOf (zone.day nowMs + 1) :=
    addOneDay_dateOf (by omega)
  have hnext : wallTimeInTzToUtcMs (dateOf (zone.day nowMs + 1)) stanza.hour stanza.minute zone =
      stanza.reading (zone.day nowMs + 1) -
        1000 * naiveOffset zone stanza (zone.day nowMs + 1) :=
    wallTimeInTzToUtcMs_dateOf zone stanza (by omega)
  rw [parseClaudeCliResetTime, hstanza, Option.bind_eq_bind, Option.bind_some, hzone,
    Option.bind_eq_bind, Option.bind_some, htoday]
  dsimp only
  rw [hcandidate, htomorrow, hnext]
  split <;> rfl

/-! ## The day of the reset -/

section

variable {zone : Zone} {stanza : Stanza} {now reset : ℤ}

/-- Within two days the offset differs by one hour at most. -/
theorem Zone.offset_near (zone : Zone) (first second : ℤ) (h : first - 2 * DAY_MS ≤ second)
    (h' : second ≤ first + 2 * DAY_MS) :
    zone.offset first - 3600 ≤ zone.offset second ∧ zone.offset second ≤ zone.offset first + 3600 := by
  rcases Int.le_total first second with hle | hle
  · exact zone.gentle first second hle h'
  · have hgentle := zone.gentle second first hle (by omega)
    omega

/-- A reset on a day before today: the clock was set back in between, and showed the time before. -/
theorem today_le_day (h : IsReset zone stanza now reset)
    (honce : OnceOn zone stanza (zone.day reset)) : zone.day now ≤ zone.day reset := by
  by_contra hbefore
  have hlater := h.later
  have hreading : zone.wall reset < zone.wall now := by
    unfold Zone.day DAY_MS at hbefore
    omega
  have hbounds := zone.bounded now
  have hbounds' := zone.bounded reset
  have hnear : zone.offset now - 3600 ≤ zone.offset reset ∧
      zone.offset reset ≤ zone.offset now + 3600 := by
    unfold Zone.wall at hreading
    apply zone.offset_near <;> unfold DAY_MS <;> omega
  have hchanged : zone.offset now ≠ zone.offset reset := by
    unfold Zone.wall at hreading
    omega
  -- the instant before now at which the clock showed the same
  let earlier := now - (zone.wall now - zone.wall reset)
  have hearlier : earlier < now ∧ reset ≤ earlier + 2 * DAY_MS := by
    unfold Zone.wall at hreading
    simp only [earlier, Zone.wall, DAY_MS]
    omega
  obtain ⟨change, hfirst, hsecond⟩ := zone.settled earlier reset (by omega) hearlier.2
  have hnow : now < change := by
    by_contra hpast
    exact hchanged (hsecond now (by omega) (by omega))
  have hsame : zone.offset now = zone.offset earlier := hfirst now (by omega) hnow
  have hwall : zone.wall earlier = zone.wall reset := by
    have hdef : earlier = now - (zone.wall now - zone.wall reset) := rfl
    rw [Zone.wall, ← hsame, hdef]
    simp only [Zone.wall]
    omega
  obtain ⟨only, -, honly⟩ := honce
  have hshown : zone.wall reset = stanza.reading (zone.day reset) := h.shows_
  have hone : earlier = only := honly earlier (hwall.trans hshown)
  have htwo : reset = only := honly reset hshown
  omega

/-- The instants that a reset is compared with are less than two days away from it. -/
theorem reset_eq (h : IsReset zone stanza now reset) :
    reset = stanza.reading (zone.day reset) - 1000 * zone.offset reset := by
  have hshown : zone.wall reset = stanza.reading (zone.day reset) := h.shows_
  unfold Zone.wall at hshown
  omega

/-- Looking the time up on the day of the reset or a day next to it, the offset is off by an hour at
most. -/
theorem naiveOffset_near (h : IsReset zone stanza now reset) {day : ℤ}
    (hbefore : zone.day reset ≤ day + 1) (hbehind : day ≤ zone.day reset + 1) :
    naiveOffset zone stanza day - 3600 ≤ zone.offset reset ∧
      zone.offset reset ≤ naiveOffset zone stanza day + 3600 := by
  have heq := reset_eq h
  have hbounds := zone.bounded reset
  apply zone.offset_near (stanza.reading day) reset
  · unfold Stanza.reading DAY_MS at *
    omega
  · unfold Stanza.reading DAY_MS at *
    omega

theorem reading_succ (stanza : Stanza) (day : ℤ) :
    stanza.reading (day + 1) = stanza.reading day + DAY_MS := by
  unfold Stanza.reading DAY_MS
  omega

/-- A candidate of a day up to the one behind the reset is the reset exactly when it is of the same
day and looked up with the same offset. -/
theorem candidate_eq_iff (h : IsReset zone stanza now reset) {day : ℤ}
    (hday : day ≤ zone.day reset + 1) :
    stanza.reading day - 1000 * naiveOffset zone stanza day = reset ↔
      day = zone.day reset ∧ naiveOffset zone stanza day = zone.offset reset := by
  have heq := reset_eq h
  have hbounds := zone.bounded reset
  have hbounds' := zone.bounded (stanza.reading day)
  constructor
  · intro hcandidate
    have hsame : day = zone.day reset := by
      rcases Int.lt_or_le (day + 1) (zone.day reset) with hfar | hclose
      · unfold naiveOffset at hcandidate
        unfold Stanza.reading DAY_MS at *
        omega
      · have hnear := naiveOffset_near h hclose hday
        unfold Stanza.reading DAY_MS at *
        omega
    refine ⟨hsame, ?_⟩
    rw [← hsame] at heq
    omega
  · rintro ⟨rfl, hoffset⟩
    rw [hoffset]
    omega

/-- What is resolved with the offset of the reset is at most 25 hours away. -/
theorem reset_le (h : IsReset zone stanza now reset) (hholds : OffsetHolds zone stanza now reset) :
    reset ≤ now + 25 * 3600 * 1000 := by
  have heq := reset_eq h
  rcases hholds with ⟨htoday, -⟩ | ⟨htomorrow, hover, -⟩
  · have hlater := h.later
    have hbounds := zone.bounded now
    have hbounds' := zone.bounded reset
    obtain ⟨-, hhigh, -⟩ := stanza.reading_bounds (zone.day now)
    have hnow : zone.day now * DAY_MS ≤ zone.wall now := by
      unfold Zone.day DAY_MS
      omega
    rw [htoday] at heq
    -- two steps of two days bound the difference of the offsets, and then one does
    have hhalf := zone.offset_near now (now + DAY_MS)
      (by unfold DAY_MS; omega) (by unfold DAY_MS; omega)
    have hrest := zone.offset_near (now + DAY_MS) reset
      (by unfold DAY_MS; omega) (by unfold Zone.wall at hnow; unfold DAY_MS at *; omega)
    have hnear := zone.offset_near now reset
      (by unfold DAY_MS; omega) (by unfold Zone.wall at hnow; unfold DAY_MS at *; omega)
    unfold Zone.wall at hnow
    unfold DAY_MS at *
    omega
  · have hnear : naiveOffset zone stanza (zone.day now) - 3600 ≤ zone.offset reset ∧
        zone.offset reset ≤ naiveOffset zone stanza (zone.day now) + 3600 :=
      naiveOffset_near h (by omega) (by omega)
    rw [htomorrow, reading_succ] at heq
    unfold DAY_MS at heq
    omega

end

/-- For every zone, every instant and every message with a stanza that names an existing zone: the
reset is resolved right exactly when the offset at which its time is looked up is the one at the
reset, and the time of today is over if the reset is tomorrow. -/
theorem resolvesReset_iff {zones : Zones} {message : List Char} {stanza : Stanza} {zone : Zone}
    (hstanza : stanzaOf message = some stanza) (hzone : zones stanza.zone = some zone)
    (nowMs : ℕ) :
    ResolvesReset zones message stanza zone nowMs ↔
      ∀ reset, IsReset zone stanza nowMs reset → OnceOn zone stanza (zone.day reset) →
        OffsetHolds zone stanza nowMs reset := by
  apply forall_congr'
  intro reset
  apply imp_congr_right
  intro hreset
  apply imp_congr_right
  intro honce
  have hday := today_le_day hreset honce
  have htoday : stanza.reading (zone.day nowMs) -
        1000 * naiveOffset zone stanza (zone.day nowMs) = reset ↔ _ :=
    candidate_eq_iff hreset (by omega)
  rw [parseClaudeCliResetTime_eq hstanza hzone]
  constructor
  · rintro ⟨result, hresult, hequal, -, -⟩
    split at hresult
    next hover =>
      have hnext : stanza.reading (zone.day nowMs + 1) -
          1000 * naiveOffset zone stanza (zone.day nowMs + 1) = reset := by
        have hsame := Option.some.inj hresult
        omega
      obtain ⟨hsame, hoffset⟩ := (candidate_eq_iff hreset (by omega)).mp hnext
      exact .inr ⟨hsame.symm, hover, hoffset⟩
    next hahead =>
      have hcandidate : stanza.reading (zone.day nowMs) -
          1000 * naiveOffset zone stanza (zone.day nowMs) = reset := by
        have hsame := Option.some.inj hresult
        omega
      obtain ⟨hsame, hoffset⟩ := htoday.mp hcandidate
      exact .inl ⟨hsame.symm, hoffset⟩
  · intro hholds
    have hbound := reset_le hreset hholds
    have hgrace : 0 ≤ RESET_TIME_GRACE_MS := by decide
    refine ⟨reset + RESET_TIME_GRACE_MS, ?_, rfl, by omega, by omega⟩
    rcases hholds with ⟨hsame, hoffset⟩ | ⟨hsame, hover, hoffset⟩
    · have hcandidate := htoday.mpr ⟨hsame.symm, hoffset⟩
      have hlater := hreset.later
      rw [if_neg (by omega), hcandidate]
    · have hnext := (candidate_eq_iff hreset (by omega)).mpr ⟨hsame.symm, hoffset⟩
      rw [if_pos hover, hnext]

/-! ## A clock that is set back -/

/-- A zone with one change of its offset. -/
def turningZone (before after change : ℤ)
    (hbefore : -(14 * 3600) ≤ before ∧ before ≤ 14 * 3600)
    (hafter : -(14 * 3600) ≤ after ∧ after ≤ 14 * 3600)
    (hstep : before - 3600 ≤ after ∧ after ≤ before + 3600) : Zone where
  offset instant := if instant < change then before else after
  bounded instant := by split <;> assumption
  gentle first second hle _ := by split <;> split <;> omega
  settled first second hle _ := by
    refine ⟨change, ?_, ?_⟩
    · intro instant hfirst hchange
      rw [if_pos hchange, if_pos (by omega)]
    · intro instant hchange hsecond
      rw [if_neg (by omega), if_neg (by omega)]

/-- The clock of New York, which is set back by an hour on the first of November 2026. -/
def newYork : Zone :=
  turningZone (-4 * 3600) (-5 * 3600) 1793512800000 (by decide) (by decide) (by decide)

def newYorkZones : Zones :=
  fun name ↦ if name = "America/New_York".toList then some newYork else none

theorem zero_lt_sixty : 0 < 60 := by decide

/-- Three in the morning in New York. -/
def threeAm : Stanza where
  hour := 3
  minute := 0
  zone := "America/New_York".toList
  hour_lt := by decide
  minute_lt := zero_lt_sixty

theorem resolvesReset_iff_newYork :
    ResolvesReset newYorkZones "resets 3am (America/New_York)".toList threeAm newYork
        1793509200000 ↔
      ∀ reset, IsReset newYork threeAm (1793509200000 : ℕ) reset →
        OnceOn newYork threeAm (newYork.day reset) →
        OffsetHolds newYork threeAm (1793509200000 : ℕ) reset := by
  have hstanza : stanzaOf "resets 3am (America/New_York)".toList = some threeAm := by
    decide +kernel
  have hzone : newYorkZones threeAm.zone = some newYork := rfl
  exact resolvesReset_iff hstanza hzone 1793509200000

theorem wall_newYork (instant : ℤ) :
    newYork.wall instant =
      if instant < 1793512800000 then instant - 14400000 else instant - 18000000 := by
  have hoffset : newYork.offset instant =
      if instant < 1793512800000 then -4 * 3600 else -5 * 3600 := rfl
  rw [Zone.wall, hoffset]
  split <;> omega

/-- At eight on UTC it is three for the first time since five on UTC. -/
theorem isReset_newYork : IsReset newYork threeAm 1793509200000 1793520000000 where
  later := by decide
  shows_ := by
    unfold Shows
    decide +kernel
  first := by
    intro instant hnow hreset hshows
    unfold Shows Zone.day Stanza.reading threeAm DAY_MS at hshows
    rw [wall_newYork] at hshows
    dsimp only at hshows
    split at hshows <;> omega

theorem onceOn_newYork : OnceOn newYork threeAm (newYork.day 1793520000000) := by
  have hreading : threeAm.reading (newYork.day 1793520000000) = 1793502000000 := by
    decide +kernel
  rw [OnceOn, hreading]
  refine ⟨1793520000000, ?_, ?_⟩
  · change newYork.wall 1793520000000 = 1793502000000
    rw [wall_newYork]
    decide
  · intro instant hinstant
    rw [wall_newYork] at hinstant
    split at hinstant <;> omega

/-- On that day, an hour before the clock is set back, the reset at three is expected at two. -/
theorem not_resolvesReset :
    ¬∀ (zones : Zones) (message : List Char) (stanza : Stanza) (zone : Zone) (nowMs : ℕ),
      stanzaOf message = some stanza → zones stanza.zone = some zone →
        ResolvesReset zones message stanza zone nowMs := by
  intro h
  have hstanza : stanzaOf "resets 3am (America/New_York)".toList = some threeAm := by
    decide +kernel
  have hzone : newYorkZones threeAm.zone = some newYork := rfl
  have hresult : parseClaudeCliResetTime newYorkZones "resets 3am (America/New_York)".toList
      1793509200000 = some 1793516430000 := by
    decide +kernel
  obtain ⟨result, hparsed, hequal, -⟩ := h _ _ _ _ 1793509200000 hstanza hzone _ isReset_newYork
    onceOn_newYork
  rw [hresult] at hparsed
  cases hparsed
  exact absurd hequal (by decide)

end Flockctl.RateLimits
