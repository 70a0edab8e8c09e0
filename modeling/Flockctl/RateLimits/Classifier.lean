import Flockctl.RateLimits.ResetTime

/-!
# The classifier of provider limits

An error a turn ends in is a limit if its status is 429, if its type is `billing_error`, or if its
message matches a pattern. A limit comes with the time to resume at. The time is exact where the
provider sent it, in a header or in the message, and is estimated otherwise. For estimated limits
there is a lattice of waits, 15, 30 and 60 minutes, by the number of the attempt.
-/

namespace Flockctl.RateLimits

open Calendar Collections

def MIN_ESTIMATED_DELAY_MS : ℤ := 15 * 60 * 1000

def MAX_ESTIMATED_DELAY_MS : ℤ := 60 * 60 * 1000

def DEFAULT_RATE_LIMIT_FALLBACK_MS : ℤ := 60 * 1000

/-- What a pattern is made of: `\b`, letters of any case, an optional character out of some, and
`\s+`. -/
inductive Piece
  | boundary
  | word (letters : List Char)
  | mayBe (characters : List Char)
  | blanks
  deriving DecidableEq, Repr

abbrev Pattern := List Piece

/-- `\b`: one of the two characters around the position is a word character. -/
def isBoundary (previous : Option Char) (text : List Char) : Bool :=
  previous.any isWordChar != text.head?.any isWordChar

/-- The pattern matches at the start of the text, behind this character. -/
def Pattern.matchesAt : Pattern → Option Char → List Char → Bool
  | [], _, _ => true
  | .boundary :: pattern, previous, text =>
    isBoundary previous text && Pattern.matchesAt pattern previous text
  | .word letters :: pattern, previous, text =>
    match takeWord letters text with
    | none => false
    | some rest =>
      Pattern.matchesAt pattern ((text.take letters.length).getLast?.or previous) rest
  | .mayBe characters :: pattern, previous, text =>
    (text.head?.any characters.contains && Pattern.matchesAt pattern text.head? text.tail) ||
      Pattern.matchesAt pattern previous text
  | .blanks :: pattern, _, text =>
    -- No pattern goes on with another blank, so that the longest match is the only one to try.
    match takeBlanks text with
    | none => false
    | some rest => Pattern.matchesAt pattern (some ' ') rest

/-- The pattern matches somewhere from a position behind this character on. -/
def Pattern.testFrom (pattern : Pattern) : Option Char → List Char → Bool
  | previous, [] => pattern.matchesAt previous []
  | previous, c :: text =>
    pattern.matchesAt previous (c :: text) || pattern.testFrom (some c) text

/-- `RegExp.test`. -/
def Pattern.test (pattern : Pattern) (message : List Char) : Bool := pattern.testFrom none message

/-- A pattern that is a word alone. -/
def plain (letters : String) : Pattern := [.word letters.toList]

def ANTHROPIC_USAGE_LIMIT_PATTERNS : List Pattern :=
  [[.boundary, .word "usage limit".toList, .boundary],
    [.boundary, .word "weekly limit".toList, .boundary],
    plain "claude ai usage limit reached",
    [.boundary, .word "billing".toList, .mayBe ['_', '-'], .word "error".toList, .boundary],
    [.boundary, .word "quota".toList, .blanks, .word "exceeded".toList, .boundary],
    [.boundary, .word "hit your limit".toList, .boundary]]

/-- `\brate[_-]?limit`. -/
def rateLimitPattern : Pattern :=
  [.boundary, .word "rate".toList, .mayBe ['_', '-'], .word "limit".toList]

def ANTHROPIC_RATE_LIMIT_MESSAGE_PATTERNS : List Pattern :=
  [rateLimitPattern,
    [.boundary, .word "429".toList, .boundary],
    plain "requests per minute",
    plain "tokens per minute"]

def COPILOT_LIMIT_PATTERNS : List Pattern :=
  [[.boundary, .word "premium request".toList],
    [.boundary, .word "quota".toList, .boundary],
    rateLimitPattern,
    plain "usage limit"]

/-- The value of a field, as far as the classifier tells the values apart. -/
inductive Field
  | nullish
  | text (value : List Char)
  | other
  deriving DecidableEq, Repr

/-- `a ?? b`. -/
def Field.orElse : Field → Field → Field
  | .nullish, other => other
  | value, _ => value

/-- What `get` of the headers gives for a name, or the property of that name. -/
abbrev Headers := List Char → Option (List Char)

/-- An object that is thrown. `message` is what `String` makes of its message, where it has one, and
`printed` what it makes of the object; a status is left out where it is not a whole number. -/
structure ErrorObject where
  message : Option (List Char)
  printed : List Char := []
  status : Option ℤ := none
  statusCode : Option ℤ := none
  headers : Option Headers := none
  type : Field := .nullish
  errorType : Field := .nullish
  provider : Field := .nullish

inductive Thrown
  | object (obj : ErrorObject)
  | text (message : List Char)
  | other (printed : List Char)

def extractMessage : Thrown → List Char
  | .object obj => obj.message.getD obj.printed
  | .text message => message
  | .other printed => printed

inductive RateLimitKind
  | rateLimit
  | usageLimit
  | quota
  deriving DecidableEq, Repr

inductive RateLimitProvider
  | anthropic
  | copilot
  | openai
  | unknown
  deriving DecidableEq, Repr

inductive Confidence
  | exact
  | estimated
  deriving DecidableEq, Repr

structure RateLimitInfo where
  kind : RateLimitKind
  provider : RateLimitProvider
  resumeAtMs : ℤ
  confidence : Confidence
  rawMessage : List Char
  deriving DecidableEq, Repr

/-- `/a|b/i.test(message)`. -/
def mentions (message : List Char) (words : List String) : Bool :=
  words.any fun word ↦ (plain word).test message

def guessProviderFromError (obj : ErrorObject) (message : List Char) : RateLimitProvider :=
  let fromMessage :=
    if mentions message ["anthropic", "claude"] then .anthropic
    else if mentions message ["openai", "gpt"] then .openai
    else if mentions message ["copilot"] then .copilot
    else .unknown
  match obj.provider with
  | .text p =>
    if mentions p ["anthropic", "claude"] then .anthropic
    else if mentions p ["openai"] then .openai
    else if mentions p ["copilot"] then .copilot
    else fromMessage
  | _ => fromMessage

/-- What the platform reads from texts: `Number` of a header, where it is finite, `Date.parse`,
where the text is a date, and the time zones. -/
structure Readings where
  number : List Char → Option ℤ
  date : List Char → Option ℤ
  zones : Zones

/-- A header under its name in one of its cases, unless it is empty. -/
def headerOf (headers : Headers) (name : String) : Option (List Char) :=
  (((headers name.toList).or (headers name.toLower.toList)).or
    (headers name.toUpper.toList)).filter (· ≠ [])

variable (readings : Readings)

/-- `Number(text)`, where it is finite and not negative. -/
def delayOf (text : List Char) : Option ℤ := (readings.number text).filter (0 ≤ ·)

def readRetryAfterMs (headers : Option Headers) (nowMs : ℤ) : Option ℤ := do
  let headers ← headers
  let fromMs := (headerOf headers "retry-after-ms").bind (delayOf readings)
  let fromSeconds := (headerOf headers "retry-after").bind fun ra ↦
    ((delayOf readings ra).map (· * 1000)).or
      ((readings.date ra).map fun t ↦ if 0 < t - nowMs then t - nowMs else 0)
  fromMs.or fromSeconds

/-- The error is an object whose status is 429. -/
def isStructured : Thrown → Bool
  | .object obj => obj.status == some 429 || obj.statusCode == some 429
  | _ => false

def headersOf : Thrown → Option Headers
  | .object obj => obj.headers
  | _ => none

def providerOf : Thrown → RateLimitProvider
  | .object obj => guessProviderFromError obj (extractMessage (.object obj))
  | _ => .unknown

/-- `obj?.type ?? obj?.error?.type`. -/
def errorTypeOf : Thrown → Field
  | .object obj => obj.type.orElse obj.errorType
  | _ => .nullish

def isUsageLimit (err : Thrown) : Bool :=
  errorTypeOf err == .text "billing_error".toList ||
    ANTHROPIC_USAGE_LIMIT_PATTERNS.any fun re ↦ re.test (extractMessage err)

def isRateLimitMessage (err : Thrown) : Bool :=
  ANTHROPIC_RATE_LIMIT_MESSAGE_PATTERNS.any fun re ↦ re.test (extractMessage err)

def isCopilotLimit (err : Thrown) : Bool :=
  (plain "copilot sdk error").test (extractMessage err) &&
    COPILOT_LIMIT_PATTERNS.any fun re ↦ re.test (extractMessage err)

def classifyLimit (err : Thrown) (now : ℤ) : Option RateLimitInfo :=
  let message := extractMessage err
  if isStructured err then
    match readRetryAfterMs readings (headersOf err) now with
    | some headerMs => some ⟨.rateLimit, providerOf err, now + headerMs, .exact, message⟩
    | none =>
      some ⟨.rateLimit, providerOf err, now + DEFAULT_RATE_LIMIT_FALLBACK_MS, .estimated, message⟩
  else if isUsageLimit err then
    match parseClaudeCliResetTime readings.zones message now.toNat with
    | some exactResetMs => some ⟨.usageLimit, .anthropic, exactResetMs, .exact, message⟩
    | none =>
      some ⟨.usageLimit, .anthropic, now + MIN_ESTIMATED_DELAY_MS, .estimated, message⟩
  else if isRateLimitMessage err then
    some ⟨.rateLimit, .anthropic, now + MIN_ESTIMATED_DELAY_MS, .estimated, message⟩
  else if isCopilotLimit err then
    some ⟨.quota, .copilot, now + MIN_ESTIMATED_DELAY_MS, .estimated, message⟩
  else none

def nextEstimatedDelayMs (attempt : ℕ) : ℤ :=
  if attempt = 0 then MIN_ESTIMATED_DELAY_MS
  else if attempt = 1 then 30 * 60 * 1000
  else MAX_ESTIMATED_DELAY_MS

/-- The time the provider sent: by the headers of a 429, and in the message of any other limit. -/
def providerTime (err : Thrown) (now : ℤ) : Option ℤ :=
  if isStructured err then (readRetryAfterMs readings (headersOf err) now).map (now + ·)
  else parseClaudeCliResetTime readings.zones (extractMessage err) now.toNat

variable {readings}

/-- The classifier hands on the time of the provider where it calls it exact. A limit that is
estimated is to be waited for a minute if its status is 429, and for fifteen minutes otherwise. -/
theorem resumeAtMs_of_classifyLimit {err : Thrown} {now : ℤ} {info : RateLimitInfo}
    (hinfo : classifyLimit readings err now = some info) :
    match info.confidence with
    | .exact => providerTime readings err now = some info.resumeAtMs
    | .estimated =>
      info.resumeAtMs = now + if isStructured err then DEFAULT_RATE_LIMIT_FALLBACK_MS
        else MIN_ESTIMATED_DELAY_MS := by
  unfold classifyLimit at hinfo
  unfold providerTime
  cases hstructured : isStructured err with
  | true =>
    simp only [hstructured, if_true] at hinfo ⊢
    cases hheader : readRetryAfterMs readings (headersOf err) now with
    | some headerMs =>
      rw [hheader] at hinfo
      cases hinfo
      rfl
    | none =>
      rw [hheader] at hinfo
      cases hinfo
      rfl
  | false =>
    simp only [hstructured, Bool.false_eq_true, if_false] at hinfo ⊢
    split at hinfo
    · cases hreset : parseClaudeCliResetTime readings.zones (extractMessage err) now.toNat with
      | some exactResetMs =>
        rw [hreset] at hinfo
        cases hinfo
        rfl
      | none =>
        rw [hreset] at hinfo
        cases hinfo
        rfl
    · split at hinfo
      · cases hinfo
        rfl
      · split at hinfo
        · cases hinfo
          rfl
        · cases hinfo

/-- The lattice starts at fifteen minutes, and never comes back to that. -/
theorem nextEstimatedDelayMs_eq_min_iff (attempt : ℕ) :
    nextEstimatedDelayMs attempt = MIN_ESTIMATED_DELAY_MS ↔ attempt = 0 := by
  unfold nextEstimatedDelayMs MIN_ESTIMATED_DELAY_MS MAX_ESTIMATED_DELAY_MS
  split
  · simp_all
  · split <;> simp_all

/-- Every wait of the lattice is at least fifteen minutes and at most an hour. -/
theorem nextEstimatedDelayMs_bounds (attempt : ℕ) :
    MIN_ESTIMATED_DELAY_MS ≤ nextEstimatedDelayMs attempt ∧
      nextEstimatedDelayMs attempt ≤ MAX_ESTIMATED_DELAY_MS := by
  unfold nextEstimatedDelayMs MIN_ESTIMATED_DELAY_MS MAX_ESTIMATED_DELAY_MS
  split <;> [skip; split] <;> omega

example : (classifyLimit ⟨fun _ ↦ none, fun _ ↦ none, fun _ ↦ none⟩
    (.text "Claude AI usage limit reached".toList) 0).map RateLimitInfo.resumeAtMs =
      some MIN_ESTIMATED_DELAY_MS := by
  decide +kernel

end Flockctl.RateLimits
