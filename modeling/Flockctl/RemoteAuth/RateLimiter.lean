import Flockctl.Collections.JsMap
import Flockctl.Encoding.Utf8
import Mathlib.Algebra.GroupWithZero.Nat
import Mathlib.Data.List.Perm.Subperm

/-!
# Counting failures by key

The limiter keeps, for each key, the number of failures in the current window and the time at which
the window ends. A failure after the end opens a new window, and a full map drops the entries whose
window has ended, or else its oldest entry, before it takes a new one. As long as fewer keys than
the map holds have a window that is running, no such entry is dropped.
-/

namespace Flockctl.RemoteAuth

open Collections

structure RateLimiterOptions where
  maxAttempts : ℕ
  windowMs : ℕ
  maxKeys : ℕ := 10000

structure FailedEntry where
  count : ℕ
  resetAt : ℕ
  deriving DecidableEq

/-- The map of a limiter. -/
abbrev FailedMap := JsMap String FailedEntry

/-- Whether the key has exceeded the attempts, with the map that is left. -/
def isLimited (options : RateLimiterOptions) (failed : FailedMap) (key : String) (now : ℕ) :
    Bool × FailedMap :=
  match failed.get key with
  | none => (false, failed)
  | some entry =>
    if entry.resetAt < now then (false, failed.delete key)
    else (decide (options.maxAttempts ≤ entry.count), failed)

def dropExpired (now : ℕ) (entry : String × FailedEntry) (failed : FailedMap) : FailedMap :=
  if entry.2.resetAt < now then failed.delete entry.1 else failed

/-- The sweep of expired entries, which ends as soon as there is room. -/
def sweepExpired (maxKeys now : ℕ) : List (String × FailedEntry) → FailedMap → FailedMap
  | [], failed => failed
  | entry :: rest, failed =>
    if (dropExpired now entry failed).size < maxKeys then dropExpired now entry failed
    else sweepExpired maxKeys now rest (dropExpired now entry failed)

def evictIfFull (options : RateLimiterOptions) (failed : FailedMap) (now : ℕ) : FailedMap :=
  if failed.size < options.maxKeys then failed
  else
    let swept := sweepExpired options.maxKeys now failed.entries failed
    if swept.size < options.maxKeys then swept
    else
      match swept.keys.head? with
      | some oldest => swept.delete oldest
      | none => swept

def recordFailure (options : RateLimiterOptions) (failed : FailedMap) (key : String) (now : ℕ) :
    FailedMap :=
  match failed.get key with
  | none => (evictIfFull options failed now).set key ⟨1, now + options.windowMs⟩
  | some entry =>
    if entry.resetAt < now then
      (evictIfFull options failed now).set key ⟨1, now + options.windowMs⟩
    else failed.set key { entry with count := entry.count + 1 }

/-- The second map is the first without some of its expired entries. -/
def DropsExpired (failed kept : FailedMap) (now : ℕ) : Prop :=
  ∀ key, kept.get key = failed.get key ∨
    kept.get key = none ∧ ∃ entry, failed.get key = some entry ∧ entry.resetAt < now

/-- The keys whose window is running. -/
def liveKeys (failed : FailedMap) (now : ℕ) : List String :=
  (failed.entries.filter fun entry ↦ decide (now ≤ entry.2.resetAt)).map Prod.fst

theorem mem_liveKeys {failed : FailedMap} {now : ℕ} {key : String} :
    key ∈ liveKeys failed now ↔ ∃ entry, failed.get key = some entry ∧ now ≤ entry.resetAt := by
  simp only [liveKeys, List.mem_map, List.mem_filter, decide_eq_true_eq, Prod.exists,
    JsMap.mem_entries_iff, exists_and_right, exists_eq_right]

theorem nodup_liveKeys (failed : FailedMap) (now : ℕ) : (liveKeys failed now).Nodup :=
  failed.nodup.sublist (List.filter_sublist.map Prod.fst)

variable {maxKeys now : ℕ}

theorem get_dropExpired (now : ℕ) (entry : String × FailedEntry) (failed : FailedMap) (key : String) :
    (dropExpired now entry failed).get key = failed.get key ∨
      (dropExpired now entry failed).get key = none ∧ key = entry.1 ∧ entry.2.resetAt < now := by
  unfold dropExpired
  split
  · rename_i hexpired
    by_cases hkey : key = entry.1
    · right
      rw [hkey]
      exact ⟨JsMap.get_delete_self failed entry.1, rfl, hexpired⟩
    · exact Or.inl (JsMap.get_delete_of_ne failed hkey)
  · exact Or.inl rfl

/-- The sweep drops expired entries only. -/
theorem get_sweepExpired (maxKeys now : ℕ) (rest : List (String × FailedEntry))
    (failed : FailedMap) (key : String) :
    (sweepExpired maxKeys now rest failed).get key = failed.get key ∨
      (sweepExpired maxKeys now rest failed).get key = none ∧
        ∃ entry, (key, entry) ∈ rest ∧ entry.resetAt < now := by
  induction rest generalizing failed with
  | nil => exact Or.inl rfl
  | cons first rest ih =>
    have hhead (h : key = first.1 ∧ first.2.resetAt < now) :
        ∃ found, (key, found) ∈ first :: rest ∧ found.resetAt < now :=
      ⟨first.2, by rw [h.1]; exact List.mem_cons_self, h.2⟩
    have hkept := get_dropExpired now first failed key
    rw [sweepExpired]
    split
    · rcases hkept with hsame | ⟨hnone, hexpired⟩
      · exact Or.inl hsame
      · exact Or.inr ⟨hnone, hhead hexpired⟩
    · rcases ih (dropExpired now first failed) with hsame | ⟨hnone, found, hfound, hexpired⟩
      · rw [hsame]
        rcases hkept with hkeep | ⟨hgone, hexpired⟩
        · exact Or.inl hkeep
        · exact Or.inr ⟨hgone, hhead hexpired⟩
      · exact Or.inr ⟨hnone, found, List.mem_cons_of_mem _ hfound, hexpired⟩

/-- A sweep that has not made room has dropped all expired entries. -/
theorem get_sweepExpired_of_full {rest : List (String × FailedEntry)} {failed : FailedMap}
    (hfull : maxKeys ≤ (sweepExpired maxKeys now rest failed).size) {key : String}
    {entry : FailedEntry} (hentry : (key, entry) ∈ rest) (hexpired : entry.resetAt < now) :
    (sweepExpired maxKeys now rest failed).get key = none := by
  induction rest generalizing failed with
  | nil => exact absurd hentry List.not_mem_nil
  | cons first rest ih =>
    rw [sweepExpired] at hfull ⊢
    by_cases hroom : (dropExpired now first failed).size < maxKeys
    · rw [if_pos hroom] at hfull
      omega
    · rw [if_neg hroom] at hfull ⊢
      rcases List.mem_cons.mp hentry with rfl | hrest
      · have hgone : (dropExpired now (key, entry) failed).get key = none := by
          rw [dropExpired, if_pos hexpired]
          exact JsMap.get_delete_self failed key
        rcases get_sweepExpired maxKeys now rest (dropExpired now (key, entry) failed) key with
          hsame | ⟨hnone, -⟩
        · rw [hsame, hgone]
        · exact hnone
      · exact ih hfull hrest

theorem size_le_of_subset {failed : FailedMap} {keys : List String}
    (h : ∀ key entry, failed.get key = some entry → key ∈ keys) : failed.size ≤ keys.length := by
  have hkeys : failed.keys.length ≤ keys.length := by
    apply (failed.nodup.subperm fun key hkey ↦ ?_).length_le
    obtain ⟨entry, hentry⟩ := (JsMap.mem_keys_iff failed key).mp hkey
    exact h key entry hentry
  rwa [JsMap.keys, List.length_map] at hkeys

/-- Where fewer keys have a window that is running than the map holds, an eviction makes room by
dropping expired entries. -/
theorem evictIfFull_spec {options : RateLimiterOptions} {failed : FailedMap}
    (hlive : (liveKeys failed now).length < options.maxKeys) :
    (evictIfFull options failed now).size < options.maxKeys ∧
      DropsExpired failed (evictIfFull options failed now) now := by
  unfold evictIfFull
  split
  · rename_i hroom
    exact ⟨hroom, fun key ↦ Or.inl rfl⟩
  dsimp only
  have hswept := get_sweepExpired options.maxKeys now failed.entries failed
  have hroom : (sweepExpired options.maxKeys now failed.entries failed).size <
      options.maxKeys := by
    by_contra hfull
    have hsize : (sweepExpired options.maxKeys now failed.entries failed).size ≤
        (liveKeys failed now).length := by
      apply size_le_of_subset
      intro key entry hentry
      have hold : failed.get key = some entry := by
        rcases hswept key with hsame | ⟨hnone, -⟩
        · rw [← hsame, hentry]
        · rw [hnone] at hentry
          cases hentry
      refine mem_liveKeys.mpr ⟨entry, hold, ?_⟩
      by_contra hexpired
      have hgone := get_sweepExpired_of_full (Nat.le_of_not_lt hfull)
        ((JsMap.mem_entries_iff failed key entry).mpr hold) (Nat.lt_of_not_le hexpired)
      rw [hgone] at hentry
      cases hentry
    omega
  rw [if_pos hroom]
  refine ⟨hroom, fun key ↦ ?_⟩
  rcases hswept key with hsame | ⟨hnone, entry, hentry, hexpired⟩
  · exact Or.inl hsame
  · exact Or.inr ⟨hnone, entry, (JsMap.mem_entries_iff failed key entry).mp hentry, hexpired⟩

theorem isLimited_iff (options : RateLimiterOptions) (failed : FailedMap) (key : String)
    (now : ℕ) :
    (isLimited options failed key now).1 = true ↔
      ∃ entry, failed.get key = some entry ∧ now ≤ entry.resetAt ∧
        options.maxAttempts ≤ entry.count := by
  unfold isLimited
  cases hentry : failed.get key with
  | none => simp
  | some entry =>
    simp only [Option.some.injEq, exists_eq_left']
    split
    · rename_i hexpired
      simp only [Bool.false_eq_true, false_iff, not_and]
      omega
    · rename_i hlive
      simp only [decide_eq_true_eq]
      omega

theorem isLimited_drops (options : RateLimiterOptions) (failed : FailedMap) (key : String)
    (now : ℕ) :
    DropsExpired failed (isLimited options failed key now).2 now ∧
      (isLimited options failed key now).2.size ≤ failed.size := by
  unfold isLimited
  cases hentry : failed.get key with
  | none => exact ⟨fun other ↦ Or.inl rfl, Nat.le_refl _⟩
  | some entry =>
    dsimp only
    split
    · rename_i hexpired
      refine ⟨fun other ↦ ?_, JsMap.size_delete_le failed key⟩
      by_cases hother : other = key
      · right
        rw [hother]
        exact ⟨JsMap.get_delete_self failed key, entry, hentry, hexpired⟩
      · exact Or.inl (JsMap.get_delete_of_ne failed hother)
    · exact ⟨fun other ↦ Or.inl rfl, Nat.le_refl _⟩

/-- A failure of a key whose window is running. -/
theorem recordFailure_live {options : RateLimiterOptions} {failed : FailedMap} {key : String}
    {entry : FailedEntry} (hentry : failed.get key = some entry) (hlive : now ≤ entry.resetAt) :
    recordFailure options failed key now =
      failed.set key { entry with count := entry.count + 1 } := by
  rw [recordFailure, hentry]
  exact if_neg (Nat.not_lt.mpr hlive)

/-- A failure of another key opens a window. -/
theorem recordFailure_opens {options : RateLimiterOptions} {failed : FailedMap} {key : String}
    (hnone : ∀ entry, failed.get key = some entry → entry.resetAt < now) :
    recordFailure options failed key now =
      (evictIfFull options failed now).set key ⟨1, now + options.windowMs⟩ := by
  unfold recordFailure
  cases hentry : failed.get key with
  | none => rfl
  | some entry => exact if_pos (hnone entry hentry)

/-- The map does not outgrow its bound where fewer keys have a window that is running. -/
theorem size_recordFailure_le {options : RateLimiterOptions} {failed : FailedMap}
    (hsize : failed.size ≤ options.maxKeys)
    (hlive : (liveKeys failed now).length < options.maxKeys) (key : String) :
    (recordFailure options failed key now).size ≤ options.maxKeys := by
  have hopened : ((evictIfFull options failed now).set key
      ⟨1, now + options.windowMs⟩).size ≤ options.maxKeys := by
    have hroom := (evictIfFull_spec hlive).1
    rw [JsMap.size_set]
    split
    · omega
    · omega
  unfold recordFailure
  cases hentry : failed.get key with
  | none => exact hopened
  | some entry =>
    dsimp only
    split
    · exact hopened
    · rw [JsMap.size_set, hentry]
      exact hsize

end Flockctl.RemoteAuth

/-!
# The authentication of remote requests

Every request runs through `remoteAuth`, which looks at the bearer token of its header and counts
what it rejects by address. The endpoints of the WebSocket upgrade go on to verify the token of the
query. Both compare with the tokens that the configuration holds at that moment.
-/

namespace Flockctl.RemoteAuth

open Encoding

/-- An entry of the token list of the configuration file, as far as its fields are texts. -/
structure RawToken where
  label : Option String
  token : Option String
  deriving DecidableEq

/-- The two fields of the configuration file; the list is missing when it is no array. -/
structure RemoteConfig where
  remoteAccessTokens : Option (List RawToken)
  remoteAccessToken : Option String
  deriving DecidableEq

structure RemoteAccessToken where
  label : String
  token : String
  deriving DecidableEq

def MIN_TOKEN_LENGTH : ℕ := 32

/-- `text.length`, in UTF-16 code units. -/
def utf16Length (text : String) : ℕ :=
  (text.toList.map fun c ↦ if c.toNat < 0x10000 then 1 else 2).sum

/-- The list after one more entry of the configuration. -/
def pushToken (out : List RemoteAccessToken) : RawToken → List RemoteAccessToken
  | ⟨some label, some token⟩ =>
    if label = "" ∨ token = "" ∨ utf16Length token < MIN_TOKEN_LENGTH ∨
        out.any (fun known ↦ known.label = label) then out
    else out ++ [⟨label, token⟩]
  | _ => out

def getConfiguredTokens (rc : RemoteConfig) : List RemoteAccessToken :=
  let out := (rc.remoteAccessTokens.getD []).foldl pushToken []
  match rc.remoteAccessToken with
  | none => out
  | some token =>
    if out.any (fun known ↦ known.label = "default") then out
    else if MIN_TOKEN_LENGTH ≤ utf16Length token then out ++ [⟨"default", token⟩]
    else out

def hasRemoteAuth (rc : RemoteConfig) : Bool := !(getConfiguredTokens rc).isEmpty

/-- The comparison of two tokens: their lengths, then their bytes. -/
def tokensEqual (provided token : String) : Bool :=
  utf16Length provided == utf16Length token && encode provided.toList == encode token.toList

theorem tokensEqual_iff (provided token : String) :
    tokensEqual provided token = true ↔ provided = token := by
  rw [tokensEqual, Bool.and_eq_true, beq_iff_eq, beq_iff_eq, encode_injective.eq_iff,
    String.toList_inj, and_iff_right_iff_imp]
  exact congrArg utf16Length

/-- The label of the first token that matches. -/
def findMatchingToken (rc : RemoteConfig) (provided : String) : Option String :=
  ((getConfiguredTokens rc).find? fun known ↦ tokensEqual provided known.token).map
    RemoteAccessToken.label

/-- What a request asks for: an ordinary path, or an upgrade with the token of its query. -/
inductive Endpoint
  | http (method path : String)
  | upgrade (token : Option String)
  deriving DecidableEq

structure RemoteRequest where
  address : String
  authorization : Option String
  endpoint : Endpoint
  deriving DecidableEq

def isLocalhost (ip : String) : Bool :=
  ip == "127.0.0.1" || ip == "::1" || ip == "::ffff:127.0.0.1" || ip == "localhost"

def isPublicPath : Endpoint → Bool
  | .http method path => (method == "GET" && path == "/health") || method == "OPTIONS"
  | .upgrade _ => false

/-- The bearer token of the header. -/
def RemoteRequest.provided (request : RemoteRequest) : Option String :=
  match request.authorization with
  | none => none
  | some header =>
    if "Bearer ".toList.isPrefixOf header.toList then some (String.ofList (header.toList.drop 7))
    else none

/-- `token ? findMatchingToken(token) : null`. -/
def matchToken (rc : RemoteConfig) : Option String → Option String
  | none => none
  | some token => if token = "" then none else findMatchingToken rc token

/-- A request that is not asked for a token. -/
def isExempt (rc : RemoteConfig) (request : RemoteRequest) : Bool :=
  !hasRemoteAuth rc || isPublicPath request.endpoint || isLocalhost request.address

inductive Verdict
  | next
  | limited
  | unauthorized
  deriving DecidableEq

def remoteAuth (options : RateLimiterOptions) (rc : RemoteConfig) (request : RemoteRequest)
    (failed : FailedMap) (now : ℕ) : Verdict × FailedMap :=
  if isExempt rc request then (.next, failed)
  else
    match isLimited options failed request.address now with
    | (true, kept) => (.limited, kept)
    | (false, kept) =>
      match matchToken rc request.provided with
      | none => (.unauthorized, recordFailure options kept request.address now)
      | some _ => (.next, kept)

/-- `verifyWsToken`, with the reason of a refusal. -/
def verifyWsToken (rc : RemoteConfig) (address : String) (token : Option String) : Option String :=
  if !hasRemoteAuth rc || isLocalhost address then none
  else
    match token with
    | none => some "Missing token"
    | some provided =>
      if provided = "" then some "Missing token"
      else if (findMatchingToken rc provided).isNone then some "Invalid token"
      else none

inductive Answer
  | accepted
  /-- 429 -/
  | limited
  /-- 401 -/
  | unauthorized
  /-- closed with the code 1008 -/
  | closed (reason : String)
  deriving DecidableEq

/-- The answer to a request that `remoteAuth` lets through. -/
def route (rc : RemoteConfig) (request : RemoteRequest) : Answer :=
  match request.endpoint with
  | .http _ _ => .accepted
  | .upgrade token =>
    match verifyWsToken rc request.address token with
    | none => .accepted
    | some reason => .closed reason

def answerOf (rc : RemoteConfig) (request : RemoteRequest) : Verdict → Answer
  | .next => route rc request
  | .limited => .limited
  | .unauthorized => .unauthorized

/-- The token that a request has to bring: an upgrade brings it in the query, because a browser sets
no header there. -/
def RemoteRequest.presented (request : RemoteRequest) : Option String :=
  match request.endpoint with
  | .http _ _ => request.provided
  | .upgrade token => token

/-- A request with the time since the one before it and the configuration it meets. -/
structure AuthEvent where
  elapsed : ℕ
  rc : RemoteConfig
  request : RemoteRequest

/-- An answered request: whether it brought a valid token, and whether its address was limited. -/
structure Exchange where
  valid : Bool
  limited : Bool
  answer : Answer
  deriving DecidableEq

/-- The limiter, the clock, and a record of the failed checks and the answers. -/
structure AuthState where
  failed : FailedMap := Collections.JsMap.empty
  now : ℕ := 0
  failures : List (String × ℕ) := []
  exchanges : List Exchange := []

/-- Whether the token of a request has been looked at and not found. -/
def isFailure (answer : Answer) : Bool :=
  answer = .unauthorized || answer = .closed "Invalid token"

def step (options : RateLimiterOptions) (state : AuthState) (event : AuthEvent) : AuthState :=
  let now := state.now + event.elapsed
  let verdict := remoteAuth options event.rc event.request state.failed now
  let answer := answerOf event.rc event.request verdict.1
  { failed := verdict.2
    now := now
    failures :=
      if isFailure answer then state.failures ++ [(event.request.address, now)] else state.failures
    exchanges := state.exchanges ++
      [{ valid := (matchToken event.rc event.request.presented).isSome
         limited := (isLimited options state.failed event.request.address now).1
         answer := answer }] }

end Flockctl.RemoteAuth
