import Flockctl.RemoteAuth.RateLimiter
import Flockctl.Transition.Run
import Mathlib.Data.List.Dedup
import Mathlib.Data.List.Induction

/-!
# The bound on token guesses

The failures of an address fall into windows, each opened by the first failure after the last one
has ended. In every run whose upgrades bring a bearer token that is valid exactly when the token of
the query is, no window counts more failures than the options allow, every valid token is accepted
unless its address is limited, an address is limited by its own failures only, and the map keeps to
its bound. An upgrade that brings only the token of its query, as a browser does, is rejected
instead.
-/

namespace Flockctl.RemoteAuth

open Collections Transition

/-! ## Windows -/

structure Window where
  opened : ℕ
  failures : ℕ
  deriving DecidableEq

/-- The window after a failure. -/
def observe (windowMs : ℕ) (window : Option Window) (now : ℕ) : Window :=
  match window with
  | none => ⟨now, 1⟩
  | some current =>
    if current.opened + windowMs < now then ⟨now, 1⟩
    else { current with failures := current.failures + 1 }

/-- The last window of an address. -/
def windowOf (windowMs : ℕ) (failures : List (String × ℕ)) (address : String) : Option Window :=
  failures.foldl
    (fun window failure ↦
      if failure.1 = address then some (observe windowMs window failure.2) else window) none

variable {windowMs : ℕ}

theorem windowOf_concat (failures : List (String × ℕ)) (address other : String) (now : ℕ) :
    windowOf windowMs (failures ++ [(other, now)]) address =
      if other = address then some (observe windowMs (windowOf windowMs failures address) now)
      else windowOf windowMs failures address := by
  rw [windowOf, List.foldl_append]
  rfl

/-- A window is opened by a failure of its address. -/
theorem mem_of_windowOf {failures : List (String × ℕ)} {address : String} {window : Window}
    (h : windowOf windowMs failures address = some window) : (address, window.opened) ∈ failures := by
  induction failures using List.reverseRecOn generalizing window with
  | nil => cases h
  | append_singleton failures last ih =>
    obtain ⟨other, now⟩ := last
    rw [windowOf_concat] at h
    by_cases hother : other = address
    · rw [if_pos hother, Option.some.injEq] at h
      have hopened : window.opened = now ∨
          ∃ current, windowOf windowMs failures address = some current ∧
            window.opened = current.opened := by
        rw [← h]
        unfold observe
        split
        · exact Or.inl rfl
        · rename_i current hcurrent
          split
          · exact Or.inl rfl
          · exact Or.inr ⟨current, hcurrent, rfl⟩
      rcases hopened with hnow | ⟨current, hcurrent, hsame⟩
      · rw [hnow, hother]
        exact List.mem_append_right failures List.mem_cons_self
      · rw [hsame]
        exact List.mem_append_left _ (ih hcurrent)
    · rw [if_neg hother] at h
      exact List.mem_append_left _ (ih h)

/-- The addresses that have failed within the last window. -/
def recentAddresses (windowMs : ℕ) (failures : List (String × ℕ)) (now : ℕ) : List String :=
  ((failures.filter fun failure ↦ decide (now ≤ failure.2 + windowMs)).map Prod.fst).dedup

theorem mem_recentAddresses {failures : List (String × ℕ)} {now : ℕ} {address : String} :
    address ∈ recentAddresses windowMs failures now ↔
      ∃ at', (address, at') ∈ failures ∧ now ≤ at' + windowMs := by
  simp only [recentAddresses, List.mem_dedup, List.mem_map, List.mem_filter, decide_eq_true_eq,
    Prod.exists, exists_and_right, exists_eq_right]

/-- What holds of the limiter and of the answers. -/
structure Bounded (options : RateLimiterOptions) (state : AuthState) : Prop where
  guesses : ∀ address window, windowOf options.windowMs state.failures address = some window →
    window.failures ≤ options.maxAttempts
  accepted : ∀ exchange ∈ state.exchanges, exchange.valid = true → exchange.limited = false →
    exchange.answer = .accepted
  isolated : ∀ address now, state.now ≤ now →
    (isLimited options state.failed address now).1 = true →
      ∃ window, windowOf options.windowMs state.failures address = some window ∧
        now ≤ window.opened + options.windowMs ∧ options.maxAttempts ≤ window.failures
  capped : state.failed.size ≤ options.maxKeys

/-- An upgrade that is asked for a token brings two tokens that are both valid or both not. -/
def TokensAgree (options : RateLimiterOptions) (state : AuthState) (event : AuthEvent) : Prop :=
  match event.request.endpoint with
  | .http _ _ => True
  | .upgrade token =>
    isExempt event.rc event.request = false →
      (isLimited options state.failed event.request.address (state.now + event.elapsed)).1 = false →
        token.getD "" ≠ "" →
          ((matchToken event.rc token).isSome ↔
            (matchToken event.rc event.request.provided).isSome)

instance (options : RateLimiterOptions) (state : AuthState) (event : AuthEvent) :
    Decidable (TokensAgree options state event) := by
  unfold TokensAgree
  split
  · exact inferInstance
  · exact inferInstance

/-- The events after which everything stays bounded: some attempt is allowed, fewer addresses than
the map holds have failed within one window, and the tokens of an upgrade agree. -/
def IsPlainEvent (options : RateLimiterOptions) (state : AuthState) (event : AuthEvent) : Prop :=
  0 < options.maxAttempts ∧
    (recentAddresses options.windowMs (step options state event).failures
      (step options state event).now).length < options.maxKeys ∧
      TokensAgree options state event

instance (options : RateLimiterOptions) (state : AuthState) (event : AuthEvent) :
    Decidable (IsPlainEvent options state event) :=
  inferInstanceAs (Decidable (_ ∧ _ ∧ _))

/-! ## The limiter counts the windows -/

/-- The map holds the running windows, and nothing but windows. -/
structure Counts (windowMs : ℕ) (failed : FailedMap) (now : ℕ) (failures : List (String × ℕ)) :
    Prop where
  entry : ∀ address entry, failed.get address = some entry →
    ∃ window, windowOf windowMs failures address = some window ∧
      entry = ⟨window.failures, window.opened + windowMs⟩
  live : ∀ address window, windowOf windowMs failures address = some window →
    now ≤ window.opened + windowMs →
      failed.get address = some ⟨window.failures, window.opened + windowMs⟩

variable {failed kept : FailedMap} {now : ℕ} {failures : List (String × ℕ)}

/-- Time passes, and expired entries are dropped. -/
theorem Counts.drops (h : Counts windowMs failed now failures) {later : ℕ} (hlater : now ≤ later)
    (hdrops : DropsExpired failed kept later) : Counts windowMs kept later failures where
  entry address entry hentry := by
    rcases hdrops address with hsame | ⟨hnone, -⟩
    · exact h.entry address entry (hsame ▸ hentry)
    · rw [hnone] at hentry
      cases hentry
  live address window hwindow hlive := by
    have hold := h.live address window hwindow (Nat.le_trans hlater hlive)
    rcases hdrops address with hsame | ⟨-, entry, hentry, hexpired⟩
    · rw [hsame, hold]
    · rw [hold, Option.some.injEq] at hentry
      rw [← hentry] at hexpired
      dsimp only at hexpired
      omega

theorem Counts.liveKeys_length_le (h : Counts windowMs failed now failures) :
    (liveKeys failed now).length ≤ (recentAddresses windowMs failures now).length := by
  apply ((nodup_liveKeys failed now).subperm fun address haddress ↦ ?_).length_le
  obtain ⟨entry, hentry, hlive⟩ := mem_liveKeys.mp haddress
  obtain ⟨window, hwindow, rfl⟩ := h.entry address entry hentry
  exact mem_recentAddresses.mpr ⟨window.opened, mem_of_windowOf hwindow, hlive⟩

/-- The map with the window of an address after its failure. -/
theorem Counts.set (h : Counts windowMs failed now failures) {address : String} (window : Window)
    (hobserve : observe windowMs (windowOf windowMs failures address) now = window) :
    Counts windowMs (failed.set address ⟨window.failures, window.opened + windowMs⟩) now
      (failures ++ [(address, now)]) where
  entry other entry hother := by
    rw [JsMap.get_set] at hother
    rw [windowOf_concat]
    split at hother
    · rename_i hsame
      rw [if_pos hsame.symm, hsame, hobserve]
      exact ⟨window, rfl, (Option.some.inj hother).symm⟩
    · rename_i hne
      rw [if_neg (Ne.symm hne)]
      exact h.entry other entry hother
  live other current hcurrent hlive := by
    rw [windowOf_concat] at hcurrent
    rw [JsMap.get_set]
    split at hcurrent
    · rename_i hsame
      rw [← hsame, hobserve, Option.some.injEq] at hcurrent
      rw [if_pos hsame.symm, ← hcurrent]
    · rename_i hne
      rw [if_neg (Ne.symm hne)]
      exact h.live other current hcurrent hlive

/-- A failure goes into the window of its address. -/
theorem Counts.record {options : RateLimiterOptions}
    (h : Counts options.windowMs failed now failures)
    (hroom : (liveKeys failed now).length < options.maxKeys) (address : String) :
    Counts options.windowMs (recordFailure options failed address now) now
      (failures ++ [(address, now)]) := by
  by_cases hrunning : ∃ window, windowOf options.windowMs failures address = some window ∧
      now ≤ window.opened + options.windowMs
  · obtain ⟨window, hwindow, hlive⟩ := hrunning
    rw [recordFailure_live (h.live address window hwindow hlive) hlive]
    apply h.set { window with failures := window.failures + 1 }
    rw [hwindow]
    exact if_neg (Nat.not_lt.mpr hlive)
  · have hended (window : Window)
        (hwindow : windowOf options.windowMs failures address = some window) :
        window.opened + options.windowMs < now := by
      by_contra hlive
      exact hrunning ⟨window, hwindow, Nat.le_of_not_lt hlive⟩
    rw [recordFailure_opens]
    · apply (h.drops (Nat.le_refl now) (evictIfFull_spec hroom).2).set ⟨now, 1⟩
      cases hwindow : windowOf options.windowMs failures address with
      | none => rfl
      | some window => exact if_pos (hended window hwindow)
    · intro entry hentry
      obtain ⟨window, hwindow, rfl⟩ := h.entry address entry hentry
      exact hended window hwindow

/-! ## One request -/

variable {options : RateLimiterOptions} {state : AuthState} {event : AuthEvent}

/-- Where the address is not limited, its window has room for one failure more. -/
theorem Counts.observe_le (h : Counts options.windowMs failed now failures)
    (hattempts : 0 < options.maxAttempts) {address : String}
    (hfree : (isLimited options failed address now).1 = false) :
    (observe options.windowMs (windowOf options.windowMs failures address) now).failures ≤
      options.maxAttempts := by
  cases hwindow : windowOf options.windowMs failures address with
  | none => exact hattempts
  | some window =>
    unfold observe
    dsimp only
    split
    · exact hattempts
    · rename_i hlive
      have hentry := h.live address window hwindow (Nat.le_of_not_lt hlive)
      have hcount : ¬ options.maxAttempts ≤ window.failures := fun hfull ↦ by
        have hlimited := (isLimited_iff options failed address now).mpr
          ⟨_, hentry, Nat.le_of_not_lt hlive, hfull⟩
        rw [hfree] at hlimited
        cases hlimited
      exact Nat.lt_of_not_le hcount

/-- What `remoteAuth` has done. -/
theorem remoteAuth_cases (options : RateLimiterOptions) (rc : RemoteConfig)
    (request : RemoteRequest) (failed : FailedMap) (now : ℕ) :
    (isExempt rc request = true ∧ remoteAuth options rc request failed now = (.next, failed)) ∨
    (isExempt rc request = false ∧ (isLimited options failed request.address now).1 = true ∧
      remoteAuth options rc request failed now =
        (.limited, (isLimited options failed request.address now).2)) ∨
    (isExempt rc request = false ∧ (isLimited options failed request.address now).1 = false ∧
      (matchToken rc request.provided).isSome = true ∧
        remoteAuth options rc request failed now =
          (.next, (isLimited options failed request.address now).2)) ∨
    (isExempt rc request = false ∧ (isLimited options failed request.address now).1 = false ∧
      (matchToken rc request.provided).isSome = false ∧
        remoteAuth options rc request failed now =
          (.unauthorized, recordFailure options
            (isLimited options failed request.address now).2 request.address now)) := by
  unfold remoteAuth
  by_cases hexempt : isExempt rc request = true
  · left
    exact ⟨hexempt, if_pos hexempt⟩
  · right
    rw [Bool.not_eq_true] at hexempt
    simp only [hexempt, Bool.false_eq_true, if_false, true_and]
    obtain ⟨limited, kept⟩ := isLimited options failed request.address now
    cases limited with
    | true => exact Or.inl ⟨rfl, rfl⟩
    | false =>
      right
      cases hmatch : matchToken rc request.provided with
      | none => exact Or.inr ⟨rfl, rfl, rfl⟩
      | some label => exact Or.inl ⟨rfl, rfl, rfl⟩

/-- A valid token in the query is verified. -/
theorem verifyWsToken_of_valid {rc : RemoteConfig} {token : Option String} (address : String)
    (h : (matchToken rc token).isSome = true) : verifyWsToken rc address token = none := by
  cases token with
  | none => cases h
  | some provided =>
    by_cases hempty : provided = ""
    · simp only [matchToken, hempty, if_true, Option.isSome_none, Bool.false_eq_true] at h
    · simp only [matchToken, hempty, if_false] at h
      have hsome : (findMatchingToken rc provided).isNone = false := by
        rw [Option.isNone_eq_false_iff]
        exact h
      simp only [verifyWsToken, hempty, hsome, if_false, Bool.false_eq_true, ite_self]

/-- A token that is called invalid is there and matches nothing. -/
theorem invalid_of_verifyWsToken {rc : RemoteConfig} {token : Option String} {address : String}
    (h : verifyWsToken rc address token = some "Invalid token") :
    token.getD "" ≠ "" ∧ (matchToken rc token).isSome = false := by
  cases token with
  | none =>
    simp only [verifyWsToken] at h
    split at h <;> simp at h
  | some provided =>
    simp only [verifyWsToken] at h
    split at h
    · cases h
    · split at h
      · simp at h
      · rename_i hempty
        split at h
        · rename_i hnone
          refine ⟨hempty, ?_⟩
          simp only [matchToken, hempty, if_false]
          rwa [← Option.not_isSome, Bool.not_eq_true'] at hnone
        · cases h

/-- The answer to an exempt request. -/
theorem route_of_exempt {rc : RemoteConfig} {request : RemoteRequest}
    (h : isExempt rc request = true) : route rc request = .accepted := by
  unfold route
  cases hendpoint : request.endpoint with
  | http method path => rfl
  | upgrade token =>
    have hskip : (!hasRemoteAuth rc || isLocalhost request.address) = true := by
      simpa [isExempt, hendpoint, isPublicPath] using h
    simp only [verifyWsToken, hskip, if_true]

/-- A request that brings a valid token is let through by its route. -/
theorem route_of_valid {rc : RemoteConfig} {request : RemoteRequest}
    (h : (matchToken rc request.presented).isSome = true) : route rc request = .accepted := by
  unfold route
  unfold RemoteRequest.presented at h
  cases hendpoint : request.endpoint with
  | http method path => rfl
  | upgrade token =>
    rw [hendpoint] at h
    simp only [verifyWsToken_of_valid request.address h]

/-- The state of the limiter agrees with the record, and so far everything is bounded. -/
structure Holds (options : RateLimiterOptions) (state : AuthState) : Prop where
  counts : Counts options.windowMs state.failed state.now state.failures
  guesses : ∀ address window, windowOf options.windowMs state.failures address = some window →
    window.failures ≤ options.maxAttempts
  accepted : ∀ exchange ∈ state.exchanges, exchange.valid = true → exchange.limited = false →
    exchange.answer = .accepted
  capped : state.failed.size ≤ options.maxKeys

theorem Holds.bounded (h : Holds options state) : Bounded options state where
  guesses := h.guesses
  accepted := h.accepted
  isolated address now hnow hlimited := by
    obtain ⟨entry, hentry, hlive, hfull⟩ := (isLimited_iff options _ address now).mp hlimited
    obtain ⟨window, hwindow, rfl⟩ := h.counts.entry address entry hentry
    exact ⟨window, hwindow, hlive, hfull⟩
  capped := h.capped

theorem holds_start (options : RateLimiterOptions) : Holds options {} where
  counts := ⟨fun _ _ h ↦ (Option.some_ne_none _ h.symm).elim,
    fun _ _ h ↦ (Option.some_ne_none _ h.symm).elim⟩
  guesses _ _ h := (Option.some_ne_none _ h.symm).elim
  accepted _ h := absurd h List.not_mem_nil
  capped := Nat.zero_le _

theorem recentAddresses_length_le (failures : List (String × ℕ)) (last : String × ℕ) (now : ℕ) :
    (recentAddresses windowMs failures now).length ≤
      (recentAddresses windowMs (failures ++ [last]) now).length := by
  apply ((List.nodup_dedup _).subperm fun address haddress ↦ ?_).length_le
  obtain ⟨time, htime, hrecent⟩ := mem_recentAddresses.mp haddress
  exact mem_recentAddresses.mpr ⟨time, List.mem_append_left _ htime, hrecent⟩

/-- A request that is let through and brings a bearer token fails no check. -/
theorem not_isFailure_route (hagree : TokensAgree options state event)
    (hexempt : isExempt event.rc event.request = false)
    (hfree : (isLimited options state.failed event.request.address
      (state.now + event.elapsed)).1 = false)
    (hheader : (matchToken event.rc event.request.provided).isSome = true) :
    isFailure (route event.rc event.request) = false := by
  unfold route
  unfold TokensAgree at hagree
  cases hendpoint : event.request.endpoint with
  | http method path => rfl
  | upgrade token =>
    rw [hendpoint] at hagree
    cases hverify : verifyWsToken event.rc event.request.address token with
    | none => simp only [hverify, isFailure, reduceCtorEq, decide_false, Bool.or_self]
    | some reason =>
      have hreason : reason ≠ "Invalid token" := by
        rintro rfl
        obtain ⟨hgiven, hinvalid⟩ := invalid_of_verifyWsToken hverify
        rw [(hagree hexempt hfree hgiven).mpr hheader] at hinvalid
        cases hinvalid
      simp only [hverify, isFailure, Answer.closed.injEq, hreason, reduceCtorEq, decide_false,
        Bool.or_self]

/-- A request whose bearer token is not valid brings no valid token at all. -/
theorem not_valid_of_header (hagree : TokensAgree options state event)
    (hexempt : isExempt event.rc event.request = false)
    (hfree : (isLimited options state.failed event.request.address
      (state.now + event.elapsed)).1 = false)
    (hheader : (matchToken event.rc event.request.provided).isSome = false) :
    (matchToken event.rc event.request.presented).isSome = false := by
  unfold RemoteRequest.presented
  unfold TokensAgree at hagree
  cases hendpoint : event.request.endpoint with
  | http method path => exact hheader
  | upgrade token =>
    rw [hendpoint] at hagree
    by_contra hvalid
    rw [Bool.not_eq_false] at hvalid
    have hgiven : token.getD "" ≠ "" := by
      intro hempty
      cases token with
      | none => cases hvalid
      | some provided =>
        rw [Option.getD_some] at hempty
        simp only [matchToken, hempty, if_true, Option.isSome_none, Bool.false_eq_true] at hvalid
    rw [(hagree hexempt hfree hgiven).mp hvalid] at hheader
    cases hheader

/-- What one exchange adds to the record. -/
theorem accepted_concat {exchanges : List Exchange} {last : Exchange}
    (hold : ∀ exchange ∈ exchanges, exchange.valid = true → exchange.limited = false →
      exchange.answer = .accepted)
    (hlast : last.valid = true → last.limited = false → last.answer = .accepted) :
    ∀ exchange ∈ exchanges ++ [last], exchange.valid = true → exchange.limited = false →
      exchange.answer = .accepted := by
  intro exchange hexchange
  rcases List.mem_append.mp hexchange with hmem | hmem
  · exact hold exchange hmem
  · rw [List.mem_singleton.mp hmem]
    exact hlast

theorem holds_step (h : Holds options state) (hevent : IsPlainEvent options state event) :
    Holds options (step options state event) := by
  obtain ⟨hattempts, hfew, hagree⟩ := hevent
  have hlater : state.now ≤ state.now + event.elapsed := Nat.le_add_right _ _
  have hdrops := isLimited_drops options state.failed event.request.address
    (state.now + event.elapsed)
  unfold step at hfew ⊢
  dsimp only at hfew ⊢
  rcases remoteAuth_cases options event.rc event.request state.failed
      (state.now + event.elapsed) with
    ⟨hexempt, hauth⟩ | ⟨hexempt, hlimited, hauth⟩ | ⟨hexempt, hfree, hheader, hauth⟩ |
      ⟨hexempt, hfree, hheader, hauth⟩
  · have hroute := route_of_exempt hexempt
    simp only [hauth, answerOf, hroute]
    exact
      { counts := h.counts.drops hlater fun _ ↦ Or.inl rfl
        guesses := h.guesses
        accepted := accepted_concat h.accepted fun _ _ ↦ rfl
        capped := h.capped }
  · simp only [hauth, answerOf, hlimited]
    exact
      { counts := h.counts.drops hlater hdrops.1
        guesses := h.guesses
        accepted := accepted_concat h.accepted fun _ hfalse ↦ absurd hfalse (by simp)
        capped := Nat.le_trans hdrops.2 h.capped }
  · have hnone := not_isFailure_route hagree hexempt hfree hheader
    simp only [hauth, answerOf, hnone]
    exact
      { counts := h.counts.drops hlater hdrops.1
        guesses := h.guesses
        accepted := accepted_concat h.accepted fun hvalid _ ↦ route_of_valid hvalid
        capped := Nat.le_trans hdrops.2 h.capped }
  · have hvalid := not_valid_of_header hagree hexempt hfree hheader
    have hfailure : isFailure .unauthorized = true := rfl
    simp only [hauth, answerOf, hfailure, if_true] at hfew ⊢
    have hcounts := h.counts.drops hlater hdrops.1
    have hroom : (liveKeys (isLimited options state.failed event.request.address
        (state.now + event.elapsed)).2 (state.now + event.elapsed)).length < options.maxKeys :=
      calc _ ≤ (recentAddresses options.windowMs state.failures
              (state.now + event.elapsed)).length := hcounts.liveKeys_length_le
        _ ≤ _ := recentAddresses_length_le _ _ _
        _ < options.maxKeys := hfew
    have hguesses : ∀ address window, windowOf options.windowMs
        (state.failures ++ [(event.request.address, state.now + event.elapsed)]) address =
          some window → window.failures ≤ options.maxAttempts := by
      intro address window hwindow
      rw [windowOf_concat] at hwindow
      split at hwindow
      · rename_i hsame
        rw [← Option.some.inj hwindow, ← hsame]
        exact (h.counts.drops hlater fun _ ↦ Or.inl rfl).observe_le hattempts hfree
      · exact h.guesses address window hwindow
    exact
      { counts := hcounts.record hroom event.request.address
        guesses := hguesses
        accepted := accepted_concat h.accepted fun htrue _ ↦ absurd htrue (by simp [hvalid])
        capped := size_recordFailure_le (Nat.le_trans hdrops.2 h.capped) hroom _ }

/-! ## Every run -/

/-- In a run whose upgrades bring two tokens that agree, everything stays bounded. -/
theorem token_guessing_bounded (options : RateLimiterOptions) (events : List AuthEvent)
    (hevents : Disciplined (step options) (IsPlainEvent options) {} events) :
    ∀ before, before <+: events → Bounded options (run (step options) {} before) := by
  rintro before ⟨after, rfl⟩
  exact (run_invariant_before (fun _ _ ↦ holds_step) (holds_start options) before after
    hevents).bounded

def authRateLimiter : RateLimiterOptions where
  maxAttempts := 5
  windowMs := 60000

def laptopToken : String := "0123456789abcdef0123456789abcdef"

def oneToken : RemoteConfig where
  remoteAccessTokens := some [⟨some "laptop", some laptopToken⟩]
  remoteAccessToken := none

/-- An upgrade as a browser makes it: with the token in the query and no header. -/
def browserUpgrade : AuthEvent where
  elapsed := 0
  rc := oneToken
  request :=
    { address := "203.0.113.7"
      authorization := none
      endpoint := .upgrade (some laptopToken) }

/-- A guess, a request with the token, and an upgrade with the token in both places. -/
theorem token_guessing_bounded_three :
    let events : List AuthEvent :=
      [{ elapsed := 10
         rc := oneToken
         request :=
          { address := "203.0.113.7"
            authorization := some "Bearer guess"
            endpoint := .http "GET" "/tasks" } },
       { elapsed := 20
         rc := oneToken
         request :=
          { address := "203.0.113.7"
            authorization := some "Bearer 0123456789abcdef0123456789abcdef"
            endpoint := .http "GET" "/tasks" } },
       { elapsed := 5
         rc := oneToken
         request :=
          { address := "203.0.113.7"
            authorization := some "Bearer 0123456789abcdef0123456789abcdef"
            endpoint := .upgrade (some laptopToken) } }]
    ∀ before, before <+: events →
      Bounded authRateLimiter (run (step authRateLimiter) {} before) :=
  token_guessing_bounded authRateLimiter _ (by decide +kernel)

/-- The valid token of a browser's upgrade is rejected, although nothing has failed before. -/
theorem not_token_guessing_bounded :
    ¬ Bounded authRateLimiter (run (step authRateLimiter) {} [browserUpgrade]) := by
  intro h
  have hrejected : (run (step authRateLimiter) {} [browserUpgrade]).exchanges =
      [{ valid := true, limited := false, answer := .unauthorized }] := by decide +kernel
  have haccepted := h.accepted _ (by rw [hrejected]; exact List.mem_cons_self) rfl rfl
  cases haccepted

/-! ## Any traffic -/

theorem evictIfFull_size (hsize : failed.size ≤ max 1 options.maxKeys) :
    (evictIfFull options failed now).size < max 1 options.maxKeys := by
  have hswept : (sweepExpired options.maxKeys now failed.entries failed).size ≤ failed.size := by
    have hkeys : failed.keys.length = failed.size := List.length_map _
    rw [← hkeys]
    apply size_le_of_subset
    intro key entry hentry
    rcases get_sweepExpired options.maxKeys now failed.entries failed key with hsame | hnone
    · exact (JsMap.mem_keys_iff failed key).mpr ⟨entry, hsame ▸ hentry⟩
    · rw [hnone.1] at hentry
      cases hentry
  unfold evictIfFull
  split
  · omega
  · dsimp only
    split
    · omega
    · split
      · rename_i oldest holdest
        obtain ⟨entry, hentry⟩ := (JsMap.mem_keys_iff _ oldest).mp (List.mem_of_head? holdest)
        have hless := JsMap.size_delete_lt _ hentry
        omega
      · rename_i hempty
        rw [List.head?_eq_none_iff, JsMap.keys, List.map_eq_nil_iff] at hempty
        rw [JsMap.size, hempty, List.length_nil]
        omega

theorem size_recordFailure (hsize : failed.size ≤ max 1 options.maxKeys) (key : String) :
    (recordFailure options failed key now).size ≤ max 1 options.maxKeys := by
  have hopened : ((evictIfFull options failed now).set key
      ⟨1, now + options.windowMs⟩).size ≤ max 1 options.maxKeys := by
    have hroom : (evictIfFull options failed now).size < _ := evictIfFull_size hsize
    rw [JsMap.size_set]
    split <;> omega
  unfold recordFailure
  split
  · exact hopened
  · rename_i entry hentry
    split
    · exact hopened
    · rw [JsMap.size_set, hentry]
      exact hsize

/-- The limiter never outgrows its bound, however many addresses fail at the same time. -/
theorem failed_size_le_max (options : RateLimiterOptions) (events : List AuthEvent) :
    (run (step options) {} events).failed.size ≤ max 1 options.maxKeys := by
  have hstep (state : AuthState) (event : AuthEvent)
      (hsize : state.failed.size ≤ max 1 options.maxKeys) :
      (step options state event).failed.size ≤ max 1 options.maxKeys := by
    have hkept := Nat.le_trans (isLimited_drops options state.failed event.request.address
      (state.now + event.elapsed)).2 hsize
    change (remoteAuth options event.rc event.request state.failed
      (state.now + event.elapsed)).2.size ≤ _
    rcases remoteAuth_cases options event.rc event.request state.failed
        (state.now + event.elapsed) with
      ⟨-, hauth⟩ | ⟨-, -, hauth⟩ | ⟨-, -, -, hauth⟩ | ⟨-, -, -, hauth⟩
    · rwa [hauth]
    · rwa [hauth]
    · rwa [hauth]
    · rw [hauth]
      exact size_recordFailure hkept _
  have hstart : ({} : AuthState).failed.size ≤ max 1 options.maxKeys := Nat.zero_le _
  exact run_preserves hstep hstart events

/-- A token of the configuration, which is never short. -/
def IsConfigured (rc : RemoteConfig) (token : Option String) : Prop :=
  ∃ known ∈ getConfiguredTokens rc, token = some known.token ∧
    MIN_TOKEN_LENGTH ≤ utf16Length known.token

def AreLong (tokens : List RemoteAccessToken) : Prop :=
  ∀ known ∈ tokens, MIN_TOKEN_LENGTH ≤ utf16Length known.token

theorem areLong_concat {tokens : List RemoteAccessToken} (h : AreLong tokens)
    {known : RemoteAccessToken} (hknown : MIN_TOKEN_LENGTH ≤ utf16Length known.token) :
    AreLong (tokens ++ [known]) := by
  rw [AreLong, List.forall_mem_append, List.forall_mem_singleton]
  exact ⟨h, hknown⟩

theorem areLong_getConfiguredTokens (rc : RemoteConfig) : AreLong (getConfiguredTokens rc) := by
  have hpush (out : List RemoteAccessToken) (raw : RawToken) (hout : AreLong out) :
      AreLong (pushToken out raw) := by
    unfold pushToken
    split
    · split
      · exact hout
      · rename_i haccepted
        exact areLong_concat hout (Nat.le_of_not_lt fun hshort ↦
          haccepted (Or.inr (Or.inr (Or.inl hshort))))
    · exact hout
  have hlist : AreLong (run pushToken [] (rc.remoteAccessTokens.getD [])) :=
    run_preserves hpush (fun _ hknown ↦ absurd hknown List.not_mem_nil) _
  unfold getConfiguredTokens
  dsimp only
  split
  · exact hlist
  · split
    · exact hlist
    · split
      · rename_i hlong
        exact areLong_concat hlist hlong
      · exact hlist

theorem isConfigured_of_matchToken {rc : RemoteConfig} {provided : Option String}
    (h : (matchToken rc provided).isSome = true) : IsConfigured rc provided := by
  cases provided with
  | none => cases h
  | some token =>
    simp only [matchToken, findMatchingToken] at h
    split at h
    · cases h
    · rw [Option.isSome_map, List.find?_isSome] at h
      obtain ⟨known, hknown, hequal⟩ := h
      exact ⟨known, hknown, congrArg some ((tokensEqual_iff _ _).mp hequal),
        areLong_getConfiguredTokens rc known hknown⟩

/-- A token that is verified has been found. -/
theorem isSome_of_verifyWsToken {rc : RemoteConfig} {address : String} {token : Option String}
    (hasked : (!hasRemoteAuth rc || isLocalhost address) = false)
    (h : verifyWsToken rc address token = none) : (matchToken rc token).isSome = true := by
  simp only [verifyWsToken, hasked, Bool.false_eq_true, if_false] at h
  cases token with
  | none => simp at h
  | some token =>
    by_cases hempty : token = ""
    · simp [hempty] at h
    · cases hfound : findMatchingToken rc token with
      | none => simp [hempty, hfound] at h
      | some label => simp [matchToken, hempty, hfound]

/-- Whoever is asked for a token is let in only with one of the configuration, in the header and,
for an upgrade, in the query too. -/
theorem accepted_only_with_token {rc : RemoteConfig} {request : RemoteRequest}
    (hasked : isExempt rc request = false)
    (haccepted : answerOf rc request (remoteAuth options rc request failed now).1 = .accepted) :
    IsConfigured rc request.provided ∧ IsConfigured rc request.presented := by
  have hboth : (matchToken rc request.provided).isSome = true ∧ route rc request = .accepted := by
    rcases remoteAuth_cases options rc request failed now with
      ⟨hexempt, -⟩ | ⟨-, -, hauth⟩ | ⟨-, -, hmatch, hauth⟩ | ⟨-, -, -, hauth⟩
    · rw [hasked] at hexempt
      cases hexempt
    · rw [hauth] at haccepted
      cases haccepted
    · rw [hauth] at haccepted
      exact ⟨hmatch, haccepted⟩
    · rw [hauth] at haccepted
      cases haccepted
  obtain ⟨hmatch, hroute⟩ := hboth
  refine ⟨isConfigured_of_matchToken hmatch, ?_⟩
  unfold RemoteRequest.presented
  cases hendpoint : request.endpoint with
  | http method path => exact isConfigured_of_matchToken hmatch
  | upgrade token =>
    rw [isExempt, hendpoint, isPublicPath, Bool.or_false] at hasked
    rw [route, hendpoint] at hroute
    dsimp only at hroute
    split at hroute
    · rename_i hverified
      exact isConfigured_of_matchToken (isSome_of_verifyWsToken hasked hverified)
    · cases hroute

theorem accepted_only_with_token_upgrade :
    IsConfigured oneToken (some laptopToken) ∧ IsConfigured oneToken (some laptopToken) :=
  @accepted_only_with_token JsMap.empty 0 authRateLimiter oneToken
    ⟨"203.0.113.7", some ("Bearer " ++ laptopToken), .upgrade (some laptopToken)⟩
    (by decide +kernel) (by decide +kernel)

end Flockctl.RemoteAuth
