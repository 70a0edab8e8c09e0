import Flockctl.LeaderElection.OneLeader
import Mathlib.Data.Fintype.Basic

/-!
# The election does not die out

A tab that concedes to a smaller one does nothing more until it hears of a leader, so the claim it
concedes to has to be backed by a tab that is still there. This is a matter of the tabs that vanish:
whoever stops or crashes must leave an heir, a tab that leads, claims or wakes by itself and, like
every started tab smaller than itself, has no claim of a smaller tab that nothing will follow.
-/

namespace Flockctl.LeaderElection

open Transition

universe u

variable {Id : Type u}

/-- A heartbeat or a `relinquish` starts the receiver's clock or a claim of its own. -/
def Msg.wakes : Msg Id → Bool
  | .claim _ => false
  | .heartbeat _ | .relinquish _ => true

namespace Browser

/-- A message that wakes the tab is on its way to it. -/
def Called (s : Browser Id) (id : Id) : Prop :=
  ∃ source, ∃ msg ∈ s.channels source id, msg.wakes

/-- The tab has seen a leader, or will have been told to claim or of a leader. -/
def Woken (s : Browser Id) (id : Id) : Prop :=
  0 < (s.tabs id).lastSeenLeaderAt ∨ s.Called id

/-- The tab leads, has an open claim, is a follower whose dead-check will claim, or has a message on
its way that causes one of these. -/
def Awake (s : Browser Id) (id : Id) : Prop :=
  (s.tabs id).started ∧
    ((s.tabs id).isLeaderFlag ∨ (s.tabs id).claimTimer ∨
      (0 < (s.tabs id).lastSeenLeaderAt ∧ (s.tabs id).deadcheckTimer) ∨ s.Called id)

/-- What arrives last from the sender is a claim. -/
def LastClaims (s : Browser Id) (sender id : Id) : Prop :=
  ∃ msg ∈ (s.channels sender id).getLast?, msg.wakes = false

section

variable [LinearOrder Id]

/-- The tab's open claim will lose to a smaller candidate, and nothing wakes the tab afterwards. -/
def Torn (s : Browser Id) (id : Id) : Prop :=
  (s.tabs id).claimTimer ∧ (∃ smaller ∈ (s.tabs id).claimCandidates, smaller < id) ∧ ¬ s.Woken id

/-- The tab may give way to a smaller one for good. -/
def Conceding (s : Browser Id) (id : Id) : Prop :=
  (∃ smaller < id, s.LastClaims smaller id) ∨ s.Torn id

/-- The tab is awake, and neither it nor a smaller started tab may give way for good. -/
def Steady (s : Browser Id) (id : Id) : Prop :=
  s.Awake id ∧ ∀ other ≤ id, (s.tabs other).started → ¬ s.Conceding other

/-- Where a tab is started, some tab is steady. -/
def Secure (s : Browser Id) : Prop :=
  (∃ id, (s.tabs id).started) → ∃ id, s.Steady id

/-- A tab other than the one that vanishes is awake or told by it to claim, and neither it nor a
smaller started tab may then give way for good. -/
def LeavesHeir (s : Browser Id) (gone : Id) (relinquishes : Prop) : Prop :=
  ∃ heir ≠ gone, (s.tabs heir).started ∧ (relinquishes ∨ s.Awake heir) ∧
    ∀ other ≤ heir, other ≠ gone → (s.tabs other).started →
      (∀ smaller < other, s.LastClaims smaller other → relinquishes ∧ smaller = gone) ∧
        (relinquishes ∨ ¬ s.Torn other)

/-- A started tab vanishes when it is alone, or leaves an heir. A leader that stops tells the others
to claim. -/
def vanishesGently (s : Browser Id) : Event Id → Prop
  | .stop id =>
    (s.tabs id).started → (∃ other ≠ id, (s.tabs other).started) →
      s.LeavesHeir id ((s.tabs id).isLeaderFlag = true)
  | .crash id =>
    (s.tabs id).started → (∃ other ≠ id, (s.tabs other).started) → s.LeavesHeir id False
  | _ => True

variable {s : Browser Id} {id other : Id} {handled : Posting Id}

/-! ## What a handler does to the other tabs -/

theorem called_commit_of_ne (hne : other ≠ id) (h : s.Called other) :
    (s.commit id handled).Called other := by
  obtain ⟨source, msg, hmsg, hwakes⟩ := h
  refine ⟨source, msg, ?_, hwakes⟩
  rw [commit_channels_of_ne hne]
  exact Channels.mem_post_of_mem _ hmsg

theorem woken_commit_of_ne (hne : other ≠ id) (h : s.Woken other) :
    (s.commit id handled).Woken other := by
  unfold Woken
  rw [commit_tabs_of_ne hne]
  exact h.imp_right (called_commit_of_ne hne)

theorem awake_commit_of_ne (hne : other ≠ id) (h : s.Awake other) :
    (s.commit id handled).Awake other := by
  unfold Awake
  rw [commit_tabs_of_ne hne]
  exact ⟨h.1, h.2.imp_right (Or.imp_right (Or.imp_right (called_commit_of_ne hne)))⟩

theorem torn_of_commit (hne : other ≠ id) (h : (s.commit id handled).Torn other) : s.Torn other := by
  obtain ⟨hclaims, hsmaller, hasleep⟩ := h
  rw [commit_tabs_of_ne hne] at hclaims hsmaller
  exact ⟨hclaims, hsmaller, fun hwoken ↦ hasleep (woken_commit_of_ne hne hwoken)⟩

/-- A queue that ends with a claim did so before, or got the claim from the handler. -/
theorem lastClaims_of_commit (hne : other ≠ id) {sender : Id}
    (h : (s.commit id handled).LastClaims sender other) :
    (s.LastClaims sender other ∧ (sender = id → (s.tabs other).channel → handled.2 = [])) ∨
      (sender = id ∧ ∃ msg ∈ handled.2.getLast?, msg.wakes = false) := by
  obtain ⟨msg, hmsg, hclaims⟩ := h
  rw [commit_channels_of_ne hne] at hmsg
  rcases eq_or_ne handled.2 [] with hnone | hsome
  · rw [hnone, Channels.post_nil] at hmsg
    exact Or.inl ⟨⟨msg, hmsg, hclaims⟩, fun _ _ ↦ hnone⟩
  · by_cases hsender : sender = id
    · subst hsender
      by_cases hopen : (s.tabs other).channel = true
      · rw [Channels.post_connected _ hne hopen, List.getLast?_append_of_ne_nil _ hsome] at hmsg
        exact Or.inr ⟨rfl, msg, hmsg, hclaims⟩
      · refine Or.inl ⟨⟨msg, ?_, hclaims⟩, fun _ h ↦ absurd h hopen⟩
        simpa [Channels.post, hopen] using hmsg
    · rw [Channels.post_of_ne_sender _ hsender] at hmsg
      exact Or.inl ⟨⟨msg, hmsg, hclaims⟩, fun h ↦ absurd h hsender⟩

/-! ## What a handler does to its own tab -/

theorem called_commit_self (hopen : handled.1.channel) :
    (s.commit id handled).Called id ↔ s.Called id := by
  simp [Called, commit_channels_self, hopen]

theorem lastClaims_commit_self (hopen : handled.1.channel) {sender : Id} :
    (s.commit id handled).LastClaims sender id ↔ s.LastClaims sender id := by
  simp [LastClaims, commit_channels_self, hopen]

theorem torn_commit_self (hopen : handled.1.channel) :
    (s.commit id handled).Torn id ↔ handled.1.claimTimer ∧
      (∃ smaller ∈ handled.1.claimCandidates, smaller < id) ∧
      ¬ (0 < handled.1.lastSeenLeaderAt ∨ s.Called id) := by
  simp [Torn, Woken, called_commit_self hopen]

/-- A tab stays steady over a handler that leaves the tab of it steady, where no claim goes out to a
tab up to the steady one. -/
theorem steady_commit {heir : Id}
    (hothers : ∀ other ≤ heir, other ≠ id → (s.tabs other).started → ¬ s.Conceding other)
    (hclaims : ∀ msg ∈ handled.2.getLast?, msg.wakes = false → heir ≤ id)
    (hself : id ≤ heir → handled.1.started → ¬ (s.commit id handled).Conceding id)
    (hawake : (s.commit id handled).Awake heir) : (s.commit id handled).Steady heir := by
  refine ⟨hawake, fun other hle hstarted hconceding ↦ ?_⟩
  by_cases hother : other = id
  · subst hother
    rw [commit_tabs_self] at hstarted
    exact hself hle hstarted hconceding
  · rw [commit_tabs_of_ne hother] at hstarted
    apply hothers other hle hother hstarted
    rcases hconceding with ⟨smaller, hlt, hlast⟩ | htorn
    · rcases lastClaims_of_commit hother hlast with ⟨hlast, -⟩ | ⟨rfl, msg, hmsg, hwakes⟩
      · exact Or.inl ⟨smaller, hlt, hlast⟩
      · exact absurd (hclaims msg hmsg hwakes) (not_le.mpr (hlt.trans_le hle))
    · exact Or.inr (torn_of_commit hother htorn)

/-- A claim of its own is the first of the tab's open claim, and goes out to the others. -/
structure Claims (id : Id) (handled : Posting Id) : Prop where
  started : handled.1.started
  channel : handled.1.channel
  claimTimer : handled.1.claimTimer
  claimCandidates : handled.1.claimCandidates = [id]
  posted : handled.2 = [.claim id]

/-- Who claims is steady, if the smaller tabs do not give way and no claim of theirs is left. -/
theorem Claims.steady_self (hclaims : Claims id handled)
    (hothers : ∀ other < id, (s.tabs other).started → ¬ s.Conceding other)
    (hqueue : ∀ smaller < id, ¬ s.LastClaims smaller id) : (s.commit id handled).Steady id := by
  apply steady_commit
  · exact fun other hle hne ↦ hothers other (lt_of_le_of_ne hle hne)
  · exact fun _ _ _ ↦ le_rfl
  · rintro - - (⟨smaller, hlt, hlast⟩ | htorn)
    · exact hqueue smaller hlt ((lastClaims_commit_self hclaims.channel).mp hlast)
    · obtain ⟨-, ⟨smaller, hmem, hlt⟩, -⟩ := (torn_commit_self hclaims.channel).mp htorn
      rw [hclaims.claimCandidates] at hmem
      exact hlt.ne (List.mem_singleton.mp hmem)
  · refine ⟨by simpa using hclaims.started, Or.inr (Or.inl ?_)⟩
    simpa using hclaims.claimTimer

/-- After a claim some tab is steady, if one was but for what is on its way to the claimant. -/
theorem Claims.steady (hclaims : Claims id handled) {heir : Id}
    (hawake : heir ≠ id → s.Awake heir)
    (hothers : ∀ other ≤ heir, other ≠ id → (s.tabs other).started → ¬ s.Conceding other)
    (hqueue : id ≤ heir → ∀ smaller < id, ¬ s.LastClaims smaller id) :
    ∃ steady, (s.commit id handled).Steady steady := by
  rcases le_or_gt id heir with hle | hlt
  · exact ⟨id, hclaims.steady_self
      (fun other hlt ↦ hothers other (hlt.le.trans hle) hlt.ne) (hqueue hle)⟩
  · refine ⟨heir, steady_commit hothers (fun _ _ _ ↦ hlt.le)
      (fun hle ↦ absurd hle (not_le.mpr hlt)) ?_⟩
    exact awake_commit_of_ne hlt.ne (hawake hlt.ne)

/-- A tab that only posts, and no claim, changes nothing for the others. -/
theorem Sound.steady_posts (h : s.Sound) {heir : Id} (hsteady : s.Steady heir)
    {posted : List (Msg Id)} (hposted : ∀ msg ∈ posted, msg.wakes) :
    (s.commit id (s.tabs id, posted)).Steady heir := by
  have hopen (hstarted : (s.tabs id).started) : (s.tabs id).channel :=
    (h.valid id).channel_eq.trans hstarted
  apply steady_commit
  · exact fun other hle _ ↦ hsteady.2 other hle
  · intro msg hmsg hclaim
    rw [hposted msg (List.mem_of_getLast? hmsg)] at hclaim
    exact absurd hclaim (by simp)
  · rintro hle hstarted (⟨smaller, hlt, hlast⟩ | htorn)
    · have hlast : s.LastClaims smaller id := (lastClaims_commit_self (hopen hstarted)).mp hlast
      exact hsteady.2 id hle hstarted (Or.inl ⟨smaller, hlt, hlast⟩)
    · exact hsteady.2 id hle hstarted (Or.inr ((torn_commit_self (hopen hstarted)).mp htorn))
  · by_cases hne : heir = id
    · subst hne
      refine ⟨by simpa using hsteady.1.1, ?_⟩
      rw [commit_tabs_self, called_commit_self (hopen hsteady.1.1)]
      exact hsteady.1.2
    · exact awake_commit_of_ne hne hsteady.1

theorem Sound.steady_claims (h : s.Sound) {heir : Id} (hsteady : s.Steady heir)
    (hclaims : Claims id handled) : ∃ steady, (s.commit id handled).Steady steady := by
  apply hclaims.steady (fun _ ↦ hsteady.1) fun other hle _ ↦ hsteady.2 other hle
  rintro hle smaller hlt ⟨msg, hmsg, hclaim⟩
  have hstarted : (s.tabs id).started := by
    rw [← (h.valid id).channel_eq]
    exact (h.sender smaller id msg (List.mem_of_getLast? hmsg)).2.2
  exact hsteady.2 id hle hstarted (Or.inl ⟨smaller, hlt, msg, hmsg, hclaim⟩)

omit [LinearOrder Id] in
theorem Sound.claims_attemptClaim (h : s.Sound) (hopen : (s.tabs id).channel) (seen : ℕ) :
    Claims id (Tab.attemptClaim { s.tabs id with lastSeenLeaderAt := seen }) := by
  have hstarted : (s.tabs id).started = true := (h.valid id).channel_eq.symm.trans hopen
  unfold Tab.attemptClaim
  rw [if_neg (by simpa using hopen)]
  exact ⟨hstarted, hopen, rfl, by simp [h.own], by simp [h.own]⟩

/-- A tab that starts is steady where none is started, and leaves a steady tab otherwise. -/
theorem Sound.secure_start (h : s.Sound) (hsecure : s.Secure) (id : Id) :
    (s.step (.start id)).Secure := by
  rintro -
  by_cases hstarted : (s.tabs id).started = true
  · obtain ⟨heir, hsteady⟩ := hsecure ⟨id, hstarted⟩
    refine ⟨heir, ?_⟩
    have hsame : (s.tabs id).start true = (s.tabs id, []) := by simp [Tab.start, hstarted]
    simp only [Browser.step, hsame]
    exact h.steady_posts hsteady (by simp)
  · have hclaims : Claims id ((s.tabs id).start true) := by
      simp only [Tab.start, if_neg hstarted]
      exact ⟨by simp [Tab.attemptClaim], by simp [Tab.attemptClaim], by simp [Tab.attemptClaim],
        by simp [Tab.attemptClaim, h.own], by simp [Tab.attemptClaim, h.own]⟩
    by_cases hany : ∃ other, (s.tabs other).started
    · obtain ⟨heir, hsteady⟩ := hsecure hany
      exact h.steady_claims hsteady hclaims
    · refine ⟨id, hclaims.steady_self (fun other _ hother ↦ absurd ⟨other, hother⟩ hany) ?_⟩
      rintro smaller - ⟨msg, hmsg, -⟩
      have hopen := (h.sender smaller id msg (List.mem_of_getLast? hmsg)).2.2
      rw [(h.valid id).channel_eq] at hopen
      exact hany ⟨id, hopen⟩

/-- When an open claim ends, a tab that was steady leads or has been woken. -/
theorem Sound.steady_claimTimeout (h : s.Sound) {heir : Id} (hsteady : s.Steady heir) (id : Id) :
    (s.commit id (s.tabs id).claimTimeout).Steady heir := by
  by_cases hclaims : (s.tabs id).claimTimer = true
  · obtain ⟨hstarted, hclosed, hseen, hposted, houtcome⟩ := (h.valid id).claimTimeout_cases hclaims
    have hvalid := (h.valid id).claimTimeout.valid
    have hopen := hvalid.channel_eq.trans hstarted
    have hstartedBefore := (h.valid id).claims_started hclaims
    apply steady_commit
    · exact fun other hle _ ↦ hsteady.2 other hle
    · intro msg hmsg hclaim
      rw [hposted msg (List.mem_of_getLast? hmsg)] at hclaim
      exact absurd hclaim (by simp [Msg.wakes])
    · rintro hle - (⟨smaller, hlt, hlast⟩ | htorn)
      · have hlast : s.LastClaims smaller id := (lastClaims_commit_self hopen).mp hlast
        exact hsteady.2 id hle hstartedBefore (Or.inl ⟨smaller, hlt, hlast⟩)
      · have hopenClaim := ((torn_commit_self hopen).mp htorn).1
        simp [hclosed] at hopenClaim
    · by_cases hne : heir = id
      · subst hne
        refine ⟨by simpa using hstarted, ?_⟩
        rw [commit_tabs_self, called_commit_self hopen, hseen]
        rcases houtcome with hleads | ⟨smaller, hmem, hlt⟩
        · exact Or.inl hleads
        · -- a tab with a smaller candidate follows: it is woken, or it was torn
          have hwoken : s.Woken heir := by
            by_contra hasleep
            exact hsteady.2 heir le_rfl hstartedBefore
              (Or.inr ⟨hclaims, ⟨smaller, hmem, (h.own heir) ▸ hlt⟩, hasleep⟩)
          exact Or.inr (Or.inr (hwoken.imp_left fun hseen ↦ ⟨hseen, hvalid.deadchecks.trans hstarted⟩))
      · exact awake_commit_of_ne hne hsteady.1
  · have hsame : (s.tabs id).claimTimeout = (s.tabs id, []) := by
      simp [Tab.claimTimeout, hclaims]
    rw [hsame]
    exact h.steady_posts hsteady (by simp)

/-! ## Deliveries -/

variable {source : Id}

theorem taken_of_ne_target (hne : other ≠ id) (sender : Id) :
    (s.taken source id).channels sender other = s.channels sender other :=
  Channels.take_of_ne_receiver _ hne

theorem called_taken_of_ne (hne : other ≠ id) : (s.taken source id).Called other ↔ s.Called other := by
  simp [Called, taken_of_ne_target hne]

theorem awake_taken_of_ne (hne : other ≠ id) :
    (s.taken source id).Awake other ↔ s.Awake other := by
  unfold Awake
  rw [called_taken_of_ne hne]
  rfl

theorem conceding_taken_of_ne (hne : other ≠ id) :
    (s.taken source id).Conceding other ↔ s.Conceding other := by
  unfold Conceding LastClaims Torn Woken
  rw [called_taken_of_ne hne]
  simp only [taken_of_ne_target hne]
  rfl

theorem lastClaims_of_taken {sender : Id} (h : (s.taken source id).LastClaims sender id) :
    s.LastClaims sender id := by
  obtain ⟨msg, hmsg, hclaims⟩ := h
  exact ⟨msg, Channels.getLast?_take _ hmsg, hclaims⟩

/-- A delivery that posts no claim leaves a steady tab steady, if the receiver is left awake and is
not torn. -/
theorem steady_deliver {heir : Id} (hsteady : s.Steady heir)
    (hstarted : handled.1.started = (s.tabs id).started) (hopen : handled.1.channel = handled.1.started)
    (hposted : ∀ msg ∈ handled.2, msg.wakes)
    (hself : id ≤ heir → (s.tabs id).started → ¬ ((s.taken source id).commit id handled).Torn id)
    (hawake : heir = id → ((s.taken source id).commit id handled).Awake id) :
    ((s.taken source id).commit id handled).Steady heir := by
  apply steady_commit
  · intro other hle hne hother
    rw [conceding_taken_of_ne hne]
    exact hsteady.2 other hle hother
  · intro msg hmsg hclaim
    rw [hposted msg (List.mem_of_getLast? hmsg)] at hclaim
    exact absurd hclaim (by simp)
  · rintro hle hstartedAfter (⟨smaller, hlt, hlast⟩ | htorn)
    · have hlast := lastClaims_of_taken ((lastClaims_commit_self (hopen.trans hstartedAfter)).mp hlast)
      exact hsteady.2 id hle (hstarted ▸ hstartedAfter) (Or.inl ⟨smaller, hlt, hlast⟩)
    · exact hself hle (hstarted ▸ hstartedAfter) htorn
  · by_cases hne : heir = id
    · subst hne
      exact hawake rfl
    · exact awake_commit_of_ne hne ((awake_taken_of_ne hne).mpr hsteady.1)

/-- A claim that is delivered takes no message from its queue that wakes the receiver. -/
theorem called_taken_of_claim {claimant : Id} {rest : List (Msg Id)}
    (hqueue : s.channels source id = .claim claimant :: rest) (h : s.Called id) :
    (s.taken source id).Called id := by
  obtain ⟨sender, msg, hmsg, hwakes⟩ := h
  rcases mem_taken hqueue hmsg with hmsg | ⟨-, -, rfl⟩
  · exact ⟨sender, msg, hmsg, hwakes⟩
  · simp [Msg.wakes] at hwakes

/-- A claim that does not end its queue has a message behind it that wakes the receiver. -/
theorem called_taken_of_not_lastClaims {claimant : Id} {rest : List (Msg Id)}
    (hqueue : s.channels source id = .claim claimant :: rest) (h : ¬ s.LastClaims source id) :
    (s.taken source id).Called id := by
  have hlast : ∃ msg, (s.channels source id).getLast? = some msg := by
    rw [hqueue]
    exact ⟨_, List.getLast?_eq_some_getLast (List.cons_ne_nil _ _)⟩
  obtain ⟨msg, hmsg⟩ := hlast
  have hwakes : msg.wakes = true := by
    by_contra hclaims
    exact h ⟨msg, hmsg, by simpa using hclaims⟩
  rcases mem_taken hqueue (List.mem_of_getLast? hmsg) with hmem | ⟨-, -, rfl⟩
  · exact ⟨source, msg, hmem, hwakes⟩
  · simp [Msg.wakes] at hwakes

theorem Sound.steady_deliver_claim (h : s.Sound) {heir : Id} (hsteady : s.Steady heir)
    {rest : List (Msg Id)} (hqueue : s.channels source id = .claim source :: rest) (now : ℕ+) :
    ((s.taken source id).commit id ((s.tabs id).onMessage now (.claim source))).Steady heir := by
  obtain ⟨hstarted, hclaims, hseen, hcandidates, hposted, hleads⟩ :=
    Tab.onMessage_claim_cases (s.tabs id) now source
  have hvalid := ((h.valid id).onMessage now (.claim source)).valid
  rw [h.own] at hleads
  have hcalled (hle : id ≤ heir) (hjoined : (s.tabs id).started) (hlt : source < id) :
      (s.taken source id).Called id :=
    called_taken_of_not_lastClaims hqueue fun hlast ↦
      hsteady.2 id hle hjoined (Or.inl ⟨source, hlt, hlast⟩)
  apply steady_deliver hsteady hstarted hvalid.channel_eq
  · intro msg hmsg
    rw [hposted msg hmsg]
    rfl
  · intro hle hjoined htorn
    obtain ⟨hopenClaim, ⟨smaller, hmem, hlt⟩, hasleep⟩ :=
      (torn_commit_self (hvalid.channel_eq.trans (hstarted.trans hjoined))).mp htorn
    rw [hseen] at hasleep
    rcases hcandidates smaller hmem with hold | rfl
    · apply hsteady.2 id hle hjoined
      refine Or.inr ⟨hclaims ▸ hopenClaim, ⟨smaller, hold, hlt⟩, fun hwoken ↦ hasleep ?_⟩
      exact hwoken.imp_right (called_taken_of_claim hqueue)
    · exact hasleep (Or.inr (hcalled hle hjoined hlt))
  · rintro rfl
    have hjoined := hsteady.1.1
    refine ⟨by simpa using hstarted.trans hjoined, ?_⟩
    rw [commit_tabs_self, called_commit_self (hvalid.channel_eq.trans (hstarted.trans hjoined))]
    by_cases hlt : source < heir
    · exact Or.inr (Or.inr (Or.inr (hcalled le_rfl hjoined hlt)))
    · rw [hleads hlt, hclaims, hseen, hvalid.deadchecks, hstarted, ← (h.valid heir).deadchecks]
      exact hsteady.1.2.imp_right
        (Or.imp_right (Or.imp_right (called_taken_of_claim hqueue)))

theorem Sound.steady_deliver_heartbeat (h : s.Sound) {heir : Id} (hsteady : s.Steady heir)
    (hne : source ≠ id) (now : ℕ+) :
    ((s.taken source id).commit id ((s.tabs id).onMessage now (.heartbeat source))).Steady heir := by
  obtain ⟨hstarted, hseen, hposted⟩ :=
    Tab.onMessage_heartbeat_cases (s.tabs id) now ((h.own id).symm ▸ hne)
  have hvalid := ((h.valid id).onMessage now (.heartbeat source)).valid
  have hnow : 0 < ((s.tabs id).onMessage now (.heartbeat source)).1.lastSeenLeaderAt :=
    hseen ▸ now.pos
  apply steady_deliver hsteady hstarted hvalid.channel_eq
  · simp [hposted]
  · intro hle hjoined htorn
    have hasleep := ((torn_commit_self (hvalid.channel_eq.trans (hstarted.trans hjoined))).mp
      htorn).2.2
    exact hasleep (Or.inl hnow)
  · rintro rfl
    have hjoined := hstarted.trans hsteady.1.1
    refine ⟨by simpa using hjoined, ?_⟩
    rw [commit_tabs_self]
    exact Or.inr (Or.inr (Or.inl ⟨hnow, hvalid.deadchecks.trans hjoined⟩))

theorem Sound.steady_deliver_relinquish (h : s.Sound) {heir : Id} (hsteady : s.Steady heir)
    (hne : source ≠ id) (hjoined : (s.tabs id).started) (now : ℕ+) :
    ∃ steady, ((s.taken source id).commit id
      ((s.tabs id).onMessage now (.relinquish source))).Steady steady := by
  have hclaims : Claims id ((s.tabs id).onMessage now (.relinquish source)) := by
    unfold Tab.onMessage
    rw [if_neg (by simpa [Msg.tabId, h.own] using hne)]
    exact h.claims_attemptClaim ((h.valid id).channel_eq.trans hjoined) 0
  apply hclaims.steady fun hne ↦ (awake_taken_of_ne hne).mpr hsteady.1
  · intro other hle hne hother
    rw [conceding_taken_of_ne hne]
    exact hsteady.2 other hle hother
  · intro hle smaller hlt hlast
    exact hsteady.2 id hle hjoined (Or.inl ⟨smaller, hlt, lastClaims_of_taken hlast⟩)

theorem Sound.secure_deliver (h : s.Sound) (hsecure : s.Secure) (source id : Id) (now : ℕ+) :
    (s.step (.deliver source id now)).Secure := by
  cases hqueue : s.channels source id with
  | nil =>
    have hsame : s.step (.deliver source id now) = s := by simp [Browser.step, hqueue]
    rwa [hsame]
  | cons msg rest =>
    obtain ⟨hsource, hne, hopen⟩ := h.sender source id msg (hqueue ▸ List.mem_cons_self)
    have hjoined : (s.tabs id).started = true := (h.valid id).channel_eq.symm.trans hopen
    obtain ⟨heir, hsteady⟩ := hsecure ⟨id, hjoined⟩
    have hstep : s.step (.deliver source id now) =
        (s.taken source id).commit id ((s.tabs id).onMessage now msg) := by
      simp [Browser.step, hqueue]
    rintro -
    rw [hstep]
    cases msg with
    | claim claimant =>
      obtain rfl : claimant = source := hsource
      exact ⟨heir, h.steady_deliver_claim hsteady hqueue now⟩
    | heartbeat leader =>
      obtain rfl : leader = source := hsource
      exact ⟨heir, h.steady_deliver_heartbeat hsteady hne now⟩
    | relinquish leader =>
      obtain rfl : leader = source := hsource
      exact h.steady_deliver_relinquish hsteady hne hjoined now

/-! ## Tabs that vanish -/

/-- The heir of a tab that vanishes is steady. -/
theorem Sound.secure_vanish (h : s.Sound) (relinquishes : Prop)
    (hgone : handled.1.started = false) (hposted : relinquishes → handled.2 = [.relinquish id])
    (hsilent : ¬ relinquishes → handled.2 = [])
    (hgentle : (∃ other ≠ id, (s.tabs other).started) → s.LeavesHeir id relinquishes) :
    (s.commit id handled).Secure := by
  rintro ⟨left, hleft⟩
  have hstays (other : Id) (hother : ((s.commit id handled).tabs other).started) :
      other ≠ id ∧ (s.tabs other).started := by
    by_cases heq : other = id
    · rw [heq, commit_tabs_self, hgone] at hother
      exact absurd hother (by simp)
    · rw [commit_tabs_of_ne heq] at hother
      exact ⟨heq, hother⟩
  have hcalled (other : Id) (hne : other ≠ id) (hother : (s.tabs other).started)
      (hrelinquishes : relinquishes) : (s.commit id handled).Called other := by
    refine ⟨id, .relinquish id, ?_, rfl⟩
    rw [commit_channels_of_ne hne]
    apply Channels.mem_post_of_connected _ hne ((h.valid other).channel_eq.trans hother)
    simp [hposted hrelinquishes]
  obtain ⟨heir, hne, hstarted, hawake, hothers⟩ := hgentle ⟨left, hstays left hleft⟩
  refine ⟨heir, ?_, ?_⟩
  · rcases hawake with hrelinquishes | hawake
    · refine ⟨by rwa [commit_tabs_of_ne hne], Or.inr (Or.inr (Or.inr ?_))⟩
      exact hcalled heir hne hstarted hrelinquishes
    · exact awake_commit_of_ne hne hawake
  · rintro other hle hother hconceding
    obtain ⟨hneOther, hstartedOther⟩ := hstays other hother
    obtain ⟨hlasts, htorns⟩ := hothers other hle hneOther hstartedOther
    rcases hconceding with ⟨smaller, hlt, hlast⟩ | htorn
    · rcases lastClaims_of_commit hneOther hlast with ⟨hlast, hnone⟩ | ⟨-, msg, hmsg, hclaims⟩
      · obtain ⟨hrelinquishes, heq⟩ := hlasts smaller hlt hlast
        have hnil := hnone heq ((h.valid other).channel_eq.trans hstartedOther)
        rw [hposted hrelinquishes] at hnil
        exact absurd hnil (List.cons_ne_nil _ _)
      · by_cases hrelinquishes : relinquishes
        · rw [hposted hrelinquishes] at hmsg
          obtain rfl : Msg.relinquish id = msg := by simpa using hmsg
          simp [Msg.wakes] at hclaims
        · simp [hsilent hrelinquishes] at hmsg
    · rcases htorns with hrelinquishes | hwhole
      · exact htorn.2.2 (Or.inr (hcalled other hneOther hstartedOther hrelinquishes))
      · exact hwhole (torn_of_commit hneOther htorn)

/-- A handler that starts no tab keeps some tab steady if it does so where one is. -/
theorem secure_commit (hsecure : s.Secure) (hjoins : handled.1.started → (s.tabs id).started)
    (hsteady : ∀ heir, s.Steady heir → ∃ steady, (s.commit id handled).Steady steady) :
    (s.commit id handled).Secure := by
  rintro ⟨other, hother⟩
  obtain ⟨heir, hheir⟩ : ∃ heir, s.Steady heir := by
    apply hsecure
    by_cases heq : other = id
    · rw [heq, commit_tabs_self] at hother
      exact ⟨id, hjoins hother⟩
    · rw [commit_tabs_of_ne heq] at hother
      exact ⟨other, hother⟩
  exact hsteady heir hheir

/-- A tab that is not started may vanish. -/
theorem secure_unstarted (hsecure : s.Secure) (hstarted : ¬ (s.tabs id).started)
    (hgone : handled.1.started = false) (hsilent : handled.2 = []) :
    (s.commit id handled).Secure := by
  apply secure_commit hsecure (by simp [hgone])
  intro heir hheir
  have hne : heir ≠ id := by
    rintro rfl
    exact hstarted hheir.1.1
  refine ⟨heir, steady_commit (fun other hle _ ↦ hheir.2 other hle) ?_ ?_ ?_⟩
  · simp [hsilent]
  · simp [hgone]
  · exact awake_commit_of_ne hne hheir.1

theorem Sound.secure_stop (h : s.Sound) (hsecure : s.Secure) (id : Id)
    (hgentle : s.vanishesGently (.stop id)) : (s.step (.stop id)).Secure := by
  by_cases hstarted : (s.tabs id).started = true
  · have hopen : (s.tabs id).channel = true := (h.valid id).channel_eq.trans hstarted
    apply h.secure_vanish ((s.tabs id).isLeaderFlag = true) _ _ _ (hgentle hstarted)
    · simp [Tab.stop, hstarted]
    · intro hleads
      simp [Tab.stop, hstarted, hleads, hopen, h.own]
    · intro hfollows
      simp [Tab.stop, hstarted, hfollows]
  · exact secure_unstarted hsecure hstarted (by simp [Tab.stop, hstarted])
      (by simp [Tab.stop, hstarted])

theorem Sound.secure_crash (h : s.Sound) (hsecure : s.Secure) (id : Id)
    (hgentle : s.vanishesGently (.crash id)) : (s.step (.crash id)).Secure := by
  by_cases hstarted : (s.tabs id).started = true
  · exact h.secure_vanish False rfl False.elim (fun _ ↦ rfl) (hgentle hstarted)
  · exact secure_unstarted hsecure hstarted rfl rfl

/-- A tab that only posts, and no claim, keeps some tab steady. -/
theorem Sound.secure_posts (h : s.Sound) (hsecure : s.Secure) {posted : List (Msg Id)}
    (hposted : ∀ msg ∈ posted, msg.wakes) : (s.commit id (s.tabs id, posted)).Secure :=
  secure_commit hsecure (fun hstarted ↦ hstarted) fun heir hheir ↦
    ⟨heir, h.steady_posts hheir hposted⟩

/-- A step in which no tab vanishes, or one does so gently, keeps some tab steady. -/
theorem Sound.secure_step (h : s.Sound) (hsecure : s.Secure) (event : Event Id)
    (hgentle : s.vanishesGently event) : (s.step event).Secure := by
  cases event with
  | start id => exact h.secure_start hsecure id
  | stop id => exact h.secure_stop hsecure id hgentle
  | crash id => exact h.secure_crash hsecure id hgentle
  | beforeunload id => exact h.secure_posts hsecure (by split <;> simp [Msg.wakes])
  | pageshow id =>
    simp only [Browser.step]
    rcases (h.valid id).onPageShow_eq_or with hsame | ⟨hopen, hclaims⟩
    · rw [hsame]
      exact h.secure_posts hsecure (by simp)
    · have hclaims : Claims id (s.tabs id).onPageShow :=
        hclaims ▸ h.claims_attemptClaim hopen (s.tabs id).lastSeenLeaderAt
      apply secure_commit hsecure (fun _ ↦ (h.valid id).channel_eq.symm.trans hopen)
      exact fun heir hheir ↦ h.steady_claims hheir hclaims
  | claimTimeout id =>
    apply secure_commit hsecure
    · intro hstarted
      by_cases hclaims : (s.tabs id).claimTimer = true
      · exact (h.valid id).claims_started hclaims
      · simpa [Tab.claimTimeout, hclaims] using hstarted
    · exact fun heir hheir ↦ ⟨heir, h.steady_claimTimeout hheir id⟩
  | heartbeat id => exact h.secure_posts hsecure (by split <;> simp [Msg.wakes])
  | deadcheck id now =>
    simp only [Browser.step]
    rcases (h.valid id).deadcheck_eq_or now with hsame | ⟨hopen, hclaims⟩
    · rw [hsame]
      exact h.secure_posts hsecure (by simp)
    · have hclaims : Claims id ((s.tabs id).deadcheck now) :=
        hclaims ▸ h.claims_attemptClaim hopen 0
      apply secure_commit hsecure (fun _ ↦ (h.valid id).channel_eq.symm.trans hopen)
      exact fun heir hheir ↦ h.steady_claims hheir hclaims
  | deliver source id now => exact h.secure_deliver hsecure source id now

/-- In a run in which tabs vanish gently, whenever a tab is started some started tab leads, has an
open claim, is a follower whose dead-check will claim, or has a message on its way that causes one of
these. -/
theorem awake_of_run (events : List (Event Id))
    (h : Disciplined step vanishesGently initial events) :
    ∀ before, before <+: events → ∀ id, ((run step initial before).tabs id).started →
      ∃ awake, (run step initial before).Awake awake := by
  rintro before ⟨after, rfl⟩ id hstarted
  have hstep (s : Browser Id) (event : Event Id) (hs : s.Sound ∧ s.Secure)
      (hgentle : s.vanishesGently event) : (s.step event).Sound ∧ (s.step event).Secure :=
    ⟨hs.1.step event, hs.1.secure_step hs.2 event hgentle⟩
  have hinitial : (initial : Browser Id).Secure := by
    rintro ⟨other, hother⟩
    simp [initial] at hother
  obtain ⟨-, hsecure⟩ := run_invariant_before hstep ⟨initial_sound, hinitial⟩ before after h
  obtain ⟨heir, hheir⟩ := hsecure ⟨id, hstarted⟩
  exact ⟨heir, hheir.1⟩

section

variable [Fintype Id]

instance (s : Browser Id) (id : Id) : Decidable (s.Called id) :=
  inferInstanceAs (Decidable (∃ source, ∃ msg ∈ s.channels source id, msg.wakes))

instance (s : Browser Id) (id : Id) : Decidable (s.Woken id) :=
  inferInstanceAs (Decidable (_ ∨ _))

instance (s : Browser Id) (id : Id) : Decidable (s.Awake id) :=
  inferInstanceAs (Decidable (_ ∧ _))

instance (s : Browser Id) (sender id : Id) : Decidable (s.LastClaims sender id) :=
  inferInstanceAs (Decidable (∃ msg ∈ (s.channels sender id).getLast?, msg.wakes = false))

instance (s : Browser Id) (id : Id) : Decidable (s.Torn id) :=
  inferInstanceAs (Decidable (_ ∧ (∃ smaller ∈ (s.tabs id).claimCandidates, smaller < id) ∧ _))

instance (s : Browser Id) (gone : Id) (relinquishes : Prop) [Decidable relinquishes] :
    Decidable (s.LeavesHeir gone relinquishes) :=
  inferInstanceAs (Decidable (∃ heir ≠ gone, _ ∧ _ ∧ ∀ other ≤ heir, other ≠ gone →
    (s.tabs other).started → (∀ smaller < other, _ → _) ∧ _))

instance (s : Browser Id) : DecidablePred s.vanishesGently := fun event ↦
  match event with
  | .stop id => inferInstanceAs (Decidable
      ((s.tabs id).started → (∃ other ≠ id, (s.tabs other).started) → _))
  | .crash id => inferInstanceAs (Decidable
      ((s.tabs id).started → (∃ other ≠ id, (s.tabs other).started) → _))
  | .start _ | .beforeunload _ | .pageshow _ | .claimTimeout _ | .heartbeat _ | .deadcheck _ _
  | .deliver _ _ _ => inferInstanceAs (Decidable True)

end

attribute [local instance] neZero_one

/-- The leader `0` crashes when the tab `1` has its heartbeat, and the tab `1` claims in the end. -/
def leaderCrashes : List (Event (Fin 2)) :=
  [.start 0, .claimTimeout 0, .start 1, .deliver 1 0 1, .deliver 0 1 1, .claimTimeout 1, .crash 0,
    .deadcheck 1 6000, .claimTimeout 1]

theorem awake_of_leaderCrashes : ∃ awake, (run step initial leaderCrashes).Awake awake :=
  awake_of_run leaderCrashes (by decide +kernel) leaderCrashes List.prefix_rfl 1 (by decide +kernel)

/-- The tab `1` concedes to the claim of the tab `0`, which crashes before it decides. -/
def claimantCrashes : List (Event (Fin 2)) :=
  [.start 1, .start 0, .deliver 0 1 1, .claimTimeout 1, .crash 0]

/-- A started tab that nothing wakes. -/
theorem not_awake_of_claimantCrashes :
    ((run step initial claimantCrashes).tabs 1).started ∧
      ∀ id, ¬ (run step initial claimantCrashes).Awake id := by
  decide +kernel

end

end Browser

end Flockctl.LeaderElection
