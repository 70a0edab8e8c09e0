import Flockctl.LeaderElection.Tab

/-!
# What a tab's handlers keep

The channel of a tab is open from `start` to `stop`, and only then does the tab lead or claim. A tab
that takes the lead posts a heartbeat, and one that joins the election or forgets its candidates
posts a claim; the rest of what a handler does neither raises a leader nor drops a candidate.
-/

namespace Flockctl.LeaderElection

universe u

variable {Id : Type u}

namespace Tab

section

variable {tab : Tab Id}

/-- The channel is open from `start` to `stop`, and only then does the tab lead or claim; an open
claim has the tab among its candidates. The dead-check runs all the time. -/
structure Valid (tab : Tab Id) : Prop where
  channel_eq : tab.channel = tab.started
  leads_started : tab.isLeaderFlag → tab.started
  claims_started : tab.claimTimer → tab.started
  claims_self : tab.claimTimer → tab.tabId ∈ tab.claimCandidates
  deadchecks : tab.deadcheckTimer = tab.started

/-- The tab does not lead, and will not because of an open claim while the other tab is among its
candidates. -/
def Yields (tab : Tab Id) (other : Id) : Prop :=
  ¬ tab.isLeaderFlag ∧ (tab.claimTimer → other ∈ tab.claimCandidates)

theorem initial_valid (id : Id) : Valid ({ tabId := id } : Tab Id) where
  channel_eq := rfl
  leads_started := by simp
  claims_started := by simp
  claims_self := by simp
  deadchecks := rfl

/-- A follower is as it was, but for the lead, the heartbeats and what its listeners were told. -/
theorem becomeFollower_fields (tab : Tab Id) :
    tab.becomeFollower.tabId = tab.tabId ∧ tab.becomeFollower.channel = tab.channel ∧
      tab.becomeFollower.isLeaderFlag = false ∧ tab.becomeFollower.started = tab.started ∧
      tab.becomeFollower.claimTimer = tab.claimTimer ∧
      tab.becomeFollower.lastSeenLeaderAt = tab.lastSeenLeaderAt ∧
      tab.becomeFollower.claimCandidates = tab.claimCandidates ∧
      tab.becomeFollower.deadcheckTimer = tab.deadcheckTimer := by
  unfold becomeFollower
  split
  · next h => simpa using h
  · simp

@[simp] theorem becomeFollower_tabId : tab.becomeFollower.tabId = tab.tabId :=
  (becomeFollower_fields tab).1

@[simp] theorem becomeFollower_channel : tab.becomeFollower.channel = tab.channel :=
  (becomeFollower_fields tab).2.1

@[simp] theorem becomeFollower_isLeaderFlag : tab.becomeFollower.isLeaderFlag = false :=
  (becomeFollower_fields tab).2.2.1

@[simp] theorem becomeFollower_started : tab.becomeFollower.started = tab.started :=
  (becomeFollower_fields tab).2.2.2.1

@[simp] theorem becomeFollower_claimTimer : tab.becomeFollower.claimTimer = tab.claimTimer :=
  (becomeFollower_fields tab).2.2.2.2.1

@[simp] theorem becomeFollower_lastSeenLeaderAt :
    tab.becomeFollower.lastSeenLeaderAt = tab.lastSeenLeaderAt :=
  (becomeFollower_fields tab).2.2.2.2.2.1

@[simp] theorem becomeFollower_claimCandidates :
    tab.becomeFollower.claimCandidates = tab.claimCandidates :=
  (becomeFollower_fields tab).2.2.2.2.2.2.1

@[simp] theorem becomeFollower_deadcheckTimer :
    tab.becomeFollower.deadcheckTimer = tab.deadcheckTimer :=
  (becomeFollower_fields tab).2.2.2.2.2.2.2

theorem Valid.becomeFollower (h : tab.Valid) : tab.becomeFollower.Valid where
  channel_eq := by simpa using h.channel_eq
  leads_started := by simp
  claims_started := by simpa using h.claims_started
  claims_self := by simpa using h.claims_self
  deadchecks := by simpa using h.deadchecks

theorem yields_becomeFollower {other : Id} (h : tab.claimTimer → other ∈ tab.claimCandidates) :
    tab.becomeFollower.Yields other := by
  simpa [Yields] using h

end

section

variable [LinearOrder Id] {tab : Tab Id}

/-- What the election needs of every handler: it posts under the tab's own id, a tab that takes the
lead posts a heartbeat, and one that joins or forgets its candidates posts a claim. -/
structure Handled (tab : Tab Id) (handled : Posting Id) : Prop where
  tabId_eq : handled.1.tabId = tab.tabId
  valid : handled.1.Valid
  sender : ∀ msg ∈ handled.2, msg.tabId = tab.tabId
  leads : handled.1.isLeaderFlag → tab.isLeaderFlag ∨ .heartbeat tab.tabId ∈ handled.2
  joins : handled.1.started → tab.started ∨ .claim tab.tabId ∈ handled.2
  yields : ∀ other < tab.tabId, tab.Yields other →
    handled.1.Yields other ∨ .claim tab.tabId ∈ handled.2

@[simp] theorem addCandidate_tabId (candidate : Id) :
    (tab.addCandidate candidate).tabId = tab.tabId := rfl

@[simp] theorem addCandidate_isLeaderFlag (candidate : Id) :
    (tab.addCandidate candidate).isLeaderFlag = tab.isLeaderFlag := rfl

@[simp] theorem addCandidate_started (candidate : Id) :
    (tab.addCandidate candidate).started = tab.started := rfl

theorem Valid.handled_self (h : tab.Valid) {posted : List (Msg Id)}
    (hsender : ∀ msg ∈ posted, msg.tabId = tab.tabId) : tab.Handled (tab, posted) where
  tabId_eq := rfl
  valid := h
  sender := hsender
  leads := Or.inl
  joins := Or.inl
  yields _ _ := Or.inl

theorem mem_addCandidate_of_mem {candidate other : Id} (h : other ∈ tab.claimCandidates) :
    other ∈ (tab.addCandidate candidate).claimCandidates := by
  unfold addCandidate
  split
  · exact h
  · exact List.mem_append_left _ h

theorem mem_addCandidate_self (candidate : Id) :
    candidate ∈ (tab.addCandidate candidate).claimCandidates := by
  unfold addCandidate
  split
  · assumption
  · exact List.mem_append_right _ List.mem_cons_self

theorem mem_addCandidate {candidate other : Id}
    (h : other ∈ (tab.addCandidate candidate).claimCandidates) :
    other ∈ tab.claimCandidates ∨ other = candidate := by
  unfold addCandidate at h
  split at h
  · exact Or.inl h
  · rcases List.mem_append.mp h with hmem | hmem
    · exact Or.inl hmem
    · exact Or.inr (List.mem_singleton.mp hmem)

theorem Valid.addCandidate (h : tab.Valid) (candidate : Id) : (tab.addCandidate candidate).Valid where
  channel_eq := h.channel_eq
  leads_started := h.leads_started
  claims_started := h.claims_started
  claims_self hclaims := mem_addCandidate_of_mem (h.claims_self hclaims)
  deadchecks := h.deadchecks

theorem Yields.addCandidate {other : Id} (h : tab.Yields other) (candidate : Id) :
    (tab.addCandidate candidate).Yields other :=
  ⟨h.1, fun hclaims ↦ mem_addCandidate_of_mem (h.2 hclaims)⟩

/-- A tab that has seen a heartbeat has the time of it, and possibly one candidate more. -/
theorem heartbeatSeen_eq_or (tab : Tab Id) (now : ℕ+) (leader : Id) :
    (tab.claimTimer ∧ tab.heartbeatSeen now leader =
        addCandidate { tab with lastSeenLeaderAt := now } leader) ∨
      tab.heartbeatSeen now leader = { tab with lastSeenLeaderAt := now } := by
  unfold heartbeatSeen
  dsimp only
  split
  · exact Or.inl ⟨by assumption, rfl⟩
  · exact Or.inr rfl

section

variable (now : ℕ+) (leader : Id)

@[simp] theorem heartbeatSeen_tabId : (tab.heartbeatSeen now leader).tabId = tab.tabId := by
  unfold heartbeatSeen
  dsimp only
  split <;> rfl

@[simp] theorem heartbeatSeen_isLeaderFlag :
    (tab.heartbeatSeen now leader).isLeaderFlag = tab.isLeaderFlag := by
  unfold heartbeatSeen
  dsimp only
  split <;> rfl

@[simp] theorem heartbeatSeen_started : (tab.heartbeatSeen now leader).started = tab.started := by
  unfold heartbeatSeen
  dsimp only
  split <;> rfl

@[simp] theorem heartbeatSeen_lastSeenLeaderAt :
    (tab.heartbeatSeen now leader).lastSeenLeaderAt = now := by
  unfold heartbeatSeen
  dsimp only
  split <;> rfl

theorem Valid.heartbeatSeen (h : tab.Valid) : (tab.heartbeatSeen now leader).Valid := by
  have hseen : Valid { tab with lastSeenLeaderAt := now } :=
    ⟨h.channel_eq, h.leads_started, h.claims_started, h.claims_self, h.deadchecks⟩
  rcases heartbeatSeen_eq_or tab now leader with ⟨-, heq⟩ | heq
  · rw [heq]
    exact hseen.addCandidate leader
  · rw [heq]
    exact hseen

theorem Yields.heartbeatSeen {other : Id} (h : tab.Yields other) :
    (tab.heartbeatSeen now leader).Yields other := by
  have hseen : Yields { tab with lastSeenLeaderAt := now } other := h
  rcases heartbeatSeen_eq_or tab now leader with ⟨-, heq⟩ | heq
  · rw [heq]
    exact hseen.addCandidate leader
  · rw [heq]
    exact hseen

/-- An open claim has the leader whose heartbeat arrived among its candidates. -/
theorem mem_heartbeatSeen (h : (tab.heartbeatSeen now leader).claimTimer) :
    leader ∈ (tab.heartbeatSeen now leader).claimCandidates := by
  unfold Tab.heartbeatSeen at h ⊢
  dsimp only at h ⊢
  split
  · exact mem_addCandidate_self leader
  · next hclosed =>
    rw [if_neg hclosed] at h
    exact absurd h hclosed

end

/-- The winner is a candidate, and no candidate is smaller. -/
theorem winner_eq_some_iff {id : Id} :
    tab.winner = some id ↔ id ∈ tab.claimCandidates ∧ ∀ other ∈ tab.claimCandidates, id ≤ other := by
  have hperm : (tab.claimCandidates.insertionSort (· ≤ ·)).Perm tab.claimCandidates :=
    List.perm_insertionSort _ _
  have hsorted : (tab.claimCandidates.insertionSort (· ≤ ·)).Pairwise (· ≤ ·) :=
    List.pairwise_insertionSort _ _
  unfold winner
  generalize tab.claimCandidates.insertionSort (· ≤ ·) = sorted at hperm hsorted
  constructor
  · intro hhead
    refine ⟨hperm.mem_iff.mp (List.mem_of_head? hhead), fun other hother ↦ ?_⟩
    obtain ⟨rest, rfl⟩ := List.head?_eq_some_iff.mp hhead
    rcases List.mem_cons.mp (hperm.mem_iff.mpr hother) with rfl | hrest
    · exact le_rfl
    · simpa using List.rel_of_pairwise_cons hsorted hrest
  · rintro ⟨hmem, hleast⟩
    cases sorted with
    | nil => simp [← hperm.mem_iff] at hmem
    | cons first rest =>
      have hfirst : id ≤ first := hleast first (hperm.mem_iff.mp List.mem_cons_self)
      rcases List.mem_cons.mp (hperm.mem_iff.mpr hmem) with rfl | hrest
      · rfl
      · have hle : first ≤ id := by simpa using List.rel_of_pairwise_cons hsorted hrest
        rw [le_antisymm hfirst hle]
        rfl

/-! ## The handlers -/

theorem Valid.attemptClaim (h : tab.Valid) (seen : ℕ) :
    tab.Handled (Tab.attemptClaim { tab with lastSeenLeaderAt := seen }) := by
  unfold Tab.attemptClaim
  split
  · exact ⟨rfl, ⟨h.channel_eq, h.leads_started, h.claims_started, h.claims_self, h.deadchecks⟩,
      by simp, Or.inl, Or.inl, fun _ _ ↦ Or.inl⟩
  · next hchannel =>
    have hopen : tab.channel = true := by simpa using hchannel
    exact {
      tabId_eq := rfl
      valid := ⟨h.channel_eq, h.leads_started, fun _ ↦ h.channel_eq ▸ hopen, by simp, h.deadchecks⟩
      sender := by simp [Msg.tabId]
      leads := Or.inl
      joins := Or.inl
      yields := by simp }

theorem Valid.claimTimeout (h : tab.Valid) : tab.Handled tab.claimTimeout := by
  unfold Tab.claimTimeout
  split
  · next hclaims =>
    have hvalid : Valid { tab with claimTimer := false } :=
      ⟨h.channel_eq, h.leads_started, by simp, by simp, h.deadchecks⟩
    have hstarted : tab.started = true := h.claims_started hclaims
    have hopen : tab.channel = true := h.channel_eq.trans hstarted
    unfold Tab.decide
    rw [if_neg (by simp [hstarted])]
    split
    · next hwinner =>
      have hleast := (winner_eq_some_iff.mp hwinner).2
      have hyields (other : Id) (hlt : other < tab.tabId) : ¬ tab.Yields other :=
        fun hyields ↦ absurd (hleast other (hyields.2 hclaims)) (not_le.mpr hlt)
      unfold Tab.becomeLeader
      split
      · next hleads =>
        exact ⟨rfl, hvalid, by simp, Or.inl, Or.inl,
          fun other hlt hother ↦ absurd hother (hyields other hlt)⟩
      · exact {
          tabId_eq := rfl
          valid := ⟨h.channel_eq, fun _ ↦ hstarted, by simp, by simp, h.deadchecks⟩
          sender := by simp [Msg.tabId]
          leads := by simp
          joins := Or.inl
          yields other hlt hother := absurd hother (hyields other hlt) }
    · exact {
        tabId_eq := by simp
        valid := hvalid.becomeFollower
        sender := by simp
        leads := by simp
        joins := by simp
        yields _ _ _ := Or.inl (yields_becomeFollower (by simp)) }
  · exact h.handled_self (by simp)

theorem Valid.deadcheck (h : tab.Valid) (now : ℕ+) : tab.Handled (tab.deadcheck now) := by
  unfold Tab.deadcheck
  split
  · exact h.handled_self (by simp)
  · split
    · exact h.handled_self (by simp)
    · split
      · exact h.attemptClaim 0
      · exact h.handled_self (by simp)

theorem Valid.start (h : tab.Valid) : tab.Handled (tab.start true) := by
  unfold Tab.start
  split
  · exact h.handled_self (by simp)
  · next hstarted =>
    exact {
      tabId_eq := by simp [Tab.attemptClaim]
      valid := ⟨by simp [Tab.attemptClaim], by simp [Tab.attemptClaim], by simp [Tab.attemptClaim],
        by simp [Tab.attemptClaim], by simp [Tab.attemptClaim]⟩
      sender := by simp [Tab.attemptClaim, Msg.tabId]
      leads := by simp only [Tab.attemptClaim]; exact Or.inl
      joins := by simp [Tab.attemptClaim]
      yields := by simp [Tab.attemptClaim] }

theorem Valid.stop (h : tab.Valid) : tab.Handled tab.stop := by
  unfold Tab.stop
  split
  · exact h.handled_self (by simp)
  · exact {
      tabId_eq := rfl
      valid := ⟨rfl, by simp, by simp, by simp, rfl⟩
      sender := by split <;> simp [Msg.tabId]
      leads := by simp
      joins := by simp
      yields := by simp [Yields] }

theorem handled_crash (tab : Tab Id) :
    tab.Handled (({ tabId := tab.tabId } : Tab Id), []) where
  tabId_eq := rfl
  valid := initial_valid tab.tabId
  sender := by simp
  leads := by simp
  joins := by simp
  yields := by simp [Yields]

theorem Valid.beat (h : tab.Valid) : tab.Handled tab.beat :=
  h.handled_self (by split <;> simp [Msg.tabId])

theorem Valid.onUnload (h : tab.Valid) : tab.Handled tab.onUnload :=
  h.handled_self (by split <;> simp [Msg.tabId])

theorem Valid.onPageShow (h : tab.Valid) : tab.Handled tab.onPageShow := by
  unfold Tab.onPageShow
  split
  · exact h.attemptClaim tab.lastSeenLeaderAt
  · exact h.handled_self (by simp)

/-- A tab that hears of a smaller one follows; its candidates only grow. -/
theorem handled_heard {heard : Tab Id} (hvalid : heard.Valid)
    (htabId : heard.tabId = tab.tabId) (hleads : heard.isLeaderFlag → tab.isLeaderFlag)
    (hstarted : heard.started = tab.started)
    (hyields : ∀ other, tab.Yields other → heard.Yields other) : tab.Handled (heard, []) where
  tabId_eq := htabId
  valid := hvalid
  sender := by simp
  leads hheard := Or.inl (hleads hheard)
  joins hheard := Or.inl (hstarted ▸ hheard)
  yields other _ hother := Or.inl (hyields other hother)

theorem Valid.onMessage (h : tab.Valid) (now : ℕ+) (msg : Msg Id) :
    tab.Handled (tab.onMessage now msg) := by
  unfold Tab.onMessage
  split
  · exact h.handled_self (by simp)
  · cases msg with
    | claim tabId =>
      have hheard : (tab.addCandidate tabId).Valid := h.addCandidate tabId
      dsimp only
      split
      · exact handled_heard hheard.becomeFollower (by simp) (by simp)
          (by simp) fun other hother ↦
            yields_becomeFollower (hother.addCandidate tabId).2
      · split
        · exact {
            tabId_eq := rfl
            valid := hheard
            sender := by simp [Msg.tabId]
            leads := Or.inl
            joins := Or.inl
            yields other _ hother := Or.inl (hother.addCandidate tabId) }
        · exact handled_heard hheard rfl id rfl fun other hother ↦ hother.addCandidate tabId
    | heartbeat tabId =>
      dsimp only
      have hheard : (tab.heartbeatSeen now tabId).Valid := h.heartbeatSeen now tabId
      split
      · exact handled_heard hheard.becomeFollower (by simp) (by simp) (by simp) fun other hother ↦
          yields_becomeFollower (hother.heartbeatSeen now tabId).2
      · exact handled_heard hheard (by simp) (by simp) (by simp) fun other hother ↦
          hother.heartbeatSeen now tabId
    | relinquish tabId => exact h.attemptClaim 0

/-- After the heartbeat of a smaller leader, a tab yields to it. -/
theorem yields_of_heartbeat (now : ℕ+) {smaller : Id} (hlt : smaller < tab.tabId) :
    (tab.onMessage now (.heartbeat smaller)).1.Yields smaller := by
  have hheard : (tab.heartbeatSeen now smaller).claimTimer → _ := mem_heartbeatSeen now smaller
  unfold onMessage
  rw [if_neg (by simpa [Msg.tabId] using hlt.ne)]
  dsimp only
  split
  · exact yields_becomeFollower hheard
  · next hfollows =>
    refine ⟨fun hleads ↦ hfollows ⟨hleads, ?_⟩, hheard⟩
    rwa [heartbeatSeen_tabId]

/-- A leader that stays one after the claim of a larger tab has answered it with a heartbeat. -/
theorem Valid.answers_claim (h : tab.Valid) (now : ℕ+) {larger : Id} (hlt : tab.tabId < larger)
    (hleads : tab.isLeaderFlag) :
    .heartbeat tab.tabId ∈ (tab.onMessage now (.claim larger)).2 := by
  have hchannel : tab.channel = true := h.channel_eq.trans (h.leads_started hleads)
  unfold Tab.onMessage
  rw [if_neg (by simpa [Msg.tabId] using hlt.ne')]
  dsimp only
  rw [if_neg (by simpa using fun _ ↦ hlt.le), if_pos ⟨hleads, hchannel⟩]
  exact List.mem_cons_self

/-- A claim makes no leader. -/
theorem leads_of_claim (now : ℕ+) {claimant : Id}
    (h : (tab.onMessage now (.claim claimant)).1.isLeaderFlag) : tab.isLeaderFlag := by
  unfold onMessage at h
  split at h
  · exact h
  · dsimp only at h
    split at h
    · simp at h
    · split at h <;> exact h

omit [LinearOrder Id] in
/-- A page that is shown again claims, if its tab is started. -/
theorem Valid.onPageShow_eq_or (h : tab.Valid) :
    tab.onPageShow = (tab, []) ∨ (tab.channel ∧ tab.onPageShow = tab.attemptClaim) := by
  unfold Tab.onPageShow
  split
  · next hshown => exact Or.inr ⟨h.channel_eq.trans hshown.2, rfl⟩
  · exact Or.inl rfl

omit [LinearOrder Id] in
/-- A dead-check that finds the leader dead claims. -/
theorem Valid.deadcheck_eq_or (h : tab.Valid) (now : ℕ+) :
    tab.deadcheck now = (tab, []) ∨
      (tab.channel ∧ tab.deadcheck now = Tab.attemptClaim { tab with lastSeenLeaderAt := 0 }) := by
  unfold Tab.deadcheck
  split
  · exact Or.inl rfl
  · next htimer =>
    have hstarted : tab.started = true := by simpa [h.deadchecks] using htimer
    split
    · exact Or.inl rfl
    · split
      · exact Or.inr ⟨h.channel_eq.trans hstarted, rfl⟩
      · exact Or.inl rfl

/-- An open claim ends with a leader, or with a follower that has a smaller candidate. -/
theorem Valid.claimTimeout_cases (h : tab.Valid) (hclaims : tab.claimTimer) :
    tab.claimTimeout.1.started ∧ tab.claimTimeout.1.claimTimer = false ∧
      tab.claimTimeout.1.lastSeenLeaderAt = tab.lastSeenLeaderAt ∧
      (∀ msg ∈ tab.claimTimeout.2, msg = .heartbeat tab.tabId) ∧
      (tab.claimTimeout.1.isLeaderFlag ∨
        ∃ smaller ∈ tab.claimCandidates, smaller < tab.tabId) := by
  have hstarted : tab.started = true := h.claims_started hclaims
  unfold Tab.claimTimeout Tab.decide
  rw [if_pos hclaims, if_neg (by simp [hstarted])]
  split
  · unfold Tab.becomeLeader
    split
    · next hleads => exact ⟨hstarted, rfl, rfl, by simp, Or.inl hleads⟩
    · exact ⟨hstarted, rfl, rfl, by simp, Or.inl rfl⟩
  · next hwinner =>
    refine ⟨by simpa using hstarted, by simp, by simp, by simp, Or.inr ?_⟩
    by_contra hnone
    apply hwinner
    rw [winner_eq_some_iff]
    refine ⟨h.claims_self hclaims, fun other hother ↦ ?_⟩
    exact le_of_not_gt fun hlt ↦ hnone ⟨other, hother, hlt⟩

/-- A claim leaves the claimant among the candidates and is answered with heartbeats only; it takes
the lead from a larger tab. -/
theorem onMessage_claim_cases (tab : Tab Id) (now : ℕ+) (claimant : Id) :
    (tab.onMessage now (.claim claimant)).1.started = tab.started ∧
      (tab.onMessage now (.claim claimant)).1.claimTimer = tab.claimTimer ∧
      (tab.onMessage now (.claim claimant)).1.lastSeenLeaderAt = tab.lastSeenLeaderAt ∧
      (∀ other ∈ (tab.onMessage now (.claim claimant)).1.claimCandidates,
        other ∈ tab.claimCandidates ∨ other = claimant) ∧
      (∀ msg ∈ (tab.onMessage now (.claim claimant)).2, msg = .heartbeat tab.tabId) ∧
      (¬ claimant < tab.tabId →
        (tab.onMessage now (.claim claimant)).1.isLeaderFlag = tab.isLeaderFlag) := by
  unfold onMessage
  split
  · exact ⟨rfl, rfl, rfl, fun _ ↦ Or.inl, by simp, fun _ ↦ rfl⟩
  · dsimp only
    split
    · next hfollows =>
      exact ⟨by simp, by simp [addCandidate], by simp [addCandidate],
        fun _ hother ↦ mem_addCandidate (by simpa using hother), by simp,
        fun hnot ↦ absurd hfollows.2 hnot⟩
    · split
      · exact ⟨rfl, rfl, rfl, fun _ ↦ mem_addCandidate, by simp, fun _ ↦ rfl⟩
      · exact ⟨rfl, rfl, rfl, fun _ ↦ mem_addCandidate, by simp, fun _ ↦ rfl⟩

/-- A heartbeat from another tab sets the time a leader was last seen, and posts nothing. -/
theorem onMessage_heartbeat_cases (tab : Tab Id) (now : ℕ+) {leader : Id} (hne : leader ≠ tab.tabId) :
    (tab.onMessage now (.heartbeat leader)).1.started = tab.started ∧
      (tab.onMessage now (.heartbeat leader)).1.lastSeenLeaderAt = now ∧
      (tab.onMessage now (.heartbeat leader)).2 = [] := by
  unfold onMessage
  rw [if_neg (by simpa [Msg.tabId] using hne)]
  dsimp only
  split
  · exact ⟨by simp, by simp, rfl⟩
  · exact ⟨by simp, by simp, rfl⟩

end

end Tab

end Flockctl.LeaderElection
