import Flockctl.LeaderElection.Handlers
import Flockctl.Transition.Run
import Mathlib.Data.String.Basic

/-!
# One leader

A started tab that does not lead and has every smaller leader among the candidates of its open claim
cannot become a second leader. Until it knows of a smaller leader, a heartbeat of that leader is on
its way to it, or its own claim is on its way to the leader, who answers it with a heartbeat. When no
message is on its way, no two started tabs lead.
-/

namespace Flockctl.LeaderElection

open Transition

universe u

variable {Id : Type u} [LinearOrder Id]

namespace Browser

/-- Every tab has its own id and a valid state, and a message on its way is from its sender to
another tab that is connected. -/
structure Sound (s : Browser Id) : Prop where
  own : ∀ id, (s.tabs id).tabId = id
  valid : ∀ id, (s.tabs id).Valid
  sender : ∀ source target, ∀ msg ∈ s.channels source target,
    msg.tabId = source ∧ source ≠ target ∧ (s.tabs target).channel

omit [LinearOrder Id] in
theorem initial_sound : Sound (initial : Browser Id) where
  own _ := rfl
  valid id := Tab.initial_valid id
  sender := by simp [initial, Channels.empty]

variable {s : Browser Id} {id : Id} {handled : Posting Id}

/-- The queue of an event before its handler runs has lost the message the handler is given. -/
theorem Sound.taken (h : s.Sound) (source target : Id) : (s.taken source target).Sound where
  own := h.own
  valid := h.valid
  sender other receiver msg hmsg := h.sender other receiver msg (Channels.mem_of_mem_take _ hmsg)

@[simp] theorem commit_tabs_self : (s.commit id handled).tabs id = handled.1 := by simp [commit]

theorem commit_tabs_of_ne {other : Id} (h : other ≠ id) :
    (s.commit id handled).tabs other = s.tabs other := by
  simp [commit, h]

/-- What goes to another tab is kept, and what the handler posts is added. -/
theorem commit_channels_of_ne {target : Id} (h : target ≠ id) (source : Id) :
    (s.commit id handled).channels source target =
      s.channels.post (fun other ↦ (s.tabs other).channel) id handled.2 source target := by
  unfold commit
  dsimp only
  split
  · rfl
  · exact Channels.disconnect_of_ne _ h

/-- What is on its way to the tab whose handler ran stays there while its channel is open. -/
theorem commit_channels_self (source : Id) :
    (s.commit id handled).channels source id =
      if handled.1.channel then s.channels source id else [] := by
  have hpost : s.channels.post (fun other ↦ (s.tabs other).channel) id handled.2 source id =
      s.channels source id := by simp [Channels.post]
  unfold commit
  dsimp only
  split
  · exact hpost
  · exact Channels.disconnect_self _

theorem mem_channels_of_mem_commit {source target : Id}
    {msg : Msg Id} (hmsg : msg ∈ (s.commit id handled).channels source target) :
    (msg ∈ s.channels source target ∧ (target = id → handled.1.channel)) ∨
      (source = id ∧ target ≠ id ∧ (s.tabs target).channel ∧ msg ∈ handled.2) := by
  by_cases heq : target = id
  · subst heq
    rw [commit_channels_self] at hmsg
    split at hmsg
    · next hchannel => exact Or.inl ⟨hmsg, fun _ ↦ hchannel⟩
    · simp at hmsg
  · rw [commit_channels_of_ne heq] at hmsg
    rcases s.channels.post_eq_or (fun other ↦ (s.tabs other).channel) id source target handled.2
      with hpost | ⟨hsource, hne, hconnected, hpost⟩
    · rw [hpost] at hmsg
      exact Or.inl ⟨hmsg, fun h ↦ absurd h heq⟩
    · rw [hpost] at hmsg
      rcases List.mem_append.mp hmsg with hold | hnew
      · exact Or.inl ⟨hold, fun h ↦ absurd h heq⟩
      · exact Or.inr ⟨hsource, hne, hconnected, hnew⟩

theorem Sound.commit (h : s.Sound) (hhandled : (s.tabs id).Handled handled) :
    (s.commit id handled).Sound where
  own other := by
    by_cases heq : other = id
    · subst heq
      rw [commit_tabs_self, hhandled.tabId_eq, h.own]
    · rw [commit_tabs_of_ne heq, h.own]
  valid other := by
    by_cases heq : other = id
    · subst heq
      rw [commit_tabs_self]
      exact hhandled.valid
    · rw [commit_tabs_of_ne heq]
      exact h.valid other
  sender source target msg hmsg := by
    rcases mem_channels_of_mem_commit hmsg with ⟨hold, hchannel⟩ | ⟨rfl, hne, hconnected, hnew⟩
    · obtain ⟨hsource, hother, hopen⟩ := h.sender source target msg hold
      refine ⟨hsource, hother, ?_⟩
      by_cases heq : target = id
      · subst heq
        rw [commit_tabs_self]
        exact hchannel rfl
      · rwa [commit_tabs_of_ne heq]
    · refine ⟨(hhandled.sender msg hnew).trans (h.own source), hne.symm, ?_⟩
      rwa [commit_tabs_of_ne hne]

/-- Every event but a delivery is a handler of one tab. -/
theorem Sound.step_eq (h : s.Sound) (event : Event Id) :
    s.step event = s ∨
      (∃ id handled, s.step event = s.commit id handled ∧ (s.tabs id).Handled handled) ∨
      ∃ source target now msg rest, s.channels source target = msg :: rest ∧
        s.step event =
          (s.taken source target).commit target ((s.tabs target).onMessage now msg) := by
  cases event with
  | start id => exact Or.inr (Or.inl ⟨id, _, rfl, (h.valid id).start⟩)
  | stop id => exact Or.inr (Or.inl ⟨id, _, rfl, (h.valid id).stop⟩)
  | crash id =>
    refine Or.inr (Or.inl ⟨id, _, rfl, ?_⟩)
    have hcrash := Tab.handled_crash (s.tabs id)
    rwa [h.own id] at hcrash
  | beforeunload id => exact Or.inr (Or.inl ⟨id, _, rfl, (h.valid id).onUnload⟩)
  | pageshow id => exact Or.inr (Or.inl ⟨id, _, rfl, (h.valid id).onPageShow⟩)
  | claimTimeout id => exact Or.inr (Or.inl ⟨id, _, rfl, (h.valid id).claimTimeout⟩)
  | heartbeat id => exact Or.inr (Or.inl ⟨id, _, rfl, (h.valid id).beat⟩)
  | deadcheck id now => exact Or.inr (Or.inl ⟨id, _, rfl, (h.valid id).deadcheck now⟩)
  | deliver source target now =>
    cases hqueue : s.channels source target with
    | nil => exact Or.inl (by simp [step, hqueue])
    | cons msg rest =>
      exact Or.inr (Or.inr ⟨source, target, now, msg, rest, hqueue, by simp [step, hqueue]⟩)

theorem Sound.step (h : s.Sound) (event : Event Id) : (s.step event).Sound := by
  rcases h.step_eq event with heq | ⟨id, handled, heq, hhandled⟩ |
    ⟨source, target, now, msg, rest, -, heq⟩
  · rwa [heq]
  · rw [heq]
    exact h.commit hhandled
  · rw [heq]
    exact (h.taken source target).commit ((h.valid target).onMessage now msg)

/-- The larger tab knows of the smaller one, or is about to. -/
def Attentive (s : Browser Id) (smaller larger : Id) : Prop :=
  .heartbeat smaller ∈ s.channels smaller larger ∨ .claim larger ∈ s.channels larger smaller ∨
    (s.tabs larger).Yields smaller

/-- Every started tab is attentive to every smaller leader. -/
def Aware (s : Browser Id) : Prop :=
  ∀ smaller larger, smaller < larger → (s.tabs smaller).isLeaderFlag → (s.tabs larger).started →
    s.Attentive smaller larger

/-- A handler leaves a started tab attentive to a smaller leader. -/
theorem Sound.attentive_commit (h : s.Sound) (hhandled : (s.tabs id).Handled handled)
    {smaller larger : Id} (hlt : smaller < larger)
    (hbefore : (s.tabs smaller).isLeaderFlag → (s.tabs larger).started → s.Attentive smaller larger)
    (hleads : ((s.commit id handled).tabs smaller).isLeaderFlag)
    (hstarted : ((s.commit id handled).tabs larger).started) :
    (s.commit id handled).Attentive smaller larger := by
  unfold Attentive
  by_cases hsmaller : smaller = id
  · -- the leader's handler: a new leader posts a heartbeat to everyone
    subst hsmaller
    rw [commit_tabs_self] at hleads
    rw [commit_tabs_of_ne hlt.ne'] at hstarted ⊢
    rw [commit_channels_of_ne hlt.ne', commit_channels_self]
    have hopen : (s.tabs larger).channel := (h.valid larger).channel_eq.trans hstarted
    have hchannel : handled.1.channel :=
      hhandled.valid.channel_eq.trans (hhandled.valid.leads_started hleads)
    rw [if_pos hchannel]
    rcases hhandled.leads hleads with hled | hposted
    · rcases hbefore hled hstarted with hbeat | hclaim | hyields
      · exact Or.inl (Channels.mem_post_of_mem _ hbeat)
      · exact Or.inr (Or.inl hclaim)
      · exact Or.inr (Or.inr hyields)
    · rw [h.own] at hposted
      exact Or.inl (Channels.mem_post_of_connected _ hlt.ne' hopen hposted)
  · rw [commit_tabs_of_ne hsmaller] at hleads
    have hopen : (s.tabs smaller).channel :=
      (h.valid smaller).channel_eq.trans ((h.valid smaller).leads_started hleads)
    rw [commit_channels_of_ne hsmaller]
    by_cases hlarger : larger = id
    · -- the other tab's handler: what it forgets, it claims
      subst hlarger
      rw [commit_tabs_self] at hstarted ⊢
      rw [commit_channels_self]
      have hchannel : handled.1.channel := hhandled.valid.channel_eq.trans hstarted
      rw [if_pos hchannel]
      have hposted (hclaim : .claim (s.tabs larger).tabId ∈ handled.2) :
          .claim larger ∈ s.channels.post (fun other ↦ (s.tabs other).channel) larger handled.2
            larger smaller := by
        rw [h.own] at hclaim
        exact Channels.mem_post_of_connected _ hlt.ne hopen hclaim
      rcases hhandled.joins hstarted with hstartedBefore | hclaim
      · rcases hbefore hleads hstartedBefore with hbeat | hclaim | hyields
        · exact Or.inl hbeat
        · exact Or.inr (Or.inl (Channels.mem_post_of_mem _ hclaim))
        · rcases hhandled.yields smaller ((h.own larger).symm ▸ hlt) hyields with hyields | hclaim
          · exact Or.inr (Or.inr hyields)
          · exact Or.inr (Or.inl (hposted hclaim))
      · exact Or.inr (Or.inl (hposted hclaim))
    · rw [commit_tabs_of_ne hlarger] at hstarted ⊢
      rw [commit_channels_of_ne hlarger]
      rcases hbefore hleads hstarted with hbeat | hclaim | hyields
      · exact Or.inl (Channels.mem_post_of_mem _ hbeat)
      · exact Or.inr (Or.inl (Channels.mem_post_of_mem _ hclaim))
      · exact Or.inr (Or.inr hyields)

/-- Only the message that is delivered leaves its queue. -/
theorem mem_taken {source target : Id} {msg : Msg Id} {rest : List (Msg Id)}
    (hqueue : s.channels source target = msg :: rest) {sender receiver : Id} {other : Msg Id}
    (h : other ∈ s.channels sender receiver) :
    other ∈ (s.taken source target).channels sender receiver ∨
      (sender = source ∧ receiver = target ∧ other = msg) := by
  rcases s.channels.take_eq_or source target sender receiver with heq | ⟨rfl, rfl, heq⟩
  · exact Or.inl (by simpa [taken, heq] using h)
  · rw [hqueue] at h
    rcases List.mem_cons.mp h with rfl | hrest
    · exact Or.inr ⟨rfl, rfl, rfl⟩
    · exact Or.inl (by simpa [taken, heq, hqueue] using hrest)

/-- The claim of a larger tab is answered when it arrives at a leader. -/
theorem Sound.heartbeat_answers (h : s.Sound) {smaller larger : Id} (hlt : smaller < larger)
    (hleads : (s.tabs smaller).isLeaderFlag) (hstarted : (s.tabs larger).started) (now : ℕ+)
    (channels : Channels Id (Msg Id)) :
    .heartbeat smaller ∈ (Browser.commit { s with channels := channels } smaller
      ((s.tabs smaller).onMessage now (.claim larger))).channels smaller larger := by
  have hopen : (s.tabs larger).channel = true := (h.valid larger).channel_eq.trans hstarted
  rw [commit_channels_of_ne hlt.ne']
  apply Channels.mem_post_of_connected _ hlt.ne' hopen
  have hanswer := (h.valid smaller).answers_claim now ((h.own smaller).symm ▸ hlt) hleads
  rwa [h.own] at hanswer

theorem Aware.step (haware : s.Aware) (h : s.Sound) (event : Event Id) : (s.step event).Aware := by
  intro smaller larger hlt
  rcases h.step_eq event with heq | ⟨id, handled, heq, hhandled⟩ |
    ⟨source, target, now, msg, rest, hqueue, heq⟩
  · rw [heq]
    exact haware smaller larger hlt
  · rw [heq]
    exact h.attentive_commit hhandled hlt (haware smaller larger hlt)
  · rw [heq]
    obtain ⟨hsource, -⟩ := h.sender source target msg (hqueue ▸ List.mem_cons_self)
    have hhandled : ((s.taken source target).tabs target).Handled
        ((s.tabs target).onMessage now msg) := (h.valid target).onMessage now msg
    intro hleads hstarted
    by_cases hbeat : source = smaller ∧ target = larger ∧ msg = .heartbeat smaller
    · obtain ⟨rfl, rfl, rfl⟩ := hbeat
      refine Or.inr (Or.inr ?_)
      rw [commit_tabs_self]
      exact Tab.yields_of_heartbeat now ((h.own target).symm ▸ hlt)
    · by_cases hclaim : source = larger ∧ target = smaller ∧ msg = .claim larger
      · obtain ⟨rfl, rfl, rfl⟩ := hclaim
        rw [commit_tabs_self] at hleads
        rw [commit_tabs_of_ne hlt.ne'] at hstarted
        exact Or.inl (h.heartbeat_answers hlt (Tab.leads_of_claim now hleads) hstarted now _)
      · apply (h.taken source target).attentive_commit hhandled hlt _ hleads hstarted
        intro hled hjoined
        rcases haware smaller larger hlt hled hjoined with hmem | hmem | hyields
        · rcases mem_taken hqueue hmem with hmem | ⟨rfl, rfl, rfl⟩
          · exact Or.inl hmem
          · exact absurd ⟨rfl, rfl, rfl⟩ hbeat
        · rcases mem_taken hqueue hmem with hmem | ⟨rfl, rfl, rfl⟩
          · exact Or.inr (Or.inl hmem)
          · exact absurd ⟨rfl, rfl, rfl⟩ hclaim
        · exact Or.inr (Or.inr hyields)

/-- The tab is started and leads. -/
def Leads (s : Browser Id) (id : Id) : Prop :=
  (s.tabs id).started ∧ (s.tabs id).isLeaderFlag

instance (s : Browser Id) (id : Id) : Decidable (s.Leads id) :=
  inferInstanceAs (Decidable (_ ∧ _))

theorem Aware.two_leaders (haware : s.Aware) {smaller larger : Id} (hlt : smaller < larger)
    (hsmaller : s.Leads smaller) (hlarger : s.Leads larger) :
    .heartbeat smaller ∈ s.channels smaller larger ∨
      .claim larger ∈ s.channels larger smaller := by
  rcases haware smaller larger hlt hsmaller.2 hlarger.1 with hbeat | hclaim | hyields
  · exact Or.inl hbeat
  · exact Or.inr hclaim
  · exact absurd hlarger.2 hyields.1

/-- The states a run passes through are sound, and their tabs aware of smaller leaders. -/
theorem run_sound_aware (events : List (Event Id)) :
    (run step initial events).Sound ∧ (run step initial events).Aware := by
  have hstep (s : Browser Id) (event : Event Id) (h : s.Sound ∧ s.Aware) :
      (s.step event).Sound ∧ (s.step event).Aware := ⟨h.1.step event, h.2.step h.1 event⟩
  have hinitial : (initial : Browser Id).Aware := fun _ _ _ hleads ↦ by simp [initial] at hleads
  exact run_preserves hstep ⟨initial_sound, hinitial⟩ events

/-- In every reachable state: when no message is on its way at most one started tab leads, and of two
leaders the smaller has a heartbeat on its way to the larger, or is about to answer the claim of the
larger with one. -/
theorem leaders_of_run (events : List (Event Id)) :
    ((∀ source target, (run step initial events).channels source target = []) →
      ∀ id other, (run step initial events).Leads id → (run step initial events).Leads other →
        id = other) ∧
    ∀ smaller larger, smaller < larger → (run step initial events).Leads smaller →
      (run step initial events).Leads larger →
      .heartbeat smaller ∈ (run step initial events).channels smaller larger ∨
        .claim larger ∈ (run step initial events).channels larger smaller ∧
          ∀ now rest, (run step initial events).channels larger smaller = .claim larger :: rest →
            .heartbeat smaller ∈
              ((run step initial events).step (.deliver larger smaller now)).channels
                smaller larger := by
  obtain ⟨hsound, haware⟩ := run_sound_aware events
  generalize run step initial events = s at hsound haware
  constructor
  · intro hquiet id other hid hother
    rcases lt_trichotomy id other with hlt | heq | hlt
    · simpa [hquiet] using haware.two_leaders hlt hid hother
    · exact heq
    · simpa [hquiet] using haware.two_leaders hlt hother hid
  · intro smaller larger hlt hsmaller hlarger
    rcases haware.two_leaders hlt hsmaller hlarger with hbeat | hclaim
    · exact Or.inl hbeat
    · refine Or.inr ⟨hclaim, fun now rest hqueue ↦ ?_⟩
      have hanswer := hsound.heartbeat_answers hlt hsmaller.2 hlarger.1 now
        (s.channels.take larger smaller)
      simpa [step, hqueue, taken] using hanswer

theorem neZero_one : NeZero 1 := ⟨Nat.one_ne_zero⟩

attribute [local instance] neZero_one

/-- The tab `02` learns of the leader `01` before it claims, so its own claim forgets the leader. -/
def reclaimedLead : List (Event String) :=
  [.start "01", .claimTimeout "01", .start "02", .deliver "02" "01" 1, .deliver "01" "02" 1,
    .claimTimeout "02", .pageshow "02", .claimTimeout "02"]

/-- Two tabs lead and no heartbeat of the smaller is on its way to the larger. -/
theorem not_heartbeat_of_two_leaders :
    "01" < "02" ∧ (run step initial reclaimedLead).Leads "01" ∧
      (run step initial reclaimedLead).Leads "02" ∧
      .heartbeat "01" ∉ (run step initial reclaimedLead).channels "01" "02" := by
  decide +kernel

end Browser

end Flockctl.LeaderElection
