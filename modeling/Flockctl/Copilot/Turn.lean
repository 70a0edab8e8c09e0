import Flockctl.Copilot.Stream

/-!
# What a turn delivers

A turn is described by what was sent in it and how it ended. The generator hands out the texts of
the messages in their order and then the end, as long as messages are not streamed in one part of
the turn and sent whole in another.
-/

namespace Flockctl.Copilot

open Chats.Streaming Transition

/-- What was sent since the listeners were set and before the turn ended. -/
structure Turn where
  begun : Bool := false
  /-- The contents of the messages that are closed. -/
  contents : List Text := []
  /-- What was streamed of the message that is not closed yet. -/
  streamed : Option Text := none
  /-- A text was streamed in this turn. -/
  hasStreamed : Bool := false
  /-- The texts that are to be handed out: what is streamed, and what is sent whole. -/
  texts : List Text := []
  /-- The texts that are handed out when nothing whole is looked at after a streamed text. -/
  latched : List Text := []
  usage : AgentUsage := {}
  /-- How the turn ended. -/
  outcome : Option StreamChatEvent := none
  settled : Bool := false
  aborted : Bool := false
  deriving DecidableEq, Repr

namespace Turn

variable (t : Turn)

/-- The turn has begun and not ended. -/
def isGoing : Bool := t.begun && t.outcome.isNone

def conclude (event : StreamChatEvent) : Turn :=
  if t.isGoing then { t with outcome := some event } else t

def sendDelta (chunk : Text) : Turn :=
  if chunk = [] then { t with streamed := some (t.streamed.getD []) }
  else
    { t with
      streamed := some (t.streamed.getD [] ++ chunk)
      hasStreamed := true
      texts := t.texts ++ [chunk]
      latched := t.latched ++ [chunk] }

def closeMessage (content : Text) : Turn :=
  { t with
    contents := t.contents ++ [content]
    streamed := none
    texts := if t.streamed.getD [] = [] ∧ content ≠ [] then t.texts ++ [content] else t.texts
    latched :=
      if t.hasStreamed = false ∧ content ≠ [] then t.latched ++ [content] else t.latched }

def step (t : Turn) : StreamStep → Turn
  | .start => { t with begun := true }
  | .delta chunk => if t.isGoing then t.sendDelta chunk else t
  | .message content =>
    if t.isGoing then t.closeMessage (extractMessageText content) else t
  | .usage data => if t.isGoing then { t with usage := t.usage.add data } else t
  | .settle error =>
    if t.begun = false ∨ t.settled then t
    else { t.conclude (runOutcome t.usage error) with settled := true }
  | .abort =>
    if t.aborted then t
    else { t.conclude abortedByCaller with aborted := true }
  | _ => t

/-- What the caller is to be given. -/
def deliveries : List StreamChatEvent := t.texts.map .text ++ t.outcome.toList

/-- A message is streamed as deltas that concatenate to its content, or sent whole. -/
def FollowsSdk (t : Turn) : StreamStep → Prop
  | .message content => t.isGoing = true → t.streamed = none ∨
      t.streamed = some (extractMessageText content)
  | _ => True

/-- No message with a text is sent whole after a text was streamed. -/
def IsUnmixed (t : Turn) : StreamStep → Prop
  | .message content => t.isGoing = true → t.hasStreamed = true →
      t.streamed.getD [] = [] → extractMessageText content = []
  | _ => True

end Turn

/-! ## The queue -/

/-- The event that the loop has been handed. -/
def LoopPoint.held : LoopPoint → List StreamChatEvent
  | .handed (some event) => [event]
  | _ => []

/-- What was handed out fits the point of the loop: no event behind a terminal one. -/
def LoopPoint.Fits (yielded : List StreamChatEvent) : LoopPoint → Prop
  | .unstarted | .waiting | .handed (some _) => ∀ event ∈ yielded, event.isTerminal = false
  | .handed none => False
  | .suspended last => ∃ before, yielded = before ++ [last] ∧
      ∀ event ∈ before, event.isTerminal = false
  | .ending | .finished => ∃ before last, yielded = before ++ [last] ∧ last.isTerminal = true ∧
      ∀ event ∈ before, event.isTerminal = false

namespace CopilotStream

variable (s : CopilotStream)

/-- Everything that was pushed. -/
def pushed : List StreamChatEvent := s.yielded ++ s.point.held ++ s.queue

structure Steady (s : CopilotStream) : Prop where
  waiting : s.point = .waiting → s.queue = [] ∧ s.done = false
  unstarted : s.point = .unstarted → s.queue = [] ∧ s.done = false
  fits : s.point.Fits s.yielded
  settled : s.settled = true → s.done = true
  finished : s.point = .finished → s.settled = true

variable {s}

theorem pushed_push (hs : s.Steady) (event : StreamChatEvent) :
    (s.push event).pushed = s.pushed ++ [event] := by
  unfold push
  split
  · rename_i hwaiting
    obtain ⟨hqueue, -⟩ := hs.waiting hwaiting
    simp [pushed, hwaiting, hqueue, LoopPoint.held]
  · simp [pushed]

theorem point_push_ne_waiting (event : StreamChatEvent) : (s.push event).point ≠ .waiting := by
  unfold push
  split
  · simp
  · assumption

theorem steady_push (hs : s.Steady) (hstarted : s.point ≠ .unstarted) (event : StreamChatEvent) :
    (s.push event).Steady := by
  unfold push
  split
  · rename_i hwaiting
    have hfits := hs.fits
    rw [hwaiting] at hfits
    exact ⟨by simp, by simp, hfits, hs.settled, by simp⟩
  · rename_i hwaiting
    exact ⟨fun h ↦ absurd h hwaiting, fun h ↦ absurd h hstarted, hs.fits, hs.settled, hs.finished⟩

/-- The queue is closed behind the last event. -/
theorem steady_close (hs : s.Steady) (hstarted : s.point ≠ .unstarted)
    (hwaiting : s.point ≠ .waiting) : s.close.Steady ∧ s.close.pushed = s.pushed := by
  have hclose : s.close = { s with done := true } := by
    simp [close, hwaiting]
  rw [hclose]
  exact ⟨⟨fun h ↦ absurd h hwaiting, fun h ↦ absurd h hstarted, hs.fits, fun _ ↦ rfl,
    hs.finished⟩, rfl⟩

/-- The stream stands where the turn is. -/
structure Tracks (s : CopilotStream) (t : Turn) : Prop where
  steady : s.Steady
  begun : t.begun = true ↔ s.point ≠ .unstarted
  settled : s.settled = t.settled
  aborted : s.aborted = t.aborted
  done : s.done = t.outcome.isSome
  sawDelta : t.outcome = none → s.sawDelta = t.hasStreamed
  usage : t.outcome = none → s.usage = t.usage
  pushed : ∃ rest, s.pushed = t.latched.map .text ++ t.outcome.toList ++ rest ∧
    (t.outcome = none → rest = [])
  terminal : ∀ event, t.outcome = some event → event.isTerminal = true

theorem tracks_initial : Tracks {} {} where
  steady := ⟨by simp, by simp, by simp [LoopPoint.Fits], by simp, by simp⟩
  begun := by simp
  settled := rfl
  aborted := rfl
  done := rfl
  sawDelta := fun _ ↦ rfl
  usage := fun _ ↦ rfl
  pushed := ⟨[], rfl, fun _ ↦ rfl⟩
  terminal := by simp

variable {t : Turn}

theorem isGoing_iff (h : s.Tracks t) :
    t.isGoing = true ↔ s.point ≠ .unstarted ∧ t.outcome = none := by
  simp [Turn.isGoing, h.begun]

theorem outcome_of_unstarted (h : s.Tracks t) (hpoint : s.point = .unstarted) :
    t.outcome = none := by
  have hdone := (h.steady.unstarted hpoint).2
  rw [h.done] at hdone
  simpa using hdone

/-- A text is pushed while the turn goes on. -/
theorem tracks_push (h : s.Tracks t) (hgoing : t.isGoing = true) {text : Text} {sawDelta : Bool}
    {after : Turn} (hbegun : after.begun = t.begun) (hsettled : after.settled = t.settled)
    (haborted : after.aborted = t.aborted) (houtcome : after.outcome = t.outcome)
    (husage : after.usage = t.usage) (hlatched : after.latched = t.latched ++ [text])
    (hsaw : sawDelta = after.hasStreamed) :
    ({ s with sawDelta := sawDelta }.push (.text text)).Tracks after := by
  obtain ⟨hstarted, hnone⟩ := (isGoing_iff h).mp hgoing
  have hsteady : ({ s with sawDelta := sawDelta } : CopilotStream).Steady :=
    ⟨h.steady.waiting, h.steady.unstarted, h.steady.fits, h.steady.settled, h.steady.finished⟩
  have hpushed := pushed_push hsteady (.text text)
  have hfields : ∀ event, ({ s with sawDelta := sawDelta }.push event).settled = s.settled ∧
      ({ s with sawDelta := sawDelta }.push event).aborted = s.aborted ∧
      ({ s with sawDelta := sawDelta }.push event).done = s.done ∧
      ({ s with sawDelta := sawDelta }.push event).usage = s.usage ∧
      ({ s with sawDelta := sawDelta }.push event).sawDelta = sawDelta ∧
      ({ s with sawDelta := sawDelta }.push event).point ≠ .unstarted := by
    intro event
    unfold push
    split
    · simp
    · exact ⟨rfl, rfl, rfl, rfl, rfl, hstarted⟩
  obtain ⟨hsettled', haborted', hdone', husage', hsaw', hpoint'⟩ := hfields (.text text)
  obtain ⟨rest, hrest, hnil⟩ := h.pushed
  rw [hnone, hnil hnone] at hrest
  constructor
  · exact steady_push hsteady hstarted _
  · rw [hbegun]
    exact iff_of_true (h.begun.mpr hstarted) hpoint'
  · rw [hsettled', hsettled, h.settled]
  · rw [haborted', haborted, h.aborted]
  · rw [hdone', houtcome, h.done]
  · intro _
    rw [hsaw', hsaw]
  · intro hout
    rw [husage', husage, h.usage (houtcome ▸ hout)]
  · refine ⟨[], ?_, fun _ ↦ rfl⟩
    rw [hpushed, houtcome, hnone, hlatched]
    have hsame : ({ s with sawDelta := sawDelta } : CopilotStream).pushed = s.pushed := rfl
    rw [hsame, hrest]
    simp
  · rw [houtcome]
    exact h.terminal

/-- Nothing is pushed. -/
theorem tracks_same (h : s.Tracks t) {after : Turn} (hbegun : after.begun = t.begun)
    (hsettled : after.settled = t.settled) (haborted : after.aborted = t.aborted)
    (houtcome : after.outcome = t.outcome) (husage : after.usage = t.usage)
    (hstreamed : after.hasStreamed = t.hasStreamed) (hlatched : after.latched = t.latched) :
    s.Tracks after where
  steady := h.steady
  begun := hbegun ▸ h.begun
  settled := hsettled ▸ h.settled
  aborted := haborted ▸ h.aborted
  done := houtcome ▸ h.done
  sawDelta := by
    rw [houtcome, hstreamed]
    exact h.sawDelta
  usage := by
    rw [houtcome, husage]
    exact h.usage
  pushed := by
    rw [houtcome, hlatched]
    exact h.pushed
  terminal := houtcome ▸ h.terminal

/-- What is pushed after the turn ended stays behind its end. -/
theorem tracks_push_late (h : s.Tracks t) (hlate : t.outcome ≠ none) (event : StreamChatEvent)
    (sawDelta : Bool) : ({ s with sawDelta := sawDelta }.push event).Tracks t := by
  have hsteady : ({ s with sawDelta := sawDelta } : CopilotStream).Steady :=
    ⟨h.steady.waiting, h.steady.unstarted, h.steady.fits, h.steady.settled, h.steady.finished⟩
  have hstarted : s.point ≠ .unstarted := fun hpoint ↦ hlate (outcome_of_unstarted h hpoint)
  have hdone : s.done = true := by
    rw [h.done]
    exact Option.isSome_iff_ne_none.mpr hlate
  have hwaiting : s.point ≠ .waiting := by
    intro hpoint
    rw [(h.steady.waiting hpoint).2] at hdone
    cases hdone
  have hpush : { s with sawDelta := sawDelta }.push event =
      { s with sawDelta := sawDelta, queue := s.queue ++ [event] } := by
    simp [push, hwaiting]
  obtain ⟨rest, hrest, -⟩ := h.pushed
  constructor
  · exact steady_push hsteady hstarted event
  · rw [hpush]
    exact h.begun
  · rw [hpush]
    exact h.settled
  · rw [hpush]
    exact h.aborted
  · rw [hpush]
    exact h.done
  · exact fun hnone ↦ absurd hnone hlate
  · exact fun hnone ↦ absurd hnone hlate
  · refine ⟨rest ++ [event], ?_, fun hnone ↦ absurd hnone hlate⟩
    rw [pushed_push hsteady]
    have hsame : ({ s with sawDelta := sawDelta } : CopilotStream).pushed = s.pushed := rfl
    rw [hsame, hrest, List.append_assoc]
  · exact h.terminal

/-- The turn ends, or has ended before. -/
theorem tracks_conclude (h : s.Tracks t) (hstarted : s.point ≠ .unstarted)
    (event : StreamChatEvent) (hterminal : event.isTerminal = true) :
    (s.push event).close.Tracks (t.conclude event) := by
  have hbegun : t.begun = true := h.begun.mpr hstarted
  have hpushStarted : (s.push event).point ≠ .unstarted := by
    unfold push
    split
    · simp
    · exact hstarted
  have hfields : (s.push event).settled = s.settled ∧ (s.push event).aborted = s.aborted := by
    unfold push
    split <;> exact ⟨rfl, rfl⟩
  obtain ⟨hsteady, hpushed⟩ := steady_close (steady_push h.steady hstarted event) hpushStarted
    (point_push_ne_waiting event)
  obtain ⟨rest, hrest, hnil⟩ := h.pushed
  have hclosed : (s.push event).close.point = (s.push event).point := by
    simp [close, point_push_ne_waiting]
  have hsettled : (t.conclude event).settled = t.settled := by
    unfold Turn.conclude
    split <;> rfl
  have haborted : (t.conclude event).aborted = t.aborted := by
    unfold Turn.conclude
    split <;> rfl
  have hbegun' : (t.conclude event).begun = t.begun := by
    unfold Turn.conclude
    split <;> rfl
  have houtcome : (t.conclude event).outcome ≠ none := by
    unfold Turn.conclude
    split
    · simp
    · rename_i hnot
      simpa [Turn.isGoing, hbegun] using hnot
  constructor
  · exact hsteady
  · rw [hbegun', hclosed]
    exact iff_of_true hbegun hpushStarted
  · rw [hsettled]
    exact hfields.1.trans h.settled
  · rw [haborted]
    exact hfields.2.trans h.aborted
  · exact (Option.isSome_iff_ne_none.mpr houtcome).symm
  · exact fun hnone ↦ absurd hnone houtcome
  · exact fun hnone ↦ absurd hnone houtcome
  · rw [hpushed, pushed_push h.steady, hrest]
    unfold Turn.conclude
    split
    · rename_i hgoing
      have hnone := ((isGoing_iff h).mp hgoing).2
      refine ⟨[], ?_, fun _ ↦ rfl⟩
      simp [hnone, hnil hnone]
    · rename_i hnot
      refine ⟨rest ++ [event], by simp, ?_⟩
      intro hnone
      exact absurd ((isGoing_iff h).mpr ⟨hstarted, hnone⟩) hnot
  · unfold Turn.conclude
    split
    · intro other hother
      cases hother
      exact hterminal
    · exact h.terminal

/-! ## Steps -/

section

variable (h : s.Tracks t)

include h

/-- The loop moves on without pushing anything. -/
theorem tracks_move (hstarted : s.point ≠ .unstarted)
    {queue yielded : List StreamChatEvent} {point : LoopPoint} {after : CopilotStream}
    (hafter : after = { s with queue := queue, point := point, yielded := yielded })
    (hsteady : after.Steady) (hpushed : after.pushed = s.pushed)
    (hstarted' : after.point ≠ .unstarted) : after.Tracks t := by
  subst hafter
  exact {
    steady := hsteady
    begun := iff_of_true (h.begun.mpr hstarted) hstarted'
    settled := h.settled
    aborted := h.aborted
    done := h.done
    sawDelta := h.sawDelta
    usage := h.usage
    pushed := hpushed ▸ h.pushed
    terminal := h.terminal }

/-- While the loop has met no end, the queue is not closed and empty. -/
theorem queue_ne_nil (hheld : s.point.held = [])
    (hyielded : ∀ event ∈ s.yielded, event.isTerminal = false) (hdone : s.done = true) :
    s.queue ≠ [] := by
  intro hnil
  rw [h.done] at hdone
  obtain ⟨event, hevent⟩ := Option.isSome_iff_exists.mp hdone
  obtain ⟨rest, hrest, -⟩ := h.pushed
  have hmem : event ∈ s.yielded := by
    rw [pushed, hheld, hnil, hevent] at hrest
    simp only [List.append_nil] at hrest
    rw [hrest]
    simp
  have hterminal := h.terminal event hevent
  rw [hyielded event hmem] at hterminal
  cases hterminal

theorem tracks_next (hstarted : s.point ≠ .unstarted)
    (hheld : s.point.held = []) (hyielded : ∀ event ∈ s.yielded, event.isTerminal = false) :
    s.next.Tracks t := by
  cases hqueue : s.queue with
  | cons event queue =>
    have hnext : s.next = { s with queue := queue, point := .handed (some event) } := by
      simp [next, hqueue]
    rw [hnext]
    apply tracks_move h hstarted rfl
    · exact ⟨by simp, by simp, hyielded, h.steady.settled, by simp⟩
    · rw [pushed, pushed, hheld, hqueue]
      simp [LoopPoint.held]
    · simp
  | nil =>
    have hdone : s.done = false := by
      rw [← Bool.not_eq_true]
      exact fun hdone ↦ queue_ne_nil h hheld hyielded hdone hqueue
    have hnext : s.next = { s with point := .waiting } := by
      simp [next, hqueue, hdone]
    rw [hnext]
    apply tracks_move h hstarted rfl
    · exact ⟨fun _ ↦ ⟨hqueue, hdone⟩, by simp, hyielded, h.steady.settled, by simp⟩
    · rw [pushed, pushed, hheld]
      simp [LoopPoint.held]
    · simp

theorem tracks_start : (s.step .start).Tracks (t.step .start) := by
  simp only [step, Turn.step]
  split
  · rename_i hpoint
    obtain ⟨hqueue, hdone⟩ := h.steady.unstarted hpoint
    have hfits := h.steady.fits
    rw [hpoint] at hfits
    have hnext : s.next = { s with point := .waiting } := by
      simp [next, hqueue, hdone]
    rw [hnext]
    constructor
    · exact ⟨fun _ ↦ ⟨hqueue, hdone⟩, by simp, hfits, h.steady.settled, by simp⟩
    · simp
    · exact h.settled
    · exact h.aborted
    · exact h.done
    · exact h.sawDelta
    · exact h.usage
    · obtain ⟨rest, hrest⟩ := h.pushed
      refine ⟨rest, ?_⟩
      simpa [pushed, hpoint, LoopPoint.held] using hrest
    · exact h.terminal
  · rename_i hpoint
    have hsame : { t with begun := true } = t := by
      have hbegun := h.begun.mpr hpoint
      rw [← hbegun]
    rw [hsame]
    exact h

theorem tracks_delta (chunk : Text) : (s.step (.delta chunk)).Tracks (t.step (.delta chunk)) := by
  simp only [step, Turn.step]
  by_cases hpoint : s.point = .unstarted
  · have hnot : ¬t.isGoing = true := fun hgoing ↦ ((isGoing_iff h).mp hgoing).1 hpoint
    rw [if_pos hpoint, if_neg hnot]
    exact h
  · rw [if_neg hpoint, onDelta]
    by_cases hgoing : t.isGoing = true
    · rw [if_pos hgoing, Turn.sendDelta]
      split
      · exact tracks_same h rfl rfl rfl rfl rfl rfl rfl
      · apply tracks_push h hgoing <;> rfl
    · rw [if_neg hgoing]
      have hlate : t.outcome ≠ none := fun hnone ↦ hgoing ((isGoing_iff h).mpr ⟨hpoint, hnone⟩)
      split
      · exact h
      · exact tracks_push_late h hlate _ true

theorem tracks_message (content : MessageContent) :
    (s.step (.message content)).Tracks (t.step (.message content)) := by
  simp only [step, Turn.step]
  by_cases hpoint : s.point = .unstarted
  · have hnot : ¬t.isGoing = true := fun hgoing ↦ ((isGoing_iff h).mp hgoing).1 hpoint
    rw [if_pos hpoint, if_neg hnot]
    exact h
  · rw [if_neg hpoint, onMessage]
    by_cases hgoing : t.isGoing = true
    · rw [if_pos hgoing]
      have hsaw := h.sawDelta ((isGoing_iff h).mp hgoing).2
      by_cases hstreamed : t.hasStreamed = true
      · have hlatched : (t.closeMessage (extractMessageText content)).latched = t.latched := by
          simp [Turn.closeMessage, hstreamed]
        rw [if_pos (hsaw.trans hstreamed)]
        exact tracks_same h rfl rfl rfl rfl rfl rfl hlatched
      · have hfalse : t.hasStreamed = false := Bool.not_eq_true _ ▸ hstreamed
        rw [if_neg (by simp [hsaw, hfalse])]
        dsimp only
        by_cases hnil : extractMessageText content = []
        · have hlatched : (t.closeMessage (extractMessageText content)).latched = t.latched := by
            simp [Turn.closeMessage, hnil]
          rw [if_pos hnil]
          exact tracks_same h rfl rfl rfl rfl rfl rfl hlatched
        · have hlatched : (t.closeMessage (extractMessageText content)).latched =
              t.latched ++ [extractMessageText content] := by
            simp [Turn.closeMessage, hfalse, hnil]
          rw [if_neg hnil]
          exact tracks_push h hgoing rfl rfl rfl rfl rfl hlatched hsaw
    · rw [if_neg hgoing]
      have hlate : t.outcome ≠ none := fun hnone ↦ hgoing ((isGoing_iff h).mpr ⟨hpoint, hnone⟩)
      split
      · exact h
      · dsimp only
        split
        · exact h
        · exact tracks_push_late h hlate _ s.sawDelta

theorem tracks_usage (data : AssistantUsageEventData) :
    (s.step (.usage data)).Tracks (t.step (.usage data)) := by
  simp only [step, Turn.step]
  by_cases hpoint : s.point = .unstarted
  · have hnot : ¬t.isGoing = true := fun hgoing ↦ ((isGoing_iff h).mp hgoing).1 hpoint
    rw [if_pos hpoint, if_neg hnot]
    exact h
  · rw [if_neg hpoint]
    have hsteady : ({ s with usage := s.usage.add data } : CopilotStream).Steady :=
      ⟨h.steady.waiting, h.steady.unstarted, h.steady.fits, h.steady.settled, h.steady.finished⟩
    by_cases hgoing : t.isGoing = true
    · rw [if_pos hgoing]
      have husage := h.usage ((isGoing_iff h).mp hgoing).2
      exact ⟨hsteady, h.begun, h.settled, h.aborted, h.done, h.sawDelta,
        fun _ ↦ congrArg (·.add data) husage, h.pushed, h.terminal⟩
    · rw [if_neg hgoing]
      have hlate : t.outcome ≠ none := fun hnone ↦ hgoing ((isGoing_iff h).mpr ⟨hpoint, hnone⟩)
      exact ⟨hsteady, h.begun, h.settled, h.aborted, h.done, h.sawDelta,
        fun hnone ↦ absurd hnone hlate, h.pushed, h.terminal⟩

theorem tracks_settle (error : Option Text) :
    (s.step (.settle error)).Tracks (t.step (.settle error)) := by
  simp only [step, Turn.step]
  by_cases hpoint : s.point = .unstarted
  · have hbegun : t.begun = false := by
      rw [← Bool.not_eq_true, h.begun]
      exact fun hstarted ↦ hstarted hpoint
    rw [if_pos (Or.inl hpoint), if_pos (Or.inl hbegun)]
    exact h
  · have hbegun : t.begun = true := h.begun.mpr hpoint
    by_cases hsettled : s.settled = true
    · rw [if_pos (Or.inr hsettled), if_pos (Or.inr (h.settled ▸ hsettled))]
      exact h
    · have hsettled' : ¬t.settled = true := h.settled ▸ hsettled
      rw [if_neg (by simp [hpoint, hsettled]), if_neg (by simp [hbegun, hsettled'])]
      -- The sums of the stream are those of the turn where they matter.
      have hconclude : t.conclude (runOutcome s.usage error) =
          t.conclude (runOutcome t.usage error) := by
        unfold Turn.conclude
        split
        · rename_i hgoing
          rw [h.usage ((isGoing_iff h).mp hgoing).2]
        · rfl
      have hterminal : (runOutcome s.usage error).isTerminal = true := by
        cases error <;> rfl
      have hconcluded := tracks_conclude h hpoint _ hterminal
      rw [hconclude] at hconcluded
      have hdone : (s.onSettled error).done = true := rfl
      have hsteady := hconcluded.steady
      exact {
        steady := ⟨hsteady.waiting, hsteady.unstarted, hsteady.fits, fun _ ↦ hdone, fun _ ↦ rfl⟩
        begun := hconcluded.begun
        settled := rfl
        aborted := hconcluded.aborted
        done := hconcluded.done
        sawDelta := hconcluded.sawDelta
        usage := hconcluded.usage
        pushed := hconcluded.pushed
        terminal := hconcluded.terminal }

theorem tracks_abort : (s.step .abort).Tracks (t.step .abort) := by
  simp only [step, Turn.step]
  by_cases haborted : s.aborted = true
  · rw [if_pos haborted, if_pos (h.aborted ▸ haborted)]
    exact h
  · have haborted' : ¬t.aborted = true := h.aborted ▸ haborted
    rw [if_neg haborted, if_neg haborted']
    by_cases hpoint : s.point = .unstarted
    · have hnot : ¬t.isGoing = true := fun hgoing ↦ ((isGoing_iff h).mp hgoing).1 hpoint
      rw [if_pos hpoint, Turn.conclude, if_neg hnot]
      exact ⟨⟨h.steady.waiting, h.steady.unstarted, h.steady.fits, h.steady.settled,
        h.steady.finished⟩, h.begun, h.settled, rfl, h.done, h.sawDelta, h.usage, h.pushed,
        h.terminal⟩
    · rw [if_neg hpoint]
      have hconcluded := tracks_conclude h hpoint abortedByCaller rfl
      have hsteady := hconcluded.steady
      exact {
        steady := ⟨hsteady.waiting, hsteady.unstarted, hsteady.fits, hsteady.settled,
          hsteady.finished⟩
        begun := hconcluded.begun
        settled := hconcluded.settled
        aborted := rfl
        done := hconcluded.done
        sawDelta := hconcluded.sawDelta
        usage := hconcluded.usage
        pushed := hconcluded.pushed
        terminal := hconcluded.terminal }

theorem tracks_pull : (s.step .pull).Tracks t := by
  simp only [step]
  cases hpoint : s.point with
  | suspended last =>
    have hfits := h.steady.fits
    rw [hpoint] at hfits
    obtain ⟨before, hyielded, hbefore⟩ := hfits
    have hstarted : s.point ≠ .unstarted := by simp [hpoint]
    dsimp only
    split
    · rename_i hterminal
      apply tracks_move h hstarted rfl
      · exact ⟨by simp, by simp, ⟨before, last, hyielded, hterminal, hbefore⟩, h.steady.settled,
          by simp⟩
      · simp [pushed, LoopPoint.held, hpoint]
      · simp
    · rename_i hterminal
      apply tracks_next h hstarted
      · simp [LoopPoint.held, hpoint]
      · intro event hevent
        rw [hyielded, List.mem_append, List.mem_singleton] at hevent
        rcases hevent with hevent | rfl
        · exact hbefore event hevent
        · exact Bool.not_eq_true _ ▸ hterminal
  | _ => exact h

theorem tracks_resume : (s.step .resume).Tracks t := by
  simp only [step]
  cases hpoint : s.point with
  | handed handed =>
    have hfits := h.steady.fits
    rw [hpoint] at hfits
    cases handed with
    | none => exact absurd hfits id
    | some event =>
      apply tracks_move h (by simp [hpoint]) rfl
      · exact ⟨by simp, by simp, ⟨s.yielded, rfl, hfits⟩, h.steady.settled, by simp⟩
      · simp [pushed, LoopPoint.held, hpoint]
      · simp
  | _ => exact h

theorem tracks_finish : (s.step .finish).Tracks t := by
  simp only [step]
  split
  · rename_i hready
    obtain ⟨hpoint, hsettled⟩ := hready
    have hfits := h.steady.fits
    rw [hpoint] at hfits
    apply tracks_move h (by simp [hpoint]) rfl
    · exact ⟨by simp, by simp, hfits, h.steady.settled, fun _ ↦ hsettled⟩
    · simp [pushed, LoopPoint.held, hpoint]
    · simp
  · exact h

/-- Each step of the stream is one of the turn. -/
theorem tracks_step (event : StreamStep) : (s.step event).Tracks (t.step event) := by
  cases event with
  | start => exact tracks_start h
  | delta chunk => exact tracks_delta h chunk
  | message content => exact tracks_message h content
  | usage data => exact tracks_usage h data
  | tool => exact h
  | settle error => exact tracks_settle h error
  | abort => exact tracks_abort h
  | pull => exact tracks_pull h
  | resume => exact tracks_resume h
  | finish => exact tracks_finish h

theorem tracks_run (events : List StreamStep) :
    (run step s events).Tracks (run Turn.step t events) := by
  induction events generalizing s t with
  | nil => exact h
  | cons event events ih => exact ih (tracks_step h event)

end

end CopilotStream

end Flockctl.Copilot
