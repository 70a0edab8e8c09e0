import Flockctl.RateLimits.Classifier
import Flockctl.RateLimits.Scheduler
import Flockctl.Transition.Run

/-!
# The lattice of estimated waits

The classifier leaves it to the scheduler to count the attempts of a row, and the scheduler leaves
it to the classifier. A row is parked for what the classifier says about the last error alone, and
`nextEstimatedDelayMs` is never called. The waits of a run follow the lattice exactly when every
estimated limit is the first one in succession and is no 429.
-/

namespace Flockctl.RateLimits

open Collections Sessions Transition

/-- How a turn of a task or a chat ends. -/
inductive TurnEnd
  | completed
  | threw (err : Thrown)

/-- The scheduler, with the number of times each row has been parked in succession for an estimated
limit. The code has no such count. -/
structure Lattice where
  scheduler : RateLimitScheduler
  attempts : AgentRef → ℕ := fun _ ↦ 0

/-- A turn ends, or something else happens to the rows and their timers. -/
inductive LatticeEvent
  | ended (ref : AgentRef) (turn : TurnEnd)
  | other (event : RateLimitEvent)

/-- The events that park a row, which only the end of a turn does. -/
def RateLimitEvent.parks : RateLimitEvent → Bool
  | .park _ _ | .endResume _ (.limited _) => true
  | _ => false

namespace RateLimitScheduler

variable (s : RateLimitScheduler)

/-- A turn that ends without an error, or in one that is no limit: a task is done or failed, and a
chat is idle. -/
def settle (ref : AgentRef) : RateLimitScheduler :=
  if s.inflightWakeups.get ref = some .resumed then s.endResume ref .idle
  else
    match ref with
    | .task _ => s.write ref .other false
    | .chat _ => s.write ref .idle false

/-- A turn that ends in a limit, whether a resume handler runs it or not. -/
def parkAfterTurn (ref : AgentRef) (resumeAtMs : ℤ) : RateLimitScheduler :=
  if s.inflightWakeups.get ref = some .resumed then s.endResume ref (.limited resumeAtMs)
  else s.park ref resumeAtMs

/-- The row is parked until this time, and so is its timer. -/
def WaitsUntil (ref : AgentRef) (time : ℤ) : Prop :=
  (s.timers.get ref).map Timer.resumeAtMs = some time ∧
    ∀ row, s.rows.get ref = some row → row.resumeAt = some time

variable {s}

theorem waitsUntil_park (ref : AgentRef) (resumeAtMs time : ℤ) :
    (s.park ref resumeAtMs).WaitsUntil ref time ↔ resumeAtMs = time := by
  have htimer : ((s.park ref resumeAtMs).timers.get ref).map Timer.resumeAtMs =
      some resumeAtMs := by
    simp [park, schedule]
  have hrow : ∀ row, (s.park ref resumeAtMs).rows.get ref = some row →
      row.resumeAt = some resumeAtMs := by
    intro row hrow
    simp only [park, schedule, JsMap.get_modify, if_true, Option.map_eq_some_iff] at hrow
    obtain ⟨_, -, rfl⟩ := hrow
    rfl
  constructor
  · intro hwaits
    exact Option.some.inj (htimer.symm.trans hwaits.1)
  · rintro rfl
    exact ⟨htimer, hrow⟩

/-- The wait that the end of a turn sets is the one it was given. -/
theorem waitsUntil_parkAfterTurn (ref : AgentRef) (resumeAtMs time : ℤ) :
    (s.parkAfterTurn ref resumeAtMs).WaitsUntil ref time ↔ resumeAtMs = time := by
  unfold parkAfterTurn
  split
  · rename_i hresumed
    have hend : s.endResume ref (.limited resumeAtMs) =
        { s with inflightWakeups := s.inflightWakeups.delete ref }.park ref resumeAtMs := by
      simp only [endResume, hresumed]
    rw [hend]
    exact waitsUntil_park ref resumeAtMs time
  · exact waitsUntil_park ref resumeAtMs time

end RateLimitScheduler

namespace Lattice

variable (readings : Readings) (s : Lattice)

/-- How often the row has been parked in succession for an estimated limit, after this limit. -/
def attemptsAfter (ref : AgentRef) (info : RateLimitInfo) : ℕ :=
  match info.confidence with
  | .exact => 0
  | .estimated => s.attempts ref + 1

/-- The `catch` of the executors, and what follows a turn without an error. -/
def endTurn (ref : AgentRef) : TurnEnd → Lattice
  | .completed =>
    { scheduler := s.scheduler.settle ref, attempts := Function.update s.attempts ref 0 }
  | .threw err =>
    match classifyLimit readings err s.scheduler.now with
    | some limit =>
      { scheduler := s.scheduler.parkAfterTurn ref limit.resumeAtMs
        attempts := Function.update s.attempts ref (s.attemptsAfter ref limit) }
    | none => { s with scheduler := s.scheduler.settle ref }

def step (s : Lattice) : LatticeEvent → Lattice
  | .ended ref turn => s.endTurn readings ref turn
  | .other event =>
    if event.parks then s else { s with scheduler := s.scheduler.step event }

/-- The time a row is to be parked until for a limit: the time of the provider where it is exact,
and the next wait of the lattice where it is estimated. -/
def latticeTime (ref : AgentRef) (err : Thrown) (info : RateLimitInfo) : Option ℤ :=
  match info.confidence with
  | .exact => providerTime readings err s.scheduler.now
  | .estimated => some (s.scheduler.now + nextEstimatedDelayMs (s.attempts ref))

/-- If the event is the end of a turn in a limit, then the wait it sets is the one of the lattice. -/
def KeepsLattice : LatticeEvent → Prop
  | .ended ref (.threw err) =>
    ∀ info, classifyLimit readings err s.scheduler.now = some info →
      ∃ time, s.latticeTime readings ref err info = some time ∧
        (s.endTurn readings ref (.threw err)).scheduler.WaitsUntil ref time
  | _ => True

/-- The waits of a run follow the lattice. -/
def WaitsEscalate (start : Lattice) (events : List LatticeEvent) : Prop :=
  Disciplined (step readings) (fun s ↦ s.KeepsLattice readings) start events

/-- If the event is the end of a turn in an estimated limit, then it is the first such limit in
succession, and no 429. -/
def IsFirstGuess : LatticeEvent → Prop
  | .ended ref (.threw err) =>
    ∀ info, classifyLimit readings err s.scheduler.now = some info →
      info.confidence = .estimated → s.attempts ref = 0 ∧ isStructured err = false
  | _ => True

variable {readings s}

/-- One wait follows the lattice exactly when its limit is exact, or is the first estimated one in
succession and no 429. -/
theorem keepsLattice_iff (event : LatticeEvent) :
    s.KeepsLattice readings event ↔ s.IsFirstGuess readings event := by
  cases event with
  | other event => exact Iff.rfl
  | ended ref turn =>
    cases turn with
    | completed => exact Iff.rfl
    | threw err =>
      refine forall_congr' fun info ↦ imp_congr_right fun hinfo ↦ ?_
      have hparked : (s.endTurn readings ref (.threw err)).scheduler =
          s.scheduler.parkAfterTurn ref info.resumeAtMs := by
        simp only [endTurn, hinfo]
      have hsaid := resumeAtMs_of_classifyLimit hinfo
      rw [hparked]
      simp only [RateLimitScheduler.waitsUntil_parkAfterTurn]
      unfold latticeTime
      cases hconfidence : info.confidence with
      | exact =>
        rw [hconfidence] at hsaid
        simp [hsaid]
      | estimated =>
        rw [hconfidence] at hsaid
        have hfirst := nextEstimatedDelayMs_eq_min_iff (s.attempts ref)
        have hbounds := nextEstimatedDelayMs_bounds (s.attempts ref)
        cases hstructured : isStructured err with
        | true =>
          -- A minute is less than every wait of the lattice.
          simp only [hstructured, if_true, DEFAULT_RATE_LIMIT_FALLBACK_MS] at hsaid
          simp only [MIN_ESTIMATED_DELAY_MS] at hbounds
          simp only [Option.some.injEq, exists_eq_left', reduceCtorEq, and_false, imp_false,
            not_true, iff_false]
          omega
        | false =>
          simp only [hstructured, Bool.false_eq_true, if_false] at hsaid
          simp only [Option.some.injEq, exists_eq_left', and_true, forall_const, ← hfirst]
          omega

/-- The waits of a run follow the lattice exactly when every estimated limit of the run is the first
one in succession and no 429. -/
theorem waitsEscalate_iff (readings : Readings) (start : RateLimitScheduler)
    (events : List LatticeEvent) :
    WaitsEscalate readings { scheduler := start } events ↔
      Disciplined (step readings) (fun s ↦ s.IsFirstGuess readings) { scheduler := start }
        events := by
  have hsame : (fun s : Lattice ↦ s.KeepsLattice readings) =
      fun s : Lattice ↦ s.IsFirstGuess readings := by
    funext s event
    exact propext (keepsLattice_iff event)
  unfold WaitsEscalate
  rw [hsame]

/-- A platform that reads nothing. -/
def noReadings : Readings where
  number := fun _ ↦ none
  date := fun _ ↦ none
  zones := fun _ ↦ none

/-- A task is running. -/
def oneTask : RateLimitScheduler where
  now := 1700000000000
  rows := JsMap.empty.set (.task 7) ⟨.running, none⟩

def usageLimitReached : Thrown := .text "Claude AI usage limit reached".toList

/-- The task meets the usage limit, wakes after a quarter of an hour, and meets it again. -/
def twoParks : List LatticeEvent :=
  [.ended (.task 7) (.threw usageLimitReached),
    .other (.advance 900000),
    .other (.fire (.task 7) false),
    .other (.write (.task 7) .running false),
    .ended (.task 7) (.threw usageLimitReached)]

/-- The second wait is a quarter of an hour again. -/
theorem not_waitsEscalate_twoParks :
    ¬WaitsEscalate noReadings { scheduler := oneTask } twoParks := by
  intro hescalate
  have hlast := ((disciplined_append _ (twoParks.take 4) (twoParks.drop 4)).mp hescalate).2.1
  obtain ⟨time, htime, htimer, -⟩ := hlast
    ⟨.usageLimit, .anthropic, 1700001800000, .estimated, "Claude AI usage limit reached".toList⟩
    (by decide +kernel)
  have hlattice : time = 1700002700000 := by
    refine (Option.some.inj (htime.symm.trans ?_))
    decide +kernel
  rw [hlattice] at htimer
  exact absurd htimer (by decide +kernel)

end Lattice

end Flockctl.RateLimits
