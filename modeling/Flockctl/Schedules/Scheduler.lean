import Flockctl.Collections.JsMap

/-!
# Schedules and their cron jobs

A schedule is a row of the database; a scheduler service keeps one cron job for each schedule it has
armed. The process has two services, one that loads the active schedules at boot and one that the
routes use. The cron library checks expressions and fires the jobs, which it runs in the zone of the
process; the parser of expressions gives the next fire time, in the zone it is asked for.
-/

namespace Flockctl.Schedules

open Collections

abbrev ScheduleId := ℕ

abbrev Instant := ℕ

/-- The cron library, the parser of expressions and the zone of the process. -/
structure Cron (Zone : Type) where
  validate : String → Bool
  parses : String → Option String → Bool
  due : String → Zone → Instant → Bool
  zone? : String → Option Zone
  localZone : Zone

inductive ScheduleStatus
  | active
  | paused
  deriving DecidableEq, Repr

/-- `nextFireTime` is the expression and the timezone that the time was computed from. -/
structure Schedule where
  cronExpression : Option String
  timezone : Option String
  status : ScheduleStatus := .active
  nextFireTime : Option (String × Option String) := none
  lastFireTime : Option Instant := none
  deriving DecidableEq, Repr

/-- The rows and the next id, which no row has had yet. -/
structure ScheduleTable where
  rows : JsMap ScheduleId Schedule
  nextId : ScheduleId
  below : ∀ id schedule, rows.get id = some schedule → id < nextId

structure ScheduledJob (Zone : Type) where
  expression : String
  zone : Zone
  running : Bool
  deriving DecidableEq, Repr

abbrev Jobs (Zone : Type) := JsMap ScheduleId (ScheduledJob Zone)

/-- The value unless it is missing or empty. -/
def given (text : Option String) : Option String := text.filter fun text ↦ text ≠ ""

/-- The zone of a timezone, which is the one of the process where none is named. -/
def Cron.zoneOf {Zone : Type} (cron : Cron Zone) : Option String → Option Zone
  | none => some cron.localZone
  | some timezone => cron.zone? timezone

namespace ScheduleTable

def get (table : ScheduleTable) (id : ScheduleId) : Option Schedule := table.rows.get id

def modify (table : ScheduleTable) (id : ScheduleId) (change : Schedule → Schedule) :
    ScheduleTable where
  rows := table.rows.modify id change
  nextId := table.nextId
  below other schedule hget := by
    rw [JsMap.get_modify] at hget
    split at hget
    · rename_i hsame
      obtain ⟨stored, hstored, -⟩ := Option.map_eq_some_iff.mp hget
      exact table.below other stored (hsame ▸ hstored)
    · exact table.below other schedule hget

def insert (table : ScheduleTable) (schedule : Schedule) : ScheduleTable where
  rows := table.rows.set table.nextId schedule
  nextId := table.nextId + 1
  below other stored hget := by
    rw [JsMap.get_set] at hget
    split at hget
    · rename_i hsame
      rw [hsame]
      exact Nat.lt_succ_self _
    · exact Nat.lt_succ_of_lt (table.below other stored hget)

def delete (table : ScheduleTable) (id : ScheduleId) : ScheduleTable where
  rows := table.rows.delete id
  nextId := table.nextId
  below other schedule hget := table.below other schedule (JsMap.get_delete_eq_some_iff.mp hget).2

theorem get_modify (table : ScheduleTable) (id : ScheduleId) (change : Schedule → Schedule)
    (other : ScheduleId) :
    (table.modify id change).get other =
      if other = id then (table.get id).map change else table.get other :=
  JsMap.get_modify _ _ _ _

theorem get_insert (table : ScheduleTable) (schedule : Schedule) (other : ScheduleId) :
    (table.insert schedule).get other =
      if other = table.nextId then some schedule else table.get other :=
  JsMap.get_set _ _ _ _

theorem get_delete (table : ScheduleTable) (id other : ScheduleId) :
    (table.delete id).get other = if other = id then none else table.get other :=
  JsMap.get_delete _ _ _

end ScheduleTable

section

variable {Zone : Type} (cron : Cron Zone)

/-- `computeNextFireTime`. -/
def computeNextFireTime (expression : String) (timezone : Option String) :
    Option (String × Option String) :=
  if cron.parses expression timezone then some (expression, timezone) else none

/-- A next fire time is stored, unless there is none. -/
def saveNextFireTime (table : ScheduleTable) (id : ScheduleId) (expression : String)
    (timezone : Option String) : ScheduleTable :=
  match computeNextFireTime cron expression timezone with
  | none => table
  | some next => table.modify id fun schedule ↦ { schedule with nextFireTime := some next }

/-- `remove`, which stops the job and forgets it. -/
def remove (jobs : Jobs Zone) (id : ScheduleId) : Jobs Zone := jobs.delete id

/-- `schedule`, which throws where the expression is invalid. -/
def schedule (table : ScheduleTable) (jobs : Jobs Zone) (id : ScheduleId) (expression : String)
    (timezone : Option String) : Option (ScheduleTable × Jobs Zone) :=
  if !cron.validate expression then none
  else
    some (saveNextFireTime cron table id expression timezone,
      (remove jobs id).set id ⟨expression, cron.localZone, true⟩)

/-- `loadExistingSchedules` over the active rows; it throws with the first one that is invalid. -/
def loadExistingSchedules :
    List (ScheduleId × Schedule) → ScheduleTable → Jobs Zone → ScheduleTable × Option (Jobs Zone)
  | [], table, jobs => (table, some jobs)
  | (id, row) :: rest, table, jobs =>
    match given row.cronExpression with
    | none => loadExistingSchedules rest table jobs
    | some expression =>
      match schedule cron table jobs id expression row.timezone with
      | none => (table, none)
      | some armed => loadExistingSchedules rest armed.1 armed.2

/-- `pause`, which keeps the stopped job. -/
def pause (table : ScheduleTable) (jobs : Jobs Zone) (id : ScheduleId) :
    ScheduleTable × Jobs Zone :=
  (table.modify id fun row ↦ { row with status := .paused },
    jobs.modify id fun job ↦ { job with running := false })

/-- `resume`, which starts the job that is kept or else schedules the row. -/
def resume (table : ScheduleTable) (jobs : Jobs Zone) (id : ScheduleId) :
    Option (ScheduleTable × Jobs Zone) :=
  match (table.get id).bind fun row ↦ (given row.cronExpression).map (row, ·) with
  | none => some (table, jobs)
  | some (row, expression) =>
    let armed :=
      if jobs.has id then some (table, jobs.modify id fun job ↦ { job with running := true })
      else schedule cron table jobs id expression row.timezone
    armed.map fun armed ↦
      (armed.1.modify id fun row ↦ { row with status := .active }, armed.2)

end

/-- The process is up after a boot that has not failed. `tasks` has every spawned task, with its
schedule and the instant. -/
structure Daemon (Zone : Type) where
  table : ScheduleTable
  up : Bool := false
  boot : Jobs Zone := JsMap.empty
  routes : Jobs Zone := JsMap.empty
  tasks : List (ScheduleId × Instant) := []

/-- The body of `POST /schedules`; `templateFound` tells whether its template reference is valid. -/
structure PostBody where
  scheduleType : String
  cronExpression : Option String
  timezone : Option String
  templateFound : Bool := true
  deriving DecidableEq, Repr

/-- `POST` rejects every other body. -/
def PostBody.accepted (body : PostBody) : Bool :=
  body.scheduleType ≠ "" && (body.scheduleType ≠ "cron" || (given body.cronExpression).isSome) &&
    body.templateFound

/-- The body of `PATCH /schedules/:id`; a field that is not in it is `none`. -/
structure PatchBody where
  cronExpression : Option (Option String) := none
  timezone : Option (Option String) := none
  templateFound : Bool := true
  deriving DecidableEq, Repr

inductive ScheduleEvent
  | restart
  | post (body : PostBody)
  | patch (id : ScheduleId) (body : PatchBody)
  | delete (id : ScheduleId)
  | pause (id : ScheduleId)
  | resume (id : ScheduleId)
  | tick (now : Instant) (spawns : ScheduleId → Bool)

/-- A job of the boot service or of the one of the routes. -/
inductive ServiceName
  | boot
  | routes
  deriving DecidableEq, Repr

namespace Daemon

variable {Zone : Type} (cron : Cron Zone)

/-- A new process loads the active schedules; where that throws, it exits. -/
def restart (d : Daemon Zone) : Daemon Zone :=
  let active := d.table.rows.entries.filter fun row ↦ row.2.status = .active
  match loadExistingSchedules cron active d.table JsMap.empty with
  | (table, none) =>
    { d with table := table, up := false, boot := JsMap.empty, routes := JsMap.empty }
  | (table, some jobs) => { d with table := table, up := true, boot := jobs, routes := JsMap.empty }

/-- The row that `POST` inserts. -/
def newRow (body : PostBody) : Schedule :=
  { cronExpression := body.cronExpression, timezone := some (body.timezone.getD "UTC") }

def post (d : Daemon Zone) (body : PostBody) : Daemon Zone :=
  if !body.accepted then d
  else
    let id := d.table.nextId
    let inserted := d.table.insert (newRow body)
    match given body.cronExpression with
    | none => { d with table := inserted }
    | some expression =>
      match schedule cron inserted d.routes id expression body.timezone with
      | none => { d with table := inserted }
      | some (table, jobs) =>
        { d with
          table := saveNextFireTime cron table id expression body.timezone
          routes := jobs }

/-- The row after the update of `PATCH`. -/
def patched (row : Schedule) (body : PatchBody) : Schedule :=
  { row with
    cronExpression := body.cronExpression.getD row.cronExpression
    timezone := body.timezone.getD row.timezone }

def patch (d : Daemon Zone) (id : ScheduleId) (body : PatchBody) : Daemon Zone :=
  match d.table.get id with
  | none => d
  | some existing =>
    if !body.templateFound then d
    else
      let updated := d.table.modify id fun row ↦ patched row body
      match body.cronExpression with
      | none => { d with table := updated }
      | some cronExpression =>
        if existing.status ≠ .active then { d with table := updated }
        else
          let removed := remove d.routes id
          match given cronExpression with
          | none => { d with table := updated, routes := removed }
          | some expression =>
            let timezone := (body.timezone.getD none).or existing.timezone
            match schedule cron updated removed id expression timezone with
            | none => { d with table := updated, routes := removed }
            | some (table, jobs) => { d with table := table, routes := jobs }

def delete (d : Daemon Zone) (id : ScheduleId) : Daemon Zone :=
  match d.table.get id with
  | none => d
  | some _ => { d with table := d.table.delete id, routes := remove d.routes id }

/-- `POST /schedules/:id/pause`. -/
def pauseSchedule (d : Daemon Zone) (id : ScheduleId) : Daemon Zone :=
  match d.table.get id with
  | none => d
  | some existing =>
    if existing.status ≠ .active then d
    else
      let paused := pause d.table d.routes id
      { d with
        table := paused.1.modify id fun row ↦ { row with status := .paused }
        routes := paused.2 }

/-- `POST /schedules/:id/resume`. -/
def resumeSchedule (d : Daemon Zone) (id : ScheduleId) : Daemon Zone :=
  match d.table.get id with
  | none => d
  | some existing =>
    if existing.status ≠ .paused then d
    else
      match resume cron d.table d.routes id with
      | none => d
      | some (table, jobs) =>
        { d with
          table := table.modify id fun row ↦ { row with status := .active }
          routes := jobs }

/-- `executeSchedule`, with the service the job belongs to. Whether a task is spawned depends on the
template and the insert. -/
def executeSchedule (now : Instant) (spawns : ScheduleId → Bool) (d : Daemon Zone)
    (fired : ServiceName × ScheduleId) : Daemon Zone :=
  match d.table.get fired.2 with
  | none =>
    match fired.1 with
    | .boot => { d with boot := remove d.boot fired.2 }
    | .routes => { d with routes := remove d.routes fired.2 }
  | some row =>
    if row.status ≠ .active then d
    else
      let next := (given row.cronExpression).bind fun expression ↦
        computeNextFireTime cron expression row.timezone
      { d with
        tasks := if spawns fired.2 then d.tasks ++ [(fired.2, now)] else d.tasks
        table := d.table.modify fired.2 fun row ↦
          { row with nextFireTime := next, lastFireTime := some now } }

/-- The schedules whose jobs of a service are running and due. -/
def dueJobs (jobs : Jobs Zone) (now : Instant) : List ScheduleId :=
  (jobs.entries.filter fun entry ↦
    entry.2.running && cron.due entry.2.expression entry.2.zone now).map Prod.fst

def tick (d : Daemon Zone) (now : Instant) (spawns : ScheduleId → Bool) : Daemon Zone :=
  let fired := (dueJobs cron d.boot now).map (ServiceName.boot, ·) ++
    (dueJobs cron d.routes now).map (ServiceName.routes, ·)
  fired.foldl (executeSchedule cron now spawns) d

def step (d : Daemon Zone) : ScheduleEvent → Daemon Zone
  | .restart => d.restart cron
  | .post body => if d.up then d.post cron body else d
  | .patch id body => if d.up then d.patch cron id body else d
  | .delete id => if d.up then d.delete id else d
  | .pause id => if d.up then d.pauseSchedule id else d
  | .resume id => if d.up then d.resumeSchedule cron id else d
  | .tick now spawns => if d.up then d.tick cron now spawns else d

end Daemon

end Flockctl.Schedules
