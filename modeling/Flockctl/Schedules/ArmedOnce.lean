import Flockctl.Schedules.Scheduler
import Flockctl.Transition.Run
import Mathlib.Data.List.Count

/-!
# Each active schedule has one armed job

In every state of a run an active schedule with an expression has exactly one running job, which
fires when the row says and when the stored next fire time says, and no other schedule has one; and
every due instant spawns one task. That holds exactly when the rows at boot and every request meet a
condition: the zone of a schedule is the one of the process, a job of the boot service is not one
that a request has to stop, a stopped job that is started again is still the one of the row, and the
expressions are valid.
-/

namespace Flockctl.Schedules

open Collections Transition

variable {Zone : Type}

/-- The expression of a schedule that is to have a job. -/
def Schedule.wanted (row : Schedule) : Option String :=
  if row.status = .active then given row.cronExpression else none

/-- What the daemon has for one schedule. -/
structure View (Zone : Type) where
  row : Option Schedule
  boot : Option (ScheduledJob Zone)
  routes : Option (ScheduledJob Zone)

namespace View

def running (v : View Zone) : List (ScheduledJob Zone) :=
  (v.boot.toList ++ v.routes.toList).filter fun job ↦ job.running

def wanted (v : View Zone) : Option (Schedule × String) :=
  v.row.bind fun row ↦ row.wanted.map (row, ·)

end View

variable (cron : Cron Zone)

/-- The stored next fire time is one of the expression in the zone. -/
def NextFits (row : Schedule) (expression : String) (zone : Zone) : Prop :=
  ∀ source, row.nextFireTime = some source →
    source.1 = expression ∧ cron.zoneOf source.2 = some zone

/-- The job has the expression and the zone of the row. -/
structure IsJobOf (job : ScheduledJob Zone) (row : Schedule) (expression : String) : Prop where
  sameExpression : job.expression = expression
  sameZone : cron.zoneOf row.timezone = some job.zone
  nextFits : NextFits cron row expression job.zone

/-- Exactly one job runs for a schedule that is to have one, and none for another. -/
def View.Armed (v : View Zone) : Prop :=
  match v.wanted with
  | none => v.running = []
  | some (row, expression) => ∃ job, v.running = [job] ∧ IsJobOf cron job row expression

namespace Daemon

def view (d : Daemon Zone) (id : ScheduleId) : View Zone :=
  ⟨d.table.get id, d.boot.get id, d.routes.get id⟩

def Armed (d : Daemon Zone) : Prop := ∀ id, (d.view id).Armed cron

/-- The schedule fires at the instant, by its row. -/
def isDue (d : Daemon Zone) (now : Instant) (id : ScheduleId) : Bool :=
  match (d.view id).wanted with
  | none => false
  | some (row, expression) => (cron.zoneOf row.timezone).any fun zone ↦ cron.due expression zone now

/-- The instant spawns one task for every schedule that is due, and no other. -/
def FiresOnce (d : Daemon Zone) (now : Instant) (spawns : ScheduleId → Bool) : Prop :=
  ∀ id, (d.step cron (.tick now spawns)).tasks.count (id, now) =
    d.tasks.count (id, now) + (d.isDue cron now id).toNat

/-- All along a run every active schedule has its one job and fires once. -/
structure ArmedOnce (start : Daemon Zone) (events : List ScheduleEvent) : Prop where
  armed : ∀ before, before <+: events → (run (step cron) start before).Armed cron
  fires : ∀ before now spawns, before ++ [.tick now spawns] <+: events →
    (run (step cron) start before).FiresOnce cron now spawns

/-- The daemon after its first boot on a table. -/
def booted (table : ScheduleTable) : Daemon Zone := restart cron { table := table }

end Daemon

/-! ## The condition -/

/-- The row with the next fire time that is stored when it is computed for a timezone. -/
def saved (row : Schedule) (expression : String) (timezone : Option String) : Schedule :=
  match computeNextFireTime cron expression timezone with
  | none => row
  | some next => { row with nextFireTime := some next }

/-- A job that is scheduled for the row, with the next fire time for a timezone, is one of the
row. -/
structure Fits (row : Schedule) (expression : String) (timezone : Option String) : Prop where
  zone : cron.zoneOf row.timezone = some cron.localZone
  next : NextFits cron (saved cron row expression timezone) expression cron.localZone

def BootsArmed (table : ScheduleTable) : Prop :=
  ∀ id row expression, table.get id = some row → row.wanted = some expression →
    cron.validate expression = true ∧ Fits cron row expression row.timezone

/-- The expression of the row after a `PATCH` is armed again where it was in the body. -/
def PatchFits (row : Schedule) (body : PatchBody) (expression : String) : Prop :=
  match body.cronExpression with
  | none => cron.zoneOf (Daemon.patched row body).timezone = some cron.localZone
  | some _ => cron.validate expression = true ∧
    Fits cron (Daemon.patched row body) expression ((body.timezone.getD none).or row.timezone)

/-- The job that was kept is started, or else the row is scheduled. -/
def ResumeFits (job : Option (ScheduledJob Zone)) (row : Schedule) (expression : String) : Prop :=
  match job with
  | some job => job.expression = expression ∧
    cron.zoneOf row.timezone = some cron.localZone ∧ NextFits cron row expression cron.localZone
  | none => cron.validate expression = true → Fits cron row expression row.timezone

def KeepsArmed (d : Daemon Zone) : ScheduleEvent → Prop
  | .restart => True
  | .post body => body.accepted = true → ∀ expression, given body.cronExpression = some expression →
    cron.validate expression = true ∧ Fits cron (Daemon.newRow body) expression body.timezone
  | .patch id body => body.templateFound = true → ∀ row, d.table.get id = some row →
    row.status = .active → (body.cronExpression.isSome = true → d.boot.get id = none) ∧
      ∀ expression, given (Daemon.patched row body).cronExpression = some expression →
        PatchFits cron row body expression
  | .delete id => (d.table.get id).isSome = true → d.boot.get id = none
  | .pause id => ∀ row, d.table.get id = some row → row.status = .active → d.boot.get id = none
  | .resume id => ∀ row expression, d.table.get id = some row → row.status = .paused →
    given row.cronExpression = some expression →
      ResumeFits cron (d.routes.get id) row expression
  | .tick now spawns => ∀ id row expression, d.table.get id = some row →
    row.wanted = some expression → cron.due expression cron.localZone now = true →
      spawns id = true

/-! ## Views -/

section

variable {cron} {v : View Zone} {row : Schedule} {expression : String}

theorem View.wanted_eq_none (hrow : ∀ row, v.row = some row → row.wanted = none) :
    v.wanted = none := by
  unfold View.wanted
  cases hstored : v.row with
  | none => rfl
  | some row => simp [hrow row hstored]

theorem View.wanted_eq_some (hrow : v.row = some row) (hwanted : row.wanted = some expression) :
    v.wanted = some (row, expression) := by
  simp [View.wanted, hrow, hwanted]

theorem View.armed_of_unwanted (hrow : ∀ row, v.row = some row → row.wanted = none) :
    v.Armed cron ↔ v.running = [] := by
  rw [View.Armed, View.wanted_eq_none hrow]

theorem View.armed_of_wanted (hrow : v.row = some row) (hwanted : row.wanted = some expression) :
    v.Armed cron ↔ ∃ job, v.running = [job] ∧ IsJobOf cron job row expression := by
  rw [View.Armed, View.wanted_eq_some hrow hwanted]

/-- Where one job runs that has just been scheduled. -/
theorem View.armed_of_running (hrow : v.row = some row) (hwanted : row.wanted = some expression)
    {made : String} (hrunning : v.running = [⟨made, cron.localZone, true⟩]) :
    v.Armed cron ↔ made = expression ∧ cron.zoneOf row.timezone = some cron.localZone ∧
      NextFits cron row expression cron.localZone := by
  rw [View.armed_of_wanted hrow hwanted, hrunning]
  constructor
  · rintro ⟨job, hjob, hexpression, hzone, hnext⟩
    obtain rfl := List.singleton_inj.mp hjob
    exact ⟨hexpression, hzone, hnext⟩
  · rintro ⟨hexpression, hzone, hnext⟩
    exact ⟨_, rfl, hexpression, hzone, hnext⟩

/-- A job that has just been scheduled is the only one where the other service has none. -/
theorem View.armed_of_fresh (hrow : v.row = some row) (hwanted : row.wanted = some expression)
    (hboot : v.boot = none) {made : String}
    (hroutes : v.routes = some ⟨made, cron.localZone, true⟩) :
    v.Armed cron ↔ made = expression ∧ cron.zoneOf row.timezone = some cron.localZone ∧
      NextFits cron row expression cron.localZone :=
  View.armed_of_running hrow hwanted (by simp [View.running, hboot, hroutes])

variable (cron v) in
/-- The jobs are those the services make: they are valid and in the zone of the process, and those
of the boot service run. -/
structure View.Wired : Prop where
  boot : ∀ job, v.boot = some job →
    job.running = true ∧ job.zone = cron.localZone ∧ cron.validate job.expression = true
  routes : ∀ job, v.routes = some job →
    job.zone = cron.localZone ∧ cron.validate job.expression = true

theorem View.Wired.mem_running (hwired : v.Wired cron) {job : ScheduledJob Zone}
    (hjob : job ∈ v.running) : job.zone = cron.localZone ∧ cron.validate job.expression = true := by
  have hmem := (List.mem_filter.mp hjob).1
  rcases List.mem_append.mp hmem with hboot | hroutes
  · exact (hwired.boot job (Option.mem_toList.mp hboot)).2
  · exact hwired.routes job (Option.mem_toList.mp hroutes)

theorem View.Wired.boot_of_running_nil (hwired : v.Wired cron) (hrunning : v.running = []) :
    v.boot = none := by
  cases hboot : v.boot with
  | none => rfl
  | some job => simp [View.running, hboot, (hwired.boot job hboot).1] at hrunning

/-- The one job of a schedule that is armed. -/
theorem View.Wired.armed_job (hwired : v.Wired cron) (harmed : v.Armed cron)
    (hrow : v.row = some row) (hwanted : row.wanted = some expression) :
    cron.validate expression = true ∧ cron.zoneOf row.timezone = some cron.localZone ∧
      NextFits cron row expression cron.localZone ∧
      v.running = [⟨expression, cron.localZone, true⟩] := by
  obtain ⟨⟨made, zone, runs⟩, hrunning, hexpression, hzone, hnext⟩ :=
    (View.armed_of_wanted hrow hwanted).mp harmed
  obtain ⟨hlocal, hvalid⟩ := hwired.mem_running (hrunning ▸ List.mem_singleton_self _)
  have hruns : runs = true := by
    have hmem : (⟨made, zone, runs⟩ : ScheduledJob Zone) ∈ v.running :=
      hrunning ▸ List.mem_singleton_self _
    exact (List.mem_filter.mp hmem).2
  subst hruns
  cases hexpression
  cases hlocal
  exact ⟨hvalid, hzone, hnext, hrunning⟩

end

/-! ## The service -/

section

variable {cron} {table : ScheduleTable} {jobs : Jobs Zone} {id : ScheduleId} {expression : String}
  {timezone : Option String}

variable (cron table id expression timezone) in
theorem get_saveNextFireTime (other : ScheduleId) :
    (saveNextFireTime cron table id expression timezone).get other =
      if other = id then (table.get id).map fun row ↦ saved cron row expression timezone
      else table.get other := by
  unfold saveNextFireTime saved
  cases computeNextFireTime cron expression timezone with
  | none =>
    dsimp only
    split
    · rename_i hsame
      simp [hsame]
    · rfl
  | some next => exact ScheduleTable.get_modify _ _ _ _

variable (cron table id expression timezone) in
theorem nextId_saveNextFireTime :
    (saveNextFireTime cron table id expression timezone).nextId = table.nextId := by
  unfold saveNextFireTime
  split <;> rfl

theorem schedule_eq_none_iff :
    schedule cron table jobs id expression timezone = none ↔
      cron.validate expression = false := by
  unfold schedule
  cases cron.validate expression <;> simp

/-- What `schedule` leaves of every schedule. -/
theorem schedule_eq_some {armed : ScheduleTable × Jobs Zone}
    (h : schedule cron table jobs id expression timezone = some armed) :
    cron.validate expression = true ∧
      (∀ other, armed.1.get other =
        if other = id then (table.get id).map fun row ↦ saved cron row expression timezone
        else table.get other) ∧
      (∀ other, armed.2.get other =
        if other = id then some ⟨expression, cron.localZone, true⟩ else jobs.get other) ∧
      armed.1.nextId = table.nextId := by
  unfold schedule at h
  split at h
  · cases h
  · rename_i hvalid
    cases h
    refine ⟨by simpa using hvalid, get_saveNextFireTime cron table id expression timezone, ?_,
      nextId_saveNextFireTime cron table id expression timezone⟩
    intro other
    rw [JsMap.get_set]
    split
    · rfl
    · rename_i hother
      exact JsMap.get_delete_of_ne _ hother

theorem wanted_saved (row : Schedule) (made : String) :
    (saved cron row made timezone).wanted = row.wanted := by
  unfold saved
  split <;> rfl

theorem timezone_saved (row : Schedule) (made : String) :
    (saved cron row made timezone).timezone = row.timezone := by
  unfold saved
  split <;> rfl

theorem saved_saved (row : Schedule) (made : String) :
    saved cron (saved cron row made timezone) made timezone = saved cron row made timezone := by
  unfold saved
  cases computeNextFireTime cron made timezone <;> rfl

end

/-! ## Steps of the routes -/

section

variable {cron} {d next : Daemon Zone} {id : ScheduleId}

variable (cron d) in
/-- The process is up, its jobs are those the services make, and they are for ids that have been
used. -/
structure Daemon.Wired : Prop where
  up : d.up = true
  views : ∀ id, (d.view id).Wired cron
  fresh : ∀ id, d.table.nextId ≤ id → d.boot.get id = none ∧ d.routes.get id = none

variable (cron d next id) in
/-- A request changes only what the routes have for one schedule. -/
structure Touches : Prop where
  up : next.up = d.up
  boot : next.boot = d.boot
  table : ∀ other, other ≠ id → next.table.get other = d.table.get other
  routes : ∀ other, other ≠ id → next.routes.get other = d.routes.get other
  nextId : d.table.nextId ≤ next.table.nextId
  below : id < next.table.nextId
  jobs : ∀ job, next.routes.get id = some job →
    job.zone = cron.localZone ∧ cron.validate job.expression = true

theorem Touches.view_of_ne (h : Touches cron d next id) {other : ScheduleId} (hother : other ≠ id) :
    next.view other = d.view other := by
  simp only [Daemon.view, h.boot, h.table other hother, h.routes other hother]

/-- After a request every schedule is armed as long as its own is. -/
theorem Touches.armed_iff (h : Touches cron d next id) (harmed : d.Armed cron) :
    next.Armed cron ↔ (next.view id).Armed cron := by
  refine ⟨fun hnext ↦ hnext id, fun hid other ↦ ?_⟩
  by_cases hother : other = id
  · rw [hother]
    exact hid
  · rw [h.view_of_ne hother]
    exact harmed other

theorem Touches.wired (h : Touches cron d next id) (hwired : d.Wired cron) : next.Wired cron := by
  refine ⟨h.up.trans hwired.up, fun other ↦ ?_, fun other hother ↦ ?_⟩
  · by_cases hsame : other = id
    · subst hsame
      refine ⟨fun job hjob ↦ ?_, h.jobs⟩
      exact (hwired.views other).boot job (by rw [← hjob]; simp only [Daemon.view, h.boot])
    · rw [h.view_of_ne hsame]
      exact hwired.views other
  · obtain ⟨hboot, hroutes⟩ := hwired.fresh other (Nat.le_trans h.nextId hother)
    have hne : other ≠ id := by
      rintro rfl
      exact absurd hother (Nat.not_le.mpr h.below)
    exact ⟨h.boot ▸ hboot, (h.routes other hne).trans hroutes⟩

theorem id_lt_nextId {table : ScheduleTable} {row : Schedule} (hrow : table.get id = some row) :
    id < table.nextId :=
  table.below id row hrow

/-- `POST` adds its row, and a job where the expression is valid. -/
theorem post_spec (hwired : d.Wired cron) {body : PostBody} (haccepted : body.accepted = true) :
    Touches cron d (d.post cron body) d.table.nextId ∧
      (d.post cron body).view d.table.nextId =
        match (given body.cronExpression).filter cron.validate with
        | none => ⟨some (Daemon.newRow body), none, none⟩
        | some expression =>
          ⟨some (saved cron (Daemon.newRow body) expression body.timezone), none,
            some ⟨expression, cron.localZone, true⟩⟩ := by
  obtain ⟨hboot, hroutes⟩ := hwired.fresh d.table.nextId (Nat.le_refl _)
  have hinserted (other : ScheduleId) : (d.table.insert (Daemon.newRow body)).get other =
      if other = d.table.nextId then some (Daemon.newRow body) else d.table.get other :=
    ScheduleTable.get_insert _ _ _
  have hplain :
      Touches cron d { d with table := d.table.insert (Daemon.newRow body) } d.table.nextId ∧
      Daemon.view { d with table := d.table.insert (Daemon.newRow body) } d.table.nextId =
        ⟨some (Daemon.newRow body), none, none⟩ := by
    refine ⟨⟨rfl, rfl, fun other hother ↦ ?_, fun _ _ ↦ rfl, Nat.le_succ _, Nat.lt_succ_self _,
      fun job hjob ↦ ?_⟩, ?_⟩
    · exact (hinserted other).trans (if_neg hother)
    · cases hroutes.symm.trans hjob
    · simp only [Daemon.view, hboot, hroutes, hinserted, if_true]
  unfold Daemon.post
  simp only [haccepted, Bool.not_true, Bool.false_eq_true, if_false]
  cases hgiven : given body.cronExpression with
  | none => exact hplain
  | some expression =>
    dsimp only
    split
    · rename_i hinvalid
      rw [Option.filter_some, if_neg (by rw [schedule_eq_none_iff.mp hinvalid]; decide)]
      exact hplain
    · rename_i table jobs harmed
      obtain ⟨hvalid, htable, hjobs, hnextId⟩ := schedule_eq_some harmed
      rw [Option.filter_some, if_pos hvalid]
      have hrow (other : ScheduleId) :
          (saveNextFireTime cron table d.table.nextId expression body.timezone).get other =
            if other = d.table.nextId then
              some (saved cron (Daemon.newRow body) expression body.timezone)
            else d.table.get other := by
        rw [get_saveNextFireTime, htable, htable, if_pos rfl]
        split
        · rw [hinserted, if_pos rfl, Option.map_some, Option.map_some, saved_saved]
        · rename_i hother
          exact (hinserted other).trans (if_neg hother)
      have hnext : (saveNextFireTime cron table d.table.nextId expression body.timezone).nextId =
          d.table.nextId + 1 :=
        (nextId_saveNextFireTime _ _ _ _ _).trans hnextId
      refine ⟨⟨rfl, rfl, fun other hother ↦ ?_, fun other hother ↦ ?_, ?_, ?_, ?_⟩, ?_⟩
      · exact (hrow other).trans (if_neg hother)
      · exact (hjobs other).trans (if_neg hother)
      · exact hnext ▸ Nat.le_succ _
      · exact hnext ▸ Nat.lt_succ_self _
      · intro job hjob
        rw [hjobs, if_pos rfl] at hjob
        cases hjob
        exact ⟨rfl, hvalid⟩
      · simp only [Daemon.view, hboot, hrow, hjobs, if_true]

theorem armed_post_iff (hwired : d.Wired cron) (harmed : d.Armed cron) {body : PostBody}
    (haccepted : body.accepted = true) :
    (d.post cron body).Armed cron ↔
      ∀ expression, given body.cronExpression = some expression →
        cron.validate expression = true ∧
          Fits cron (Daemon.newRow body) expression body.timezone := by
  obtain ⟨htouches, hview⟩ := post_spec hwired haccepted
  rw [htouches.armed_iff harmed, hview]
  cases hgiven : given body.cronExpression with
  | none =>
    refine iff_of_true ((View.armed_of_unwanted ?_).mpr rfl) nofun
    rintro _ ⟨⟩
    exact hgiven
  | some expression =>
    rw [Option.filter_some]
    have hone {p : String → Prop} : (∀ other, some expression = some other → p other) ↔
        p expression := by
      simp
    have hwanted : (Daemon.newRow body).wanted = some expression := hgiven
    rw [hone]
    by_cases hvalid : cron.validate expression = true
    · rw [if_pos hvalid, View.armed_of_fresh rfl ((wanted_saved _ _).trans hwanted) rfl rfl]
      constructor
      · rintro ⟨-, hzone, hnext⟩
        exact ⟨hvalid, (timezone_saved _ _) ▸ hzone, hnext⟩
      · rintro ⟨-, hzone, hnext⟩
        exact ⟨rfl, (timezone_saved _ _).symm ▸ hzone, hnext⟩
    · rw [if_neg hvalid]
      refine iff_of_false (fun h ↦ ?_) fun h ↦ hvalid h.1
      obtain ⟨job, hjob, -⟩ := (View.armed_of_wanted rfl hwanted).mp h
      cases hjob

/-- A request for a row that is there, which leaves the ids as they are. -/
theorem touches_of_row {table : ScheduleTable} {jobs : Jobs Zone} (hrow : (d.table.get id).isSome)
    (htable : ∀ other, other ≠ id → table.get other = d.table.get other)
    (hroutes : ∀ other, other ≠ id → jobs.get other = d.routes.get other)
    (hnextId : table.nextId = d.table.nextId)
    (hjobs : ∀ job, jobs.get id = some job →
      job.zone = cron.localZone ∧ cron.validate job.expression = true) :
    Touches cron d { d with table := table, routes := jobs } id := by
  obtain ⟨row, hstored⟩ := Option.isSome_iff_exists.mp hrow
  have hbelow : id < table.nextId := hnextId ▸ id_lt_nextId hstored
  exact ⟨rfl, rfl, htable, hroutes, Nat.le_of_eq hnextId.symm, hbelow, hjobs⟩

/-- What is left where a row is there and no job is wanted or only that of the boot service. -/
theorem View.armed_iff_of_unwanted {v : View Zone} (hv : v.Wired cron)
    (hrow : ∀ row, v.row = some row → row.wanted = none)
    (hroutes : ∀ job, v.routes = some job → job.running = false) :
    v.Armed cron ↔ v.boot = none := by
  rw [View.armed_of_unwanted hrow]
  refine ⟨hv.boot_of_running_nil, fun hboot ↦ ?_⟩
  cases hstored : v.routes with
  | none => simp [View.running, hboot, hstored]
  | some job => simp [View.running, hboot, hstored, hroutes job hstored]

theorem armed_delete_iff (hwired : d.Wired cron) (harmed : d.Armed cron)
    (hrow : (d.table.get id).isSome = true) :
    Touches cron d (d.delete id) id ∧ ((d.delete id).Armed cron ↔ d.boot.get id = none) := by
  obtain ⟨row, hstored⟩ := Option.isSome_iff_exists.mp hrow
  have hdelete : d.delete id =
      { d with table := d.table.delete id, routes := remove d.routes id } := by
    simp only [Daemon.delete, hstored]
  have hgone : (remove d.routes id).get id = none := JsMap.get_delete_self _ _
  have htouches : Touches cron d (d.delete id) id := by
    rw [hdelete]
    refine touches_of_row hrow (fun other hother ↦ ?_) (fun other hother ↦ ?_) rfl
      fun job hjob ↦ nomatch hgone.symm.trans hjob
    · rw [ScheduleTable.get_delete, if_neg hother]
    · exact JsMap.get_delete_of_ne _ hother
  refine ⟨htouches, ?_⟩
  rw [htouches.armed_iff harmed]
  have hview : (d.delete id).view id = ⟨none, d.boot.get id, none⟩ := by
    rw [hdelete]
    simp only [Daemon.view, ScheduleTable.get_delete, if_true, hgone]
  have hv := (htouches.wired hwired).views id
  rw [hview] at hv ⊢
  exact View.armed_iff_of_unwanted hv nofun nofun

/-- The status of a row that is set by the service and again by the route. -/
theorem get_modify_twice (table : ScheduleTable) (status : ScheduleStatus) (other : ScheduleId) :
    ((table.modify id fun row ↦ { row with status := status }).modify id
      fun row ↦ { row with status := status }).get other =
      if other = id then (table.get id).map fun row ↦ { row with status := status }
      else table.get other := by
  rw [ScheduleTable.get_modify, ScheduleTable.get_modify, ScheduleTable.get_modify]
  split
  · rw [if_pos rfl, Option.map_map]
    rfl
  · rfl

theorem get_modify_of_ne {jobs : Jobs Zone} {change : ScheduledJob Zone → ScheduledJob Zone}
    {other : ScheduleId} (hother : other ≠ id) : (jobs.modify id change).get other =
      jobs.get other := by
  rw [JsMap.get_modify, if_neg hother]

theorem armed_pause_iff (hwired : d.Wired cron) (harmed : d.Armed cron) {row : Schedule}
    (hrow : d.table.get id = some row) (hactive : row.status = .active) :
    Touches cron d (d.pauseSchedule id) id ∧
      ((d.pauseSchedule id).Armed cron ↔ d.boot.get id = none) := by
  have hpause : d.pauseSchedule id =
      { d with
        table := (d.table.modify id fun row ↦ { row with status := .paused }).modify id
          fun row ↦ { row with status := .paused }
        routes := d.routes.modify id fun job ↦ { job with running := false } } := by
    simp only [Daemon.pauseSchedule, hrow, hactive, ne_eq, not_true_eq_false, if_false, pause]
  have hjob : (d.routes.modify id fun job ↦ { job with running := false }).get id =
      (d.routes.get id).map fun job ↦ { job with running := false } := by
    rw [JsMap.get_modify, if_pos rfl]
  have htouches : Touches cron d (d.pauseSchedule id) id := by
    rw [hpause]
    refine touches_of_row (by simp [hrow]) (fun other hother ↦ ?_)
      (fun other hother ↦ get_modify_of_ne hother) rfl fun job hstored ↦ ?_
    · rw [get_modify_twice, if_neg hother]
    · rw [hjob, Option.map_eq_some_iff] at hstored
      obtain ⟨kept, hkept, rfl⟩ := hstored
      exact (hwired.views id).routes kept hkept
  refine ⟨htouches, ?_⟩
  rw [htouches.armed_iff harmed]
  have hview : (d.pauseSchedule id).view id = ⟨some { row with status := .paused }, d.boot.get id,
      (d.routes.get id).map fun job ↦ { job with running := false }⟩ := by
    rw [hpause]
    simp only [Daemon.view, get_modify_twice, if_true, hrow, Option.map_some, hjob]
  have hv := (htouches.wired hwired).views id
  rw [hview] at hv ⊢
  refine View.armed_iff_of_unwanted hv ?_ ?_
  · rintro _ ⟨⟩
    rfl
  · intro job hstored
    obtain ⟨kept, -, rfl⟩ := Option.map_eq_some_iff.mp hstored
    rfl

/-- A daemon is touched by nothing at an id that it has used. -/
theorem touches_refl (hwired : d.Wired cron) (hrow : (d.table.get id).isSome) :
    Touches cron d d id :=
  touches_of_row hrow (fun _ _ ↦ rfl) (fun _ _ ↦ rfl) rfl (hwired.views id).routes

/-- The jobs of a schedule that is not to have one are stopped jobs of the routes. -/
theorem stopped_of_unwanted (hwired : d.Wired cron) (harmed : d.Armed cron)
    (hrow : ∀ row, d.table.get id = some row → row.wanted = none) :
    d.boot.get id = none ∧ ∀ job, d.routes.get id = some job → job.running = false := by
  have hrunning : (d.view id).running = [] := (View.armed_of_unwanted hrow).mp (harmed id)
  have hboot : d.boot.get id = none := (hwired.views id).boot_of_running_nil hrunning
  refine ⟨hboot, fun job hjob ↦ ?_⟩
  simpa [View.running, Daemon.view, hboot, hjob] using hrunning

theorem armed_resume_iff (hwired : d.Wired cron) (harmed : d.Armed cron) {row : Schedule}
    (hrow : d.table.get id = some row) (hpaused : row.status = .paused) :
    Touches cron d (d.resumeSchedule cron id) id ∧ ((d.resumeSchedule cron id).Armed cron ↔
      ∀ expression, given row.cronExpression = some expression →
        ResumeFits cron (d.routes.get id) row expression) := by
  have hsome : (d.table.get id).isSome = true := by simp [hrow]
  have hunwanted : ∀ stored, d.table.get id = some stored → stored.wanted = none := by
    intro stored hstored
    cases hrow.symm.trans hstored
    simp [Schedule.wanted, hpaused]
  obtain ⟨hboot, hstopped⟩ := stopped_of_unwanted hwired harmed hunwanted
  have hv := (hwired.views id).routes
  unfold Daemon.resumeSchedule resume
  simp only [hrow, hpaused, ne_eq, not_true_eq_false, if_false, Option.bind_some]
  cases hgiven : given row.cronExpression with
  | none =>
    have htouches : Touches cron d
        { d with table := d.table.modify id fun row ↦ { row with status := .active } } id := by
      refine touches_of_row hsome (fun other hother ↦ ?_) (fun _ _ ↦ rfl) rfl hv
      rw [ScheduleTable.get_modify, if_neg hother]
    refine ⟨htouches, iff_of_true ((htouches.armed_iff harmed).mpr ?_) nofun⟩
    refine (View.armed_iff_of_unwanted ((htouches.wired hwired).views id) ?_ hstopped).mpr hboot
    intro stored hstored
    simp only [Daemon.view, ScheduleTable.get_modify, if_true, hrow, Option.map_some] at hstored
    cases hstored
    exact hgiven
  | some expression =>
    have hone {p : String → Prop} : (∀ other, some expression = some other → p other) ↔
        p expression := by
      simp
    have hactive (changed : Schedule) (hchanged : changed.cronExpression = row.cronExpression)
        (hstatus : changed.status = .active) : changed.wanted = some expression := by
      rw [Schedule.wanted, if_pos hstatus, hchanged, hgiven]
    simp only [Option.map_some, hone]
    cases hkept : d.routes.get id with
    | some job =>
      have hhas : d.routes.has id = true := by simp [JsMap.has, hkept]
      obtain ⟨hlocal, hvalid⟩ := hv job hkept
      have hjob : (d.routes.modify id fun job ↦ { job with running := true }).get id =
          some { job with running := true } := by
        rw [JsMap.get_modify, if_pos rfl, hkept, Option.map_some]
      simp only [hhas, if_true, Option.map_some]
      have htouches : Touches cron d
          { d with
            table := (d.table.modify id fun row ↦ { row with status := .active }).modify id
              fun row ↦ { row with status := .active }
            routes := d.routes.modify id fun job ↦ { job with running := true } } id := by
        refine touches_of_row hsome (fun other hother ↦ ?_)
          (fun other hother ↦ get_modify_of_ne hother) rfl fun started hstarted ↦ ?_
        · rw [get_modify_twice, if_neg hother]
        · cases hjob.symm.trans hstarted
          exact ⟨hlocal, hvalid⟩
      refine ⟨htouches, (htouches.armed_iff harmed).trans ?_⟩
      have hstarted : ({ job with running := true } : ScheduledJob Zone) =
          ⟨job.expression, cron.localZone, true⟩ := by
        rw [hlocal]
      have hnow : ((d.table.modify id fun row ↦ { row with status := .active }).modify id
          fun row ↦ { row with status := .active }).get id =
            some { row with status := .active } := by
        rw [get_modify_twice, if_pos rfl, hrow, Option.map_some]
      exact View.armed_of_fresh hnow (hactive { row with status := .active } rfl rfl) hboot
        (hjob.trans (congrArg some hstarted))
    | none =>
      have hhas : d.routes.has id = false := by simp [JsMap.has, hkept]
      simp only [hhas, Bool.false_eq_true, if_false, ResumeFits]
      cases hschedule : schedule cron d.table d.routes id expression row.timezone with
      | none =>
        rw [Option.map_none]
        refine ⟨touches_refl hwired hsome, iff_of_true harmed fun hvalid ↦ ?_⟩
        cases (schedule_eq_none_iff.mp hschedule).symm.trans hvalid
      | some armed =>
        obtain ⟨hvalid, htable, hjobs, hnextId⟩ := schedule_eq_some hschedule
        rw [Option.map_some]
        have htouches : Touches cron d
            { d with
              table := (armed.1.modify id fun row ↦ { row with status := .active }).modify id
                fun row ↦ { row with status := .active }
              routes := armed.2 } id := by
          refine touches_of_row hsome (fun other hother ↦ ?_) (fun other hother ↦ ?_) hnextId
            fun started hstarted ↦ ?_
          · rw [get_modify_twice, if_neg hother, htable, if_neg hother]
          · rw [hjobs, if_neg hother]
          · rw [hjobs, if_pos rfl] at hstarted
            cases hstarted
            exact ⟨rfl, hvalid⟩
        refine ⟨htouches, (htouches.armed_iff harmed).trans ?_⟩
        have hcron : (saved cron row expression row.timezone).cronExpression =
            row.cronExpression := by
          unfold saved
          split <;> rfl
        have hnow : ((armed.1.modify id fun row ↦ { row with status := .active }).modify id
            fun row ↦ { row with status := .active }).get id =
              some { saved cron row expression row.timezone with status := .active } := by
          rw [get_modify_twice, if_pos rfl, htable, if_pos rfl, hrow, Option.map_some,
            Option.map_some]
        refine (View.armed_of_fresh hnow
          (hactive { saved cron row _ _ with status := .active } hcron rfl) hboot
          ((hjobs id).trans (if_pos rfl))).trans ?_
        refine ⟨fun h _ ↦ ⟨(timezone_saved _ _) ▸ h.2.1, h.2.2⟩, fun h ↦ ⟨rfl, ?_, ?_⟩⟩
        · exact (timezone_saved _ _).symm ▸ (h hvalid).zone
        · exact (h hvalid).next

/-- A job of the boot service would run beside the one that has just been scheduled. -/
theorem View.boot_of_fresh {v : View Zone} (hv : v.Wired cron) {row : Schedule}
    {expression made : String} (hrow : v.row = some row) (hwanted : row.wanted = some expression)
    (hroutes : v.routes = some ⟨made, cron.localZone, true⟩) (harmed : v.Armed cron) :
    v.boot = none := by
  obtain ⟨job, hrunning, -⟩ := (View.armed_of_wanted hrow hwanted).mp harmed
  cases hboot : v.boot with
  | none => rfl
  | some old => simp [View.running, hboot, hroutes, (hv.boot old hboot).1] at hrunning

variable (cron d id) in
/-- The condition on a `PATCH` of an active row. -/
def PatchKeeps (row : Schedule) (body : PatchBody) : Prop :=
  row.status = .active → (body.cronExpression.isSome = true → d.boot.get id = none) ∧
    ∀ expression, given (Daemon.patched row body).cronExpression = some expression →
      PatchFits cron row body expression

/-- A `PATCH` that does not arm the row again. -/
abbrev Daemon.update (d : Daemon Zone) (id : ScheduleId) (body : PatchBody) : Daemon Zone :=
  { d with table := d.table.modify id fun row ↦ patched row body }

theorem armed_update_iff (hwired : d.Wired cron) (harmed : d.Armed cron) {row : Schedule}
    (hrow : d.table.get id = some row) {body : PatchBody}
    (hplain : body.cronExpression = none ∨ row.status ≠ .active) :
    Touches cron d (d.update id body) id ∧
      ((d.update id body).Armed cron ↔ PatchKeeps cron d id row body) := by
  have hsome : (d.table.get id).isSome = true := by simp [hrow]
  have htouches : Touches cron d (d.update id body) id := by
    refine touches_of_row hsome (fun other hother ↦ ?_) (fun _ _ ↦ rfl) rfl (hwired.views id).routes
    rw [ScheduleTable.get_modify, if_neg hother]
  refine ⟨htouches, (htouches.armed_iff harmed).trans ?_⟩
  have hstored : ((d.update id body).view id).row = some (Daemon.patched row body) := by
    simp only [Daemon.view, ScheduleTable.get_modify, if_true, hrow, Option.map_some]
  have hunchanged (hunwanted : row.wanted = none)
      (hpatched : (Daemon.patched row body).wanted = none) :
      ((d.update id body).view id).Armed cron := by
    have hnone : ∀ stored, d.table.get id = some stored → stored.wanted = none := by
      intro stored hstored
      cases hrow.symm.trans hstored
      exact hunwanted
    obtain ⟨hboot, hstopped⟩ := stopped_of_unwanted hwired harmed hnone
    refine (View.armed_iff_of_unwanted ((htouches.wired hwired).views id) ?_ hstopped).mpr hboot
    intro stored hsame
    cases hstored.symm.trans hsame
    exact hpatched
  unfold PatchKeeps
  by_cases hactive : row.status = .active
  · have hnone : body.cronExpression = none := hplain.resolve_right (not_not.mpr hactive)
    have hcron : (Daemon.patched row body).cronExpression = row.cronExpression := by
      simp [Daemon.patched, hnone]
    have hwanted (changed : Schedule) (hstatus : changed.status = .active) :
        changed.wanted = given changed.cronExpression := if_pos hstatus
    simp only [hactive, forall_const, hcron, hnone, Option.isSome_none, Bool.false_eq_true,
      false_implies, true_and, PatchFits]
    cases hgiven : given row.cronExpression with
    | none =>
      refine iff_of_true (hunchanged ?_ ?_) nofun
      · exact (hwanted row hactive).trans hgiven
      · exact (hwanted (Daemon.patched row body) hactive).trans (hcron ▸ hgiven)
    | some expression =>
      obtain ⟨-, -, hnext, hrunning⟩ := (hwired.views id).armed_job (harmed id) hrow
        ((hwanted row hactive).trans hgiven)
      have hsame : ((d.update id body).view id).running = [⟨expression, cron.localZone, true⟩] :=
        hrunning
      rw [View.armed_of_wanted hstored
        ((hwanted (Daemon.patched row body) hactive).trans (hcron ▸ hgiven)), hsame]
      constructor
      · rintro ⟨job, hjob, hfits⟩ _ -
        obtain rfl := List.singleton_inj.mp hjob
        exact hfits.sameZone
      · intro h
        exact ⟨_, rfl, rfl, h expression rfl, hnext⟩
  · refine iff_of_true (hunchanged ?_ ?_) fun h ↦ absurd h hactive
    · exact if_neg hactive
    · exact if_neg hactive

theorem armed_patch_iff (hwired : d.Wired cron) (harmed : d.Armed cron) {row : Schedule}
    (hrow : d.table.get id = some row) {body : PatchBody} (hfound : body.templateFound = true) :
    Touches cron d (d.patch cron id body) id ∧
      ((d.patch cron id body).Armed cron ↔ PatchKeeps cron d id row body) := by
  unfold Daemon.patch
  simp only [hrow, hfound, Bool.not_true, Bool.false_eq_true, if_false]
  cases hbody : body.cronExpression with
  | none => exact armed_update_iff hwired harmed hrow (Or.inl hbody)
  | some changed =>
    dsimp only
    split
    · rename_i hstatus
      exact armed_update_iff hwired harmed hrow (Or.inr hstatus)
    · rename_i hstatus
      have hactive : row.status = .active := not_not.mp hstatus
      have hsome : (d.table.get id).isSome = true := by simp [hrow]
      have hcron : (Daemon.patched row body).cronExpression = changed := by
        simp [Daemon.patched, hbody]
      have hgone : (remove d.routes id).get id = none := JsMap.get_delete_self _ _
      have hupdated (other : ScheduleId) :
          (d.table.modify id fun row ↦ Daemon.patched row body).get other =
            if other = id then some (Daemon.patched row body) else d.table.get other := by
        rw [ScheduleTable.get_modify, hrow, Option.map_some]
      have hremoved : Touches cron d { d with
          table := (d.update id body).table
          routes := remove d.routes id } id := by
        refine touches_of_row hsome (fun other hother ↦ ?_) (fun other hother ↦ ?_) rfl
          fun job hjob ↦ nomatch hgone.symm.trans hjob
        · exact (hupdated other).trans (if_neg hother)
        · exact JsMap.get_delete_of_ne _ hother
      simp only [PatchKeeps, hactive, forall_const, hcron, hbody, Option.isSome_some, PatchFits]
      cases hgiven : given changed with
      | none =>
        refine ⟨hremoved, (hremoved.armed_iff harmed).trans ?_⟩
        rw [View.armed_iff_of_unwanted ((hremoved.wired hwired).views id)]
        · simp [Daemon.view]
        · intro stored hstored
          cases ((hupdated id).trans (if_pos rfl)).symm.trans hstored
          rw [Schedule.wanted, hcron, hgiven, ite_self]
        · exact fun job hjob ↦ nomatch hgone.symm.trans hjob
      | some expression =>
        have hwanted {stored : Schedule} (hsame : stored.cronExpression = changed)
            (hstatus : stored.status = .active) : stored.wanted = some expression := by
          rw [Schedule.wanted, if_pos hstatus, hsame, hgiven]
        have hone {p : String → Prop} : (∀ other, some expression = some other → p other) ↔
            p expression := by
          simp
        dsimp only
        rw [hone]
        cases hschedule : schedule cron (d.table.modify id fun row ↦ Daemon.patched row body)
            (remove d.routes id) id expression ((body.timezone.getD none).or row.timezone) with
        | none =>
          have hinvalid := schedule_eq_none_iff.mp hschedule
          refine ⟨hremoved, (hremoved.armed_iff harmed).trans (iff_of_false (fun h ↦ ?_) ?_)⟩
          · have hjob := ((hremoved.wired hwired).views id).armed_job h
              ((hupdated id).trans (if_pos rfl)) (hwanted hcron hactive)
            cases hinvalid.symm.trans hjob.1
          · exact fun h ↦ nomatch hinvalid.symm.trans h.2.1
        | some armed =>
          obtain ⟨hvalid, htable, hjobs, hnextId⟩ := schedule_eq_some hschedule
          have htouches : Touches cron d { d with table := armed.1, routes := armed.2 } id := by
            refine touches_of_row hsome (fun other hother ↦ ?_) (fun other hother ↦ ?_) hnextId
              fun job hjob ↦ ?_
            · rw [htable, if_neg hother, hupdated, if_neg hother]
            · rw [hjobs, if_neg hother]
              exact JsMap.get_delete_of_ne _ hother
            · rw [hjobs, if_pos rfl] at hjob
              cases hjob
              exact ⟨rfl, hvalid⟩
          refine ⟨htouches, (htouches.armed_iff harmed).trans ?_⟩
          have hrowNow : armed.1.get id = some (saved cron (Daemon.patched row body) expression
              ((body.timezone.getD none).or row.timezone)) := by
            rw [htable, if_pos rfl, hupdated, if_pos rfl, Option.map_some]
          have hroutes := (hjobs id).trans (if_pos rfl)
          have hnow : (saved cron (Daemon.patched row body) expression
              ((body.timezone.getD none).or row.timezone)).wanted = some expression :=
            (wanted_saved _ _).trans (hwanted hcron hactive)
          have hfresh (hboot : d.boot.get id = none) :
              (Daemon.view { d with table := armed.1, routes := armed.2 } id).Armed cron ↔ _ :=
            View.armed_of_fresh hrowNow hnow hboot hroutes
          constructor
          · intro h
            have hboot : d.boot.get id = none :=
              View.boot_of_fresh ((htouches.wired hwired).views id) hrowNow hnow hroutes h
            obtain ⟨-, hzone, hnext⟩ := (hfresh hboot).mp h
            exact ⟨hboot, hvalid, (timezone_saved _ _) ▸ hzone, hnext⟩
          · rintro ⟨hboot, -, hzone, hnext⟩
            exact (hfresh hboot).mpr ⟨rfl, (timezone_saved _ _).symm ▸ hzone, hnext⟩

/-- Loading stores next fire times only. -/
theorem wanted_loadExistingSchedules (rows : List (ScheduleId × Schedule)) (table : ScheduleTable)
    (jobs : Jobs Zone) (other : ScheduleId) :
    ((loadExistingSchedules cron rows table jobs).1.get other).bind Schedule.wanted =
      (table.get other).bind Schedule.wanted := by
  fun_induction loadExistingSchedules cron rows table jobs with
  | case1 => rfl
  | case2 head row rest table jobs hnone ih => exact ih
  | case3 head row rest table jobs expression hexpression hnone => rfl
  | case4 head row rest table jobs expression hexpression armed harmed ih =>
    rw [ih, (schedule_eq_some harmed).2.1]
    split
    · rename_i hsame
      rw [hsame]
      cases table.get head with
      | none => rfl
      | some stored => exact wanted_saved stored expression
    · rfl

/-- A load fails with a row that is invalid. -/
theorem exists_of_load_eq_none {rows : List (ScheduleId × Schedule)} {table : ScheduleTable}
    {jobs : Jobs Zone} (h : (loadExistingSchedules cron rows table jobs).2 = none) :
    ∃ entry ∈ rows, ∃ expression, given entry.2.cronExpression = some expression ∧
      cron.validate expression = false := by
  fun_induction loadExistingSchedules cron rows table jobs with
  | case1 => cases h
  | case2 head row rest table jobs hnone ih =>
    obtain ⟨entry, hentry, hinvalid⟩ := ih h
    exact ⟨entry, List.mem_cons_of_mem _ hentry, hinvalid⟩
  | case3 head row rest table jobs expression hexpression hnone =>
    exact ⟨_, List.mem_cons_self, expression, hexpression, schedule_eq_none_iff.mp hnone⟩
  | case4 head row rest table jobs expression hexpression armed harmed ih =>
    obtain ⟨entry, hentry, hinvalid⟩ := ih h
    exact ⟨entry, List.mem_cons_of_mem _ hentry, hinvalid⟩

/-- What a load leaves of a schedule: of those with an expression, the job and the next fire
time. -/
theorem load_spec {rows : List (ScheduleId × Schedule)} {table : ScheduleTable}
    {jobs loaded : Jobs Zone}
    (hnodup : (rows.map Prod.fst).Nodup) (hrows : ∀ entry ∈ rows, table.get entry.1 = some entry.2)
    (h : (loadExistingSchedules cron rows table jobs).2 = some loaded) (id : ScheduleId) :
    (∀ row expression, (id, row) ∈ rows → given row.cronExpression = some expression →
      cron.validate expression = true ∧
      (loadExistingSchedules cron rows table jobs).1.get id =
        some (saved cron row expression row.timezone) ∧
      loaded.get id = some ⟨expression, cron.localZone, true⟩) ∧
    ((∀ row, (id, row) ∈ rows → given row.cronExpression = none) →
      (loadExistingSchedules cron rows table jobs).1.get id = table.get id ∧
      loaded.get id = jobs.get id) := by
  fun_induction loadExistingSchedules cron rows table jobs with
  | case1 =>
    cases h
    exact ⟨nofun, fun _ ↦ ⟨rfl, rfl⟩⟩
  | case2 head row rest table jobs hnone ih =>
    rw [List.map_cons, List.nodup_cons] at hnodup
    obtain ⟨hloaded, hplain⟩ :=
      ih hnodup.2 (fun entry hentry ↦ hrows entry (List.mem_cons_of_mem _ hentry)) h
    constructor
    · intro stored expression hmem hgiven
      rcases List.mem_cons.mp hmem with hhead | hrest
      · cases hhead
        cases hnone.symm.trans hgiven
      · exact hloaded stored expression hrest hgiven
    · exact fun hall ↦ hplain fun stored hmem ↦ hall stored (List.mem_cons_of_mem _ hmem)
  | case3 head row rest table jobs expression hexpression hnone => cases h
  | case4 head row rest table jobs expression hexpression armed harmed ih =>
    rw [List.map_cons, List.nodup_cons] at hnodup
    obtain ⟨hvalid, htable, hjobs, -⟩ := schedule_eq_some harmed
    have hne {other : ScheduleId} {stored : Schedule} (hmem : (other, stored) ∈ rest) :
        other ≠ head := by
      rintro rfl
      exact hnodup.1 (List.mem_map.mpr ⟨_, hmem, rfl⟩)
    have hrest : ∀ entry ∈ rest, armed.1.get entry.1 = some entry.2 := by
      intro entry hentry
      rw [htable, if_neg (hne hentry)]
      exact hrows entry (List.mem_cons_of_mem _ hentry)
    obtain ⟨hloaded, hplain⟩ := ih hnodup.2 hrest h
    constructor
    · intro stored other hmem hgiven
      rcases List.mem_cons.mp hmem with hhead | hmem
      · cases hhead
        cases hexpression.symm.trans hgiven
        obtain ⟨hrow, hjob⟩ := hplain fun later hlater ↦ absurd rfl (hne hlater)
        refine ⟨hvalid, hrow.trans ?_, hjob.trans ?_⟩
        · rw [htable, if_pos rfl, hrows _ List.mem_cons_self, Option.map_some]
        · rw [hjobs, if_pos rfl]
      · exact hloaded stored other hmem hgiven
    · intro hall
      have hother : id ≠ head := by
        rintro rfl
        cases hexpression.symm.trans (hall row List.mem_cons_self)
      obtain ⟨hrow, hjob⟩ := hplain fun stored hmem ↦ hall stored (List.mem_cons_of_mem _ hmem)
      refine ⟨hrow.trans ?_, hjob.trans ?_⟩
      · rw [htable, if_neg hother]
      · rw [hjobs, if_neg hother]

theorem nextId_loadExistingSchedules (rows : List (ScheduleId × Schedule)) (table : ScheduleTable)
    (jobs : Jobs Zone) : (loadExistingSchedules cron rows table jobs).1.nextId = table.nextId := by
  fun_induction loadExistingSchedules cron rows table jobs with
  | case1 => rfl
  | case2 head row rest table jobs hnone ih => exact ih
  | case3 head row rest table jobs expression hexpression hnone => rfl
  | case4 head row rest table jobs expression hexpression armed harmed ih =>
    exact ih.trans (schedule_eq_some harmed).2.2.2

variable (d) in
/-- The rows a boot loads. -/
def Daemon.activeRows : List (ScheduleId × Schedule) :=
  d.table.rows.entries.filter fun row ↦ row.2.status = .active

theorem mem_activeRows_iff {row : Schedule} :
    (id, row) ∈ d.activeRows ↔ d.table.get id = some row ∧ row.status = .active := by
  rw [Daemon.activeRows, List.mem_filter, JsMap.mem_entries_iff, decide_eq_true_eq]
  rfl

theorem wanted_eq_some_iff {row : Schedule} {expression : String} :
    row.wanted = some expression ↔
      row.status = .active ∧ given row.cronExpression = some expression := by
  unfold Schedule.wanted
  split
  · rename_i hactive
    simp [hactive]
  · rename_i hpaused
    simp [hpaused]

variable (cron d) in
/-- A boot by the table and the jobs that are loaded. -/
theorem restart_eq : d.restart cron =
    { d with
      table := (loadExistingSchedules cron d.activeRows d.table JsMap.empty).1
      up := (loadExistingSchedules cron d.activeRows d.table JsMap.empty).2.isSome
      boot := (loadExistingSchedules cron d.activeRows d.table JsMap.empty).2.getD JsMap.empty
      routes := JsMap.empty } := by
  have hactive : (d.table.rows.entries.filter fun row ↦ row.2.status = .active) = d.activeRows :=
    rfl
  simp only [Daemon.restart, hactive]
  rcases hload : loadExistingSchedules cron d.activeRows d.table JsMap.empty with ⟨table, _ | jobs⟩
  · rfl
  · rfl

/-- What a boot that does not fail leaves of a schedule. -/
theorem view_restart {loaded : Jobs Zone}
    (h : (loadExistingSchedules cron d.activeRows d.table JsMap.empty).2 = some loaded) :
    (d.restart cron).up = true ∧ (d.restart cron).table.nextId = d.table.nextId ∧
      ∀ id, (∀ row expression, d.table.get id = some row → row.wanted = some expression →
          cron.validate expression = true ∧ (d.restart cron).view id =
            ⟨some (saved cron row expression row.timezone),
              some ⟨expression, cron.localZone, true⟩, none⟩) ∧
        ((∀ row, d.table.get id = some row → row.wanted = none) →
          (d.restart cron).view id = ⟨d.table.get id, none, none⟩) := by
  have hnodup : (d.activeRows.map Prod.fst).Nodup :=
    d.table.rows.nodup.sublist (List.filter_sublist.map Prod.fst)
  have hrows : ∀ entry ∈ d.activeRows, d.table.get entry.1 = some entry.2 :=
    fun entry hentry ↦ (mem_activeRows_iff.mp hentry).1
  rw [restart_eq, h, Option.getD_some]
  refine ⟨rfl, nextId_loadExistingSchedules _ _ _, fun id ↦ ?_⟩
  obtain ⟨hloaded, hplain⟩ := load_spec hnodup hrows h id
  constructor
  · intro row expression hrow hwanted
    obtain ⟨hactive, hgiven⟩ := wanted_eq_some_iff.mp hwanted
    obtain ⟨hvalid, htable, hjob⟩ :=
      hloaded row expression (mem_activeRows_iff.mpr ⟨hrow, hactive⟩) hgiven
    refine ⟨hvalid, ?_⟩
    simp only [Daemon.view, htable, hjob, JsMap.get_empty]
  · intro hnone
    obtain ⟨htable, hjob⟩ := hplain fun row hmem ↦ by
      obtain ⟨hrow, hactive⟩ := mem_activeRows_iff.mp hmem
      have hunwanted := hnone row hrow
      rwa [Schedule.wanted, if_pos hactive] at hunwanted
    simp only [Daemon.view, htable, hjob, JsMap.get_empty]

variable (d id) in
theorem wanted_or_unwanted :
    (∃ row expression, d.table.get id = some row ∧ row.wanted = some expression) ∨
      ∀ row, d.table.get id = some row → row.wanted = none := by
  cases hrow : d.table.get id with
  | none => exact Or.inr nofun
  | some row =>
    cases hwanted : row.wanted with
    | none => exact Or.inr fun other hother ↦ Option.some.inj hother ▸ hwanted
    | some expression => exact Or.inl ⟨row, expression, rfl, hwanted⟩

/-- A daemon that boots is armed exactly when its rows fit. -/
theorem restart_spec (d : Daemon Zone) :
    (BootsArmed cron d.table → (d.restart cron).Wired cron ∧ (d.restart cron).Armed cron) ∧
      ((d.restart cron).Armed cron → BootsArmed cron d.table) := by
  cases hload : (loadExistingSchedules cron d.activeRows d.table JsMap.empty).2 with
  | none =>
    obtain ⟨⟨id, row⟩, hentry, expression, hgiven, hinvalid⟩ := exists_of_load_eq_none hload
    obtain ⟨hrow, hactive⟩ := mem_activeRows_iff.mp hentry
    have hwanted : row.wanted = some expression := wanted_eq_some_iff.mpr ⟨hactive, hgiven⟩
    refine ⟨fun hboots ↦ ?_, fun harmed ↦ ?_⟩
    · cases hinvalid.symm.trans (hboots id row expression hrow hwanted).1
    · have hrunning : ((d.restart cron).view id).running = [] := by
        rw [restart_eq, hload]
        rfl
      have hstored : (((d.restart cron).view id).row).bind Schedule.wanted = some expression := by
        rw [restart_eq]
        exact (wanted_loadExistingSchedules _ _ _ _).trans (by rw [hrow]; exact hwanted)
      obtain ⟨stored, hsame, hstill⟩ := Option.bind_eq_some_iff.mp hstored
      obtain ⟨job, hjob, -⟩ := (View.armed_of_wanted hsame hstill).mp (harmed id)
      cases hrunning.symm.trans hjob
  | some loaded =>
    obtain ⟨hup, hnextId, hviews⟩ := view_restart hload
    refine ⟨fun hboots ↦ ⟨⟨hup, fun id ↦ ?_, fun id hid ↦ ?_⟩, fun id ↦ ?_⟩, fun harmed ↦ ?_⟩
    · rcases wanted_or_unwanted d id with ⟨row, expression, hrow, hwanted⟩ | hunwanted
      · obtain ⟨hvalid, hview⟩ := (hviews id).1 row expression hrow hwanted
        rw [hview]
        refine ⟨fun job hjob ↦ ?_, nofun⟩
        cases hjob
        exact ⟨rfl, rfl, hvalid⟩
      · rw [(hviews id).2 hunwanted]
        exact ⟨nofun, nofun⟩
    · have hunwanted : ∀ row, d.table.get id = some row → row.wanted = none := by
        intro row hrow
        exact absurd (id_lt_nextId hrow) (Nat.not_lt.mpr (hnextId ▸ hid))
      have hview := (hviews id).2 hunwanted
      exact ⟨congrArg View.boot hview, congrArg View.routes hview⟩
    · rcases wanted_or_unwanted d id with ⟨row, expression, hrow, hwanted⟩ | hunwanted
      · obtain ⟨-, hfits⟩ := hboots id row expression hrow hwanted
        rw [((hviews id).1 row expression hrow hwanted).2]
        refine (View.armed_of_running rfl ((wanted_saved _ _).trans hwanted) rfl).mpr ?_
        exact ⟨rfl, (timezone_saved _ _).symm ▸ hfits.zone, hfits.next⟩
      · rw [(hviews id).2 hunwanted]
        exact (View.armed_of_unwanted hunwanted).mpr rfl
    · intro id row expression hrow hwanted
      obtain ⟨hvalid, hview⟩ := (hviews id).1 row expression hrow hwanted
      have hid := harmed id
      rw [hview, View.armed_of_running rfl ((wanted_saved _ _).trans hwanted) rfl] at hid
      exact ⟨hvalid, (timezone_saved _ _) ▸ hid.2.1, hid.2.2⟩

/-- An armed daemon boots armed. -/
theorem bootsArmed_of_armed (hwired : d.Wired cron) (harmed : d.Armed cron) :
    BootsArmed cron d.table := by
  intro id row expression hrow hwanted
  obtain ⟨hvalid, hzone, hnext, -⟩ := (hwired.views id).armed_job (harmed id) hrow hwanted
  refine ⟨hvalid, hzone, fun source hsource ↦ ?_⟩
  unfold saved computeNextFireTime at hsource
  by_cases hparses : cron.parses expression row.timezone = true
  · rw [if_pos hparses] at hsource
    cases hsource
    exact ⟨rfl, hzone⟩
  · rw [if_neg hparses] at hsource
    exact hnext source hsource

/-- A fire of an armed schedule keeps everything armed, and spawns a task if it can. -/
theorem executeSchedule_spec (hwired : d.Wired cron) (harmed : d.Armed cron)
    {fired : ServiceName × ScheduleId}
    (hfired : ((d.table.get fired.2).bind Schedule.wanted).isSome = true) (now : Instant)
    (spawns : ScheduleId → Bool) :
    (Daemon.executeSchedule cron now spawns d fired).Wired cron ∧
      (Daemon.executeSchedule cron now spawns d fired).Armed cron ∧
      (∀ id, ((Daemon.executeSchedule cron now spawns d fired).table.get id).bind Schedule.wanted =
        (d.table.get id).bind Schedule.wanted) ∧
      (Daemon.executeSchedule cron now spawns d fired).tasks =
        d.tasks ++ ([fired.2].filter spawns).map (·, now) := by
  obtain ⟨expression, hwanted⟩ := Option.isSome_iff_exists.mp hfired
  obtain ⟨row, hrow, hwanted⟩ := Option.bind_eq_some_iff.mp hwanted
  obtain ⟨hactive, hgiven⟩ := wanted_eq_some_iff.mp hwanted
  obtain ⟨-, hzone, -, hrunning⟩ := (hwired.views fired.2).armed_job (harmed fired.2) hrow hwanted
  let executed : Schedule := { row with
    nextFireTime := computeNextFireTime cron expression row.timezone
    lastFireTime := some now }
  have hexecuted : executed.wanted = some expression := hwanted
  have hexecute : Daemon.executeSchedule cron now spawns d fired =
      { d with
        tasks := if spawns fired.2 then d.tasks ++ [(fired.2, now)] else d.tasks
        table := d.table.modify fired.2 fun row ↦ { row with
          nextFireTime := computeNextFireTime cron expression executed.timezone
          lastFireTime := some now } } := by
    simp only [Daemon.executeSchedule, hrow, hactive, ne_eq, not_true_eq_false, if_false, hgiven,
      Option.bind_some, executed]
  have hget (other : ScheduleId) :
      (Daemon.executeSchedule cron now spawns d fired).table.get other =
        if other = fired.2 then some executed else d.table.get other := by
    rw [hexecute, ScheduleTable.get_modify, hrow, Option.map_some]
  have htouches : Touches cron d (Daemon.executeSchedule cron now spawns d fired) fired.2 := by
    have hother (other : ScheduleId) (hne : other ≠ fired.2) :
        (Daemon.executeSchedule cron now spawns d fired).table.get other = d.table.get other :=
      (hget other).trans (if_neg hne)
    have hbelow : fired.2 < d.table.nextId := id_lt_nextId hrow
    rw [hexecute] at hother ⊢
    exact ⟨rfl, rfl, hother, fun _ _ ↦ rfl, Nat.le_refl _, hbelow,
      (hwired.views fired.2).routes⟩
  refine ⟨htouches.wired hwired, (htouches.armed_iff harmed).mpr ?_, fun other ↦ ?_, ?_⟩
  · have hsame : ((Daemon.executeSchedule cron now spawns d fired).view fired.2).running =
        (d.view fired.2).running := by
      rw [hexecute]
      rfl
    refine (View.armed_of_running ((hget _).trans (if_pos rfl)) hexecuted
      (hsame.trans hrunning)).mpr ⟨rfl, hzone, fun source hsource ↦ ?_⟩
    obtain ⟨-, ⟨⟩⟩ := Option.ite_none_right_eq_some.mp hsource
    exact ⟨rfl, hzone⟩
  · rw [hget]
    split
    · rename_i hsame
      rw [hsame, hrow]
      rfl
    · rfl
  · rw [hexecute]
    cases hspawns : spawns fired.2 <;> simp [hspawns]

/-- So does every list of fires of armed schedules. -/
theorem executeSchedules_spec (fired : List (ServiceName × ScheduleId)) (hwired : d.Wired cron)
    (harmed : d.Armed cron)
    (hfired : ∀ one ∈ fired, ((d.table.get one.2).bind Schedule.wanted).isSome = true)
    (now : Instant) (spawns : ScheduleId → Bool) :
    (fired.foldl (Daemon.executeSchedule cron now spawns) d).Wired cron ∧
      (fired.foldl (Daemon.executeSchedule cron now spawns) d).Armed cron ∧
      (fired.foldl (Daemon.executeSchedule cron now spawns) d).tasks =
        d.tasks ++ ((fired.map Prod.snd).filter spawns).map (·, now) := by
  induction fired generalizing d with
  | nil => exact ⟨hwired, harmed, (List.append_nil _).symm⟩
  | cons one fired ih =>
    obtain ⟨hwired', harmed', hwanted, htasks⟩ :=
      executeSchedule_spec hwired harmed (hfired one List.mem_cons_self) now spawns
    obtain ⟨hw, ha, ht⟩ := ih hwired' harmed' fun other hother ↦ by
      rw [hwanted]
      exact hfired other (List.mem_cons_of_mem _ hother)
    refine ⟨hw, ha, ht.trans ?_⟩
    rw [htasks, List.append_assoc, ← List.map_append, ← List.filter_append, List.map_cons]
    rfl

variable (cron) in
/-- How often a service fires for a schedule. -/
theorem count_dueJobs (jobs : Jobs Zone) (now : Instant) (id : ScheduleId) :
    (Daemon.dueJobs cron jobs now).count id =
      (jobs.get id).toList.countP fun job ↦ job.running && cron.due job.expression job.zone now := by
  have hnodup : (Daemon.dueJobs cron jobs now).Nodup :=
    jobs.nodup.sublist (List.filter_sublist.map Prod.fst)
  have hmem : id ∈ Daemon.dueJobs cron jobs now ↔ ∃ job, jobs.get id = some job ∧
      (job.running && cron.due job.expression job.zone now) = true := by
    simp only [Daemon.dueJobs, List.mem_map, List.mem_filter, Prod.exists, exists_and_right,
      exists_eq_right, JsMap.mem_entries_iff]
  rw [hnodup.count]
  cases hjob : jobs.get id with
  | none => simp [hmem, hjob]
  | some job => simp [hmem, hjob, List.countP_cons]

/-- How often the daemon fires for an armed schedule: once where it is due. -/
theorem count_fired (hwired : d.Wired cron) (harmed : d.Armed cron) (now : Instant)
    (id : ScheduleId) :
    (Daemon.dueJobs cron d.boot now ++ Daemon.dueJobs cron d.routes now).count id =
      (d.isDue cron now id).toNat := by
  have hrunning : (Daemon.dueJobs cron d.boot now ++ Daemon.dueJobs cron d.routes now).count id =
      (d.view id).running.countP fun job ↦ cron.due job.expression job.zone now := by
    rw [List.count_append, count_dueJobs, count_dueJobs, ← List.countP_append, View.running,
      List.countP_filter]
    simp only [Daemon.view, Bool.and_comm]
  rw [hrunning, Daemon.isDue]
  rcases wanted_or_unwanted d id with ⟨row, expression, hrow, hwanted⟩ | hunwanted
  · obtain ⟨-, hzone, -, hone⟩ := (hwired.views id).armed_job (harmed id) hrow hwanted
    rw [hone, View.wanted_eq_some (v := d.view id) hrow hwanted]
    simp only [hzone, Option.any_some, List.countP_singleton]
    cases cron.due expression cron.localZone now <;> rfl
  · rw [(View.armed_of_unwanted hunwanted).mp (harmed id),
      View.wanted_eq_none (v := d.view id) hunwanted]
    rfl

theorem isDue_eq_true_iff (hwired : d.Wired cron) (harmed : d.Armed cron) {now : Instant} :
    d.isDue cron now id = true ↔ ∃ row expression, d.table.get id = some row ∧
      row.wanted = some expression ∧ cron.due expression cron.localZone now = true := by
  unfold Daemon.isDue
  rcases wanted_or_unwanted d id with ⟨row, expression, hrow, hwanted⟩ | hunwanted
  · obtain ⟨-, hzone, -⟩ := (hwired.views id).armed_job (harmed id) hrow hwanted
    rw [View.wanted_eq_some (v := d.view id) hrow hwanted]
    simp only [hzone, Option.any_some]
    refine ⟨fun hdue ↦ ⟨row, expression, hrow, hwanted, hdue⟩, ?_⟩
    rintro ⟨stored, other, hstored, hother, hdue⟩
    cases hrow.symm.trans hstored
    cases hwanted.symm.trans hother
    exact hdue
  · rw [View.wanted_eq_none (v := d.view id) hunwanted]
    refine iff_of_false Bool.false_ne_true ?_
    rintro ⟨stored, other, hstored, hother, -⟩
    cases (hunwanted stored hstored).symm.trans hother

/-- An instant keeps everything armed; it spawns a task for every schedule that is due exactly when
each of them can. -/
theorem tick_spec (hwired : d.Wired cron) (harmed : d.Armed cron) (now : Instant)
    (spawns : ScheduleId → Bool) :
    (d.step cron (.tick now spawns)).Wired cron ∧ (d.step cron (.tick now spawns)).Armed cron ∧
      (d.FiresOnce cron now spawns ↔ KeepsArmed cron d (.tick now spawns)) := by
  let fired := (Daemon.dueJobs cron d.boot now).map (ServiceName.boot, ·) ++
    (Daemon.dueJobs cron d.routes now).map (ServiceName.routes, ·)
  have hids : fired.map Prod.snd =
      Daemon.dueJobs cron d.boot now ++ Daemon.dueJobs cron d.routes now := by
    simp [fired, Function.comp_def]
  have hstep : d.step cron (.tick now spawns) =
      fired.foldl (Daemon.executeSchedule cron now spawns) d := by
    simp only [Daemon.step, hwired.up, if_true]
    rfl
  have hfired : ∀ one ∈ fired, ((d.table.get one.2).bind Schedule.wanted).isSome = true := by
    intro one hone
    have hmem : one.2 ∈ Daemon.dueJobs cron d.boot now ++ Daemon.dueJobs cron d.routes now :=
      hids ▸ List.mem_map_of_mem hone
    have hdue : d.isDue cron now one.2 = true := by
      have hpos := List.count_pos_iff.mpr hmem
      rw [count_fired hwired harmed] at hpos
      cases hdue : d.isDue cron now one.2 with
      | true => rfl
      | false => simp [hdue] at hpos
    obtain ⟨row, expression, hrow, hwanted, -⟩ := (isDue_eq_true_iff hwired harmed).mp hdue
    simp [hrow, hwanted]
  obtain ⟨hw, ha, htasks⟩ := executeSchedules_spec fired hwired harmed hfired now spawns
  rw [← hstep] at hw ha htasks
  refine ⟨hw, ha, ?_⟩
  have hcount (id : ScheduleId) : (d.step cron (.tick now spawns)).tasks.count (id, now) =
      d.tasks.count (id, now) + if spawns id then (d.isDue cron now id).toNat else 0 := by
    have hinjective : Function.Injective fun id : ScheduleId ↦ (id, now) :=
      fun _ _ hsame ↦ (Prod.mk.inj hsame).1
    rw [htasks, List.count_append, List.count_map_of_injective _ _ hinjective, hids]
    split
    · rename_i hspawns
      rw [List.count_filter hspawns, count_fired hwired harmed]
    · rename_i hspawns
      refine congrArg (_ + ·) (List.count_eq_zero.mpr fun hmem ↦ ?_)
      exact hspawns (List.mem_filter.mp hmem).2
  unfold Daemon.FiresOnce
  simp only [hcount, Nat.add_left_cancel_iff]
  constructor
  · intro h id row expression hrow hwanted hdue
    have hisDue := (isDue_eq_true_iff hwired harmed).mpr ⟨row, expression, hrow, hwanted, hdue⟩
    have hid := h id
    by_contra hspawns
    rw [if_neg hspawns, hisDue] at hid
    cases hid
  · intro h id
    split
    · rfl
    · rename_i hspawns
      cases hdue : d.isDue cron now id with
      | false => rfl
      | true =>
        obtain ⟨row, expression, hrow, hwanted, hnow⟩ := (isDue_eq_true_iff hwired harmed).mp hdue
        exact absurd (h id row expression hrow hwanted hnow) hspawns

/-! ## Runs -/

variable (cron d) in
/-- One step keeps everything armed and spawns what is due. -/
def StepArmed (event : ScheduleEvent) : Prop :=
  (d.step cron event).Armed cron ∧
    ∀ now spawns, event = .tick now spawns → d.FiresOnce cron now spawns

/-- Every step keeps the jobs wired, and everything armed exactly when it meets the condition. -/
theorem step_spec (hwired : d.Wired cron) (harmed : d.Armed cron) (event : ScheduleEvent) :
    (d.step cron event).Wired cron ∧ (StepArmed cron d event ↔ KeepsArmed cron d event) := by
  have hplain (hevent : ∀ now spawns, event ≠ .tick now spawns) :
      StepArmed cron d event ↔ (d.step cron event).Armed cron :=
    and_iff_left fun now spawns heq ↦ absurd heq (hevent now spawns)
  have hsame (hstep : d.step cron event = d) (hkeeps : KeepsArmed cron d event)
      (hevent : ∀ now spawns, event ≠ .tick now spawns) :
      (d.step cron event).Wired cron ∧ (StepArmed cron d event ↔ KeepsArmed cron d event) := by
    rw [hplain hevent, hstep]
    exact ⟨hwired, iff_of_true harmed hkeeps⟩
  cases event with
  | restart =>
    obtain ⟨hw, ha⟩ := (restart_spec d).1 (bootsArmed_of_armed hwired harmed)
    exact ⟨hw, (hplain nofun).trans (iff_of_true ha trivial)⟩
  | tick now spawns =>
    obtain ⟨hw, ha, hfires⟩ := tick_spec hwired harmed now spawns
    refine ⟨hw, Iff.trans ?_ hfires⟩
    refine ⟨fun h ↦ h.2 now spawns rfl, fun h ↦ ⟨ha, ?_⟩⟩
    rintro _ _ ⟨⟩
    exact h
  | post body =>
    cases haccepted : body.accepted with
    | false =>
      refine hsame ?_ (fun h ↦ nomatch haccepted.symm.trans h) nofun
      simp [Daemon.step, Daemon.post, haccepted]
    | true =>
      have hstep : d.step cron (.post body) = d.post cron body := if_pos hwired.up
      rw [hplain nofun, hstep]
      refine ⟨(post_spec hwired haccepted).1.wired hwired, ?_⟩
      refine (armed_post_iff hwired harmed haccepted).trans ?_
      exact ⟨fun h _ ↦ h, fun h ↦ h haccepted⟩
  | patch id body =>
    have hstep : d.step cron (.patch id body) = d.patch cron id body := if_pos hwired.up
    cases hrow : d.table.get id with
    | none =>
      refine hsame (hstep.trans ?_) (fun _ row h ↦ nomatch hrow.symm.trans h) nofun
      simp only [Daemon.patch, hrow]
    | some row =>
      cases hfound : body.templateFound with
      | false =>
        refine hsame (hstep.trans ?_) (fun h ↦ nomatch hfound.symm.trans h) nofun
        simp only [Daemon.patch, hrow, hfound, Bool.not_false, if_true]
      | true =>
        obtain ⟨htouches, hiff⟩ := armed_patch_iff hwired harmed hrow hfound
        rw [hplain nofun, hstep]
        refine ⟨htouches.wired hwired, hiff.trans ?_⟩
        refine ⟨fun h _ stored hstored ↦ ?_, fun h ↦ h hfound row hrow⟩
        cases hrow.symm.trans hstored
        exact h
  | delete id =>
    have hstep : d.step cron (.delete id) = d.delete id := if_pos hwired.up
    cases hrow : d.table.get id with
    | none =>
      refine hsame (hstep.trans ?_) (fun h ↦ by simp [hrow] at h) nofun
      simp only [Daemon.delete, hrow]
    | some row =>
      have hsome : (d.table.get id).isSome = true := by simp [hrow]
      obtain ⟨htouches, hiff⟩ := armed_delete_iff hwired harmed hsome
      rw [hplain nofun, hstep]
      exact ⟨htouches.wired hwired, hiff.trans ⟨fun h _ ↦ h, fun h ↦ h hsome⟩⟩
  | pause id =>
    have hstep : d.step cron (.pause id) = d.pauseSchedule id := if_pos hwired.up
    cases hrow : d.table.get id with
    | none =>
      refine hsame (hstep.trans ?_) (fun row h ↦ nomatch hrow.symm.trans h) nofun
      simp only [Daemon.pauseSchedule, hrow]
    | some row =>
      by_cases hactive : row.status = .active
      · obtain ⟨htouches, hiff⟩ := armed_pause_iff hwired harmed hrow hactive
        rw [hplain nofun, hstep]
        refine ⟨htouches.wired hwired, hiff.trans ?_⟩
        exact ⟨fun h _ _ _ ↦ h, fun h ↦ h row hrow hactive⟩
      · refine hsame (hstep.trans ?_) (fun stored h hstatus ↦ ?_) nofun
        · simp only [Daemon.pauseSchedule, hrow, ne_eq, hactive, not_false_eq_true, if_true]
        · cases hrow.symm.trans h
          exact absurd hstatus hactive
  | resume id =>
    have hstep : d.step cron (.resume id) = d.resumeSchedule cron id := if_pos hwired.up
    cases hrow : d.table.get id with
    | none =>
      refine hsame (hstep.trans ?_) (fun row _ h ↦ nomatch hrow.symm.trans h) nofun
      simp only [Daemon.resumeSchedule, hrow]
    | some row =>
      by_cases hpaused : row.status = .paused
      · obtain ⟨htouches, hiff⟩ := armed_resume_iff hwired harmed hrow hpaused
        rw [hplain nofun, hstep]
        refine ⟨htouches.wired hwired, hiff.trans ?_⟩
        refine ⟨fun h stored expression hstored _ hgiven ↦ ?_, fun h expression hgiven ↦ ?_⟩
        · cases hrow.symm.trans hstored
          exact h expression hgiven
        · exact h row expression hrow hpaused hgiven
      · refine hsame (hstep.trans ?_) (fun stored expression h hstatus ↦ ?_) nofun
        · simp only [Daemon.resumeSchedule, hrow, ne_eq, hpaused, not_false_eq_true, if_true]
        · cases hrow.symm.trans h
          exact absurd hstatus hpaused

end

/-- From a boot on any rows, every active schedule has exactly one armed job in every state of a run
and spawns one task at every due instant exactly when the rows fit and every step meets the
condition. -/
theorem Daemon.armed_once_iff (table : ScheduleTable) (events : List ScheduleEvent) :
    ArmedOnce cron (booted cron table) events ↔
      BootsArmed cron table ∧
        Disciplined (step cron) (KeepsArmed cron) (booted cron table) events := by
  have hspec : (BootsArmed cron table → (booted cron table).Wired cron ∧
      (booted cron table).Armed cron) ∧ ((booted cron table).Armed cron → BootsArmed cron table) :=
    restart_spec { table := table }
  obtain ⟨hboot, hfits⟩ := hspec
  have hstep (d : Daemon Zone) (event : ScheduleEvent) (hd : d.Wired cron ∧ d.Armed cron)
      (h : StepArmed cron d event) : (d.step cron event).Wired cron ∧
        (d.step cron event).Armed cron :=
    ⟨(step_spec hd.1 hd.2 event).1, h.1⟩
  have hsteps (hrows : BootsArmed cron table) :
      Disciplined (step cron) (StepArmed cron) (booted cron table) events ↔
        Disciplined (step cron) (KeepsArmed cron) (booted cron table) events :=
    disciplined_congr_of_invariant hstep (fun d event hd ↦ (step_spec hd.1 hd.2 event).2)
      (hboot hrows) events
  constructor
  · intro h
    have hrows : BootsArmed cron table := hfits (h.armed [] List.nil_prefix)
    refine ⟨hrows, (hsteps hrows).mp ((disciplined_iff_forall_event _ _).mpr ?_)⟩
    intro before event hprefix
    refine ⟨?_, fun now spawns hevent ↦ h.fires before now spawns (hevent ▸ hprefix)⟩
    have hlast := h.armed (before ++ [event]) hprefix
    rwa [run, List.foldl_append] at hlast
  · rintro ⟨hrows, hkeeps⟩
    have hall := (disciplined_iff_forall_event _ _).mp ((hsteps hrows).mpr hkeeps)
    constructor
    · intro before hprefix
      rcases List.eq_nil_or_concat before with rfl | ⟨first, event, rfl⟩
      · exact (hboot hrows).2
      · rw [List.concat_eq_append] at hprefix ⊢
        rw [run, List.foldl_append]
        exact (hall first event hprefix).1
    · intro before now spawns hprefix
      exact (hall before _ hprefix).2 now spawns rfl

/-- A cron library that takes every expression, and is always due, in a process in UTC. -/
def utcCron : Cron String where
  validate _ := true
  parses _ _ := true
  due _ _ _ := true
  zone? := some
  localZone := "UTC"

variable {cron} in
theorem Daemon.ArmedOnce.isJobOf {start : Daemon Zone} {events : List ScheduleEvent}
    (h : ArmedOnce cron start events) (id : Nat) (row : Schedule) (expression : String)
    (job : ScheduledJob Zone)
    (hwanted : ((run (step cron) start events).view id).wanted = some (row, expression))
    (hrunning : ((run (step cron) start events).view id).running = [job]) :
    IsJobOf cron job row expression := by
  have harmed := h.armed events (List.prefix_refl _) id
  rw [View.Armed, hwanted] at harmed
  obtain ⟨other, hother, hjob⟩ := harmed
  cases hrunning.symm.trans hother
  exact hjob

/-- A table with one active schedule, or none. -/
def tableOf (schedules : List Schedule) : ScheduleTable :=
  schedules.foldl ScheduleTable.insert ⟨JsMap.empty, 1, nofun⟩

def daily : Schedule := { cronExpression := some "0 9 * * *", timezone := some "UTC" }

def dailyBody (timezone : String) : PostBody :=
  { scheduleType := "cron", cronExpression := some "0 9 * * *", timezone := some timezone }

/-- A schedule that was loaded at boot fires twice once it has been paused and resumed; a job runs in
the zone of the process whatever the row says, and keeps its expression when a paused row gets
another. -/
theorem Daemon.not_armed_once :
    ¬ArmedOnce utcCron (booted utcCron (tableOf [daily]))
      [.pause 1, .resume 1, .tick 0 fun _ ↦ true] ∧
    ¬ArmedOnce utcCron (booted utcCron (tableOf [])) [.post (dailyBody "Europe/Berlin")] ∧
    ¬ArmedOnce utcCron (booted utcCron (tableOf []))
      [.post (dailyBody "UTC"), .patch 1 { timezone := some (some "Europe/Berlin") }] ∧
    ¬ArmedOnce utcCron (booted utcCron (tableOf []))
      [.post (dailyBody "UTC"), .pause 1, .patch 1 { cronExpression := some (some "0 18 * * *") },
        .resume 1] := by
  refine ⟨fun h ↦ ?_, fun h ↦ ?_, fun h ↦ ?_, fun h ↦ ?_⟩
  · have hfires := h.fires [.pause 1, .resume 1] 0 (fun _ ↦ true) (List.prefix_refl _) 1
    revert hfires
    decide +kernel
  · have hzone := (h.isJobOf 1
      { daily with
        timezone := some "Europe/Berlin"
        nextFireTime := some ("0 9 * * *", some "Europe/Berlin") }
      "0 9 * * *" ⟨"0 9 * * *", "UTC", true⟩ (by decide +kernel) (by decide +kernel)).sameZone
    revert hzone
    decide +kernel
  · have hzone := (h.isJobOf 1
      { daily with
        timezone := some "Europe/Berlin"
        nextFireTime := some ("0 9 * * *", some "UTC") }
      "0 9 * * *" ⟨"0 9 * * *", "UTC", true⟩ (by decide +kernel) (by decide +kernel)).sameZone
    revert hzone
    decide +kernel
  · have hexpression := (h.isJobOf 1
      { daily with
        cronExpression := some "0 18 * * *"
        nextFireTime := some ("0 9 * * *", some "UTC") }
      "0 18 * * *" ⟨"0 9 * * *", "UTC", true⟩
      (by decide +kernel) (by decide +kernel)).sameExpression
    revert hexpression
    decide +kernel

end Flockctl.Schedules
