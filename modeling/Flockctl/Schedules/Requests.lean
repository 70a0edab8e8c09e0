import Flockctl.Schedules.ArmedOnce

/-!
# Requests that fail, and schedules that load

A request that ends in an error is to leave the table and the jobs as they were, so that every
active row has an expression that can be scheduled and a boot arms each of them. `POST` and `PATCH`
write the row before the expression is checked, and a boot ends with the first row that is invalid:
these hold exactly where every expression a request stores in an active row is valid, and every
expression of a row that is started again with the job it has kept.
-/

namespace Flockctl.Schedules

open Collections Transition

variable {Zone : Type} (cron : Cron Zone)

namespace Daemon

/-- `POST` throws: the body is rejected, or the row cannot be scheduled. -/
def postFails (d : Daemon Zone) (body : PostBody) : Bool :=
  if !body.accepted then true
  else
    let id := d.table.nextId
    let inserted := d.table.insert (newRow body)
    match given body.cronExpression with
    | none => false
    | some expression => (schedule cron inserted d.routes id expression body.timezone).isNone

/-- `PATCH` throws: there is no row, the template is not found, or the row cannot be scheduled. -/
def patchFails (d : Daemon Zone) (id : ScheduleId) (body : PatchBody) : Bool :=
  match d.table.get id with
  | none => true
  | some existing =>
    if !body.templateFound then true
    else
      let updated := d.table.modify id fun row ↦ patched row body
      match body.cronExpression with
      | none => false
      | some cronExpression =>
        if existing.status ≠ .active then false
        else
          match given cronExpression with
          | none => false
          | some expression =>
            let timezone := (body.timezone.getD none).or existing.timezone
            (schedule cron updated (remove d.routes id) id expression timezone).isNone

/-- The request ends in an error; a boot and an instant are no requests. -/
def fails (d : Daemon Zone) : ScheduleEvent → Bool
  | .restart => false
  | .post body => d.postFails cron body
  | .patch id body => d.patchFails cron id body
  | .delete id => (d.table.get id).isNone
  | .pause id => (d.table.get id).all fun row ↦ row.status ≠ .active
  | .resume id => (d.table.get id).all fun row ↦
    row.status ≠ .paused || (resume cron d.table d.routes id).isNone
  | .tick _ _ => false

/-- A request that ends in an error changes nothing. -/
def Atomic (d : Daemon Zone) (event : ScheduleEvent) : Prop :=
  d.fails cron event = true → d.step cron event = d

end Daemon

namespace ScheduleTable

/-- The expression of an active row. -/
def wanted (table : ScheduleTable) (id : ScheduleId) : Option String :=
  (table.get id).bind Schedule.wanted

/-- Every active row with an expression has one that can be scheduled. -/
def Valid (table : ScheduleTable) : Prop :=
  ∀ id expression, table.wanted id = some expression → cron.validate expression = true

/-- A boot arms every active row whose expression can be scheduled. -/
def Loads (table : ScheduleTable) : Prop :=
  ∀ id expression, table.wanted id = some expression → cron.validate expression = true →
    (Daemon.booted cron table).boot.get id = some ⟨expression, cron.localZone, true⟩

/-- No active row has an expression that can be scheduled. -/
def NoneLoads (table : ScheduleTable) : Prop :=
  ∀ id expression, table.wanted id = some expression → cron.validate expression = false

end ScheduleTable

/-- All along a run the requests are atomic and every active row can be scheduled, also by a new
process. -/
structure SoundSchedules (table : ScheduleTable) (events : List ScheduleEvent) : Prop where
  atomic : ∀ before event, before ++ [event] <+: events →
    (run (Daemon.step cron) (Daemon.booted cron table) before).Atomic cron event
  accepted : ∀ before, before <+: events →
    (run (Daemon.step cron) (Daemon.booted cron table) before).table.Valid cron
  loads : ∀ before, before <+: events →
    (run (Daemon.step cron) (Daemon.booted cron table) before).table.Loads cron

/-- The expression that a `PATCH` gives. -/
def PatchBody.expression (body : PatchBody) : Option String := body.cronExpression.bind given

/-- An error comes before any change: the expressions that are stored in active rows are valid, or
the row and the jobs have been the same before. -/
def FailsEarly (d : Daemon Zone) : ScheduleEvent → Prop
  | .post body => d.up = true → body.accepted = true → ∀ expression,
    given body.cronExpression = some expression → cron.validate expression = true
  | .patch id body => d.up = true → body.templateFound = true → ∀ row expression,
    d.table.get id = some row → row.status = .active → body.expression = some expression →
      cron.validate expression = true ∨
        (Daemon.patched row body = row ∧ d.routes.get id = none)
  | _ => True

/-- The expressions that become those of active rows are valid. A row that is started again with the
job it has kept is not scheduled, and so not checked. -/
def KeepsValid (d : Daemon Zone) : ScheduleEvent → Prop
  | .post body => body.accepted = true → ∀ expression,
    given body.cronExpression = some expression → cron.validate expression = true
  | .patch id body => body.templateFound = true → ∀ row expression,
    d.table.get id = some row → row.status = .active → body.expression = some expression →
      cron.validate expression = true
  | .resume id => ∀ row expression, d.table.get id = some row → row.status = .paused →
    given row.cronExpression = some expression → d.routes.has id = true →
      cron.validate expression = true
  | _ => True

/-! ## Requests that fail -/

section

variable {cron} {d : Daemon Zone} {id : ScheduleId}

theorem ScheduleTable.ext {table other : ScheduleTable} (hrows : table.rows = other.rows)
    (hnext : table.nextId = other.nextId) : table = other := by
  obtain ⟨rows, nextId, below⟩ := table
  obtain ⟨others, otherId, otherBelow⟩ := other
  cases hrows
  cases hnext
  rfl

theorem ScheduleTable.modify_eq_self_iff {table : ScheduleTable} {row : Schedule}
    (hrow : table.get id = some row) (change : Schedule → Schedule) :
    table.modify id change = table ↔ change row = row := by
  constructor
  · intro h
    have hget := ScheduleTable.get_modify table id change id
    rw [h, if_pos rfl, hrow, Option.map_some] at hget
    exact (Option.some.inj hget).symm
  · intro h
    refine ScheduleTable.ext (JsMap.modify_eq_self fun stored hstored ↦ ?_) rfl
    cases hrow.symm.trans hstored
    exact h

theorem remove_eq_self_iff (jobs : Jobs Zone) :
    remove jobs id = jobs ↔ jobs.get id = none := by
  constructor
  · intro h
    have hget : (remove jobs id).get id = none := JsMap.get_delete_self jobs id
    rwa [h] at hget
  · exact JsMap.delete_eq_self

theorem isNone_schedule (table : ScheduleTable) (jobs : Jobs Zone) (expression : String)
    (timezone : Option String) :
    (schedule cron table jobs id expression timezone).isNone = !cron.validate expression := by
  unfold schedule
  cases cron.validate expression <;> rfl

theorem postFails_eq (d : Daemon Zone) (body : PostBody) : d.postFails cron body =
    (!body.accepted || (given body.cronExpression).any fun expression ↦
      !cron.validate expression) := by
  unfold Daemon.postFails
  cases haccepted : body.accepted with
  | false => rfl
  | true =>
    cases hgiven : given body.cronExpression with
    | none => rfl
    | some expression => exact isNone_schedule _ _ _ _

theorem patchFails_eq {row : Schedule} (hrow : d.table.get id = some row) (body : PatchBody) :
    d.patchFails cron id body =
      (!body.templateFound || (decide (row.status = .active) &&
        body.expression.any fun expression ↦ !cron.validate expression)) := by
  unfold Daemon.patchFails PatchBody.expression
  rw [hrow]
  dsimp only
  cases hfound : body.templateFound with
  | false => rfl
  | true =>
    cases hbody : body.cronExpression with
    | none => simp
    | some cronExpression =>
      by_cases hactive : row.status = .active
      · cases hgiven : given cronExpression with
        | none => simp [hactive, hgiven]
        | some expression => simp [hactive, hgiven, isNone_schedule]
      · simp [hactive]

theorem post_of_not_accepted {body : PostBody} (haccepted : body.accepted = false) :
    d.post cron body = d := by
  simp [Daemon.post, haccepted]

/-- A `POST` that is accepted adds a row. -/
theorem nextId_post {body : PostBody} (haccepted : body.accepted = true) :
    (d.post cron body).table.nextId = d.table.nextId + 1 := by
  simp only [Daemon.post, haccepted, Bool.not_true, Bool.false_eq_true, if_false]
  split
  · rfl
  · split
    · rfl
    · rename_i harmed
      exact (nextId_saveNextFireTime _ _ _ _ _).trans (schedule_eq_some harmed).2.2.2

theorem atomic_post_iff (body : PostBody) :
    d.Atomic cron (.post body) ↔ FailsEarly cron d (.post body) := by
  change (d.postFails cron body = true → (if d.up then d.post cron body else d) = d) ↔ _
  rw [postFails_eq]
  cases hup : d.up with
  | false => exact iff_of_true (fun _ ↦ rfl) (fun h ↦ nomatch hup.symm.trans h)
  | true =>
    cases haccepted : body.accepted with
    | false =>
      refine iff_of_true (fun _ ↦ post_of_not_accepted haccepted) ?_
      exact fun _ h ↦ nomatch haccepted.symm.trans h
    | true =>
      constructor
      · intro h _ _ expression hgiven
        by_contra hinvalid
        have hsame := h (by simp [hgiven, hinvalid])
        have hnext : (d.post cron body).table.nextId = d.table.nextId :=
          congrArg (fun d ↦ d.table.nextId) hsame
        rw [nextId_post haccepted] at hnext
        exact absurd hnext (Nat.succ_ne_self _)
      · intro h hfails
        cases hgiven : given body.cronExpression with
        | none => simp [hgiven] at hfails
        | some expression => simp [hgiven, h hup haccepted expression hgiven] at hfails

/-- A `PATCH` that cannot schedule the row has stored it and removed its job. -/
theorem patch_of_invalid {row : Schedule} {body : PatchBody} {expression : String}
    (hrow : d.table.get id = some row) (hfound : body.templateFound = true)
    (hactive : row.status = .active) (hgiven : body.expression = some expression)
    (hinvalid : cron.validate expression = false) :
    d.patch cron id body =
      { d with
        table := d.table.modify id fun row ↦ Daemon.patched row body
        routes := remove d.routes id } := by
  obtain ⟨cronExpression, hbody, hexpression⟩ := Option.bind_eq_some_iff.mp hgiven
  simp only [Daemon.patch, hrow, hfound, hbody, hactive, hexpression,
    schedule_eq_none_iff.mpr hinvalid, Bool.not_true, Bool.false_eq_true, ne_eq, not_true_eq_false,
    if_false]

theorem atomic_patch_iff (body : PatchBody) :
    d.Atomic cron (.patch id body) ↔ FailsEarly cron d (.patch id body) := by
  change (d.patchFails cron id body = true → (if d.up then d.patch cron id body else d) = d) ↔ _
  cases hup : d.up with
  | false => exact iff_of_true (fun _ ↦ rfl) (fun h ↦ nomatch hup.symm.trans h)
  | true =>
    rw [if_pos rfl]
    cases hrow : d.table.get id with
    | none =>
      refine iff_of_true (fun _ ↦ ?_) (fun _ _ row _ h ↦ nomatch hrow.symm.trans h)
      simp only [Daemon.patch, hrow]
    | some row =>
      rw [patchFails_eq hrow]
      cases hfound : body.templateFound with
      | false =>
        refine iff_of_true (fun _ ↦ ?_) (fun _ h ↦ nomatch hfound.symm.trans h)
        simp only [Daemon.patch, hrow, hfound, Bool.not_false, if_true]
      | true =>
        constructor
        · intro h _ _ stored expression hstored hactive hgiven
          cases hrow.symm.trans hstored
          by_cases hvalid : cron.validate expression = true
          · exact Or.inl hvalid
          · have hinvalid : cron.validate expression = false := eq_false_of_ne_true hvalid
            have hsame := h (by simp [hactive, hgiven, hinvalid])
            rw [patch_of_invalid hrow hfound hactive hgiven hinvalid] at hsame
            have htable := congrArg Daemon.table hsame
            have hroutes := congrArg Daemon.routes hsame
            exact Or.inr ⟨(ScheduleTable.modify_eq_self_iff hrow _).mp htable,
              (remove_eq_self_iff _).mp hroutes⟩
        · intro h hfails
          simp only [Bool.not_true, Bool.false_or, Bool.and_eq_true, decide_eq_true_eq] at hfails
          obtain ⟨hactive, hany⟩ := hfails
          cases hgiven : body.expression with
          | none => simp [hgiven] at hany
          | some expression =>
            have hinvalid : cron.validate expression = false := by simpa [hgiven] using hany
            rcases h hup hfound row expression hrow hactive hgiven with hvalid | ⟨hsame, hroutes⟩
            · cases hinvalid.symm.trans hvalid
            · rw [patch_of_invalid hrow hfound hactive hgiven hinvalid,
                (ScheduleTable.modify_eq_self_iff hrow _).mpr hsame,
                (remove_eq_self_iff _).mpr hroutes]

/-- A request that fails changes nothing, exactly where it fails before its first change. -/
theorem atomic_iff (d : Daemon Zone) (event : ScheduleEvent) :
    d.Atomic cron event ↔ FailsEarly cron d event := by
  have hdown (next : Daemon Zone) (h : next = d) : (if d.up then next else d) = d := by
    rw [h, ite_self]
  cases event with
  | post body => exact atomic_post_iff body
  | patch id body => exact atomic_patch_iff body
  | restart => exact iff_of_true nofun trivial
  | tick now spawns => exact iff_of_true nofun trivial
  | delete id =>
    refine iff_of_true (fun hfails ↦ hdown _ ?_) trivial
    have hrow : d.table.get id = none := Option.isNone_iff_eq_none.mp hfails
    simp only [Daemon.delete, hrow]
  | pause id =>
    refine iff_of_true (fun hfails ↦ hdown _ ?_) trivial
    cases hrow : d.table.get id with
    | none => simp only [Daemon.pauseSchedule, hrow]
    | some row =>
      have hstatus : row.status ≠ .active := by simpa [Daemon.fails, hrow] using hfails
      simp only [Daemon.pauseSchedule, hrow, if_pos hstatus]
  | resume id =>
    refine iff_of_true (fun hfails ↦ hdown _ ?_) trivial
    cases hrow : d.table.get id with
    | none => simp only [Daemon.resumeSchedule, hrow]
    | some row =>
      by_cases hstatus : row.status = .paused
      · have hthrows : resume cron d.table d.routes id = none := by
          simpa [Daemon.fails, hrow, hstatus] using hfails
        simp only [Daemon.resumeSchedule, hrow, hthrows, ite_self]
      · simp only [Daemon.resumeSchedule, hrow, ne_eq, hstatus, not_false_eq_true, if_true]

end

/-! ## Rows that are valid -/

section

variable {cron} {d : Daemon Zone} {id : ScheduleId}

theorem wanted_modify (table : ScheduleTable) (change : Schedule → Schedule) (other : ScheduleId) :
    (table.modify id change).wanted other =
      if other = id then (table.get id).bind fun row ↦ (change row).wanted
      else table.wanted other := by
  unfold ScheduleTable.wanted
  rw [ScheduleTable.get_modify]
  split
  · cases table.get id <;> rfl
  · rfl

/-- A next fire time is no part of what is to have a job. -/
theorem wanted_of_get {table stored : ScheduleTable} {expression : String}
    {timezone : Option String}
    (h : ∀ other, stored.get other =
      if other = id then (table.get id).map fun row ↦ saved cron row expression timezone
      else table.get other) : stored.wanted = table.wanted := by
  funext other
  unfold ScheduleTable.wanted
  rw [h]
  split
  · rename_i hsame
    rw [hsame]
    cases table.get id with
    | none => rfl
    | some row => exact wanted_saved row expression
  · rfl

theorem wanted_schedule {table : ScheduleTable} {jobs : Jobs Zone} {expression : String}
    {timezone : Option String} {armed : ScheduleTable × Jobs Zone}
    (h : schedule cron table jobs id expression timezone = some armed) :
    armed.1.wanted = table.wanted :=
  wanted_of_get (schedule_eq_some h).2.1

theorem wanted_post {body : PostBody} (haccepted : body.accepted = true) (other : ScheduleId) :
    (d.post cron body).table.wanted other =
      if other = d.table.nextId then given body.cronExpression else d.table.wanted other := by
  have hinserted : (d.table.insert (Daemon.newRow body)).wanted other =
      if other = d.table.nextId then given body.cronExpression else d.table.wanted other := by
    unfold ScheduleTable.wanted
    rw [ScheduleTable.get_insert]
    split <;> rfl
  rw [← hinserted]
  simp only [Daemon.post, haccepted, Bool.not_true, Bool.false_eq_true, if_false]
  split
  · rfl
  · split
    · rfl
    · rename_i harmed
      rw [wanted_of_get (get_saveNextFireTime cron _ _ _ _), wanted_schedule harmed]

theorem wanted_patch {row : Schedule} {body : PatchBody} (hrow : d.table.get id = some row)
    (hfound : body.templateFound = true) (other : ScheduleId) :
    (d.patch cron id body).table.wanted other =
      if other = id then (Daemon.patched row body).wanted else d.table.wanted other := by
  have hupdated : (d.table.modify id fun row ↦ Daemon.patched row body).wanted other =
      if other = id then (Daemon.patched row body).wanted else d.table.wanted other := by
    rw [wanted_modify, hrow]
    rfl
  rw [← hupdated]
  simp only [Daemon.patch, hrow, hfound, Bool.not_true, Bool.false_eq_true, if_false]
  split
  · rfl
  · split
    · rfl
    · split
      · rfl
      · split
        · rfl
        · rename_i harmed
          rw [wanted_schedule harmed]

theorem wanted_delete {row : Schedule} (hrow : d.table.get id = some row) (other : ScheduleId) :
    (d.delete id).table.wanted other = if other = id then none else d.table.wanted other := by
  simp only [Daemon.delete, hrow, ScheduleTable.wanted, ScheduleTable.get_delete]
  split <;> rfl

theorem wanted_pause {row : Schedule} (hrow : d.table.get id = some row)
    (hactive : row.status = .active) (other : ScheduleId) :
    (d.pauseSchedule id).table.wanted other =
      if other = id then none else d.table.wanted other := by
  simp only [Daemon.pauseSchedule, hrow, hactive, ne_eq, not_true_eq_false, if_false, pause,
    ScheduleTable.wanted, get_modify_twice]
  split <;> rfl

theorem cronExpression_saved (row : Schedule) (expression : String) (timezone : Option String) :
    (saved cron row expression timezone).cronExpression = row.cronExpression := by
  unfold saved
  split <;> rfl

/-- The status of a row that the service sets and the route sets again. -/
theorem wanted_activate (table : ScheduleTable) (other : ScheduleId) :
    ((table.modify id fun row ↦ { row with status := .active }).modify id
      fun row ↦ { row with status := .active }).wanted other =
      if other = id then (table.get id).bind fun row ↦ given row.cronExpression
      else table.wanted other := by
  unfold ScheduleTable.wanted
  rw [get_modify_twice]
  split
  · cases table.get id <;> rfl
  · rfl

/-- A row that was paused is to have a job once it has been started again, unless it could not be
scheduled. -/
theorem wanted_resume {row : Schedule} (hrow : d.table.get id = some row)
    (hpaused : row.status = .paused) (other : ScheduleId) :
    (d.resumeSchedule cron id).table.wanted other =
      if other = id then
        (given row.cronExpression).filter fun expression ↦
          d.routes.has id || cron.validate expression
      else d.table.wanted other := by
  have hunwanted : d.table.wanted id = none := by
    simp [ScheduleTable.wanted, hrow, Schedule.wanted, hpaused]
  have hstored : (d.table.get id).bind (fun row ↦ given row.cronExpression) =
      given row.cronExpression := by
    rw [hrow]
    rfl
  simp only [Daemon.resumeSchedule, hrow, hpaused, ne_eq, not_true_eq_false, if_false, resume,
    Option.bind_some]
  cases hgiven : given row.cronExpression with
  | none =>
    simp only [Option.map_none]
    rw [wanted_modify, hrow]
    split
    · exact hgiven
    · rfl
  | some expression =>
    cases hhas : d.routes.has id with
    | true =>
      simp only [Option.map_some, if_true]
      rw [wanted_activate, hstored, hgiven]
      rfl
    | false =>
      cases hscheduled : schedule cron d.table d.routes id expression row.timezone with
      | none =>
        have hinvalid := schedule_eq_none_iff.mp hscheduled
        simp only [Option.map_some, Bool.false_eq_true, if_false, hscheduled, Option.map_none,
          Option.filter_some, hinvalid, Bool.or_false]
        split
        · rename_i hsame
          rw [hsame, hunwanted]
        · rfl
      | some armed =>
        obtain ⟨hvalid, htable, -, -⟩ := schedule_eq_some hscheduled
        simp only [Option.map_some, Bool.false_eq_true, if_false, hscheduled, Option.filter_some,
          hvalid, Bool.or_true, if_true]
        rw [wanted_activate, htable, if_pos rfl, hrow, wanted_schedule hscheduled, Option.map_some,
          Option.bind_some, cronExpression_saved, hgiven]

/-- A fire leaves what is to have a job. -/
theorem wanted_executeSchedule (now : Instant) (spawns : ScheduleId → Bool)
    (fired : ServiceName × ScheduleId) (other : ScheduleId) :
    (d.executeSchedule cron now spawns fired).table.wanted other = d.table.wanted other := by
  unfold Daemon.executeSchedule
  split
  · split <;> rfl
  · rename_i row hrow
    split
    · rfl
    · dsimp only
      rw [wanted_modify]
      split
      · rename_i hsame
        rw [hsame]
        rfl
      · rfl

theorem wanted_tick (now : Instant) (spawns : ScheduleId → Bool) (other : ScheduleId) :
    (d.tick cron now spawns).table.wanted other = d.table.wanted other := by
  unfold Daemon.tick
  let Same (next : Daemon Zone) : Prop := next.table.wanted other = d.table.wanted other
  have hone (next : Daemon Zone) (fired : ServiceName × ScheduleId) (h : Same next) :
      Same (next.executeSchedule cron now spawns fired) :=
    (wanted_executeSchedule now spawns fired other).trans h
  exact run_preserves hone (show Same d from rfl) _

theorem wanted_restart (other : ScheduleId) :
    (d.restart cron).table.wanted other = d.table.wanted other := by
  rw [restart_eq]
  exact wanted_loadExistingSchedules d.activeRows d.table JsMap.empty other

/-! ## Boots -/

/-- A boot that fails has met a row that is invalid. -/
theorem exists_invalid_of_restart (h : (d.restart cron).up = false) :
    ∃ id expression, d.table.wanted id = some expression ∧ cron.validate expression = false := by
  rw [restart_eq] at h
  have hload := Option.isSome_eq_false_iff.mp h
  obtain ⟨⟨id, row⟩, hentry, expression, hgiven, hinvalid⟩ :=
    exists_of_load_eq_none (Option.isNone_iff_eq_none.mp hload)
  obtain ⟨hrow, hactive⟩ := mem_activeRows_iff.mp hentry
  refine ⟨id, expression, Option.bind_eq_some_iff.mpr ⟨row, hrow, ?_⟩, hinvalid⟩
  exact wanted_eq_some_iff.mpr ⟨hactive, hgiven⟩

theorem boot_of_down (h : (d.restart cron).up = false) (id : ScheduleId) :
    (d.restart cron).boot.get id = none := by
  rw [restart_eq] at h ⊢
  have hload := Option.isNone_iff_eq_none.mp (Option.isSome_eq_false_iff.mp h)
  dsimp only
  rw [hload]
  rfl

/-- A boot that does not fail has armed every active row with an expression. -/
theorem boot_of_up (h : (d.restart cron).up = true) {expression : String}
    (hwanted : d.table.wanted id = some expression) :
    cron.validate expression = true ∧
      (d.restart cron).boot.get id = some ⟨expression, cron.localZone, true⟩ := by
  rw [restart_eq] at h
  obtain ⟨loaded, hload⟩ := Option.isSome_iff_exists.mp h
  obtain ⟨-, -, hviews⟩ := view_restart hload
  obtain ⟨row, hrow, hexpression⟩ := Option.bind_eq_some_iff.mp hwanted
  obtain ⟨hvalid, hview⟩ := (hviews id).1 row expression hrow hexpression
  exact ⟨hvalid, congrArg View.boot hview⟩

/-- A boot arms every active row that can be scheduled exactly where every one can, or none. -/
theorem loads_iff (table : ScheduleTable) :
    table.Loads cron ↔ table.Valid cron ∨ table.NoneLoads cron := by
  cases hup : (Daemon.booted cron table).up with
  | true =>
    refine iff_of_true (fun id expression hwanted _ ↦ ?_) (Or.inl fun id expression hwanted ↦ ?_)
    · exact (boot_of_up (d := { table := table }) hup hwanted).2
    · exact (boot_of_up (d := { table := table }) hup hwanted).1
  | false =>
    have hboot := boot_of_down (d := { table := table }) hup
    obtain ⟨bad, other, hbad, hinvalid⟩ := exists_invalid_of_restart (d := { table := table }) hup
    constructor
    · intro h
      refine Or.inr fun id expression hwanted ↦ ?_
      by_contra hvalid
      cases (hboot id).symm.trans (h id expression hwanted (eq_true_of_ne_false hvalid))
    · rintro (hvalid | hnone) id expression hwanted hloadable
      · cases hinvalid.symm.trans (hvalid bad other hbad)
      · cases (hnone id expression hwanted).symm.trans hloadable

/-! ## Runs -/

variable (cron d) in
/-- The process is up, and every active row can be scheduled. -/
structure Daemon.Accepted : Prop where
  up : d.up = true
  valid : d.table.Valid cron

theorem ScheduleTable.Valid.restart (hvalid : d.table.Valid cron) :
    (d.restart cron).Accepted cron := by
  constructor
  · by_contra hdown
    obtain ⟨id, expression, hwanted, hinvalid⟩ :=
      exists_invalid_of_restart (eq_false_of_ne_true hdown)
    cases hinvalid.symm.trans (hvalid id expression hwanted)
  · intro id expression hwanted
    exact hvalid id expression ((wanted_restart id).symm.trans hwanted)

/-- A table that differs in one row is valid as long as this row is. -/
theorem valid_iff_of_wanted {table : ScheduleTable} (hvalid : d.table.Valid cron)
    {stored : Option String}
    (h : ∀ other, table.wanted other = if other = id then stored else d.table.wanted other) :
    table.Valid cron ↔ ∀ expression, stored = some expression → cron.validate expression = true := by
  constructor
  · intro hall expression hstored
    exact hall id expression ((h id).trans ((if_pos rfl).trans hstored))
  · intro hstored other expression hwanted
    rw [h] at hwanted
    split at hwanted
    · exact hstored expression hwanted
    · exact hvalid other expression hwanted

theorem up_post (body : PostBody) : (d.post cron body).up = d.up := by
  unfold Daemon.post
  split
  · rfl
  · dsimp only
    split
    · rfl
    · split <;> rfl

theorem up_patch (body : PatchBody) : (d.patch cron id body).up = d.up := by
  unfold Daemon.patch
  split
  · rfl
  · split
    · rfl
    · dsimp only
      split
      · rfl
      · split
        · rfl
        · split
          · rfl
          · split <;> rfl

theorem up_resume : (d.resumeSchedule cron id).up = d.up := by
  unfold Daemon.resumeSchedule
  split
  · rfl
  · split
    · rfl
    · split <;> rfl

theorem up_tick (now : Instant) (spawns : ScheduleId → Bool) :
    (d.tick cron now spawns).up = d.up := by
  let Same (next : Daemon Zone) : Prop := next.up = d.up
  have hone (next : Daemon Zone) (fired : ServiceName × ScheduleId) (h : Same next) :
      Same (next.executeSchedule cron now spawns fired) := by
    refine Eq.trans ?_ h
    unfold Daemon.executeSchedule
    split
    · split <;> rfl
    · split <;> rfl
  exact run_preserves hone (show Same d from rfl) _

theorem valid_patch_iff (h : d.Accepted cron) {row : Schedule} {body : PatchBody}
    (hrow : d.table.get id = some row) (hfound : body.templateFound = true) :
    (d.patch cron id body).table.Valid cron ↔ (row.status = .active → ∀ expression,
      body.expression = some expression → cron.validate expression = true) := by
  refine (valid_iff_of_wanted h.valid (wanted_patch hrow hfound)).trans ?_
  unfold Schedule.wanted PatchBody.expression
  change (∀ expression, (if row.status = .active then _ else none) = _ → _) ↔ _
  by_cases hactive : row.status = .active
  · rw [if_pos hactive, imp_iff_right hactive]
    cases hbody : body.cronExpression with
    | none =>
      have hwanted (expression : String) (hgiven : given row.cronExpression = some expression) :
          d.table.wanted id = some expression :=
        Option.bind_eq_some_iff.mpr ⟨row, hrow, wanted_eq_some_iff.mpr ⟨hactive, hgiven⟩⟩
      refine iff_of_true (fun expression hgiven ↦ ?_) (fun _ hnone ↦ by cases hnone)
      refine h.valid id expression (hwanted expression ?_)
      simpa only [Daemon.patched, hbody, Option.getD_none] using hgiven
    | some cronExpression => simp only [Daemon.patched, hbody, Option.getD_some, Option.bind_some]
  · rw [if_neg hactive]
    exact iff_of_true (fun _ hnone ↦ by cases hnone) (fun hstatus ↦ absurd hstatus hactive)

/-- A step keeps the process up, and every active row valid exactly when it meets the condition. -/
theorem step_accepted_iff (h : d.Accepted cron) (event : ScheduleEvent) :
    (d.step cron event).up = true ∧
      ((d.step cron event).table.Valid cron ↔ KeepsValid cron d event) := by
  have hsame (hstep : d.step cron event = d) (hkeeps : KeepsValid cron d event) :
      (d.step cron event).up = true ∧
        ((d.step cron event).table.Valid cron ↔ KeepsValid cron d event) := by
    rw [hstep]
    exact ⟨h.up, iff_of_true h.valid hkeeps⟩
  cases event with
  | restart =>
    have hrestart := ScheduleTable.Valid.restart h.valid
    exact ⟨hrestart.up, iff_of_true hrestart.valid trivial⟩
  | tick now spawns =>
    have hstep : d.step cron (.tick now spawns) = d.tick cron now spawns := if_pos h.up
    rw [hstep]
    refine ⟨(up_tick now spawns).trans h.up, iff_of_true (fun id expression hwanted ↦ ?_) trivial⟩
    exact h.valid id expression ((wanted_tick now spawns id).symm.trans hwanted)
  | post body =>
    have hstep : d.step cron (.post body) = d.post cron body := if_pos h.up
    cases haccepted : body.accepted with
    | false =>
      refine hsame (hstep.trans (post_of_not_accepted haccepted)) ?_
      exact fun hbody ↦ absurd (haccepted.symm.trans hbody) Bool.false_ne_true
    | true =>
      rw [hstep]
      refine ⟨(up_post body).trans h.up, ?_⟩
      refine (valid_iff_of_wanted h.valid (wanted_post haccepted)).trans ?_
      exact (imp_iff_right haccepted).symm
  | patch id body =>
    have hstep : d.step cron (.patch id body) = d.patch cron id body := if_pos h.up
    cases hrow : d.table.get id with
    | none =>
      refine hsame (hstep.trans ?_) (fun _ row _ hstored ↦ by
        cases hrow.symm.trans hstored)
      simp only [Daemon.patch, hrow]
    | some row =>
      cases hfound : body.templateFound with
      | false =>
        refine hsame (hstep.trans ?_) (fun hbody ↦
          absurd (hfound.symm.trans hbody) Bool.false_ne_true)
        simp only [Daemon.patch, hrow, hfound, Bool.not_false, if_true]
      | true =>
        rw [hstep]
        refine ⟨(up_patch body).trans h.up, (valid_patch_iff h hrow hfound).trans ?_⟩
        constructor
        · intro hall _ stored expression hstored hactive hgiven
          cases hrow.symm.trans hstored
          exact hall hactive expression hgiven
        · exact fun hall hactive expression hgiven ↦ hall hfound row expression hrow hactive hgiven
  | delete id =>
    have hstep : d.step cron (.delete id) = d.delete id := if_pos h.up
    cases hrow : d.table.get id with
    | none =>
      refine hsame (hstep.trans ?_) trivial
      simp only [Daemon.delete, hrow]
    | some row =>
      rw [hstep]
      constructor
      · simp only [Daemon.delete, hrow, h.up]
      · exact (valid_iff_of_wanted h.valid (wanted_delete hrow)).trans
          (iff_of_true (fun _ hnone ↦ by cases hnone) trivial)
  | pause id =>
    have hstep : d.step cron (.pause id) = d.pauseSchedule id := if_pos h.up
    cases hrow : d.table.get id with
    | none =>
      refine hsame (hstep.trans ?_) trivial
      simp only [Daemon.pauseSchedule, hrow]
    | some row =>
      by_cases hactive : row.status = .active
      · rw [hstep]
        constructor
        · simp only [Daemon.pauseSchedule, hrow, hactive, ne_eq, not_true_eq_false, if_false, h.up]
        · exact (valid_iff_of_wanted h.valid (wanted_pause hrow hactive)).trans
            (iff_of_true (fun _ hnone ↦ by cases hnone) trivial)
      · refine hsame (hstep.trans ?_) trivial
        simp only [Daemon.pauseSchedule, hrow, ne_eq, hactive, not_false_eq_true, if_true]
  | resume id =>
    have hstep : d.step cron (.resume id) = d.resumeSchedule cron id := if_pos h.up
    cases hrow : d.table.get id with
    | none =>
      refine hsame (hstep.trans ?_) (fun row _ hstored ↦ by
        cases hrow.symm.trans hstored)
      simp only [Daemon.resumeSchedule, hrow]
    | some row =>
      by_cases hpaused : row.status = .paused
      · rw [hstep]
        refine ⟨up_resume.trans h.up, ?_⟩
        refine (valid_iff_of_wanted h.valid (wanted_resume hrow hpaused)).trans ?_
        constructor
        · intro hall stored expression hstored _ hgiven hhas
          cases hrow.symm.trans hstored
          exact hall expression (by simp [hgiven, hhas])
        · intro hall expression hfiltered
          obtain ⟨hgiven, hkept⟩ := Option.filter_eq_some_iff.mp hfiltered
          rcases (Bool.or_eq_true _ _).mp hkept with hhas | hvalid
          · exact hall row expression hrow hpaused hgiven hhas
          · exact hvalid
      · refine hsame (hstep.trans ?_) (fun stored _ hstored hstatus ↦ ?_)
        · simp only [Daemon.resumeSchedule, hrow, ne_eq, hpaused, not_false_eq_true, if_true]
        · cases hrow.symm.trans hstored
          exact absurd hstatus hpaused

theorem failsEarly_of_keepsValid {event : ScheduleEvent} (h : KeepsValid cron d event) :
    FailsEarly cron d event := by
  cases event with
  | post body => exact fun _ ↦ h
  | patch id body =>
    exact fun _ hfound row expression hrow hactive hgiven ↦
      Or.inl (h hfound row expression hrow hactive hgiven)
  | restart => trivial
  | delete id => trivial
  | pause id => trivial
  | resume id => trivial
  | tick now spawns => trivial

end

/-- A cron library that takes one expression, in a process in UTC. -/
def strictCron : Cron String :=
  { utcCron with validate := fun expression ↦ expression = "0 9 * * *" }

def malformedBody : PostBody :=
  { scheduleType := "cron", cronExpression := some "every day", timezone := none }

end Flockctl.Schedules
