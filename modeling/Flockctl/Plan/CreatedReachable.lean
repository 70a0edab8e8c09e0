import Flockctl.Plan.Creation
import Flockctl.Transition.Run

/-!
# New plan entities are reachable and ordered

A call that creates an entity gives it a free name. The readers accept the name unless the title
has two dots in a row or the order is one that they refuse, and then the entity is read, updated
and deleted under it, and nothing else is. The order that follows the last name in the order of
texts is above all orders only as long as that name has the largest number.
-/

namespace Flockctl.Plan

open Collections Transition

/-! ## Slugs that the readers accept -/

/-- Two parts without a common pair of dots. -/
theorem dots_infix_append_dash (front back : List Char) :
    ['.', '.'] <:+: front ++ '-' :: back ↔ ['.', '.'] <:+: front ∨ ['.', '.'] <:+: back := by
  induction front with
  | nil =>
    rw [List.nil_append, List.infix_cons_iff, List.infix_nil]
    simp
  | cons c front ih =>
    rw [List.cons_append, List.infix_cons_iff, List.infix_cons_iff, ih, or_assoc]
    apply or_congr_left
    rw [List.cons_prefix_cons, List.cons_prefix_cons]
    cases front with
    | nil => simp
    | cons d front => simp

theorem mem_of_mem_dashRuns {inRun : Char → Bool} {running : Bool} {text : List Char} {c : Char}
    (h : c ∈ dashRuns inRun running text) : c = '-' ∨ c ∈ text := by
  induction text generalizing running with
  | nil => cases h
  | cons d rest ih =>
    rw [dashRuns] at h
    split_ifs at h
    · exact (ih h).imp id (List.mem_cons_of_mem d)
    · rcases List.mem_cons.mp h with hdash | hrest
      · exact Or.inl hdash
      · exact (ih hrest).imp id (List.mem_cons_of_mem d)
    · rcases List.mem_cons.mp h with hhead | hrest
      · exact Or.inr (hhead ▸ List.mem_cons_self)
      · exact (ih hrest).imp id (List.mem_cons_of_mem d)

/-- What a title leaves in a slug. -/
theorem mem_slugify {name : String} {c : Char} (h : c ∈ (slugify name).toList) :
    isSlugLetter c = true ∨ c = '.' ∨ c = '-' := by
  rw [slugify] at h
  split at h
  · have hunnamed : "unnamed".toList.all isSlugLetter = true := by decide +kernel
    exact Or.inl (List.all_eq_true.mp hunnamed c h)
  · rw [String.toList_ofList] at h
    have hsingle := (List.dropWhile_suffix isEdge).subset
      ((List.rdropWhile_prefix isEdge _).subset h)
    rcases mem_of_mem_dashRuns hsingle with hdash | hkept
    · exact Or.inr (Or.inr hdash)
    · have hkeeps := (List.mem_filter.mp hkept).2
      simpa [or_assoc] using hkeeps

/-- `String(order).padStart(2, "0")`. -/
def PlanOrder.padded (order : PlanOrder) : String :=
  String.ofList (List.leftpad 2 '0' order.text.toList)

theorem padded_eq_cons (order : PlanOrder) : ∃ c rest, order.padded.toList = c :: rest := by
  apply List.exists_cons_of_ne_nil
  apply List.ne_nil_of_length_pos
  simp [PlanOrder.padded]
  omega

theorem climbs_eq_false_iff (slug : List Char) :
    climbs slug = false ↔ ¬ ['.', '.'] <:+: slug ∧ '\x00' ∉ slug := by
  rw [climbs, Bool.or_eq_false_iff, decide_eq_false_iff_not, List.contains_eq_mem,
    decide_eq_false_iff_not]

/-- The title has two dots in a row that `slugify` leaves. -/
def HasDots (title : String) : Prop := ['.', '.'] <:+: (slugify title).toList

instance (title : String) : Decidable (HasDots title) :=
  inferInstanceAs (Decidable (['.', '.'] <:+: (slugify title).toList))

/-- A slug is accepted when its order, as a slug of its own, is, and the title has no two dots. -/
theorem isSafePlanSlug_toSlug (order : PlanOrder) (title : String) :
    isSafePlanSlug (toSlug order title) = true ↔
      isSafePlanSlug order.padded = true ∧ ¬ HasDots title := by
  have hslug : (toSlug order title).toList =
      order.padded.toList ++ '-' :: (slugify title).toList := by
    simp [toSlug, PlanOrder.padded]
  have hletters : (slugify title).toList.all
      (fun d ↦ isSlugLetter d || d == '.' || d == '_' || d == '-') = true := by
    rw [List.all_eq_true]
    intro c hc
    rcases mem_slugify hc with hletter | rfl | rfl
    · rw [hletter]
      rfl
    · decide
    · decide
  have hnul : '\x00' ∉ (slugify title).toList := fun hmem ↦ absurd (mem_slugify hmem) (by decide)
  obtain ⟨c, rest, hcons⟩ := padded_eq_cons order
  have hmatches : matchesSlug (order.padded.toList ++ '-' :: (slugify title).toList) =
      matchesSlug order.padded.toList := by
    rw [hcons, List.cons_append, matchesSlug, matchesSlug, List.all_append, List.all_cons, hletters]
    simp
  have hclimbs : climbs (order.padded.toList ++ '-' :: (slugify title).toList) = false ↔
      climbs order.padded.toList = false ∧ ¬ HasDots title := by
    have hall : '\x00' ∈ order.padded.toList ++ '-' :: (slugify title).toList ↔
        '\x00' ∈ order.padded.toList := by
      simp [hnul]
    rw [climbs_eq_false_iff, climbs_eq_false_iff, dots_infix_append_dash, hall, HasDots, not_or,
      and_right_comm]
  rw [isSafePlanSlug, isSafePlanSlug, hslug, hmatches, Bool.and_eq_true, Bool.and_eq_true,
    Bool.not_eq_true', Bool.not_eq_true', hclimbs, and_assoc]

/-- A text of digits, led by zeros or not, is accepted. -/
theorem isSafePlanSlug_padded_of_digits {order : PlanOrder} {n : ℕ}
    (h : order.text.toList = Nat.toDigits 10 n) : isSafePlanSlug order.padded = true := by
  have hletters : ∀ c ∈ order.padded.toList, isSlugLetter c = true := by
    intro c hc
    rw [PlanOrder.padded, String.toList_ofList, h, List.leftpad, List.mem_append] at hc
    rcases hc with hzero | hdigit
    · rw [(List.mem_replicate.mp hzero).2]
      decide
    · exact isSlugLetter_of_mem_toDigits hdigit
  obtain ⟨c, rest, hcons⟩ := padded_eq_cons order
  have hdots : ¬ ['.', '.'] <:+: order.padded.toList := fun hpart ↦
    absurd (hletters '.' (hpart.subset List.mem_cons_self)) (by decide)
  have hnul : '\x00' ∉ order.padded.toList := fun hmem ↦ absurd (hletters _ hmem) (by decide)
  have hmatches : matchesSlug order.padded.toList = true := by
    rw [hcons, matchesSlug, hletters c (by rw [hcons]; exact List.mem_cons_self), Bool.true_and,
      List.all_eq_true]
    intro d hd
    rw [hletters d (by rw [hcons]; exact List.mem_cons_of_mem c hd)]
    rfl
  rw [isSafePlanSlug, hmatches, (climbs_eq_false_iff _).mpr ⟨hdots, hnul⟩]
  rfl

/-- The order that a number makes is written with digits only below `10 ^ 21`. -/
theorem isSafePlanSlug_padded_ofNumber {number : ℕ} (hdouble : doubleOf number = number) :
    isSafePlanSlug (PlanOrder.ofNumber number).padded = true ↔ number < 10 ^ 21 := by
  constructor
  · intro hsafe
    by_contra hlarge
    have hwritten : (PlanOrder.ofNumber number).text = numberText number := by
      rw [PlanOrder.ofNumber, if_neg (by omega)]
      rfl
    have hplus : '+' ∈ (PlanOrder.ofNumber number).padded.toList := by
      rw [PlanOrder.padded, String.toList_ofList, hwritten, List.leftpad, List.mem_append]
      exact Or.inr (plus_mem_numberText (mt (decimalOf_lt_iff hdouble).mp hlarge))
    have hmatches := (Bool.and_eq_true_iff.mp hsafe).1
    cases htext : (PlanOrder.ofNumber number).padded.toList with
    | nil =>
      rw [htext] at hplus
      cases hplus
    | cons c rest =>
      rw [htext, matchesSlug, Bool.and_eq_true, List.all_eq_true] at hmatches
      rw [htext] at hplus
      rcases List.mem_cons.mp hplus with hhead | hrest
      · rw [← hhead] at hmatches
        exact absurd hmatches.1 (by decide)
      · exact absurd (hmatches.2 '+' hrest) (by decide)
  · intro hlt
    rw [PlanOrder.ofNumber]
    split
    · have htext : (PlanOrder.integer number).text.toList = Nat.toDigits 10 number :=
        Nat.toList_repr
      exact isSafePlanSlug_padded_of_digits htext
    · have htext : (PlanOrder.fraction (numberText number)).text.toList =
          Nat.toDigits 10 (decimalOf number) :=
        toList_numberText_of_lt ((decimalOf_lt_iff hdouble).mpr hlt)
      exact isSafePlanSlug_padded_of_digits htext

/-! ## Names and orders of new entities -/

/-- The caller leaves the order to `nextOrder`. -/
def Omitted (order : Option PlanOrder) : Prop := order = none ∨ order = some .null

instance : DecidablePred Omitted := fun order ↦
  inferInstanceAs (Decidable (order = none ∨ order = some .null))

/-- The name made from an order and a title, when `nextOrder` looks at the entries and the taken
names are not free, is accepted and has room, and an order made for it is above the siblings. -/
structure WellNamed (room : ℕ) (entries taken siblings : List String) (order : Option PlanOrder)
    (title : String) : Prop where
  safe : isSafePlanSlug (firstFree taken (toSlug (orderOr order entries) title)) = true
  fits : (firstFree taken (toSlug (orderOr order entries) title)).utf8ByteSize ≤ room
  above : Omitted order → ∀ sibling ∈ siblings, orderNumber sibling < nextOrderNumber entries

/-- What that asks: a title without two dots in a row, an order that is written as a slug is, room
for the name, and for an order that is left out that the last of the entries has the largest number
of all siblings, which is not so large that the next number is written with an exponent or rounded
back to it. -/
structure NameAllowed (room : ℕ) (entries taken siblings : List String) (order : Option PlanOrder)
    (title : String) : Prop where
  plainTitle : ¬ HasDots title
  plainOrder : ∀ given ∈ order, given ≠ .null → isSafePlanSlug given.padded = true
  writtenOut : Omitted order → ∀ last ∈ entries.getLast?,
    doubleOf (orderNumber last + 1) < 10 ^ 21
  fits : (firstFree taken (toSlug (orderOr order entries) title)).utf8ByteSize ≤ room
  highest : Omitted order → ∀ sibling ∈ siblings, ∃ last ∈ entries.getLast?,
    orderNumber sibling ≤ orderNumber last ∧
      (orderNumber sibling = orderNumber last → doubleOf (orderNumber last + 1) ≠ orderNumber last)

theorem orderOr_of_omitted {order : Option PlanOrder} (h : Omitted order) (entries : List String) :
    orderOr order entries = .ofNumber (nextOrderNumber entries) := by
  rcases h with rfl | rfl <;> rfl

theorem orderOr_of_given {given : PlanOrder} (h : given ≠ .null) (entries : List String) :
    orderOr (some given) entries = given := by
  cases given with
  | null => exact absurd rfl h
  | integer value => rfl
  | fraction text => rfl

theorem ofNumber_ne_null (number : ℕ) : PlanOrder.ofNumber number ≠ .null := by
  rw [PlanOrder.ofNumber]
  split <;> simp

theorem orderOr_ne_null (order : Option PlanOrder) (entries : List String) :
    orderOr order entries ≠ .null := by
  by_cases h : Omitted order
  · rw [orderOr_of_omitted h]
    exact ofNumber_ne_null _
  · match order with
    | none => exact absurd (Or.inl rfl) h
    | some given =>
      have hgiven : given ≠ .null := fun heq ↦ h (Or.inr (congrArg some heq))
      rw [orderOr_of_given hgiven]
      exact hgiven

theorem doubleOf_nextOrderNumber (entries : List String) :
    doubleOf (nextOrderNumber entries) = nextOrderNumber entries := by
  rw [nextOrderNumber]
  split
  · rfl
  · exact doubleOf_doubleOf _

/-- The order of a new entity is written as a slug is. -/
theorem isSafePlanSlug_padded_orderOr (order : Option PlanOrder) (entries : List String) :
    isSafePlanSlug (orderOr order entries).padded = true ↔
      (∀ given ∈ order, given ≠ .null → isSafePlanSlug given.padded = true) ∧
        (Omitted order → ∀ last ∈ entries.getLast?,
          doubleOf (orderNumber last + 1) < 10 ^ 21) := by
  by_cases h : Omitted order
  · have hgiven : ∀ given ∈ order, given ≠ .null → isSafePlanSlug given.padded = true := by
      rintro given hmem hne
      rcases h with rfl | rfl
      · cases hmem
      · exact absurd (Option.mem_some.mp hmem).symm hne
    rw [orderOr_of_omitted h, isSafePlanSlug_padded_ofNumber (doubleOf_nextOrderNumber entries),
      nextOrderNumber]
    apply Iff.trans _ (and_iff_right hgiven).symm
    split
    next hnone => simp [hnone]
    next last hlast => simp [hlast, h]
  · match order with
    | none => exact absurd (Or.inl rfl) h
    | some given =>
      have hgiven : given ≠ .null := fun heq ↦ h (Or.inr (congrArg some heq))
      rw [orderOr_of_given hgiven]
      simp [h, hgiven]

/-- An order that follows the last entry is above an entity exactly when the last entry is. -/
theorem lt_nextOrderNumber_iff (entries : List String) (sibling : String) :
    orderNumber sibling < nextOrderNumber entries ↔ ∃ last ∈ entries.getLast?,
      orderNumber sibling ≤ orderNumber last ∧
        (orderNumber sibling = orderNumber last →
          doubleOf (orderNumber last + 1) ≠ orderNumber last) := by
  rw [nextOrderNumber]
  split
  next hnone => simp [hnone]
  next last hlast =>
    simp only [hlast, Option.mem_some, exists_eq_left']
    exact lt_doubleOf_succ_iff (doubleOf_doubleOf _) (doubleOf_doubleOf _)

theorem wellNamed_iff {room : ℕ} {entries taken siblings : List String} {order : Option PlanOrder}
    {title : String} :
    WellNamed room entries taken siblings order title ↔
      NameAllowed room entries taken siblings order title := by
  have hsafe := isSafePlanSlug_firstFree taken _ (toSlug_ne_empty (orderOr order entries) title)
  have hslug := isSafePlanSlug_toSlug (orderOr order entries) title
  rw [isSafePlanSlug_padded_orderOr] at hslug
  constructor
  · intro h
    have hparts := hslug.mp (hsafe ▸ h.safe)
    exact {
      plainTitle := hparts.2
      plainOrder := hparts.1.1
      writtenOut := hparts.1.2
      fits := h.fits
      highest := fun homitted sibling hsibling ↦
        (lt_nextOrderNumber_iff entries sibling).mp (h.above homitted sibling hsibling) }
  · intro h
    exact {
      safe := hsafe.trans (hslug.mpr ⟨⟨h.plainOrder, h.writtenOut⟩, h.plainTitle⟩)
      fits := h.fits
      above := fun homitted sibling hsibling ↦
        (lt_nextOrderNumber_iff entries sibling).mpr (h.highest homitted sibling hsibling) }

/-! ## Making, reading and removing entries of a directory -/

namespace Folder

variable {Sub : Type}

theorem not_mem_names {dir : Folder Sub} {name : String} (h : name ∉ dir.names) :
    dir.files.get name = none ∧ dir.dirs.get name = none ∧ name ∉ dir.others := by
  simp only [names, List.mem_append, JsMap.mem_keys_iff, not_or, not_exists] at h
  refine ⟨?_, ?_, h.2⟩
  · exact Option.eq_none_iff_forall_ne_some.mpr h.1.1
  · exact Option.eq_none_iff_forall_ne_some.mpr h.1.2

theorem filter_others {dir : Folder Sub} {name : String} (h : name ∉ dir.names) :
    dir.others.filter (· ≠ name) = dir.others := by
  apply List.filter_eq_self.mpr
  rintro other hother
  have hne : other ≠ name := by
    rintro rfl
    exact (not_mem_names h).2.2 hother
  exact decide_eq_true hne

theorem sub_setDir (dir : Folder (Folder Sub)) (name : String) (entity : Folder Sub) :
    (dir.setDir name entity).sub name = entity := by
  rw [sub, setDir, JsMap.get_set_self, Option.getD_some]

theorem setDir_setDir (dir : Folder Sub) (name : String) (first second : Sub) :
    (dir.setDir name first).setDir name second = dir.setDir name second := by
  rw [setDir, setDir, JsMap.set_set, setDir]

/-- A directory with something in it is there. -/
theorem setDir_sub {dir : Folder (Folder Sub)} {name own : String}
    (h : (dir.sub name).has own = true) : dir.setDir name (dir.sub name) = dir := by
  rw [sub] at h ⊢
  cases hget : dir.dirs.get name with
  | none =>
    rw [hget] at h
    cases h
  | some entity =>
    rw [Option.getD_some, setDir, JsMap.set_eq_self hget]

theorem has_setDir (dir : Folder Sub) (name : String) (entity : Sub) :
    (dir.setDir name entity).has name = true := by
  have hmem : name ∈ (dir.setDir name entity).dirs.keys :=
    (JsMap.mem_keys_iff _ _).mpr ⟨entity, JsMap.get_set_self _ _ _⟩
  simp [has, names, hmem]

theorem has_setFile (dir : Folder Sub) (name text : String) :
    (dir.setFile name text).has name = true := by
  have hmem : name ∈ (dir.setFile name text).files.keys :=
    (JsMap.mem_keys_iff _ _).mpr ⟨text, JsMap.get_set_self _ _ _⟩
  simp [has, names, hmem]

theorem remove_setDir {dir : Folder Sub} {name : String} (h : name ∉ dir.names) (entity : Sub) :
    (dir.setDir name entity).remove name = dir := by
  obtain ⟨hfile, hdir, -⟩ := not_mem_names h
  rw [remove, setDir, JsMap.delete_set hdir, JsMap.delete_eq_self hfile, filter_others h]

theorem remove_setFile {dir : Folder Sub} {name : String} (h : name ∉ dir.names) (text : String) :
    (dir.setFile name text).remove name = dir := by
  obtain ⟨hfile, hdir, -⟩ := not_mem_names h
  rw [remove, setFile, JsMap.delete_set hfile, JsMap.delete_eq_self hdir, filter_others h,
    filter_others h]

theorem readText_setFile (dir : Folder Sub) (name text : String) :
    (dir.setFile name text).readText name = .ok (some text) := by
  rw [readText, setFile, JsMap.get_set_self]

theorem writeFileAtomic_of_free {dir : Folder Sub} {name : String} (h : dir.dirs.get name = none)
    (text : String) :
    dir.writeFileAtomic name text =
      if name.utf8ByteSize + 17 ≤ NAME_MAX then .ok (dir.setFile name text)
      else .error "ENAMETOOLONG: name too long, open" := by
  have hdir : dir.dirs.has name = false := by
    rw [JsMap.has, h]
    rfl
  rw [writeFileAtomic, hdir]
  split_ifs with hlong hfits hfits <;> first | rfl | omega

/-- A file is written over as a new one is written. -/
theorem writeFileAtomic_setFile {dir : Folder Sub} {name : String} (h : dir.dirs.get name = none)
    (hfits : name.utf8ByteSize + 17 ≤ NAME_MAX) (text other : String) :
    (dir.setFile name text).writeFileAtomic name other = .ok (dir.setFile name other) := by
  have hfree : (dir.setFile name text).dirs.get name = none := h
  rw [writeFileAtomic_of_free hfree, if_pos hfits, setFile, setFile, JsMap.set_set,
    List.filter_filter, setFile]
  simp

theorem createDir_of_free {dir : Folder (Folder Sub)} {slug own : String} (h : slug ∉ dir.names)
    (hown : own.utf8ByteSize + 17 ≤ NAME_MAX) (text : String) :
    dir.createDir slug own text =
      if slug.utf8ByteSize ≤ NAME_MAX then .ok (dir.setDir slug (({} : Folder Sub).setFile own text))
      else .error "ENAMETOOLONG: name too long, mkdir" := by
  have hnew : dir.has slug = false := by simp [has, h]
  have hwrite : ({} : Folder Sub).writeFileAtomic own text =
      .ok (({} : Folder Sub).setFile own text) := by
    rw [writeFileAtomic_of_free rfl, if_pos hown]
  by_cases hfits : slug.utf8ByteSize ≤ NAME_MAX
  · have hmade : dir.ensureDir slug = .ok (dir.setDir slug {}) := by
      rw [ensureDir, hnew]
      simp [hfits]
    rw [createDir, hmade, if_pos hfits]
    calc (do
          let entity ← ((dir.setDir slug {}).sub slug).writeFileAtomic own text
          return (dir.setDir slug {}).setDir slug entity)
        = (do
            let entity ← ({} : Folder Sub).writeFileAtomic own text
            return (dir.setDir slug {}).setDir slug entity : Except String _) := by
          rw [sub_setDir]
      _ = .ok ((dir.setDir slug {}).setDir slug (({} : Folder Sub).setFile own text)) := by
          rw [hwrite]
          rfl
      _ = .ok (dir.setDir slug (({} : Folder Sub).setFile own text)) := by rw [setDir_setDir]
  · have hmade : dir.ensureDir slug = .error "ENAMETOOLONG: name too long, mkdir" := by
      rw [ensureDir, hnew]
      simp [Nat.lt_of_not_le hfits]
    rw [createDir, hmade, if_neg hfits]
    rfl

theorem taskFileName_not_mem_names {dir : Folder Sub} {slug : String} (h : slug ∉ dir.mdSlugs) :
    taskFileName slug ∉ dir.names := by
  intro hmem
  apply h
  rw [mdSlugs, List.mem_map]
  refine ⟨taskFileName slug, List.mem_filter.mpr ⟨hmem, ?_⟩, taskSlugOf_taskFileName slug⟩
  rw [toList_taskFileName, List.isSuffixOf_iff_suffix]
  exact List.suffix_append _ _

end Folder

/-! ## What a creation is for -/

/-- The names of the directories of the entities whose own file is `own`. -/
def Folder.entities {Sub : Type} (dir : Folder (Folder Sub)) (own : String) : List String :=
  dir.dirs.keys.filter fun name ↦ (dir.dirs.get name).any (·.files.has own)

/-- The names of the plan tasks: the Markdown files with a frontmatter block, however long. -/
def Folder.planTasks {Sub : Type} (dir : Folder Sub) : List String :=
  dir.files.keys.filter fun name ↦
    isTaskFileName name && (dir.files.get name).any fun text ↦ (frontmatterBlock text.toList).isSome

/-- The functions that take the slug of an entity of one kind, and what they have in common. -/
structure EntityCalls (Entity Changes : Type) where
  kind : String
  get : PlanFolder → String → Except String (Option Entity)
  update : PlanFolder → String → Changes → Timestamp → Except String (PlanFolder × Entity)
  delete : PlanFolder → String → Except String PlanFolder
  merge : Entity → Changes → Timestamp → Entity
  slug : Entity → String
  title : Entity → YamlValue
  order : Entity → YamlValue

section

variable {Entity Changes : Type} (calls : EntityCalls Entity Changes)

/-- Through the slug of an entity that has been written into a plan, `get` reads an entity with its
title and order, `update` writes this one anew and nothing else, and `delete` gives the plan back
as it was without the entity. -/
structure Reaches (plan : PlanFolder) (write : Entity → PlanFolder) (created : Entity) : Prop where
  reads : ∃ read, calls.get (write created) (calls.slug created) = .ok (some read) ∧
    calls.slug read = calls.slug created ∧ calls.title read = calls.title created ∧
    calls.order read = calls.order created ∧
    ∀ data now, calls.update (write created) (calls.slug created) data now =
      .ok (write (calls.merge read data now), calls.merge read data now)
  deletes : calls.delete (write created) (calls.slug created) = .ok plan

/-- A call returns an entity with a slug that the readers accept and no sibling has, which reaches
the entity, and an order made for it is larger than that of every sibling. -/
def Creates (plan : PlanFolder) (result : Except String (PlanFolder × Entity))
    (write : Entity → PlanFolder) (taken entries siblings : List String)
    (order : Option PlanOrder) : Prop :=
  ∃ created, result = .ok (write created, created) ∧
    assertSafePlanSlug (calls.slug created) calls.kind = .ok () ∧ calls.slug created ∉ taken ∧
    Reaches calls plan write created ∧
    (Omitted order → calls.order created = (PlanOrder.ofNumber (nextOrderNumber entries)).value ∧
      ∀ sibling ∈ siblings, orderNumber sibling < nextOrderNumber entries)

/-- A call that writes where the name has room creates an entity exactly when its name is allowed
and the readers accept what it writes. -/
theorem creates_iff {plan : PlanFolder} {result : Except String (PlanFolder × Entity)}
    {write : Entity → PlanFolder} {room : ℕ} {taken entries siblings : List String}
    {order : Option PlanOrder} {title error : String} (full : Entity) (Accepted : Prop)
    (hslug : calls.slug full = firstFree taken (toSlug (orderOr order entries) title))
    (horder : calls.order full = (orderOr order entries).value)
    (hresult : result = if (calls.slug full).utf8ByteSize ≤ room then .ok (write full, full)
      else .error error)
    (hreaches : isSafePlanSlug (calls.slug full) = true →
      (calls.slug full).utf8ByteSize ≤ room → Accepted → Reaches calls plan write full)
    (haccepted : ∀ read, calls.get (write full) (calls.slug full) = .ok (some read) → Accepted) :
    Creates calls plan result write taken entries siblings order ↔
      NameAllowed room entries taken siblings order title ∧ Accepted := by
  rw [← wellNamed_iff]
  constructor
  · rintro ⟨created, hreturns, hsafe, -, hreached, habove⟩
    rw [hresult] at hreturns
    split at hreturns
    next hfits =>
      have hcreated : full = created := congrArg Prod.snd (Except.ok.inj hreturns)
      subst hcreated
      obtain ⟨read, hread, -⟩ := hreached.reads
      rw [assertSafePlanSlug_eq_ok_iff] at hsafe
      refine ⟨⟨hslug ▸ hsafe, hslug ▸ hfits, fun homitted ↦ (habove homitted).2⟩, ?_⟩
      exact haccepted read hread
    next => cases hreturns
  · rintro ⟨hnamed, hacceptable⟩
    have hsafe : isSafePlanSlug (calls.slug full) = true := by
      rw [hslug]
      exact hnamed.safe
    have hfits : (calls.slug full).utf8ByteSize ≤ room := by
      rw [hslug]
      exact hnamed.fits
    refine ⟨full, hresult.trans (if_pos hfits), (assertSafePlanSlug_eq_ok_iff _ _).mpr hsafe, ?_,
      hreaches hsafe hfits hacceptable, fun homitted ↦ ⟨?_, hnamed.above homitted⟩⟩
    · rw [hslug]
      exact firstFree_not_mem taken _
    · rw [horder, orderOr_of_omitted homitted]

end

/-! ## Milestones -/

section

variable {package : YamlPackage} {plan : PlanFolder} {now : Timestamp}

theorem value_ne_null {order : PlanOrder} (h : order ≠ .null) : order.value ≠ .null := by
  cases order with
  | null => exact absurd rfl h
  | integer value => simp [PlanOrder.value]
  | fraction text => simp [PlanOrder.value]

def milestoneCalls (package : YamlPackage) : EntityCalls Milestone MilestoneChanges where
  kind := "milestone slug"
  get plan slug := plan.getMilestone package slug
  update plan slug data now := plan.updateMilestone package slug data now
  delete plan slug := plan.deleteMilestone slug
  merge := Milestone.merge
  slug := Milestone.slug
  title := Milestone.title
  order := Milestone.order

/-- The plan with one more milestone. -/
def PlanFolder.withMilestone (package : YamlPackage) (plan : PlanFolder) (m : Milestone) :
    PlanFolder :=
  plan.setDir m.slug (({} : Folder SliceFolder).setFile "milestone.md" (package.milestoneText m))

theorem getMilestone_withMilestone (package : YamlPackage) (plan : PlanFolder) {m : Milestone}
    (hsafe : isSafePlanSlug m.slug = true) :
    (plan.withMilestone package m).getMilestone package m.slug =
      (package.readMilestone m.slug (package.milestoneText m)).map some := by
  rw [PlanFolder.getMilestone, (assertSafePlanSlug_eq_ok_iff _ _).mpr hsafe,
    PlanFolder.withMilestone, Folder.sub_setDir, Folder.readText_setFile]
  rfl

/-- A new milestone is read back unless its mission id is refused. -/
theorem readMilestone_full (package : YamlPackage) (data : MilestoneChanges) (slug : String)
    (order : PlanOrder) (now : Timestamp) :
    package.readMilestone slug (package.milestoneText (data.full slug order now)) =
      (parseMissionId (data.missionId.map .string)).map fun id ↦
        { (data.full slug order now).asRead with missionId := id } := by
  have hnow : (data.full slug order now).updatedAt = some (.string now.text) := rfl
  have hblock := (data.full slug order now).isPlanBlock_toFrontmatter hnow
  rw [YamlPackage.readMilestone, YamlPackage.milestoneText, package.parseMd_mdContent hblock,
    package.mdBody_mdContent hblock]
  exact (data.full slug order now).fromFile_toFrontmatter

theorem updateMilestone_withMilestone {m read : Milestone} (hsafe : isSafePlanSlug m.slug = true)
    (hread : (plan.withMilestone package m).getMilestone package m.slug = .ok (some read))
    (hslug : read.slug = m.slug) (data : MilestoneChanges) :
    (plan.withMilestone package m).updateMilestone package m.slug data now =
      .ok (plan.withMilestone package (read.merge data now), read.merge data now) := by
  have hname : "milestone.md".utf8ByteSize + 17 ≤ NAME_MAX := by decide
  have hmerged : (read.merge data now).slug = m.slug := hslug
  have hfree : ({} : Folder SliceFolder).dirs.get "milestone.md" = none := rfl
  have hwrite := Folder.writeFileAtomic_setFile hfree hname (package.milestoneText m)
    (package.milestoneText (read.merge data now))
  rw [PlanFolder.updateMilestone, (assertSafePlanSlug_eq_ok_iff _ _).mpr hsafe, hread]
  calc (do
        let dir ← ((plan.withMilestone package m).sub m.slug).writeFileAtomic "milestone.md"
          (package.milestoneText (read.merge data now))
        return ((plan.withMilestone package m).setDir m.slug dir, read.merge data now))
      = (do
          let dir ← (({} : Folder SliceFolder).setFile "milestone.md"
            (package.milestoneText m)).writeFileAtomic "milestone.md"
              (package.milestoneText (read.merge data now))
          return ((plan.withMilestone package m).setDir m.slug dir, read.merge data now)) := by
        rw [PlanFolder.withMilestone, Folder.sub_setDir]
    _ = .ok ((plan.withMilestone package m).setDir m.slug (({} : Folder SliceFolder).setFile
          "milestone.md" (package.milestoneText (read.merge data now))), read.merge data now) := by
        rw [hwrite]
        rfl
    _ = .ok (plan.withMilestone package (read.merge data now), read.merge data now) := by
        rw [PlanFolder.withMilestone, Folder.setDir_setDir, PlanFolder.withMilestone, hmerged]

theorem deleteMilestone_withMilestone {m : Milestone} (hsafe : isSafePlanSlug m.slug = true)
    (hfree : m.slug ∉ plan.names) :
    (plan.withMilestone package m).deleteMilestone m.slug = .ok plan := by
  have hhas : (plan.withMilestone package m).has m.slug = true := Folder.has_setDir _ _ _
  rw [PlanFolder.deleteMilestone, (assertSafePlanSlug_eq_ok_iff _ _).mpr hsafe, hhas,
    PlanFolder.withMilestone, Folder.remove_setDir hfree]
  rfl

theorem createMilestone_eq {data : MilestoneChanges} {title : String}
    (htitle : titleOr data.title "milestone" = .ok title) {full : Milestone}
    (hfull : full = data.full (plan.newDir data.order title).1 (plan.newDir data.order title).2 now) :
    plan.createMilestone package data now =
      if full.slug.utf8ByteSize ≤ NAME_MAX then .ok (plan.withMilestone package full, full)
      else .error "ENAMETOOLONG: name too long, mkdir" := by
  have hname : "milestone.md".utf8ByteSize + 17 ≤ NAME_MAX := by decide
  have hslug : (plan.newDir data.order title).1 = full.slug := by rw [hfull]; rfl
  have hfree : full.slug ∉ plan.names := by
    rw [← hslug]
    exact firstFree_not_mem _ _
  have hmade := Folder.createDir_of_free hfree hname (package.milestoneText full)
  calc plan.createMilestone package data now
      = (do
          return (← plan.createDir full.slug "milestone.md" (package.milestoneText full), full)) := by
        rw [PlanFolder.createMilestone, htitle, hfull]
        rfl
    _ = _ := by
        rw [hmade]
        split <;> rfl

theorem milestone_creates_iff {data : MilestoneChanges} {title : String}
    (htitle : titleOr data.title "milestone" = .ok title) :
    Creates (milestoneCalls package) plan (plan.createMilestone package data now)
        (plan.withMilestone package) plan.names (sortedDirs plan.dirs)
        (plan.entities "milestone.md") data.order ↔
      NameAllowed NAME_MAX (sortedDirs plan.dirs) plan.names (plan.entities "milestone.md")
          data.order title ∧
        ∀ id ∈ data.missionId, matchesMissionId id.toList = true := by
  have hnull : orderOr data.order (sortedDirs plan.dirs) ≠ .null := orderOr_ne_null _ _
  set full := data.full (plan.newDir data.order title).1 (plan.newDir data.order title).2 now
    with hfull
  have hread := readMilestone_full package data (plan.newDir data.order title).1
    (plan.newDir data.order title).2 now
  rw [← Milestone.parseMissionId_eq_ok_iff]
  apply creates_iff (milestoneCalls package) full _ rfl rfl (createMilestone_eq htitle hfull)
  · intro hsafe _ haccepted
    rw [haccepted] at hread
    have hget := (getMilestone_withMilestone package plan hsafe).trans
      (congrArg (Except.map some) hread)
    have hfree : full.slug ∉ plan.names := firstFree_not_mem _ _
    refine ⟨⟨_, hget, rfl, ?_, ?_, ?_⟩, deleteMilestone_withMilestone hsafe hfree⟩
    · exact (Milestone.orElse_some_eq_iff _ _ (by simp)).mpr (orElse_ne_null _ (by simp))
    · exact (Milestone.orElse_some_eq_iff _ _ (by simp)).mpr (value_ne_null hnull)
    · exact fun changes time ↦ updateMilestone_withMilestone hsafe hget rfl changes
  · intro read hgot
    have hget : (plan.withMilestone package full).getMilestone package full.slug =
        .ok (some read) := hgot
    have hsafe : isSafePlanSlug full.slug = true := by
      rw [PlanFolder.getMilestone, bind_eq_ok_iff] at hget
      obtain ⟨_, hsafe, -⟩ := hget
      exact (assertSafePlanSlug_eq_ok_iff _ _).mp hsafe
    rw [getMilestone_withMilestone package plan hsafe] at hget
    have hsame := (congrArg (Except.map some) hread).symm.trans hget
    cases hparse : parseMissionId (data.missionId.map .string) with
    | error error =>
      rw [hparse] at hsame
      cases hsame
    | ok id => rw [Milestone.parseMissionId_ok hparse]

/-! ## Slices -/

def sliceCalls (package : YamlPackage) (milestoneSlug : String) :
    EntityCalls Slice SliceChanges where
  kind := "slice slug"
  get plan slug := plan.getSlice package milestoneSlug slug
  update plan slug data now := plan.updateSlice package milestoneSlug slug data now
  delete plan slug := plan.deleteSlice milestoneSlug slug
  merge := Slice.merge
  slug := Slice.slug
  title := Slice.title
  order := Slice.order

/-- The plan with one more slice. -/
def PlanFolder.withSlice (package : YamlPackage) (plan : PlanFolder) (milestoneSlug : String)
    (s : Slice) : PlanFolder :=
  plan.setSlice milestoneSlug s.slug (({} : SliceFolder).setFile "slice.md" (package.sliceText s))

/-- A field of a table is read back. -/
theorem orElse_parseMd_mdContent {keys : List String} (h : IsFieldTable keys)
    (package : YamlPackage) {fields : List (String × Option YamlValue)}
    (htable : fields = tableBlock keys fun key ↦ (fields.lookup key).join) {now : Timestamp}
    (hnow : (fields.lookup "updated_at").join = some (.string now.text)) (body : String)
    {key : String} (hkey : key ∈ keys) {value fallback : YamlValue}
    (hvalue : (fields.lookup key).join = some value) (hnull : value ≠ .null)
    (hfallback : fallback ≠ .null) :
    orElse (parseMd package.parse (package.mdContent fields body) key) fallback = value := by
  rw [htable, h.parseMd_mdContent package hnow, if_pos hkey, hvalue]
  exact (Milestone.orElse_some_eq_iff value fallback hfallback).mpr hnull

/-- The fields that are read back of a new slice. -/
theorem readSlice_full (package : YamlPackage) (data : SliceChanges) (milestoneSlug slug : String)
    {order : PlanOrder} (horder : order ≠ .null) (now : Timestamp) :
    (package.readSlice milestoneSlug slug
        (package.sliceText (data.full milestoneSlug slug order now))).title =
          (data.full milestoneSlug slug order now).title ∧
      (package.readSlice milestoneSlug slug
        (package.sliceText (data.full milestoneSlug slug order now))).order =
          (data.full milestoneSlug slug order now).order := by
  set full := data.full milestoneSlug slug order now with hfull
  have htable : full.toFrontmatter =
      tableBlock Slice.keys fun key ↦ (full.toFrontmatter.lookup key).join := by
    simp [tableBlock, Slice.keys, Slice.toFrontmatter, List.lookup_cons]
  constructor
  · exact orElse_parseMd_mdContent Slice.isFieldTable_keys package htable rfl _ (by simp [Slice.keys])
      (by simp [Slice.toFrontmatter]) (orElse_ne_null _ (by simp)) (by simp)
  · exact orElse_parseMd_mdContent Slice.isFieldTable_keys package htable rfl _ (by simp [Slice.keys])
      (by simp [Slice.toFrontmatter, List.lookup_cons]) (value_ne_null horder) (by simp)

theorem getSlice_withSlice (package : YamlPackage) (plan : PlanFolder) {milestoneSlug : String}
    (hparent : isSafePlanSlug milestoneSlug = true) {s : Slice}
    (hsafe : isSafePlanSlug s.slug = true) :
    (plan.withSlice package milestoneSlug s).getSlice package milestoneSlug s.slug =
      .ok (some (package.readSlice milestoneSlug s.slug (package.sliceText s))) := by
  rw [PlanFolder.getSlice, (assertSafePlanSlug_eq_ok_iff _ _).mpr hparent,
    (assertSafePlanSlug_eq_ok_iff _ _).mpr hsafe, PlanFolder.withSlice, PlanFolder.setSlice,
    Folder.sub_setDir, Folder.sub_setDir, Folder.readText_setFile]
  rfl

theorem updateSlice_withSlice {milestoneSlug : String} {s read : Slice}
    (hread : (plan.withSlice package milestoneSlug s).getSlice package milestoneSlug s.slug =
      .ok (some read)) (hslug : read.slug = s.slug) (data : SliceChanges) :
    (plan.withSlice package milestoneSlug s).updateSlice package milestoneSlug s.slug data now =
      .ok (plan.withSlice package milestoneSlug (read.merge data now), read.merge data now) := by
  have hname : "slice.md".utf8ByteSize + 17 ≤ NAME_MAX := by decide
  have hmerged : (read.merge data now).slug = s.slug := hslug
  have hfree : ({} : SliceFolder).dirs.get "slice.md" = none := rfl
  have hwrite := Folder.writeFileAtomic_setFile hfree hname (package.sliceText s)
    (package.sliceText (read.merge data now))
  have hparent : (plan.withSlice package milestoneSlug s).sub milestoneSlug =
      (plan.sub milestoneSlug).setDir s.slug
        (({} : SliceFolder).setFile "slice.md" (package.sliceText s)) := Folder.sub_setDir _ _ _
  rw [PlanFolder.updateSlice, hread]
  calc (do
        let dir ← (((plan.withSlice package milestoneSlug s).sub milestoneSlug).sub
          s.slug).writeFileAtomic "slice.md" (package.sliceText (read.merge data now))
        return ((plan.withSlice package milestoneSlug s).setDir milestoneSlug
          (((plan.withSlice package milestoneSlug s).sub milestoneSlug).setDir s.slug dir),
          read.merge data now))
      = .ok ((plan.withSlice package milestoneSlug s).setDir milestoneSlug
          (((plan.sub milestoneSlug).setDir s.slug
            (({} : SliceFolder).setFile "slice.md" (package.sliceText s))).setDir s.slug
              (({} : SliceFolder).setFile "slice.md" (package.sliceText (read.merge data now)))),
          read.merge data now) := by
        rw [hparent, Folder.sub_setDir, hwrite]
        rfl
    _ = .ok (plan.withSlice package milestoneSlug (read.merge data now), read.merge data now) := by
        rw [PlanFolder.withSlice, PlanFolder.setSlice, Folder.setDir_setDir, Folder.setDir_setDir,
          PlanFolder.withSlice, PlanFolder.setSlice, hmerged]

theorem deleteSlice_withSlice {milestoneSlug own : String}
    (hparent : isSafePlanSlug milestoneSlug = true)
    (hthere : (plan.sub milestoneSlug).has own = true) {s : Slice}
    (hsafe : isSafePlanSlug s.slug = true) (hfree : s.slug ∉ (plan.sub milestoneSlug).names) :
    (plan.withSlice package milestoneSlug s).deleteSlice milestoneSlug s.slug = .ok plan := by
  have hhas : ((plan.sub milestoneSlug).setDir s.slug
      (({} : SliceFolder).setFile "slice.md" (package.sliceText s))).has s.slug = true :=
    Folder.has_setDir _ _ _
  rw [PlanFolder.deleteSlice, (assertSafePlanSlug_eq_ok_iff _ _).mpr hparent,
    (assertSafePlanSlug_eq_ok_iff _ _).mpr hsafe, PlanFolder.withSlice, PlanFolder.setSlice,
    Folder.sub_setDir]
  dsimp only [bind, Except.bind]
  rw [hhas, Folder.remove_setDir hfree, Folder.setDir_setDir, Folder.setDir_sub hthere]
  rfl

section

variable {milestoneSlug : String} (hparent : isSafePlanSlug milestoneSlug = true)
  (hthere : (plan.sub milestoneSlug).has "milestone.md" = true) {data : SliceChanges}
  {title : String} (htitle : titleOr data.title "slice" = .ok title)

include hparent hthere htitle

theorem createSlice_eq {full : Slice}
    (hfull : full = data.full milestoneSlug ((plan.sub milestoneSlug).newDir data.order title).1
      ((plan.sub milestoneSlug).newDir data.order title).2 now) :
    plan.createSlice package milestoneSlug data now =
      if full.slug.utf8ByteSize ≤ NAME_MAX then
        .ok (plan.withSlice package milestoneSlug full, full)
      else .error "ENAMETOOLONG: name too long, mkdir" := by
  have hname : "slice.md".utf8ByteSize + 17 ≤ NAME_MAX := by decide
  have hslug : ((plan.sub milestoneSlug).newDir data.order title).1 = full.slug := by
    rw [hfull]
    rfl
  have hfree : full.slug ∉ (plan.sub milestoneSlug).names := by
    rw [← hslug]
    exact firstFree_not_mem _ _
  have hmade := Folder.createDir_of_free hfree hname (package.sliceText full)
  calc plan.createSlice package milestoneSlug data now
      = (do
          let after ← (plan.sub milestoneSlug).createDir full.slug "slice.md"
            (package.sliceText full)
          return (plan.setDir milestoneSlug after, full)) := by
        rw [PlanFolder.createSlice, (assertSafePlanSlug_eq_ok_iff _ _).mpr hparent]
        dsimp only [bind, Except.bind]
        rw [hthere, htitle, hfull]
        rfl
    _ = _ := by
        rw [hmade]
        split <;> rfl

theorem slice_creates_iff : Creates (sliceCalls package milestoneSlug) plan
        (plan.createSlice package milestoneSlug data now) (plan.withSlice package milestoneSlug)
        (plan.sub milestoneSlug).names (sortedDirs (plan.sub milestoneSlug).dirs)
        ((plan.sub milestoneSlug).entities "slice.md") data.order ↔
      NameAllowed NAME_MAX (sortedDirs (plan.sub milestoneSlug).dirs)
        (plan.sub milestoneSlug).names ((plan.sub milestoneSlug).entities "slice.md") data.order
        title := by
  have hnull : orderOr data.order (sortedDirs (plan.sub milestoneSlug).dirs) ≠ .null :=
    orderOr_ne_null _ _
  set full := data.full milestoneSlug ((plan.sub milestoneSlug).newDir data.order title).1
    ((plan.sub milestoneSlug).newDir data.order title).2 now with hfull
  refine (creates_iff (sliceCalls package milestoneSlug) full True rfl rfl
    (createSlice_eq hparent hthere htitle hfull) ?_ fun _ _ ↦ trivial).trans (and_iff_left trivial)
  · intro hsafe _ _
    have hget := getSlice_withSlice package plan hparent hsafe
    have hfree : full.slug ∉ (plan.sub milestoneSlug).names := firstFree_not_mem _ _
    obtain ⟨hsameTitle, hsameOrder⟩ := readSlice_full package data milestoneSlug
      ((plan.sub milestoneSlug).newDir data.order title).1 hnull now
    exact ⟨⟨_, hget, rfl, hsameTitle, hsameOrder, fun changes time ↦
      updateSlice_withSlice hget rfl changes⟩, deleteSlice_withSlice hparent hthere hsafe hfree⟩

end

/-! ## Plan tasks -/

def planTaskCalls (package : YamlPackage) (milestoneSlug sliceSlug : String) :
    EntityCalls PlanTask PlanTaskChanges where
  kind := "task slug"
  get plan slug := plan.getPlanTask package milestoneSlug sliceSlug slug
  update plan slug data now := plan.updatePlanTask package milestoneSlug sliceSlug slug data now
  delete plan slug := plan.deletePlanTask milestoneSlug sliceSlug slug
  merge := PlanTask.merge
  slug := PlanTask.slug
  title := PlanTask.title
  order := PlanTask.order

/-- The slice directory of a plan task. -/
def PlanFolder.sliceDir (plan : PlanFolder) (milestoneSlug sliceSlug : String) : SliceFolder :=
  (plan.sub milestoneSlug).sub sliceSlug

/-- The plan with one more plan task. -/
def PlanFolder.withTask (package : YamlPackage) (plan : PlanFolder)
    (milestoneSlug sliceSlug : String) (t : PlanTask) : PlanFolder :=
  plan.setSlice milestoneSlug sliceSlug
    ((plan.sliceDir milestoneSlug sliceSlug).setFile (taskFileName t.slug) (package.taskText t))

/-- What a slug has room for when the file is written under another name first. -/
def TASK_SLUG_MAX : ℕ := NAME_MAX - 20

theorem taskFileName_fits_iff (slug : String) :
    (taskFileName slug).utf8ByteSize + 17 ≤ NAME_MAX ↔ slug.utf8ByteSize ≤ TASK_SLUG_MAX := by
  have hname : (taskFileName slug).utf8ByteSize = slug.utf8ByteSize + 3 :=
    String.utf8ByteSize_append
  rw [hname, TASK_SLUG_MAX, NAME_MAX]
  omega

/-- The fields that are read back of a new plan task. -/
theorem readTask_full (package : YamlPackage) (data : PlanTaskChanges)
    (milestoneSlug sliceSlug slug : String) {order : PlanOrder} (horder : order ≠ .null)
    (now : Timestamp) :
    (package.readTask milestoneSlug sliceSlug slug
        (package.taskText (data.full milestoneSlug sliceSlug slug order now))).title =
          (data.full milestoneSlug sliceSlug slug order now).title ∧
      (package.readTask milestoneSlug sliceSlug slug
        (package.taskText (data.full milestoneSlug sliceSlug slug order now))).order =
          (data.full milestoneSlug sliceSlug slug order now).order := by
  set full := data.full milestoneSlug sliceSlug slug order now with hfull
  have htable : full.toFrontmatter =
      tableBlock PlanTask.keys fun key ↦ (full.toFrontmatter.lookup key).join := by
    simp [tableBlock, PlanTask.keys, PlanTask.toFrontmatter, List.lookup_cons]
  constructor
  · exact orElse_parseMd_mdContent PlanTask.isFieldTable_keys package htable rfl _ (by simp [PlanTask.keys])
      (by simp [PlanTask.toFrontmatter]) (orElse_ne_null _ (by simp)) (by simp)
  · exact orElse_parseMd_mdContent PlanTask.isFieldTable_keys package htable rfl _ (by simp [PlanTask.keys])
      (by simp [PlanTask.toFrontmatter, List.lookup_cons]) (value_ne_null horder) (by simp)

section

variable {milestoneSlug sliceSlug : String}

theorem assertSafeTaskSlugs_eq_ok (hmilestone : isSafePlanSlug milestoneSlug = true)
    (hslice : isSafePlanSlug sliceSlug = true) {slug : String}
    (hsafe : isSafePlanSlug slug = true) :
    assertSafeTaskSlugs milestoneSlug sliceSlug slug = .ok () := by
  rw [assertSafeTaskSlugs, (assertSafePlanSlug_eq_ok_iff _ _).mpr hmilestone,
    (assertSafePlanSlug_eq_ok_iff _ _).mpr hslice, (assertSafePlanSlug_eq_ok_iff _ _).mpr hsafe]
  rfl

theorem sliceDir_setSlice (dir : SliceFolder) :
    (plan.setSlice milestoneSlug sliceSlug dir).sliceDir milestoneSlug sliceSlug = dir := by
  rw [PlanFolder.setSlice, PlanFolder.sliceDir, Folder.sub_setDir, Folder.sub_setDir]

theorem setSlice_setSlice (first second : SliceFolder) :
    (plan.setSlice milestoneSlug sliceSlug first).setSlice milestoneSlug sliceSlug second =
      plan.setSlice milestoneSlug sliceSlug second := by
  rw [PlanFolder.setSlice, PlanFolder.setSlice, Folder.sub_setDir, Folder.setDir_setDir,
    Folder.setDir_setDir, PlanFolder.setSlice]

/-- A slice directory with something in it is there, and so is that of its milestone. -/
theorem setSlice_sliceDir {own : String}
    (h : (plan.sliceDir milestoneSlug sliceSlug).has own = true) :
    plan.setSlice milestoneSlug sliceSlug (plan.sliceDir milestoneSlug sliceSlug) = plan := by
  have hsame : (plan.sub milestoneSlug).setDir sliceSlug
      (plan.sliceDir milestoneSlug sliceSlug) = plan.sub milestoneSlug := Folder.setDir_sub h
  have hparent : (plan.sub milestoneSlug).has sliceSlug = true := by
    rw [← hsame]
    exact Folder.has_setDir _ _ _
  rw [PlanFolder.setSlice, hsame, Folder.setDir_sub hparent]

theorem getPlanTask_withTask (package : YamlPackage) (plan : PlanFolder)
    (hmilestone : isSafePlanSlug milestoneSlug = true)
    (hslice : isSafePlanSlug sliceSlug = true) {t : PlanTask}
    (hsafe : isSafePlanSlug t.slug = true) :
    (plan.withTask package milestoneSlug sliceSlug t).getPlanTask package milestoneSlug sliceSlug
        t.slug =
      .ok (some (package.readTask milestoneSlug sliceSlug t.slug (package.taskText t))) := by
  have hdir : ((plan.withTask package milestoneSlug sliceSlug t).sub milestoneSlug).sub sliceSlug =
      (plan.sliceDir milestoneSlug sliceSlug).setFile (taskFileName t.slug) (package.taskText t) :=
    sliceDir_setSlice _
  rw [PlanFolder.getPlanTask, assertSafeTaskSlugs_eq_ok hmilestone hslice hsafe, hdir,
    Folder.readText_setFile]
  rfl

theorem updatePlanTask_withTask {t read : PlanTask}
    (hfree : taskFileName t.slug ∉ (plan.sliceDir milestoneSlug sliceSlug).names)
    (hfits : t.slug.utf8ByteSize ≤ TASK_SLUG_MAX)
    (hread : (plan.withTask package milestoneSlug sliceSlug t).getPlanTask package milestoneSlug
      sliceSlug t.slug = .ok (some read)) (hslug : read.slug = t.slug) (data : PlanTaskChanges) :
    (plan.withTask package milestoneSlug sliceSlug t).updatePlanTask package milestoneSlug sliceSlug
        t.slug data now =
      .ok (plan.withTask package milestoneSlug sliceSlug (read.merge data now),
        read.merge data now) := by
  have hmerged : (read.merge data now).slug = t.slug := hslug
  have hdir : ((plan.withTask package milestoneSlug sliceSlug t).sub milestoneSlug).sub sliceSlug =
      (plan.sliceDir milestoneSlug sliceSlug).setFile (taskFileName t.slug) (package.taskText t) :=
    sliceDir_setSlice _
  have hwrite := Folder.writeFileAtomic_setFile (Folder.not_mem_names hfree).2.1
    ((taskFileName_fits_iff t.slug).mpr hfits) (package.taskText t)
    (package.taskText (read.merge data now))
  rw [PlanFolder.updatePlanTask, hread]
  dsimp only [bind, Except.bind]
  rw [hdir, hwrite]
  calc Except.ok ((plan.withTask package milestoneSlug sliceSlug t).setSlice milestoneSlug sliceSlug
          ((plan.sliceDir milestoneSlug sliceSlug).setFile (taskFileName t.slug)
            (package.taskText (read.merge data now))), read.merge data now)
      = .ok (plan.withTask package milestoneSlug sliceSlug (read.merge data now),
          read.merge data now) := by
        rw [PlanFolder.withTask, setSlice_setSlice, PlanFolder.withTask, hmerged]

theorem deletePlanTask_withTask (hmilestone : isSafePlanSlug milestoneSlug = true)
    (hslice : isSafePlanSlug sliceSlug = true) {own : String}
    (hthere : (plan.sliceDir milestoneSlug sliceSlug).has own = true) {t : PlanTask}
    (hsafe : isSafePlanSlug t.slug = true)
    (hfree : taskFileName t.slug ∉ (plan.sliceDir milestoneSlug sliceSlug).names) :
    (plan.withTask package milestoneSlug sliceSlug t).deletePlanTask milestoneSlug sliceSlug
      t.slug = .ok plan := by
  have hdir : ((plan.withTask package milestoneSlug sliceSlug t).sub milestoneSlug).sub sliceSlug =
      (plan.sliceDir milestoneSlug sliceSlug).setFile (taskFileName t.slug) (package.taskText t) :=
    sliceDir_setSlice _
  have hfile : ((plan.sliceDir milestoneSlug sliceSlug).setFile (taskFileName t.slug)
      (package.taskText t)).dirs.has (taskFileName t.slug) = false := by
    rw [JsMap.has]
    exact congrArg Option.isSome (Folder.not_mem_names hfree).2.1
  rw [PlanFolder.deletePlanTask, assertSafeTaskSlugs_eq_ok hmilestone hslice hsafe, hdir]
  dsimp only [bind, Except.bind]
  rw [Folder.has_setFile, hfile, Folder.remove_setFile hfree, PlanFolder.withTask,
    setSlice_setSlice, setSlice_sliceDir hthere]
  rfl

section

variable (hmilestone : isSafePlanSlug milestoneSlug = true)
  (hslice : isSafePlanSlug sliceSlug = true)
  (hthere : (plan.sliceDir milestoneSlug sliceSlug).has "slice.md" = true) {data : PlanTaskChanges}
  {title : String} (htitle : titleOr data.title "task" = .ok title)

include hmilestone hslice hthere htitle

theorem createPlanTask_eq {full : PlanTask} (hfull : full = data.full milestoneSlug sliceSlug
      ((plan.sliceDir milestoneSlug sliceSlug).newMd data.order title).1
      ((plan.sliceDir milestoneSlug sliceSlug).newMd data.order title).2 now) :
    plan.createPlanTask package milestoneSlug sliceSlug data now =
      if full.slug.utf8ByteSize ≤ TASK_SLUG_MAX then
        .ok (plan.withTask package milestoneSlug sliceSlug full, full)
      else .error "ENAMETOOLONG: name too long, open" := by
  have hslug : ((plan.sliceDir milestoneSlug sliceSlug).newMd data.order title).1 = full.slug := by
    rw [hfull]
    rfl
  have hfree : taskFileName full.slug ∉ (plan.sliceDir milestoneSlug sliceSlug).names := by
    rw [← hslug]
    exact Folder.taskFileName_not_mem_names (firstFree_not_mem _ _)
  have hwrite := Folder.writeFileAtomic_of_free (Folder.not_mem_names hfree).2.1
    (package.taskText full)
  have hcall : plan.createPlanTask package milestoneSlug sliceSlug data now = (do
      let after ← (plan.sliceDir milestoneSlug sliceSlug).writeFileAtomic (taskFileName full.slug)
        (package.taskText full)
      return (plan.setSlice milestoneSlug sliceSlug after, full)) := by
    have hhas : ((plan.sub milestoneSlug).sub sliceSlug).has "slice.md" = true := hthere
    rw [PlanFolder.createPlanTask, (assertSafePlanSlug_eq_ok_iff _ _).mpr hmilestone,
      (assertSafePlanSlug_eq_ok_iff _ _).mpr hslice]
    dsimp only [bind, Except.bind]
    rw [hhas, htitle, hfull]
    rfl
  rw [hcall, hwrite]
  by_cases hfits : full.slug.utf8ByteSize ≤ TASK_SLUG_MAX
  · rw [if_pos hfits, if_pos ((taskFileName_fits_iff _).mpr hfits)]
    rfl
  · rw [if_neg hfits, if_neg (mt (taskFileName_fits_iff _).mp hfits)]
    rfl

theorem planTask_creates_iff : Creates (planTaskCalls package milestoneSlug sliceSlug) plan
        (plan.createPlanTask package milestoneSlug sliceSlug data now)
        (plan.withTask package milestoneSlug sliceSlug)
        (plan.sliceDir milestoneSlug sliceSlug).mdSlugs
        (plan.sliceDir milestoneSlug sliceSlug).sortedMdFiles
        (plan.sliceDir milestoneSlug sliceSlug).planTasks data.order ↔
      NameAllowed TASK_SLUG_MAX (plan.sliceDir milestoneSlug sliceSlug).sortedMdFiles
        (plan.sliceDir milestoneSlug sliceSlug).mdSlugs
        (plan.sliceDir milestoneSlug sliceSlug).planTasks data.order title := by
  set dir := plan.sliceDir milestoneSlug sliceSlug with hdir
  have hnull : orderOr data.order dir.sortedMdFiles ≠ .null := orderOr_ne_null _ _
  set full := data.full milestoneSlug sliceSlug (dir.newMd data.order title).1
    (dir.newMd data.order title).2 now with hfull
  refine (creates_iff (planTaskCalls package milestoneSlug sliceSlug) full True rfl rfl
    (createPlanTask_eq hmilestone hslice hthere htitle hfull) ?_
    fun _ _ ↦ trivial).trans (and_iff_left trivial)
  intro hsafe hfits _
  have hget := getPlanTask_withTask package plan hmilestone hslice hsafe
  have hfree : taskFileName full.slug ∉ dir.names :=
    Folder.taskFileName_not_mem_names (firstFree_not_mem _ _)
  obtain ⟨hsameTitle, hsameOrder⟩ := readTask_full package data milestoneSlug sliceSlug
    (dir.newMd data.order title).1 hnull now
  exact ⟨⟨_, hget, rfl, hsameTitle, hsameOrder, fun changes time ↦
    updatePlanTask_withTask hfree hfits hget rfl changes⟩,
    deletePlanTask_withTask hmilestone hslice hthere hsafe hfree⟩

end

end

end

/-! ## Runs of calls -/

namespace PlanFolder

/-- A call under a parent that is there, with a title that is a text or left out, creates its
entity. -/
def CallCreates (package : YamlPackage) (plan : PlanFolder) : PlanCall → Prop
  | .createMilestone data now => ∀ title, titleOr data.title "milestone" = .ok title →
      Creates (milestoneCalls package) plan (plan.createMilestone package data now)
        (plan.withMilestone package) plan.names (sortedDirs plan.dirs)
        (plan.entities "milestone.md") data.order
  | .createSlice milestoneSlug data now => ∀ title, titleOr data.title "slice" = .ok title →
      isSafePlanSlug milestoneSlug = true → (plan.sub milestoneSlug).has "milestone.md" = true →
      Creates (sliceCalls package milestoneSlug) plan
        (plan.createSlice package milestoneSlug data now) (plan.withSlice package milestoneSlug)
        (plan.sub milestoneSlug).names (sortedDirs (plan.sub milestoneSlug).dirs)
        ((plan.sub milestoneSlug).entities "slice.md") data.order
  | .createPlanTask milestoneSlug sliceSlug data now => ∀ title,
      titleOr data.title "task" = .ok title → isSafePlanSlug milestoneSlug = true →
      isSafePlanSlug sliceSlug = true →
      (plan.sliceDir milestoneSlug sliceSlug).has "slice.md" = true →
      Creates (planTaskCalls package milestoneSlug sliceSlug) plan
        (plan.createPlanTask package milestoneSlug sliceSlug data now)
        (plan.withTask package milestoneSlug sliceSlug)
        (plan.sliceDir milestoneSlug sliceSlug).mdSlugs
        (plan.sliceDir milestoneSlug sliceSlug).sortedMdFiles
        (plan.sliceDir milestoneSlug sliceSlug).planTasks data.order

/-- What such a call may ask for in a plan: a name that is allowed there and, for a milestone, a
mission id that the readers accept. -/
def CallAllowed (plan : PlanFolder) : PlanCall → Prop
  | .createMilestone data _ => ∀ title, titleOr data.title "milestone" = .ok title →
      NameAllowed NAME_MAX (sortedDirs plan.dirs) plan.names (plan.entities "milestone.md")
          data.order title ∧
        ∀ id ∈ data.missionId, matchesMissionId id.toList = true
  | .createSlice milestoneSlug data _ => ∀ title, titleOr data.title "slice" = .ok title →
      isSafePlanSlug milestoneSlug = true → (plan.sub milestoneSlug).has "milestone.md" = true →
      NameAllowed NAME_MAX (sortedDirs (plan.sub milestoneSlug).dirs)
        (plan.sub milestoneSlug).names ((plan.sub milestoneSlug).entities "slice.md") data.order
        title
  | .createPlanTask milestoneSlug sliceSlug data _ => ∀ title,
      titleOr data.title "task" = .ok title → isSafePlanSlug milestoneSlug = true →
      isSafePlanSlug sliceSlug = true →
      (plan.sliceDir milestoneSlug sliceSlug).has "slice.md" = true →
      NameAllowed TASK_SLUG_MAX (plan.sliceDir milestoneSlug sliceSlug).sortedMdFiles
        (plan.sliceDir milestoneSlug sliceSlug).mdSlugs
        (plan.sliceDir milestoneSlug sliceSlug).planTasks data.order title

theorem callCreates_iff (package : YamlPackage) (plan : PlanFolder) (call : PlanCall) :
    plan.CallCreates package call ↔ plan.CallAllowed call := by
  cases call with
  | createMilestone data now =>
    exact forall_congr' fun title ↦ forall_congr' fun htitle ↦ milestone_creates_iff htitle
  | createSlice milestoneSlug data now =>
    exact forall_congr' fun title ↦ forall_congr' fun htitle ↦ forall_congr' fun hparent ↦
      forall_congr' fun hthere ↦ slice_creates_iff hparent hthere htitle
  | createPlanTask milestoneSlug sliceSlug data now =>
    exact forall_congr' fun title ↦ forall_congr' fun htitle ↦ forall_congr' fun hmilestone ↦
      forall_congr' fun hslice ↦ forall_congr' fun hthere ↦
        planTask_creates_iff hmilestone hslice hthere htitle

/-- Every call of a run creates its entity exactly when each asks for what it may ask for in the
plan it meets. -/
theorem calls_create_iff (package : YamlPackage) (plan : PlanFolder) (calls : List PlanCall) :
    (∀ before call, before ++ [call] <+: calls →
        (run (step package) plan before).CallCreates package call) ↔
      Disciplined (step package) CallAllowed plan calls := by
  rw [← disciplined_iff_forall_event]
  exact disciplined_congr (fun _ _ _ ↦ trivial)
    (fun state call (_ : True) ↦ callCreates_iff package state call) trivial calls

/-- Of two milestones the one with the larger order is not the last in the order of texts. -/
def hundredMilestones : PlanFolder where
  dirs := (JsMap.empty.set "100-a" { files := JsMap.empty.set "milestone.md" "" }).set "99-a"
    { files := JsMap.empty.set "milestone.md" "" }

/-- A milestone of a new plan whose slug no function takes, and one with the order of another. -/
theorem not_createMilestone_creates :
    ¬ CallCreates LineYaml.package {}
        (.createMilestone { title := some (.string "a..b") } someDay) ∧
      ¬ CallCreates LineYaml.package hundredMilestones
        (.createMilestone { title := some (.string "b") } someDay) := by
  rw [callCreates_iff, callCreates_iff]
  constructor
  · intro hallowed
    exact (hallowed "a..b" rfl).1.plainTitle (by decide +kernel)
  · intro hallowed
    obtain ⟨last, hlast, hle, -⟩ :=
      (hallowed "b" rfl).1.highest (Or.inl rfl) "100-a" (by decide +kernel)
    have hsame : last = "99-a" := by
      have hnames : (sortedDirs hundredMilestones.dirs).getLast? = some "99-a" := by decide +kernel
      exact Option.some.inj (hlast.symm.trans hnames)
    rw [hsame] at hle
    exact absurd hle (by decide +kernel)

end PlanFolder

end Flockctl.Plan
