import Flockctl.Paths.Posix

/-!
# Paths below a directory

A program that keeps to a directory compares texts: a path is inside when its text is the
directory's or starts with it and a slash. For normal paths this says that the names of the
directory come first; the root of the file system is the exception, since no normal path starts
with two slashes.
-/

namespace Flockctl.Paths

/-- `path === root || path.startsWith(root + "/")`. -/
def isWithin (root path : AbsolutePath) : Bool :=
  path.render == root.render ||
    (root.render.toList ++ ['/']).isPrefixOf path.render.toList

/-- Names, each after a slash. -/
def slashed (segments : List Segment) : List Char := segments.flatMap fun name ↦ '/' :: name

theorem slashed_cons (name : Segment) (segments : List Segment) :
    slashed (name :: segments) = '/' :: (name ++ slashed segments) := by
  rw [slashed, List.flatMap_cons, List.cons_append]
  rfl

theorem cons_intercalate (first : Segment) (rest : List Segment) :
    '/' :: ['/'].intercalate (first :: rest) = slashed (first :: rest) := by
  induction rest generalizing first with
  | nil => rw [List.intercalate_singleton, slashed_cons, slashed, List.flatMap_nil, List.append_nil]
  | cons second rest ih =>
    rw [List.intercalate_cons_cons, slashed_cons, ← ih, List.append_assoc, List.singleton_append]

theorem render_toList {path : AbsolutePath} (h : path.segments ≠ []) :
    path.render.toList = slashed path.segments := by
  obtain ⟨first, rest, hsegments⟩ := List.exists_cons_of_ne_nil h
  rw [AbsolutePath.render, String.toList_ofList, hsegments, cons_intercalate]

theorem render_toList_root {path : AbsolutePath} (h : path.segments = []) :
    path.render.toList = ['/'] := by
  rw [AbsolutePath.render, String.toList_ofList, h]
  rfl

theorem render_injective : Function.Injective AbsolutePath.render := by
  intro path other h
  rw [← resolve_render path path, h, resolve_render]

theorem head_slashed (segments : List Segment) : slashed segments = [] ∨
    (slashed segments).head? = some '/' := by
  cases segments with
  | nil => exact Or.inl rfl
  | cons name segments =>
    right
    rw [slashed_cons]
    rfl

/-- Two names that are followed by a slash. -/
theorem name_append_part_iff {name other : Segment} (hname : '/' ∉ name) (hother : '/' ∉ other)
    {after before : List Char} (hafter : after.head? = some '/')
    (hbefore : before = [] ∨ before.head? = some '/') :
    name ++ after <+: other ++ before ↔ name = other ∧ after <+: before := by
  induction name generalizing other with
  | nil =>
    cases other with
    | nil => simp
    | cons c other =>
      obtain ⟨rest, rfl⟩ := List.head?_eq_some_iff.mp hafter
      have hc : '/' ≠ c := fun heq ↦ hother (heq ▸ List.mem_cons_self)
      simp [hc]
  | cons c name ih =>
    cases other with
    | nil =>
      have hc : c ≠ '/' := fun heq ↦ hname (heq ▸ List.mem_cons_self)
      rcases hbefore with rfl | hhead
      · simp
      · obtain ⟨rest, rfl⟩ := List.head?_eq_some_iff.mp hhead
        simp [hc]
    | cons d other =>
      rw [List.cons_append, List.cons_append, List.cons_prefix_cons,
        ih (fun h ↦ hname (List.mem_cons_of_mem c h)) (fun h ↦ hother (List.mem_cons_of_mem d h)),
        List.cons_eq_cons, and_assoc]

theorem slashed_part_iff {segments others : List Segment}
    (hsegments : ∀ name ∈ segments, Segment.IsName name)
    (hothers : ∀ name ∈ others, Segment.IsName name) :
    slashed segments ++ ['/'] <+: slashed others ↔ segments <+: others ∧ segments ≠ others := by
  induction segments generalizing others with
  | nil =>
    cases others with
    | nil => simp [slashed]
    | cons name others =>
      rw [slashed_cons]
      simp [slashed]
  | cons name segments ih =>
    cases others with
    | nil =>
      rw [slashed_cons]
      simp [slashed]
    | cons other others =>
      have hafter : (slashed segments ++ ['/']).head? = some '/' := by
        rcases head_slashed segments with hnil | hhead
        · rw [hnil]
          rfl
        · rw [List.head?_append, hhead]
          rfl
      rw [slashed_cons, slashed_cons, List.cons_append, List.cons_prefix_cons, List.append_assoc,
        name_append_part_iff (hsegments name List.mem_cons_self).2.2.2
          (hothers other List.mem_cons_self).2.2.2 hafter (head_slashed others),
        ih (fun n hn ↦ hsegments n (List.mem_cons_of_mem name hn))
          (fun n hn ↦ hothers n (List.mem_cons_of_mem other hn)), List.cons_prefix_cons]
      simp only [ne_eq, List.cons.injEq, not_and, true_and]
      tauto

theorem not_root_part (path : AbsolutePath) : ¬ ['/', '/'] <+: path.render.toList := by
  by_cases hpath : path.segments = []
  · rw [render_toList_root hpath]
    decide
  · rw [render_toList hpath]
    obtain ⟨first, rest, hsegments⟩ := List.exists_cons_of_ne_nil hpath
    have hfirst : Segment.IsName first := path.names first (hsegments ▸ List.mem_cons_self)
    rw [hsegments, slashed_cons, List.cons_prefix_cons]
    rintro ⟨-, hpart⟩
    obtain ⟨c, name, rfl⟩ := List.exists_cons_of_ne_nil hfirst.1
    have hc : '/' = c := (List.cons_prefix_cons.mp hpart).1
    exact hfirst.2.2.2 (hc ▸ List.mem_cons_self)

/-- The comparison of the texts, said about the names. -/
theorem isWithin_iff (root path : AbsolutePath) :
    isWithin root path = true ↔
      path = root ∨ (root.segments ≠ [] ∧ root.segments <+: path.segments) := by
  rw [isWithin, Bool.or_eq_true, beq_iff_eq, render_injective.eq_iff, List.isPrefixOf_iff_prefix]
  by_cases hroot : root.segments = []
  · rw [render_toList_root hroot]
    simp only [hroot, ne_eq, not_true_eq_false, false_and, or_false]
    exact or_iff_left (not_root_part path)
  · rw [render_toList hroot]
    by_cases hpath : path.segments = []
    · rw [render_toList_root hpath, hpath, List.prefix_nil]
      obtain ⟨first, rest, hsegments⟩ := List.exists_cons_of_ne_nil hroot
      have hfirst : Segment.IsName first := root.names first (hsegments ▸ List.mem_cons_self)
      rw [hsegments, slashed_cons]
      simp [hfirst.1]
    · rw [render_toList hpath, slashed_part_iff root.names path.names]
      constructor
      · rintro (rfl | ⟨hpart, -⟩)
        · exact Or.inl rfl
        · exact Or.inr ⟨hroot, hpart⟩
      · rintro (rfl | ⟨-, hpart⟩)
        · exact Or.inl rfl
        · by_cases heq : root.segments = path.segments
          · exact Or.inl (AbsolutePath.ext heq.symm)
          · exact Or.inr ⟨hpart, heq⟩

/-- What is inside starts with the names of the directory. -/
theorem segments_of_isWithin {root path : AbsolutePath} (h : isWithin root path = true) :
    root.segments <+: path.segments := by
  rcases (isWithin_iff root path).mp h with rfl | ⟨-, hpart⟩
  · exact List.prefix_rfl
  · exact hpart

/-- The number of names two paths begin with in common. -/
def commonLength : List Segment → List Segment → ℕ
  | name :: names, other :: others => if name = other then commonLength names others + 1 else 0
  | _, _ => 0

/-- `relative(root, path)`. -/
def relative (root path : AbsolutePath) : List Char :=
  let common := commonLength root.segments path.segments
  ['/'].intercalate
    (List.replicate (root.segments.length - common) ['.', '.'] ++ path.segments.drop common)

theorem commonLength_append (names rest : List Segment) :
    commonLength names (names ++ rest) = names.length := by
  induction names with
  | nil => cases rest <;> rfl
  | cons name names ih => rw [List.cons_append, commonLength, if_pos rfl, ih, List.length_cons]

theorem relative_eq {root path : AbsolutePath} {rest : List Segment}
    (h : path.segments = root.segments ++ rest) : relative root path = ['/'].intercalate rest := by
  simp only [relative, h, commonLength_append, Nat.sub_self, List.replicate_zero, List.nil_append,
    List.drop_left]

end Flockctl.Paths
