import Flockctl.StateMachines.GlobFilter

/-!
# What a glob selects

The standard reading of a glob: `?` and `*` stay within one segment of the path, `**/` stands for
zero or more whole segments, and `**` for any rest. The expression made of a glob has `.*` for both
of the latter, so it knows no segments there, and it does not match a path with a line terminator.
-/

namespace Flockctl.StateMachines

open Collections

/-! ## The standard reading -/

/-- `**/`, `**`, `*`, `?`, or a unit that stands for itself. -/
inductive Token where
  | segments
  | rest
  | star
  | one
  | literal (unit : UInt16)
  deriving DecidableEq, Repr

/-- The tokens of a glob, from left to right. -/
def readGlob : Units → List Token
  | [] => []
  | c :: rest =>
    if c = starUnit then
      match rest with
      | next :: behind =>
        if next = starUnit then
          match behind with
          | third :: others =>
            if third = slash then .segments :: readGlob others
            else .rest :: readGlob (third :: others)
          | [] => [.rest]
        else .star :: readGlob (next :: behind)
      | [] => [.star]
    else if c = questionUnit then .one :: readGlob rest
    else .literal c :: readGlob rest

/-- Zero or more whole segments, each with the slash behind it. -/
def IsSegments (part : Units) : Prop :=
  ∃ segments : List Units, (∀ segment ∈ segments, slash ∉ segment) ∧
    part = segments.flatMap (· ++ [slash])

/-- What a token stands for. -/
def Token.Means : Token → Units → Prop
  | .segments, part => IsSegments part
  | .rest, _ => True
  | .star, part => slash ∉ part
  | .one, part => ∃ unit, unit ≠ slash ∧ part = [unit]
  | .literal unit, part => part = [unit]

/-- The glob selects the path. -/
def Selects (glob path : Units) : Prop := Covers Token.Means (readGlob glob) path

/-- The glob means what it says on these paths: for the expression and for the filter. -/
structure MeansWhatItSays (Path : Units → Prop) (glob : Units) : Prop where
  expression : ∀ path, Path path → (test (globToRegExp glob) path = true ↔ Selects glob path)
  filter : glob ≠ [] → ∀ lines : List DiffLine,
    (∀ line ∈ lines, Path (line.file.flatMap unitsOf)) → ∀ line ∈ lines,
      (line ∈ filterLinesByGlob lines (some glob) ↔ Selects glob (line.file.flatMap unitsOf))

/-- A path in one line. -/
def IsOneLine (path : Units) : Prop := ∀ unit ∈ path, isTerminator unit = false

/-! ## What the expression matches -/

/-- What the piece made of a token matches. -/
def Token.Matches : Token → Units → Prop
  | .segments, part | .rest, part => IsOneLine part
  | .star, part => slash ∉ part
  | .one, part => ∃ unit, unit ≠ slash ∧ part = [unit]
  | .literal unit, part => part = [unit]

def Token.piece : Token → Piece
  | .segments | .rest => .dots
  | .star => .segmentRest
  | .one => .segmentUnit
  | .literal unit => .unit unit

theorem globToRegExp_eq (glob : Units) : globToRegExp glob = (readGlob glob).map Token.piece := by
  fun_induction readGlob glob <;> rw [globToRegExp.eq_def] <;> simp_all [Token.piece]

theorem many_eq_true_iff (check : UInt16 → Bool) (accept : Units → Bool) (text : Units) :
    many check accept text = true ↔
      ∃ part behind, text = part ++ behind ∧ (∀ unit ∈ part, check unit = true) ∧
        accept behind = true := by
  induction text with
  | nil =>
    rw [many]
    constructor
    · intro h
      exact ⟨[], [], rfl, by simp, h⟩
    · rintro ⟨part, behind, happend, -, haccept⟩
      rw [(List.append_eq_nil_iff.mp happend.symm).2] at haccept
      exact haccept
  | cons unit rest ih =>
    rw [many, Bool.or_eq_true, Bool.and_eq_true, ih]
    constructor
    · rintro (haccept | ⟨hcheck, part, behind, rfl, hpart, haccept⟩)
      · exact ⟨[], unit :: rest, rfl, by simp, haccept⟩
      · refine ⟨unit :: part, behind, rfl, ?_, haccept⟩
        rw [List.forall_mem_cons]
        exact ⟨hcheck, hpart⟩
    · rintro ⟨part, behind, happend, hpart, haccept⟩
      cases part with
      | nil =>
        rw [happend]
        exact .inl haccept
      | cons first others =>
        obtain ⟨rfl, rfl⟩ := List.cons.inj happend
        rw [List.forall_mem_cons] at hpart
        exact .inr ⟨hpart.1, others, behind, rfl, hpart.2, haccept⟩

theorem one_eq_true_iff (check : UInt16 → Bool) (accept : Units → Bool) (text : Units) :
    one check accept text = true ↔
      ∃ part behind, text = part ++ behind ∧ (∃ unit, check unit = true ∧ part = [unit]) ∧
        accept behind = true := by
  cases text with
  | nil =>
    constructor
    · intro h
      cases h
    · rintro ⟨part, behind, happend, ⟨unit, -, rfl⟩, -⟩
      cases happend
  | cons unit rest =>
    rw [one, Bool.and_eq_true]
    constructor
    · rintro ⟨hcheck, haccept⟩
      exact ⟨[unit], rest, rfl, ⟨unit, hcheck, rfl⟩, haccept⟩
    · rintro ⟨part, behind, happend, ⟨other, hcheck, rfl⟩, haccept⟩
      obtain ⟨rfl, rfl⟩ := List.cons.inj happend
      exact ⟨hcheck, haccept⟩

/-- The expression matches the texts that can be cut along the tokens. -/
theorem test_eq_true_iff (tokens : List Token) (text : Units) :
    test (tokens.map Token.piece) text = true ↔ Covers Token.Matches tokens text := by
  induction tokens generalizing text with
  | nil =>
    rw [List.map_nil, test, List.isEmpty_iff]
    exact Iff.rfl
  | cons token rest ih =>
    have hslash : ∀ part : Units, (∀ unit ∈ part, (unit != slash) = true) ↔ slash ∉ part := by
      intro part
      simp only [bne_iff_ne, ne_eq]
      constructor
      · intro hall hmem
        exact hall slash hmem rfl
      · rintro hnot unit hunit rfl
        exact hnot hunit
    cases token with
    | segments =>
      rw [List.map_cons, Token.piece, test, many_eq_true_iff]
      simp only [ih, Covers, Token.Matches, IsOneLine, Bool.not_eq_true']
    | rest =>
      rw [List.map_cons, Token.piece, test, many_eq_true_iff]
      simp only [ih, Covers, Token.Matches, IsOneLine, Bool.not_eq_true']
    | star =>
      rw [List.map_cons, Token.piece, test, many_eq_true_iff]
      simp only [ih, Covers, Token.Matches, hslash]
    | one =>
      rw [List.map_cons, Token.piece, test, one_eq_true_iff]
      simp only [ih, Covers, Token.Matches, bne_iff_ne]
    | literal unit =>
      rw [List.map_cons, Token.piece, test, one_eq_true_iff]
      simp only [ih, Covers, Token.Matches, beq_iff_eq, exists_eq_left]

theorem test_globToRegExp_iff (glob path : Units) :
    test (globToRegExp glob) path = true ↔ Covers Token.Matches (readGlob glob) path := by
  rw [globToRegExp_eq, test_eq_true_iff]

/-- The filter asks the expression. -/
theorem meansWhatItSays_iff (Path : Units → Prop) (glob : Units) :
    MeansWhatItSays Path glob ↔ ∀ path, Path path →
      (Covers Token.Matches (readGlob glob) path ↔ Covers Token.Means (readGlob glob) path) := by
  constructor
  · intro h path hpath
    rw [← test_globToRegExp_iff]
    exact h.expression path hpath
  · intro h
    refine ⟨fun path hpath ↦ (test_globToRegExp_iff glob path).trans (h path hpath), ?_⟩
    intro hne lines hlines line hline
    cases glob with
    | nil => exact absurd rfl hne
    | cons c rest =>
      have hfilter : filterLinesByGlob lines (some (c :: rest)) = lines.filter fun line ↦
          test (globToRegExp (c :: rest)) (line.file.flatMap unitsOf) := rfl
      rw [hfilter, List.mem_filter, test_globToRegExp_iff, h _ (hlines line hline)]
      exact and_iff_right hline

/-! ## Segments -/

theorem isSegments_nil : IsSegments [] := ⟨[], by simp, rfl⟩

theorem isSegments_concat_slash (text : Units) : IsSegments (text ++ [slash]) := by
  induction text with
  | nil => exact ⟨[[]], by simp, rfl⟩
  | cons c rest ih =>
    obtain ⟨segments, hsegments, hrest⟩ := ih
    cases segments with
    | nil => exact absurd hrest (List.append_ne_nil_of_right_ne_nil _ (List.cons_ne_nil _ _))
    | cons first others =>
      by_cases hc : c = slash
      · refine ⟨[] :: first :: others, ?_, ?_⟩
        · rw [List.forall_mem_cons]
          exact ⟨List.not_mem_nil, hsegments⟩
        · rw [List.cons_append, hrest, hc]
          rfl
      · refine ⟨(c :: first) :: others, ?_, ?_⟩
        · rw [List.forall_mem_cons] at hsegments ⊢
          refine ⟨?_, hsegments.2⟩
          rw [List.mem_cons, not_or]
          exact ⟨Ne.symm hc, hsegments.1⟩
        · rw [List.cons_append, hrest]
          rfl

/-- Whole segments are nothing, or anything that ends with a slash. -/
theorem isSegments_iff (part : Units) :
    IsSegments part ↔ part = [] ∨ ∃ front, part = front ++ [slash] := by
  constructor
  · rintro ⟨segments, -, rfl⟩
    cases segments using List.reverseRecOn with
    | nil => exact .inl rfl
    | append_singleton front last =>
      right
      refine ⟨front.flatMap (· ++ [slash]) ++ last, ?_⟩
      rw [List.flatMap_append, List.flatMap_singleton, List.append_assoc]
  · rintro (rfl | ⟨front, rfl⟩)
    · exact isSegments_nil
    · exact isSegments_concat_slash front

theorem IsSegments.append_left {part : Units} (h : IsSegments part) (hne : part ≠ [])
    (front : Units) : IsSegments (front ++ part) := by
  rcases (isSegments_iff part).mp h with rfl | ⟨inner, rfl⟩
  · exact absurd rfl hne
  · rw [← List.append_assoc]
    exact isSegments_concat_slash _

/-- Every text is whole segments and the start of one more. -/
theorem exists_segments (text : Units) :
    ∃ part behind, text = part ++ behind ∧ IsSegments part ∧ slash ∉ behind := by
  induction text using List.reverseRecOn with
  | nil => exact ⟨[], [], rfl, isSegments_nil, List.not_mem_nil⟩
  | append_singleton front last ih =>
    by_cases hlast : last = slash
    · refine ⟨front ++ [last], [], (List.append_nil _).symm, ?_, List.not_mem_nil⟩
      rw [hlast]
      exact isSegments_concat_slash front
    · obtain ⟨part, behind, rfl, hpart, hbehind⟩ := ih
      refine ⟨part, behind ++ [last], List.append_assoc _ _ _, hpart, ?_⟩
      rw [List.mem_append, List.mem_singleton, not_or]
      exact ⟨hbehind, Ne.symm hlast⟩

/-! ## Globs whose wildcards make up for the lost slash -/

/-- Behind further `**/` and `?` comes a `*` or a `**`. -/
def absorbs : List Token → Bool
  | .star :: _ | .rest :: _ => true
  | .segments :: tokens | .one :: tokens => absorbs tokens
  | _ => false

/-- Behind every `**/` the rest of the glob makes up for the slash. -/
def isAbsorbed : List Token → Bool
  | [] => true
  | .segments :: tokens => absorbs tokens && isAbsorbed tokens
  | _ :: tokens => isAbsorbed tokens

/-- A text without a slash may be put in front of what such tokens stand for. -/
theorem covers_append_left {tokens : List Token} {text front : Units}
    (habsorbs : absorbs tokens = true) (h : Covers Token.Means tokens text)
    (hfront : slash ∉ front) : Covers Token.Means tokens (front ++ text) := by
  induction tokens generalizing text front with
  | nil => cases habsorbs
  | cons token tokens ih =>
    obtain ⟨part, behind, rfl, hpart, hbehind⟩ := h
    cases token with
    | star =>
      rw [← List.append_assoc]
      apply Covers.cons _ hbehind
      change slash ∉ front ++ part
      rw [List.mem_append, not_or]
      exact ⟨hfront, hpart⟩
    | rest =>
      rw [← List.append_assoc]
      exact Covers.cons trivial hbehind
    | segments =>
      by_cases hnil : part = []
      · rw [hnil, List.nil_append]
        exact ⟨[], front ++ behind, rfl, isSegments_nil, ih habsorbs hbehind hfront⟩
      · rw [← List.append_assoc]
        exact Covers.cons (hpart.append_left hnil front) hbehind
    | one =>
      obtain ⟨unit, hunit, rfl⟩ := hpart
      cases front with
      | nil => exact ⟨[unit], behind, rfl, ⟨unit, hunit, rfl⟩, hbehind⟩
      | cons first others =>
        rw [List.mem_cons, not_or] at hfront
        have hinner : slash ∉ others ++ [unit] := by
          rw [List.mem_append, List.mem_singleton, not_or]
          exact ⟨hfront.2, Ne.symm hunit⟩
        have hshift : first :: others ++ ([unit] ++ behind) =
            [first] ++ ((others ++ [unit]) ++ behind) := by
          simp
        rw [hshift]
        exact Covers.cons ⟨first, Ne.symm hfront.1, rfl⟩ (ih habsorbs hbehind hinner)
    | literal unit => cases habsorbs

/-- Where every `**/` is made up for, the expression matches nothing more. -/
theorem means_of_matches {tokens : List Token} {text : Units} (h : isAbsorbed tokens = true)
    (hmatches : Covers Token.Matches tokens text) : Covers Token.Means tokens text := by
  induction tokens generalizing text with
  | nil => exact hmatches
  | cons token tokens ih =>
    obtain ⟨part, behind, rfl, hpart, hbehind⟩ := hmatches
    cases token with
    | segments =>
      rw [isAbsorbed, Bool.and_eq_true] at h
      obtain ⟨whole, start, rfl, hwhole, hstart⟩ := exists_segments part
      rw [List.append_assoc]
      exact Covers.cons hwhole (covers_append_left h.1 (ih h.2 hbehind) hstart)
    | rest => exact Covers.cons trivial (ih h hbehind)
    | star => exact Covers.cons hpart (ih h hbehind)
    | one => exact Covers.cons hpart (ih h hbehind)
    | literal unit => exact Covers.cons hpart (ih h hbehind)

/-- On a path in one line the expression matches everything that the glob selects. -/
theorem matches_of_means {tokens : List Token} {path : Units} (hpath : IsOneLine path)
    (h : Covers Token.Means tokens path) : Covers Token.Matches tokens path := by
  apply h.mono
  intro token _ part hpart hmeans
  have hline : IsOneLine part := by
    obtain ⟨front, back, rfl⟩ := hpart
    intro unit hunit
    exact hpath unit (List.mem_append_left _ (List.mem_append_right _ hunit))
  cases token with
  | segments => exact hline
  | rest => exact hline
  | star => exact hmeans
  | one => exact hmeans
  | literal unit => exact hmeans

/-! ## Globs with a lost slash -/

/-- The shortest text that a token stands for. -/
def Token.least (fresh : UInt16) : Token → Units
  | .one => [fresh]
  | .literal unit => [unit]
  | _ => []

def Token.isLiteral : Token → Bool
  | .literal _ => true
  | _ => false

/-- How many units of a text are others than this one. -/
def countOthers (fresh : UInt16) (text : Units) : ℕ := text.countP (· != fresh)

/-- No token stands for this very unit. -/
def IsFresh (fresh : UInt16) (tokens : List Token) : Prop := Token.literal fresh ∉ tokens

section

variable {fresh : UInt16}

theorem countOthers_append (front back : Units) :
    countOthers fresh (front ++ back) = countOthers fresh front + countOthers fresh back :=
  List.countP_append

theorem countOthers_eq_zero_iff (text : Units) :
    countOthers fresh text = 0 ↔ ∀ unit ∈ text, unit = fresh := by
  simp [countOthers, List.countP_eq_zero]

/-- Every literal brings a unit of its own. -/
theorem countP_isLiteral_le {tokens : List Token} {text : Units} (hfresh : IsFresh fresh tokens)
    (h : Covers Token.Means tokens text) :
    tokens.countP Token.isLiteral ≤ countOthers fresh text := by
  induction tokens generalizing text with
  | nil => exact Nat.zero_le _
  | cons token tokens ih =>
    obtain ⟨part, behind, rfl, hpart, hbehind⟩ := h
    have hrest := ih (fun hmem ↦ hfresh (List.mem_cons_of_mem token hmem)) hbehind
    rw [countOthers_append, List.countP_cons]
    cases token with
    | literal unit =>
      have hne : unit ≠ fresh := by
        rintro rfl
        exact hfresh List.mem_cons_self
      have hpartOne : countOthers fresh part = 1 := by
        rw [show part = [unit] from hpart]
        simp [countOthers, hne]
      rw [hpartOne, Token.isLiteral, if_pos rfl]
      omega
    | segments => exact Nat.le_add_left_of_le hrest
    | rest => exact Nat.le_add_left_of_le hrest
    | star => exact Nat.le_add_left_of_le hrest
    | one => exact Nat.le_add_left_of_le hrest

theorem countOthers_least {tokens : List Token} (hfresh : IsFresh fresh tokens) :
    countOthers fresh (tokens.flatMap (Token.least fresh)) = tokens.countP Token.isLiteral := by
  induction tokens with
  | nil => rfl
  | cons token tokens ih =>
    rw [List.flatMap_cons, countOthers_append, List.countP_cons,
      ih fun hmem ↦ hfresh (List.mem_cons_of_mem token hmem), Nat.add_comm]
    congr 1
    cases token with
    | literal unit =>
      have hne : unit ≠ fresh := by
        rintro rfl
        exact hfresh List.mem_cons_self
      simp [Token.least, Token.isLiteral, countOthers, hne]
    | segments => rfl
    | rest => rfl
    | star => rfl
    | one => simp [Token.least, Token.isLiteral, countOthers]

/-- Two beginnings of a text that end with another unit, and hold as many others, are the same. -/
theorem append_inj_of_countOthers {front front' back back' : Units}
    (happend : front ++ back = front' ++ back')
    (hcount : countOthers fresh front = countOthers fresh front')
    (hlast : ∀ unit ∈ front.getLast?, unit ≠ fresh)
    (hlast' : ∀ unit ∈ front'.getLast?, unit ≠ fresh) : front = front' ∧ back = back' := by
  have hempty : ∀ {first more : Units}, countOthers fresh first = countOthers fresh (first ++ more) →
      (∀ unit ∈ (first ++ more).getLast?, unit ≠ fresh) → more = [] := by
    intro first more hsame hend
    rw [countOthers_append] at hsame
    have hzero : countOthers fresh more = 0 := by omega
    cases more using List.reverseRecOn with
    | nil => rfl
    | append_singleton inner last =>
      have hall := (countOthers_eq_zero_iff _).mp hzero last (by simp)
      exact absurd hall (hend last (by rw [← List.append_assoc]; simp))
  rcases List.append_eq_append_iff.mp happend with ⟨more, rfl, rfl⟩ | ⟨more, rfl, rfl⟩
  · rw [hempty hcount hlast']
    simp
  · rw [hempty hcount.symm hlast]
    simp

/-- Tokens that end with a literal stand for texts that end with it. -/
theorem getLast_of_covers {tokens : List Token} {unit : UInt16} {text : Units}
    (h : Covers Token.Means (tokens ++ [.literal unit]) text) :
    ∃ front, text = front ++ [unit] := by
  obtain ⟨first, second, rfl, -, part, behind, rfl, hpart, hbehind⟩ := covers_append_iff.mp h
  refine ⟨first, ?_⟩
  rw [show part = [unit] from hpart, show behind = [] from hbehind]
  rfl

/-- Without a slash, `**/` stands for nothing and `?` for one unit. -/
theorem length_of_covers_run {run : List Token} {text : Units}
    (hrun : ∀ token ∈ run, token = .segments ∨ token = .one) (hslash : slash ∉ text)
    (h : Covers Token.Means run text) : text.length = run.countP (· == .one) := by
  induction run generalizing text with
  | nil =>
    rw [show text = [] from h]
    rfl
  | cons token rest ih =>
    obtain ⟨part, behind, rfl, hpart, hbehind⟩ := h
    rw [List.mem_append, not_or] at hslash
    have hrest := ih (fun other hother ↦ hrun other (List.mem_cons_of_mem token hother))
      hslash.2 hbehind
    rw [List.length_append, hrest, List.countP_cons, Nat.add_comm]
    congr 1
    rcases hrun token List.mem_cons_self with rfl | rfl
    · rcases (isSegments_iff part).mp hpart with rfl | ⟨front, rfl⟩
      · rfl
      · exact absurd (List.mem_append_right front List.mem_cons_self) hslash.1
    · obtain ⟨unit, -, rfl⟩ := hpart
      rfl

theorem least_run {run : List Token}
    (hrun : ∀ token ∈ run, token = .segments ∨ token = .one) :
    run.flatMap (Token.least fresh) = List.replicate (run.countP (· == .one)) fresh := by
  induction run with
  | nil => rfl
  | cons token rest ih =>
    rw [List.flatMap_cons, ih fun other hother ↦ hrun other (List.mem_cons_of_mem token hother),
      List.countP_cons]
    rcases hrun token List.mem_cons_self with rfl | rfl
    · rfl
    · rfl

/-- Behind a literal and up to the next one there are only `**/` and `?`: then one unit more than
the `?` take is matched, and not selected. -/
theorem not_covers_of_lostSlash {front run back : List Token}
    (hfresh : IsFresh fresh (front ++ (run ++ back))) (hslash : fresh ≠ slash)
    (hfront : front = [] ∨ ∃ tokens unit, front = tokens ++ [.literal unit])
    (hrun : ∀ token ∈ run, token = .segments ∨ token = .one)
    (hback : back = [] ∨ ∃ unit tokens, back = .literal unit :: tokens) :
    ¬Covers Token.Means (front ++ (run ++ back))
      (front.flatMap (Token.least fresh) ++
        fresh :: (run.flatMap (Token.least fresh) ++ back.flatMap (Token.least fresh))) := by
  intro h
  have hfreshFront : IsFresh fresh front := fun hmem ↦ hfresh (List.mem_append_left _ hmem)
  have hfreshRun : IsFresh fresh run := fun hmem ↦
    hfresh (List.mem_append_right _ (List.mem_append_left _ hmem))
  have hfreshBack : IsFresh fresh back := fun hmem ↦
    hfresh (List.mem_append_right _ (List.mem_append_right _ hmem))
  obtain ⟨first, others, hsplit, hfirst, hothers⟩ := covers_append_iff.mp h
  obtain ⟨second, third, rfl, hsecond, hthird⟩ := covers_append_iff.mp hothers
  -- every literal has its unit, so the parts have no unit to spare
  have hcount := congrArg (countOthers fresh) hsplit
  have hone : countOthers fresh [fresh] = 0 := by simp [countOthers]
  have hcons : fresh :: (run.flatMap (Token.least fresh) ++ back.flatMap (Token.least fresh)) =
      [fresh] ++ (run.flatMap (Token.least fresh) ++ back.flatMap (Token.least fresh)) := rfl
  rw [hcons] at hcount
  simp only [countOthers_append, countOthers_least hfreshFront, countOthers_least hfreshRun,
    countOthers_least hfreshBack, hone, Nat.zero_add] at hcount
  have hleFirst := countP_isLiteral_le hfreshFront hfirst
  have hleSecond := countP_isLiteral_le hfreshRun hsecond
  have hleThird := countP_isLiteral_le hfreshBack hthird
  have hrunLiterals : run.countP Token.isLiteral = 0 := by
    rw [List.countP_eq_zero]
    intro token htoken
    rcases hrun token htoken with rfl | rfl <;> exact Bool.false_ne_true
  have hends : ∀ {text : Units}, Covers Token.Means front text →
      ∀ unit ∈ text.getLast?, unit ≠ fresh := by
    intro text htext unit hunit
    rcases hfront with rfl | ⟨tokens, last, rfl⟩
    · rw [show text = [] from htext] at hunit
      cases hunit
    · obtain ⟨inner, rfl⟩ := getLast_of_covers htext
      rw [List.getLast?_concat, Option.mem_some_iff] at hunit
      rw [← hunit]
      rintro rfl
      exact hfreshFront (by simp)
  have hleast : Covers Token.Means front (front.flatMap (Token.least fresh)) := by
    apply covers_flatMap
    intro token _
    cases token with
    | segments => exact isSegments_nil
    | rest => trivial
    | star => exact List.not_mem_nil
    | one => exact ⟨fresh, hslash, rfl⟩
    | literal unit => rfl
  obtain ⟨-, hbehind⟩ := append_inj_of_countOthers hsplit
    (by rw [countOthers_least hfreshFront]; omega) (hends hleast) (hends hfirst)
  -- so the run takes as many units as it has `?`, and one is left in front of the next literal
  have hall : ∀ unit ∈ second, unit = fresh := by
    rw [← countOthers_eq_zero_iff]
    omega
  have hlength := length_of_covers_run hrun (fun hmem ↦ hslash (hall slash hmem).symm) hsecond
  have hsecondEq : second = run.flatMap (Token.least fresh) := by
    rw [least_run hrun, ← hlength]
    exact List.eq_replicate_of_mem hall
  have hlongest : third = fresh :: back.flatMap (Token.least fresh) := by
    have hreplicate : fresh :: run.flatMap (Token.least fresh) =
        run.flatMap (Token.least fresh) ++ [fresh] := by
      rw [least_run hrun, ← List.replicate_succ, ← List.replicate_succ']
    rw [← List.cons_append, hreplicate, List.append_assoc, hsecondEq] at hbehind
    exact (List.append_cancel_left hbehind).symm
  rw [hlongest] at hthird
  rcases hback with rfl | ⟨unit, tokens, rfl⟩
  · cases hthird
  · obtain ⟨part, behind, happend, hpart, -⟩ := hthird
    rw [show part = [unit] from hpart] at happend
    apply hfreshBack
    rw [(List.cons.inj happend).1]
    exact List.mem_cons_self

end

/-! ## Globs of whole segments -/

/-- Every `**` is a segment of its own; the flag says that a segment starts here. -/
def areWholeSegments : Bool → List Token → Bool
  | _, [] => true
  | atStart, .segments :: tokens => atStart && areWholeSegments true tokens
  | atStart, .rest :: tokens => atStart && tokens.isEmpty
  | _, .literal unit :: tokens => areWholeSegments (unit == slash) tokens
  | _, _ :: tokens => areWholeSegments false tokens

/-- A glob in one line, in which every `**` is a whole segment, and which does not hold every unit
there is. -/
structure IsStandard (glob : Units) : Prop where
  oneLine : IsOneLine glob
  whole : areWholeSegments true (readGlob glob) = true
  spare : ∃ unit, unit ≠ slash ∧ isTerminator unit = false ∧ unit ∉ glob

theorem split_of_not_absorbs {tokens : List Token} (h : absorbs tokens = false) :
    ∃ run back, tokens = run ++ back ∧ (∀ token ∈ run, token = .segments ∨ token = .one) ∧
      (back = [] ∨ ∃ unit others, back = .literal unit :: others) := by
  induction tokens with
  | nil => exact ⟨[], [], rfl, by simp, .inl rfl⟩
  | cons token rest ih =>
    cases token with
    | star => cases h
    | rest => cases h
    | literal unit => exact ⟨[], _, rfl, by simp, .inr ⟨unit, rest, rfl⟩⟩
    | segments =>
      obtain ⟨run, back, rfl, hrun, hback⟩ := ih h
      refine ⟨.segments :: run, back, rfl, ?_, hback⟩
      rw [List.forall_mem_cons]
      exact ⟨.inl rfl, hrun⟩
    | one =>
      obtain ⟨run, back, rfl, hrun, hback⟩ := ih h
      refine ⟨.one :: run, back, rfl, ?_, hback⟩
      rw [List.forall_mem_cons]
      exact ⟨.inr rfl, hrun⟩

/-- A `**/` that is not made up for, between two literals. -/
theorem exists_lostSlash {tokens : List Token} {atStart : Bool}
    (hwhole : areWholeSegments atStart tokens = true) (h : isAbsorbed tokens = false) :
    ∃ front run back, tokens = front ++ (.segments :: run ++ back) ∧
      (front = [] ∧ atStart = true ∨ ∃ others unit, front = others ++ [.literal unit]) ∧
      (∀ token ∈ run, token = .segments ∨ token = .one) ∧
      (back = [] ∨ ∃ unit others, back = .literal unit :: others) := by
  induction tokens generalizing atStart with
  | nil => cases h
  | cons token rest ih =>
    cases token with
    | segments =>
      rw [areWholeSegments, Bool.and_eq_true] at hwhole
      by_cases habsorbs : absorbs rest = true
      · rw [isAbsorbed, habsorbs, Bool.true_and] at h
        obtain ⟨front, run, back, rfl, hfront, hrun, hback⟩ := ih hwhole.2 h
        rcases hfront with ⟨rfl, -⟩ | ⟨others, unit, rfl⟩
        · refine ⟨[], .segments :: run, back, rfl, .inl ⟨rfl, hwhole.1⟩, ?_, hback⟩
          rw [List.forall_mem_cons]
          exact ⟨.inl rfl, hrun⟩
        · exact ⟨.segments :: (others ++ [.literal unit]), run, back, rfl,
            .inr ⟨.segments :: others, unit, rfl⟩, hrun, hback⟩
      · obtain ⟨run, back, rfl, hrun, hback⟩ :=
          split_of_not_absorbs (Bool.eq_false_iff.mpr habsorbs)
        exact ⟨[], run, back, rfl, .inl ⟨rfl, hwhole.1⟩, hrun, hback⟩
    | rest =>
      rw [areWholeSegments, Bool.and_eq_true, List.isEmpty_iff] at hwhole
      rw [hwhole.2] at h
      cases h
    | literal unit =>
      obtain ⟨front, run, back, rfl, hfront, hrun, hback⟩ := ih hwhole h
      rcases hfront with ⟨rfl, -⟩ | ⟨others, last, rfl⟩
      · exact ⟨[.literal unit], run, back, rfl, .inr ⟨[], unit, rfl⟩, hrun, hback⟩
      · exact ⟨.literal unit :: (others ++ [.literal last]), run, back, rfl,
          .inr ⟨.literal unit :: others, last, rfl⟩, hrun, hback⟩
    | star =>
      obtain ⟨front, run, back, rfl, hfront, hrun, hback⟩ := ih hwhole h
      rcases hfront with ⟨-, hfalse⟩ | ⟨others, last, rfl⟩
      · cases hfalse
      · exact ⟨.star :: (others ++ [.literal last]), run, back, rfl,
          .inr ⟨.star :: others, last, rfl⟩, hrun, hback⟩
    | one =>
      obtain ⟨front, run, back, rfl, hfront, hrun, hback⟩ := ih hwhole h
      rcases hfront with ⟨-, hfalse⟩ | ⟨others, last, rfl⟩
      · cases hfalse
      · exact ⟨.one :: (others ++ [.literal last]), run, back, rfl,
          .inr ⟨.one :: others, last, rfl⟩, hrun, hback⟩

theorem mem_of_literal_mem {glob : Units} {unit : UInt16} (h : .literal unit ∈ readGlob glob) :
    unit ∈ glob := by
  fun_induction readGlob glob <;> simp_all
  grind

/-- A text with the shortest parts, and one spare unit for the first `**/` of the run. -/
theorem matches_lostSlash {front run back : List Token} {spare : UInt16}
    (hslash : spare ≠ slash) (hterminator : isTerminator spare = false) :
    Covers Token.Matches (front ++ (.segments :: run ++ back))
      (front.flatMap (Token.least spare) ++
        spare :: ((.segments :: run).flatMap (Token.least spare) ++
          back.flatMap (Token.least spare))) := by
  have hnil : IsOneLine [] := by
    intro unit hunit
    cases hunit
  have hleast : ∀ tokens : List Token,
      Covers Token.Matches tokens (tokens.flatMap (Token.least spare)) := by
    intro tokens
    apply covers_flatMap
    intro token _
    cases token with
    | segments => exact hnil
    | rest => exact hnil
    | star => exact List.not_mem_nil
    | one => exact ⟨spare, hslash, rfl⟩
    | literal unit => rfl
  rw [covers_append_iff]
  refine ⟨_, _, rfl, hleast front, ?_⟩
  refine ⟨[spare], _, rfl, ?_, ?_⟩
  · intro unit hunit
    rw [List.mem_singleton.mp hunit]
    exact hterminator
  · have hbehind : Covers Token.Matches (run ++ back)
        (run.flatMap (Token.least spare) ++ back.flatMap (Token.least spare)) :=
      covers_append_iff.mpr ⟨_, _, rfl, hleast run, hleast back⟩
    exact hbehind

/-- On paths in one line, and for a glob of whole segments: every `**/` is made up for. -/
theorem isAbsorbed_iff {glob : Units} (h : IsStandard glob) :
    MeansWhatItSays IsOneLine glob ↔ isAbsorbed (readGlob glob) = true := by
  rw [meansWhatItSays_iff]
  constructor
  · intro hmeans
    by_contra hnot
    obtain ⟨spare, hslash, hterminator, hspare⟩ := h.spare
    have hfresh : IsFresh spare (readGlob glob) := fun hmem ↦ hspare (mem_of_literal_mem hmem)
    have hliteral : ∀ unit, .literal unit ∈ readGlob glob → isTerminator unit = false :=
      fun unit hmem ↦ h.oneLine unit (mem_of_literal_mem hmem)
    obtain ⟨front, run, back, htokens, hfront, hrun, hback⟩ :=
      exists_lostSlash h.whole (Bool.eq_false_iff.mpr hnot)
    rw [htokens] at hmeans hfresh hliteral
    have hleast : ∀ tokens : List Token,
        (∀ unit, .literal unit ∈ tokens → isTerminator unit = false) →
        IsOneLine (tokens.flatMap (Token.least spare)) := by
      intro tokens htokens unit hunit
      obtain ⟨token, htoken, hpart⟩ := List.mem_flatMap.mp hunit
      cases token with
      | one =>
        rw [List.mem_singleton.mp hpart]
        exact hterminator
      | literal other =>
        rw [List.mem_singleton.mp hpart]
        exact htokens other htoken
      | segments => cases hpart
      | rest => cases hpart
      | star => cases hpart
    have hpath : IsOneLine (front.flatMap (Token.least spare) ++
        spare :: ((.segments :: run).flatMap (Token.least spare) ++
          back.flatMap (Token.least spare))) := by
      intro unit hunit
      simp only [List.mem_append, List.mem_cons] at hunit
      rcases hunit with hmem | rfl | hmem | hmem
      · exact hleast front (fun unit hmem ↦ hliteral unit (List.mem_append_left _ hmem)) _ hmem
      · exact hterminator
      · exact hleast (.segments :: run) (fun unit hmem ↦ hliteral unit
          (List.mem_append_right _ (List.mem_append_left _ hmem))) _ hmem
      · exact hleast back (fun unit hmem ↦ hliteral unit
          (List.mem_append_right _ (List.mem_append_right _ hmem))) _ hmem
    apply not_covers_of_lostSlash hfresh hslash _ _ hback
      ((hmeans _ hpath).mp (matches_lostSlash hslash hterminator))
    · rcases hfront with ⟨hnil, -⟩ | hends
      · exact .inl hnil
      · exact .inr hends
    · rw [List.forall_mem_cons]
      exact ⟨.inl rfl, hrun⟩
  · intro habsorbed path hpath
    exact ⟨means_of_matches habsorbed, matches_of_means hpath⟩

/-! ## Paths with line terminators -/

/-- How often a line feed stands in front of a slash. -/
def breaks : Units → ℕ
  | first :: second :: rest =>
    (if first = 0x0a ∧ second = slash then 1 else 0) + breaks (second :: rest)
  | _ => 0

theorem breaks_append_le (front back : Units) :
    breaks (front ++ back) ≤ breaks front + breaks back + 1 := by
  induction front with
  | nil => simp [breaks]
  | cons first rest ih =>
    cases rest with
    | nil =>
      cases back with
      | nil => simp [breaks]
      | cons second others =>
        have hone : breaks [first] = 0 := rfl
        rw [List.singleton_append, breaks, hone]
        split <;> omega
    | cons second others =>
      rw [List.cons_append, List.cons_append, breaks, breaks]
      rw [List.cons_append] at ih
      omega

theorem breaks_le_append_right (front back : Units) : breaks back ≤ breaks (front ++ back) := by
  induction front with
  | nil => exact le_rfl
  | cons first rest ih =>
    rw [List.cons_append]
    cases hbehind : rest ++ back with
    | nil =>
      rw [(List.append_eq_nil_iff.mp hbehind).2]
      exact Nat.zero_le _
    | cons second others =>
      rw [breaks, ← hbehind]
      omega

theorem breaks_le_append_left (front back : Units) : breaks front ≤ breaks (front ++ back) := by
  induction front with
  | nil => exact Nat.zero_le _
  | cons first rest ih =>
    cases rest with
    | nil => exact Nat.zero_le _
    | cons second others =>
      rw [List.cons_append, List.cons_append, breaks, breaks]
      rw [List.cons_append] at ih
      omega

theorem breaks_eq_zero {text : Units} (h : 0x0a ∉ text ∨ slash ∉ text) : breaks text = 0 := by
  fun_induction breaks text with
  | case1 first second rest ih =>
    have hfirst : ¬(first = 0x0a ∧ second = slash) := by
      rintro ⟨rfl, rfl⟩
      rcases h with h | h <;> simp at h
    rw [if_neg hfirst, ih]
    simp only [List.mem_cons, not_or] at h ⊢
    tauto
  | case2 => rfl

/-- Many segments of one line feed each. -/
def brokenSegments (count : ℕ) : Units := (List.replicate count [0x0a, slash]).flatten

theorem le_breaks_brokenSegments (count : ℕ) : count ≤ breaks (brokenSegments count) := by
  induction count with
  | zero => exact Nat.zero_le _
  | succ count ih =>
    have hsucc : brokenSegments (count + 1) = 0x0a :: slash :: brokenSegments count := rfl
    have hrest := breaks_le_append_right [slash] (brokenSegments count)
    rw [hsucc, breaks, if_pos ⟨rfl, rfl⟩]
    rw [List.singleton_append] at hrest
    omega

theorem isSegments_brokenSegments (count : ℕ) : IsSegments (brokenSegments count) := by
  refine ⟨List.replicate count [0x0a], ?_, ?_⟩
  · intro segment hsegment
    rw [List.eq_of_mem_replicate hsegment]
    decide
  · rw [brokenSegments, List.flatMap_replicate]
    rfl

/-- No piece of the expression matches a line feed in front of a slash. -/
theorem breaks_le_of_matches {tokens : List Token} {text : Units}
    (h : Covers Token.Matches tokens text) : breaks text ≤ tokens.length := by
  have hbound := h.measure_le breaks (fun _ ↦ 0) rfl breaks_append_le (by
    intro token _ part hpart
    rw [Nat.le_zero]
    have hline : IsOneLine part → 0x0a ∉ part := by
      intro hline hmem
      exact absurd (hline _ hmem) (by decide)
    cases token with
    | segments => exact breaks_eq_zero (.inl (hline hpart))
    | rest => exact breaks_eq_zero (.inl (hline hpart))
    | star => exact breaks_eq_zero (.inr hpart)
    | one =>
      obtain ⟨unit, -, rfl⟩ := hpart
      rfl
    | literal unit =>
      rw [show part = [unit] from hpart]
      rfl)
  simpa using hbound

theorem globstar_iff (glob : Units) :
    [starUnit, starUnit] <:+: glob ↔ .segments ∈ readGlob glob ∨ .rest ∈ readGlob glob := by
  fun_induction readGlob glob <;> simp_all [List.infix_cons_iff]
  all_goals
    intro hstar
    exact absurd hstar.symm ‹_›

/-- A glob with `**` selects a path with line feeds that its expression does not match. -/
theorem exists_unmatched {tokens : List Token}
    (h : .segments ∈ tokens ∨ .rest ∈ tokens) :
    ∃ path, Covers Token.Means tokens path ∧ ¬Covers Token.Matches tokens path := by
  have hmeans : ∃ token ∈ tokens, token.Means (brokenSegments (tokens.length + 1)) := by
    rcases h with hsegments | hrest
    · exact ⟨_, hsegments, isSegments_brokenSegments _⟩
    · exact ⟨_, hrest, trivial⟩
  obtain ⟨token, htoken, hmeans⟩ := hmeans
  obtain ⟨front, back, hsplit⟩ := List.append_of_mem htoken
  have hleast : ∀ tokens : List Token,
      Covers Token.Means tokens (tokens.flatMap (Token.least questionUnit)) := by
    intro tokens
    apply covers_flatMap
    intro token _
    cases token with
    | segments => exact isSegments_nil
    | rest => trivial
    | star => exact List.not_mem_nil
    | one => exact ⟨questionUnit, by decide, rfl⟩
    | literal unit => rfl
  refine ⟨front.flatMap (Token.least questionUnit) ++
    (brokenSegments (tokens.length + 1) ++ back.flatMap (Token.least questionUnit)), ?_, ?_⟩
  · rw [hsplit, covers_append_iff]
    exact ⟨_, _, rfl, hleast front, (hleast back).cons (hsplit ▸ hmeans)⟩
  · intro hmatches
    have hupper := breaks_le_of_matches hmatches
    have hlower := le_breaks_brokenSegments (tokens.length + 1)
    have hinner := breaks_le_append_left (brokenSegments (tokens.length + 1))
      (back.flatMap (Token.least questionUnit))
    have houter := breaks_le_append_right (front.flatMap (Token.least questionUnit))
      (brokenSegments (tokens.length + 1) ++ back.flatMap (Token.least questionUnit))
    omega

/-- A glob without `**` is translated exactly. -/
theorem covers_iff_of_noGlobstar {tokens : List Token} (hsegments : .segments ∉ tokens)
    (hrest : .rest ∉ tokens) (path : Units) :
    Covers Token.Matches tokens path ↔ Covers Token.Means tokens path := by
  have hsame : ∀ token ∈ tokens, ∀ part, token.Matches part ↔ token.Means part := by
    intro token htoken part
    cases token with
    | segments => exact absurd htoken hsegments
    | rest => exact absurd htoken hrest
    | star => exact Iff.rfl
    | one => exact Iff.rfl
    | literal unit => exact Iff.rfl
  constructor
  · intro h
    exact h.mono fun token htoken part _ ↦ (hsame token htoken part).mp
  · intro h
    exact h.mono fun token htoken part _ ↦ (hsame token htoken part).mpr

/-- For every glob: it means what it says on all paths exactly when it has no `**`. On the paths in
one line, where all `**` of a glob are whole segments, it does so exactly when behind every `**/`,
after further `**/` and `?`, comes a `*` or a `**`; and this is enough for any glob. -/
theorem globToRegExp_exact_iff (glob : Units) :
    (MeansWhatItSays (fun _ ↦ True) glob ↔ ¬[starUnit, starUnit] <:+: glob) ∧
    (IsStandard glob →
      (MeansWhatItSays IsOneLine glob ↔ isAbsorbed (readGlob glob) = true)) ∧
    (isAbsorbed (readGlob glob) = true → MeansWhatItSays IsOneLine glob) := by
  refine ⟨?_, isAbsorbed_iff, ?_⟩
  · rw [meansWhatItSays_iff, globstar_iff, not_or]
    constructor
    · intro hmeans
      by_contra hglobstar
      rw [← not_or, not_not] at hglobstar
      obtain ⟨path, hselected, hunmatched⟩ := exists_unmatched hglobstar
      exact hunmatched ((hmeans path trivial).mpr hselected)
    · rintro ⟨hsegments, hrest⟩ path -
      exact covers_iff_of_noGlobstar hsegments hrest path
  · intro habsorbed
    rw [meansWhatItSays_iff]
    intro path hpath
    exact ⟨means_of_matches habsorbed, matches_of_means hpath⟩

/-- `**/b` matches `ab`, which has no segment in front of `b`. -/
theorem not_globToRegExp_exact : ¬∀ glob, MeansWhatItSays (fun _ ↦ True) glob := by
  intro h
  have hmatched : test (globToRegExp ("**/b".toList.flatMap unitsOf))
      ("ab".toList.flatMap unitsOf) = true := by decide +kernel
  have hselected := ((h ("**/b".toList.flatMap unitsOf)).expression _ trivial).mp hmatched
  have htokens : readGlob ("**/b".toList.flatMap unitsOf) = [.segments, .literal 0x62] := by
    decide +kernel
  rw [Selects, htokens] at hselected
  obtain ⟨part, behind, hpath, hpart, last, rest, rfl, hlast, hrest⟩ := hselected
  rw [show last = [0x62] from hlast, show rest = [] from hrest, List.append_nil] at hpath
  have hpartEq : part = [0x61] := by
    have hunits : "ab".toList.flatMap unitsOf = [0x61] ++ [0x62] := by decide +kernel
    rw [hunits] at hpath
    exact (List.append_inj_left' hpath rfl).symm
  rcases (isSegments_iff part).mp hpart with hnil | ⟨front, hfront⟩
  · rw [hpartEq] at hnil
    cases hnil
  · have hends := congrArg List.getLast? (hpartEq.symm.trans hfront)
    rw [List.getLast?_concat] at hends
    exact absurd (Option.some.inj hends) (by decide)

end Flockctl.StateMachines
