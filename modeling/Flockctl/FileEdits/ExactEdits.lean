import Flockctl.FileEdits.Journal

/-!
# When Edit and MultiEdit are exact and atomic

The test of both tools looks for a second occurrence behind the first one only, so an occurrence
that overlaps the first goes unnoticed. A `MultiEdit` that refuses one of its edits still writes the
others.
-/

namespace Flockctl.FileEdits

open Collections Encoding

/-- Every occurrence begins within the first one. -/
def FoundOnce (content part : List Char) (position : ℕ) : Prop :=
  Occurs content part position ∧
    ∀ other, Occurs content part other → position ≤ other ∧ other < position + part.length

theorem FoundOnce.eq {content part : List Char} {position other : ℕ}
    (h : FoundOnce content part position) (hother : FoundOnce content part other) :
    position = other :=
  Nat.le_antisymm (h.2 other hother.1).1 (hother.2 position h.1).1

theorem foundOnce_of_occursOnlyAt {content part : List Char} {position : ℕ}
    (h : OccursOnlyAt content part position) : FoundOnce content part position := by
  refine ⟨h.2.1, fun other hother ↦ ?_⟩
  have hlength := List.length_pos_iff.mpr h.1
  rw [h.2.2 other hother]
  omega

theorem indexOf_zero_of_foundOnce {content part : List Char} {position : ℕ}
    (h : FoundOnce content part position) : indexOf content part 0 = some position := by
  rw [indexOf_eq_some_iff (Nat.zero_le _)]
  refine ⟨Nat.zero_le _, h.1, fun earlier _ hlt hoccurs ↦ ?_⟩
  exact absurd (h.2 earlier hoccurs).1 (Nat.not_le_of_lt hlt)

theorem tryEdit_eq_ok_iff {content next : List Char} {edit : Replacement} :
    tryEdit content edit = .ok next ↔ ∃ position, FoundOnce content edit.oldString position ∧
      next = splice content edit.oldString edit.newString position := by
  constructor
  · intro h
    rw [tryEdit] at h
    split at h
    · cases h
    · rename_i firstAt hfirst
      split at h
      · cases h
      · rename_i hsecond
        have hnext : replaceFirst content edit.oldString edit.newString = next := Except.ok.inj h
        rw [replaceFirst, hfirst] at hnext
        rw [indexOf_eq_some_iff (Nat.zero_le _)] at hfirst
        obtain ⟨-, hoccurs, hearlier⟩ := hfirst
        rw [indexOf_eq_none_iff hoccurs.add_length_le] at hsecond
        refine ⟨firstAt, ⟨hoccurs, fun other hother ↦ ?_⟩, hnext.symm⟩
        have hle : firstAt ≤ other := by
          by_contra hlt
          exact hearlier other (Nat.zero_le _) (Nat.lt_of_not_le hlt) hother
        have hlt : other < firstAt + edit.oldString.length := by
          by_contra hge
          exact hsecond other (Nat.le_of_not_lt hge) hother
        exact ⟨hle, hlt⟩
  · rintro ⟨position, hfound, rfl⟩
    have hfirst := indexOf_zero_of_foundOnce hfound
    have hsecond :
        indexOf content edit.oldString (position + edit.oldString.length) = none := by
      rw [indexOf_eq_none_iff hfound.1.add_length_le]
      intro other hge hother
      exact absurd (hfound.2 other hother).2 (Nat.not_lt_of_le hge)
    simp only [tryEdit, hfirst, hsecond, replaceFirst]

theorem tryEdit_of_foundOnce {content : List Char} {edit : Replacement} {position : ℕ}
    (h : FoundOnce content edit.oldString position) :
    tryEdit content edit = .ok (splice content edit.oldString edit.newString position) :=
  tryEdit_eq_ok_iff.mpr ⟨position, h, rfl⟩

theorem exists_refusal {content : List Char} {edit : Replacement}
    (h : ∀ position, ¬ FoundOnce content edit.oldString position) :
    ∃ refusal, tryEdit content edit = .error refusal := by
  cases htry : tryEdit content edit with
  | error refusal => exact ⟨refusal, rfl⟩
  | ok next =>
    obtain ⟨position, hfound, -⟩ := tryEdit_eq_ok_iff.mp htry
    exact absurd hfound (h position)

/-- `Edit` succeeds exactly when its text is in the content once, and then replaces it there; when
it does not succeed it leaves the file alone. -/
structure EditIsExact (bytes : List UInt8) (edit : Replacement) : Prop where
  succeeds : (executeEdit (some bytes) edit).1 = .edited ↔
    ∃ position, OccursOnlyAt (decode bytes) edit.oldString position
  replaces : ∀ position, OccursOnlyAt (decode bytes) edit.oldString position →
    (executeEdit (some bytes) edit).2 =
      some (encode (splice (decode bytes) edit.oldString edit.newString position))
  refuses : (executeEdit (some bytes) edit).1 ≠ .edited →
    (executeEdit (some bytes) edit).2 = some bytes

/-- Every edit is made where its text is the only one in the content the edits before it left. -/
inductive AppliedInTurn : List Char → List (Option Replacement) → List Char → Prop
  | nil (content : List Char) : AppliedInTurn content [] content
  | absent {content last : List Char} {rest : List (Option Replacement)} :
      AppliedInTurn content rest last → AppliedInTurn content (none :: rest) last
  | edit {content last : List Char} {edit : Replacement} {rest : List (Option Replacement)}
      {position : ℕ} : OccursOnlyAt content edit.oldString position →
      AppliedInTurn (splice content edit.oldString edit.newString position) rest last →
      AppliedInTurn content (some edit :: rest) last

/-- `MultiEdit` makes all its edits or leaves the file as it is. -/
def MultiEditIsAtomic (bytes : List UInt8) (edits : List (Option Replacement)) : Prop :=
  (∃ last, AppliedInTurn (decode bytes) edits last ∧
    (executeMultiEdit (some bytes) edits).2 = some (encode last)) ∨
    (executeMultiEdit (some bytes) edits).2 = some bytes

inductive EditCall
  | edit (edit : Replacement)
  | multiEdit (edits : List (Option Replacement))

def ExactAndAtomic (bytes : List UInt8) : EditCall → Prop
  | .edit edit => EditIsExact bytes edit
  | .multiEdit edits => MultiEditIsAtomic bytes edits

/-- The text is in the content more than once, but every occurrence begins within the first. -/
def OnlyOverlaps (content part : List Char) : Prop :=
  ∃ position, FoundOnce content part position ∧
    ∃ other, Occurs content part other ∧ other ≠ position

/-- What the edits leave that the test lets through. -/
inductive AcceptedInTurn : List Char → List (Option Replacement) → List Char → Prop
  | nil (content : List Char) : AcceptedInTurn content [] content
  | absent {content last : List Char} {rest : List (Option Replacement)} :
      AcceptedInTurn content rest last → AcceptedInTurn content (none :: rest) last
  | refused {content last : List Char} {edit : Replacement} {rest : List (Option Replacement)} :
      (∀ position, ¬ FoundOnce content edit.oldString position) →
      AcceptedInTurn content rest last → AcceptedInTurn content (some edit :: rest) last
  | accepted {content last : List Char} {edit : Replacement} {rest : List (Option Replacement)}
      {position : ℕ} : FoundOnce content edit.oldString position →
      AcceptedInTurn (splice content edit.oldString edit.newString position) rest last →
      AcceptedInTurn content (some edit :: rest) last

/-- No overlap is missed by `Edit`; of a `MultiEdit` every edit is unique in its turn, or the file is
UTF-8 and the accepted edits put back what was there. -/
def TestSuffices (bytes : List UInt8) : EditCall → Prop
  | .edit edit => ¬ OnlyOverlaps (decode bytes) edit.oldString
  | .multiEdit edits => (∃ last, AppliedInTurn (decode bytes) edits last) ∨
      IsUtf8 bytes ∧ AcceptedInTurn (decode bytes) edits (decode bytes)

theorem executeEdit_of_foundOnce {bytes : List UInt8} {edit : Replacement} {position : ℕ}
    (h : FoundOnce (decode bytes) edit.oldString position) :
    executeEdit (some bytes) edit = (.edited,
      some (encode (splice (decode bytes) edit.oldString edit.newString position))) := by
  simp only [executeEdit, tryEdit_of_foundOnce h]

theorem executeEdit_of_not_foundOnce {bytes : List UInt8} {edit : Replacement}
    (h : ∀ position, ¬ FoundOnce (decode bytes) edit.oldString position) :
    ∃ refusal, executeEdit (some bytes) edit = (.refused refusal, some bytes) := by
  obtain ⟨refusal, hrefusal⟩ := exists_refusal h
  refine ⟨refusal, ?_⟩
  simp only [executeEdit, hrefusal]

theorem editIsExact_iff (bytes : List UInt8) (edit : Replacement) :
    EditIsExact bytes edit ↔ ¬ OnlyOverlaps (decode bytes) edit.oldString := by
  constructor
  · rintro h ⟨position, hfound, other, hother, hne⟩
    have hedited : (executeEdit (some bytes) edit).1 = .edited := by
      rw [executeEdit_of_foundOnce hfound]
    obtain ⟨only, honly⟩ := h.succeeds.mp hedited
    have hposition : position = only := honly.2.2 position hfound.1
    exact hne ((honly.2.2 other hother).trans hposition.symm)
  · intro h
    by_cases hfound : ∃ position, FoundOnce (decode bytes) edit.oldString position
    · obtain ⟨position, hfound⟩ := hfound
      have honly : OccursOnlyAt (decode bytes) edit.oldString position := by
        refine ⟨?_, hfound.1, fun other hother ↦ ?_⟩
        · intro hnil
          have hlt := (hfound.2 position hfound.1).2
          rw [hnil, List.length_nil] at hlt
          omega
        · by_contra hne
          exact h ⟨position, hfound, other, hother, hne⟩
      have hrun := executeEdit_of_foundOnce hfound
      constructor
      · rw [hrun]
        exact iff_of_true rfl ⟨position, honly⟩
      · intro other hother
        rw [hrun, honly.2.2 other hother.2.1]
      · intro hnot
        rw [hrun] at hnot
        exact absurd rfl hnot
    · have hnone : ∀ position, ¬ FoundOnce (decode bytes) edit.oldString position :=
        fun position hposition ↦ hfound ⟨position, hposition⟩
      obtain ⟨refusal, hrefused⟩ := executeEdit_of_not_foundOnce hnone
      constructor
      · rw [hrefused]
        refine iff_of_false (by simp) ?_
        rintro ⟨position, honly⟩
        exact hnone position (foundOnce_of_occursOnlyAt honly)
      · intro position honly
        exact absurd (foundOnce_of_occursOnlyAt honly) (hnone position)
      · intro _
        rw [hrefused]

theorem acceptedInTurn_tryEdits (content : List Char) (edits : List (Option Replacement)) :
    AcceptedInTurn content edits (tryEdits content edits).1 := by
  induction edits generalizing content with
  | nil => exact .nil content
  | cons edit rest ih =>
    cases edit with
    | none => exact .absent (ih content)
    | some edit =>
      rw [tryEdits]
      by_cases hfound : ∃ position, FoundOnce content edit.oldString position
      · obtain ⟨position, hfound⟩ := hfound
        rw [tryEdit_of_foundOnce hfound]
        exact .accepted hfound (ih _)
      · push Not at hfound
        obtain ⟨refusal, hrefusal⟩ := exists_refusal hfound
        rw [hrefusal]
        exact .refused hfound (ih content)

/-- The accepted edits leave one content. -/
theorem AcceptedInTurn.eq {content left right : List Char} {edits : List (Option Replacement)}
    (hleft : AcceptedInTurn content edits left) (hright : AcceptedInTurn content edits right) :
    left = right := by
  induction hleft with
  | nil => cases hright; rfl
  | absent _ ih =>
    cases hright with
    | absent hrest => exact ih hrest
  | refused hnone _ ih =>
    cases hright with
    | refused _ hrest => exact ih hrest
    | accepted hfound _ => exact absurd hfound (hnone _)
  | accepted hfound _ ih =>
    cases hright with
    | refused hnone _ => exact absurd hfound (hnone _)
    | accepted hother hrest =>
      rw [hother.eq hfound] at hrest
      exact ih hrest

theorem AppliedInTurn.accepted {content last : List Char} {edits : List (Option Replacement)}
    (h : AppliedInTurn content edits last) : AcceptedInTurn content edits last := by
  induction h with
  | nil content => exact .nil content
  | absent _ ih => exact .absent ih
  | edit honly _ ih => exact .accepted (foundOnce_of_occursOnlyAt honly) ih

theorem executeMultiEdit_snd (bytes : List UInt8) (edits : List (Option Replacement)) :
    (executeMultiEdit (some bytes) edits).2 =
      some (encode (tryEdits (decode bytes) edits).1) := rfl

theorem multiEditIsAtomic_iff (bytes : List UInt8) (edits : List (Option Replacement)) :
    MultiEditIsAtomic bytes edits ↔ (∃ last, AppliedInTurn (decode bytes) edits last) ∨
      IsUtf8 bytes ∧ AcceptedInTurn (decode bytes) edits (decode bytes) := by
  have haccepted := acceptedInTurn_tryEdits (decode bytes) edits
  rw [MultiEditIsAtomic, executeMultiEdit_snd]
  constructor
  · rintro (⟨last, happlied, -⟩ | hsame)
    · exact Or.inl ⟨last, happlied⟩
    · right
      have hencode : encode (tryEdits (decode bytes) edits).1 = bytes := Option.some.inj hsame
      have hcontent : (tryEdits (decode bytes) edits).1 = decode bytes := by
        calc (tryEdits (decode bytes) edits).1
            = decode (encode (tryEdits (decode bytes) edits).1) := (decode_encode _).symm
          _ = decode bytes := by rw [hencode]
      rw [hcontent] at haccepted hencode
      exact ⟨(encode_decode_eq_iff bytes).mp hencode, haccepted⟩
  · rintro (⟨last, happlied⟩ | ⟨hutf8, hback⟩)
    · left
      refine ⟨last, happlied, ?_⟩
      rw [haccepted.eq happlied.accepted]
    · right
      rw [haccepted.eq hback, (encode_decode_eq_iff bytes).mpr hutf8]

/-- A call of `Edit` or `MultiEdit` is exact and atomic exactly when the test suffices. -/
theorem exactAndAtomic_iff (bytes : List UInt8) (call : EditCall) :
    ExactAndAtomic bytes call ↔ TestSuffices bytes call := by
  cases call with
  | edit edit => exact editIsExact_iff bytes edit
  | multiEdit edits => exact multiEditIsAtomic_iff bytes edits

/-- `aa` is in `aaa` twice, but `Edit` finds it once. -/
theorem not_exactAndAtomic : ¬ ∀ bytes call, ExactAndAtomic bytes call := by
  intro h
  have hedit : EditIsExact [97, 97, 97] ⟨['a', 'a'], ['b']⟩ := h _ (.edit ⟨['a', 'a'], ['b']⟩)
  have hedited : (executeEdit (some [97, 97, 97]) ⟨['a', 'a'], ['b']⟩).1 = .edited := by
    decide +kernel
  obtain ⟨position, -, -, honly⟩ := hedit.succeeds.mp hedited
  have hfirst := honly 0 (by decide +kernel)
  have hsecond := honly 1 (by decide +kernel)
  omega

end Flockctl.FileEdits
