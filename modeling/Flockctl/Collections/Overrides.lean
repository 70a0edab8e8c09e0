import Flockctl.Collections.JsMap
import Mathlib.Data.Set.Insert

/-!
# Layers that override each other

Items carry a key and a rank, and of the items with one key the highest-ranked one counts. Two
layers are laid over each other by keeping the whole upper layer and what it does not override of
the lower one; laying layers over each other from the lowest to the highest gives the items that
count. A map that is filled one layer after the other holds exactly such an overlay, as long as
nothing is deleted from it in between; a deletion in between takes an overriding item away, and
what that item has overridden does not come back.
-/

namespace Flockctl.Collections

universe u v w

variable {Item : Type u} {Key : Type v} {Rank : Type w} (key : Item → Key)

/-- The upper layer, and what it does not override of the lower one. -/
def layOver (upper lower : Set Item) : Set Item :=
  upper ∪ {item ∈ lower | ∀ other ∈ upper, key other ≠ key item}

theorem mem_layOver (upper lower : Set Item) (item : Item) :
    item ∈ layOver key upper lower ↔
      item ∈ upper ∨ item ∈ lower ∧ ∀ other ∈ upper, key other ≠ key item := Iff.rfl

@[simp] theorem layOver_empty (upper : Set Item) : layOver key upper ∅ = upper := by
  ext item
  simp [mem_layOver]

@[simp] theorem empty_layOver (lower : Set Item) : layOver key ∅ lower = lower := by
  ext item
  simp [mem_layOver]

/-- The lower layers can be laid over each other first. -/
theorem layOver_assoc (first second third : Set Item) :
    layOver key (layOver key first second) third = layOver key first (layOver key second third) := by
  ext item
  simp only [mem_layOver]
  constructor
  · rintro ((hfirst | ⟨hsecond, hfree⟩) | ⟨hthird, hfree⟩)
    · exact .inl hfirst
    · exact .inr ⟨.inl hsecond, hfree⟩
    · refine .inr ⟨.inr ⟨hthird, fun other hother heq ↦ ?_⟩, fun other hother ↦ ?_⟩
      · by_cases hover : ∀ upper ∈ first, key upper ≠ key other
        · exact hfree other (.inr ⟨hother, hover⟩) heq
        · push Not at hover
          obtain ⟨upper, hupper, hsame⟩ := hover
          exact hfree upper (.inl hupper) (hsame.trans heq)
      · exact hfree other (.inl hother)
  · rintro (hfirst | ⟨hsecond | ⟨hthird, hfree⟩, hover⟩)
    · exact .inl (.inl hfirst)
    · exact .inl (.inr ⟨hsecond, hover⟩)
    · refine .inr ⟨hthird, fun other hother ↦ ?_⟩
      rcases hother with hother | ⟨hother, -⟩
      · exact hover other hother
      · exact hfree other hother

section

variable [LinearOrder Rank] (rank : Item → Rank)

/-- The items that no higher-ranked item with the same key overrides. -/
def effective (items : Set Item) : Set Item :=
  {item ∈ items | ∀ other ∈ items, key other = key item → rank other ≤ rank item}

/-- Where all of the upper layer outranks all of the lower one, what counts is the upper layer's
part laid over the lower one's. -/
theorem effective_union {upper lower : Set Item}
    (houtranks : ∀ high ∈ upper, ∀ low ∈ lower, rank low < rank high) :
    effective key rank (upper ∪ lower) =
      layOver key (effective key rank upper) {item ∈ effective key rank lower |
        ∀ other ∈ upper, key other ≠ key item} := by
  ext item
  rw [mem_layOver]
  constructor
  · rintro ⟨hupper | hlower, hcounts⟩
    · exact .inl ⟨hupper, fun other hother ↦ hcounts other (.inl hother)⟩
    · have hfree : ∀ other ∈ upper, key other ≠ key item := fun other hother hsame ↦
        (houtranks other hother item hlower).not_ge (hcounts other (.inl hother) hsame)
      exact .inr ⟨⟨⟨hlower, fun other hother ↦ hcounts other (.inr hother)⟩, hfree⟩,
        fun other hother ↦ hfree other hother.1⟩
  · rintro (⟨hupper, hcounts⟩ | ⟨⟨⟨hlower, hcounts⟩, hfree⟩, -⟩)
    · refine ⟨.inl hupper, fun other hother hsame ↦ ?_⟩
      rcases hother with hother | hother
      · exact hcounts other hother hsame
      · exact (houtranks item hupper other hother).le
    · refine ⟨.inr hlower, fun other hother hsame ↦ ?_⟩
      rcases hother with hother | hother
      · exact absurd hsame (hfree other hother)
      · exact hcounts other hother hsame

/-- Of items with one rank all count. -/
theorem effective_of_rank {items : Set Item} {level : Rank}
    (hlevel : ∀ item ∈ items, rank item = level) : effective key rank items = items := by
  ext item
  refine ⟨fun hitem ↦ hitem.1, fun hitem ↦ ⟨hitem, fun other hother _ ↦ ?_⟩⟩
  rw [hlevel other hother, hlevel item hitem]

/-- A layer of one rank, laid over layers of lower ranks. -/
theorem effective_union_of_rank {upper lower : Set Item} {level : Rank}
    (hlevel : ∀ item ∈ upper, rank item = level) (hlower : ∀ item ∈ lower, rank item < level) :
    effective key rank (upper ∪ lower) = layOver key upper (effective key rank lower) := by
  have houtranks : ∀ high ∈ upper, ∀ low ∈ lower, rank low < rank high :=
    fun high hhigh low hlow ↦ (hlevel high hhigh).symm ▸ hlower low hlow
  rw [effective_union key rank houtranks, effective_of_rank key rank hlevel]
  ext item
  simp only [mem_layOver, Set.mem_ofPred_eq]
  exact or_congr Iff.rfl ⟨fun h ↦ ⟨h.1.1, h.2⟩, fun h ↦ ⟨⟨h.1, h.2⟩, h.2⟩⟩

end

section

variable [DecidableEq Key]

/-- The map holds these items, each under its key. -/
def Holds (map : JsMap Key Item) (items : Set Item) : Prop :=
  ∀ name item, map.get name = some item ↔ item ∈ items ∧ key item = name

theorem holds_empty : Holds key (JsMap.empty : JsMap Key Item) ∅ := by
  intro name item
  simp

/-- `for (const item of layer) if (!skip(item)) map.set(item.key, item)`. -/
def setUnless (skip : Item → Bool) (layer : List Item) (map : JsMap Key Item) :
    JsMap Key Item :=
  layer.foldl (fun map item ↦ if skip item then map else map.set (key item) item) map

/-- `for (const name of names) { const item = map.get(name); if (item && drop(item))
map.delete(name); }`. -/
def deleteWhere (drop : Item → Bool) (names : List Key) (map : JsMap Key Item) :
    JsMap Key Item :=
  names.foldl (fun map name ↦
    match map.get name with
    | some item => if drop item then map.delete name else map
    | none => map) map

variable {key} {map : JsMap Key Item} {items : Set Item}

theorem Holds.values (h : Holds key map items) :
    {item | item ∈ map.entries.map Prod.snd} = items := by
  ext item
  rw [Set.mem_ofPred_eq, List.mem_map]
  constructor
  · rintro ⟨⟨name, stored⟩, hentry, rfl⟩
    exact ((h name stored).mp ((map.mem_entries_iff name stored).mp hentry)).1
  · intro hitem
    exact ⟨(key item, item), (map.mem_entries_iff _ _).mpr ((h _ item).mpr ⟨hitem, rfl⟩), rfl⟩

/-- Setting one item lays it over the map. -/
theorem Holds.set (h : Holds key map items) (item : Item) :
    Holds key (map.set (key item) item) (layOver key {item} items) := by
  intro name other
  rw [JsMap.get_set, mem_layOver]
  by_cases hname : name = key item
  · subst hname
    rw [if_pos rfl, Option.some_inj]
    constructor
    · rintro rfl
      exact ⟨.inl rfl, rfl⟩
    · rintro ⟨hother | ⟨-, hfree⟩, hsame⟩
      · exact hother.symm
      · exact absurd hsame.symm (hfree item rfl)
  · rw [if_neg hname, h name other]
    constructor
    · rintro ⟨hother, rfl⟩
      exact ⟨.inr ⟨hother, fun upper hupper heq ↦ hname (hupper ▸ heq).symm⟩, rfl⟩
    · rintro ⟨hother | ⟨hother, -⟩, rfl⟩
      · exact absurd (congrArg key hother) hname
      · exact ⟨hother, rfl⟩

/-- Setting the items of a layer with distinct keys lays the ones that are not skipped over the
map. -/
theorem Holds.setUnless (skip : Item → Bool) {layer : List Item}
    (hnodup : (layer.map key).Nodup) (h : Holds key map items) :
    Holds key (setUnless key skip layer map)
      (layOver key {item | item ∈ layer ∧ skip item = false} items) := by
  induction layer generalizing map items with
  | nil =>
    have hempty : {item : Item | item ∈ [] ∧ skip item = false} = (∅ : Set Item) := by
      ext item
      simp
    rw [hempty, empty_layOver]
    exact h
  | cons first rest ih =>
    rw [List.map_cons, List.nodup_cons] at hnodup
    have hset : Holds key (if skip first then map else map.set (key first) first)
        (layOver key {item | item = first ∧ skip item = false} items) := by
      by_cases hskip : skip first = true
      · have hempty : {item | item = first ∧ skip item = false} = (∅ : Set Item) := by
          ext item
          simp only [Set.mem_ofPred_eq, Set.mem_empty_iff_false, iff_false, not_and]
          rintro rfl
          simp [hskip]
        rw [if_pos hskip, hempty, empty_layOver]
        exact h
      · have hsingle : {item | item = first ∧ skip item = false} = ({first} : Set Item) := by
          ext item
          simp only [Set.mem_ofPred_eq, Set.mem_singleton_iff, and_iff_left_iff_imp]
          rintro rfl
          exact Bool.eq_false_iff.mpr hskip
        rw [if_neg hskip, hsingle]
        exact h.set first
    have hrest := ih hnodup.2 hset
    rw [← layOver_assoc] at hrest
    have hlayer : layOver key {item | item ∈ rest ∧ skip item = false}
        {item | item = first ∧ skip item = false} =
        {item | item ∈ first :: rest ∧ skip item = false} := by
      ext item
      simp only [mem_layOver, Set.mem_ofPred_eq, List.mem_cons]
      constructor
      · rintro (⟨hrest, hskip⟩ | ⟨⟨rfl, hskip⟩, -⟩)
        · exact ⟨.inr hrest, hskip⟩
        · exact ⟨.inl rfl, hskip⟩
      · rintro ⟨rfl | hrest, hskip⟩
        · refine .inr ⟨⟨rfl, hskip⟩, fun other hother heq ↦ hnodup.1 ?_⟩
          exact heq ▸ List.mem_map_of_mem hother.1
        · exact .inl ⟨hrest, hskip⟩
    rw [hlayer] at hrest
    exact hrest

theorem Holds.delete (h : Holds key map items) (name : Key) :
    Holds key (map.delete name) {item ∈ items | key item ≠ name} := by
  intro other item
  rw [JsMap.get_delete_eq_some_iff, h other item]
  constructor
  · rintro ⟨hother, hitem, rfl⟩
    exact ⟨⟨hitem, hother⟩, rfl⟩
  · rintro ⟨⟨hitem, hother⟩, rfl⟩
    exact ⟨hother, hitem, rfl⟩

/-- A deletion takes away the named items that it is to drop, and only these. -/
theorem Holds.deleteWhere (drop : Item → Bool) (names : List Key) (h : Holds key map items) :
    Holds key (deleteWhere drop names map)
      {item ∈ items | ¬(key item ∈ names ∧ drop item = true)} := by
  induction names generalizing map items with
  | nil => simpa [deleteWhere] using h
  | cons name rest ih =>
    have hfirst : Holds key (match map.get name with
        | some item => if drop item then map.delete name else map
        | none => map) {item ∈ items | ¬(key item = name ∧ drop item = true)} := by
      cases hget : map.get name with
      | none =>
        have hsame : {item ∈ items | ¬(key item = name ∧ drop item = true)} = items := by
          ext item
          simp only [Set.mem_ofPred_eq, and_iff_left_iff_imp, not_and]
          intro hitem hname
          cases hget.symm.trans ((h name item).mpr ⟨hitem, hname⟩)
        rw [hsame]
        exact h
      | some stored =>
        have hstored := (h name stored).mp hget
        have honly : ∀ item ∈ items, key item = name → item = stored := fun item hitem hname ↦
          Option.some_inj.mp (((h name item).mpr ⟨hitem, hname⟩).symm.trans hget)
        by_cases hdrop : drop stored = true
        · have hsame : {item ∈ items | ¬(key item = name ∧ drop item = true)} =
              {item ∈ items | key item ≠ name} := by
            ext item
            refine and_congr_right fun hitem ↦ ?_
            constructor
            · intro hkept hname
              exact hkept ⟨hname, honly item hitem hname ▸ hdrop⟩
            · exact fun hname hgone ↦ hname hgone.1
          simp only [if_pos hdrop]
          rw [hsame]
          exact h.delete name
        · have hsame : {item ∈ items | ¬(key item = name ∧ drop item = true)} = items := by
            ext item
            simp only [Set.mem_ofPred_eq, and_iff_left_iff_imp, not_and]
            intro hitem hname
            exact honly item hitem hname ▸ hdrop
          simp only [if_neg hdrop]
          rw [hsame]
          exact h
    have hrest := ih hfirst
    have hall : {item ∈ {item ∈ items | ¬(key item = name ∧ drop item = true)} |
        ¬(key item ∈ rest ∧ drop item = true)} =
        {item ∈ items | ¬(key item ∈ name :: rest ∧ drop item = true)} := by
      ext item
      simp only [Set.mem_ofPred_eq, List.mem_cons]
      tauto
    rw [hall] at hrest
    exact hrest

end

end Flockctl.Collections
