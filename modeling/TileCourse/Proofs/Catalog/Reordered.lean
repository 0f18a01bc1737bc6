import Mathlib.Data.List.Forall2
import Mathlib.Data.List.Nodup
import TileCourse.Proofs.Catalog.Lookup

/-!
# The order in which a source lists things

A source lists its levels, its chapters and the chapters of its courses in some order. Which
catalog is made of it does not depend on that: chapters are put in the order of play, and levels are
looked up by their ids. Only the order of the courses and that of the levels in a chapter mean
something. `Catalog.alike_of_reordered` says so, also of sources that make no catalog.
-/

namespace TileCourse

/-- Two courses differ at most in the order in which they name their chapters. -/
structure Course.Reordered (a b : Course) : Prop where
  chapterIds : a.chapterIds.Perm b.chapterIds
  others : { a with chapterIds := b.chapterIds } = b

namespace CatalogSource

/-- Two sources differ at most in the order in which they list their levels and their chapters, and
in which each of their courses names its chapters. -/
structure Reordered (a b : CatalogSource) : Prop where
  levels : a.levels.Perm b.levels
  chapters : a.chapters.Perm b.chapters
  courses : List.Forall₂ Course.Reordered a.courses b.courses

/-- Only chapters of the source are named. -/
theorem mem_chapters_of_named {source : CatalogSource} {ids : List String} {chapter : Chapter}
    (h : chapter ∈ source.named ids) : chapter ∈ source.chapters := by
  obtain ⟨_, _, hfiltered⟩ := List.mem_flatMap.1 h
  exact (List.mem_filter.1 hfiltered).1

namespace Reordered

variable {a b : CatalogSource} {ids others : List String}

/-- A source is a reordering of any reordering of it. -/
theorem symm (h : a.Reordered b) : b.Reordered a where
  levels := h.levels.symm
  chapters := h.chapters.symm
  courses := .flip <| h.courses.imp fun _ _ hcourse =>
    ⟨hcourse.chapterIds.symm, by rw [← hcourse.others]⟩

/-- The courses of a reordered source name the same chapters. -/
theorem course_lists (h : a.Reordered b) :
    List.Forall₂ List.Perm a.courseLists b.courseLists := by
  obtain ⟨courses, chapters, levels⟩ := a
  obtain ⟨others, otherChapters, otherLevels⟩ := b
  obtain ⟨-, hchapters, hcourses⟩ := h
  cases hcourses with
  | nil => exact .cons (hchapters.map _) .nil
  | cons hcourse hrest =>
      have hids := (List.Forall₂.cons hcourse hrest).imp fun _ _ h => h.chapterIds
      exact List.forall₂_map_left_iff.2 (List.forall₂_map_right_iff.2 hids)

/-- Ids in any order name the same chapters of a reordered source. -/
theorem named (h : a.Reordered b) (hids : ids.Perm others) :
    (a.named ids).Perm (b.named others) :=
  hids.flatMap fun _ _ => h.chapters.filter _

/-- The same levels are played in a reordered source. -/
theorem played_ids (h : a.Reordered b) : a.playedIds.Perm b.playedIds := by
  rw [playedIds, playedIds, List.flatMap_def, List.flatMap_def]
  refine .flatten_congr ?_
  rw [List.forall₂_map_left_iff, List.forall₂_map_right_iff]
  exact h.course_lists.imp fun _ _ hids => (h.named hids).flatMap_right _

/-- A reordered source is consistent as well. -/
theorem consistent (h : a.Reordered b) (hconsistent : a.Consistent) : b.Consistent where
  grids level hlevel := hconsistent.grids level (h.levels.mem_iff.2 hlevel)
  levelIds := (h.levels.map _).nodup_iff.1 hconsistent.levelIds
  chapterIds := (h.chapters.map _).nodup_iff.1 hconsistent.chapterIds
  references ids hids id hid := by
    -- what any course of the one source names, some course of the other one names as well
    have hsomewhere : id ∈ a.courseLists.flatten :=
      (List.Perm.flatten_congr h.course_lists).mem_iff.2 (List.mem_flatten_of_mem hids hid)
    obtain ⟨others, hothers, hid⟩ := List.mem_flatten.1 hsomewhere
    obtain ⟨chapter, hchapter, hsame⟩ := hconsistent.references others hothers id hid
    exact ⟨chapter, h.chapters.mem_iff.1 hchapter, hsame⟩
  played := h.played_ids.symm.trans (hconsistent.played.trans (h.levels.map _))

end Reordered

end CatalogSource

namespace Catalog

variable {a b : CatalogSource}

/-- Chapters with ids of their own are put in the same order however they are listed. -/
theorem merge_sort_eq_of_perm {chapters others : List Chapter}
    (hids : ∀ a ∈ chapters, ∀ b ∈ chapters, a.id = b.id → a = b) (h : chapters.Perm others) :
    chapters.mergeSort playedBefore = others.mergeSort playedBefore := by
  have hsorted := (List.mergeSort_perm chapters playedBefore).trans
    (h.trans (List.mergeSort_perm others playedBefore).symm)
  refine hsorted.eq_of_pairwise ?_ (pairwise_precedes chapters) (pairwise_precedes others)
  intro first second hfirst hsecond hbefore hafter
  exact hids first (List.mem_mergeSort.1 hfirst) second
    (h.mem_iff.2 (List.mem_mergeSort.1 hsecond)) (hbefore.antisymm hafter).2

/-- The order of play does not depend on how the source is ordered. -/
theorem in_play_reordered (hconsistent : a.Consistent) (h : a.Reordered b) :
    inPlay a = inPlay b := by
  have hids : ∀ ids, ∀ x ∈ a.named ids, ∀ y ∈ a.named ids, x.id = y.id → x = y := by
    intro ids x hx y hy
    exact List.inj_on_of_nodup_map hconsistent.chapterIds (CatalogSource.mem_chapters_of_named hx)
      (CatalogSource.mem_chapters_of_named hy)
  rw [inPlay, inPlay, List.flatMap_def, List.flatMap_def]
  congr 1
  rw [← List.forall₂_eq_eq_eq, List.forall₂_map_left_iff, List.forall₂_map_right_iff]
  exact h.course_lists.imp fun ids others hperm =>
    merge_sort_eq_of_perm (hids ids) (h.named hperm)

/-- Two catalogs answer every question about their chapters and levels alike. -/
structure Alike (a b : Catalog) : Prop where
  chapters : a.chapters = b.chapters
  inOrder : a.levelsInOrder = b.levelsInOrder
  count : a.levelCount = b.levelCount
  level : ∀ id, a.level? id = b.level? id
  slot : ∀ id, a.slot? id = b.slot? id
  predecessor : ∀ id, a.predecessor? id = b.predecessor? id
  chapter : ∀ id, a.chapterOf? id = b.chapterOf? id

/-- Catalogs with the same chapters that index alike sources differ in their courses only. -/
theorem Indexes.alike {first second : Catalog} (hfirst : first.Indexes a)
    (hsecond : second.Indexes b) (hlevels : a.levels.Perm b.levels)
    (hchapters : first.chapters = second.chapters) : first.Alike second := by
  have hlevels : first.levels = second.levels :=
    Table.eq_of_perm (hfirst.levels.trans ((hlevels.map _).trans hsecond.levels.symm))
  have hslots : first.slots = second.slots :=
    Table.eq_of_perm (hfirst.slots.trans (hchapters ▸ hsecond.slots.symm))
  obtain ⟨courses, chapters, levels, slots⟩ := first
  cases hchapters
  cases hlevels
  cases hslots
  exact ⟨rfl, rfl, rfl, fun _ => rfl, fun _ => rfl, fun _ => rfl, fun _ => rfl⟩

/-- Two sources that differ only in the order in which they list things both make no catalog, or
both make catalogs that answer alike. -/
theorem alike_of_reordered (h : a.Reordered b) :
    ((∃ catalog, ofSource a = .ok catalog) ↔ ∃ catalog, ofSource b = .ok catalog) ∧
      ∀ first second, ofSource a = .ok first → ofSource b = .ok second → first.Alike second := by
  constructor
  · rw [accepted_iff_consistent, accepted_iff_consistent]
    exact ⟨h.consistent, h.symm.consistent⟩
  · intro first second hfirst hsecond
    refine (indexes_of_source hfirst).alike (indexes_of_source hsecond) h.levels ?_
    rw [chapters_eq_in_play hfirst, chapters_eq_in_play hsecond,
      in_play_reordered (consistent_of_source hfirst) h]

/-- The garden with its levels, its chapters and the chapters of its first course in another
order. -/
def gardenAgain : CatalogSource where
  courses := [⟨"year", "Year", "", ["may", "spring", "summer"]⟩, ⟨"rest", "Rest", "", ["winter"]⟩]
  chapters := [⟨"may", "May", -1, []⟩, ⟨"spring", "Spring", -1, ["tulip"]⟩,
    ⟨"winter", "Winter", 0, ["snow"]⟩, ⟨"summer", "Summer", 2, ["rose", "lily"]⟩]
  levels := [bed "lily", bed "rose", bed "snow", bed "tulip"]

/-- The garden in another order makes a catalog that cannot be told from it. -/
theorem alike_garden : gardenSource.Reordered gardenAgain ∧ ∃ first second,
    ofSource gardenSource = .ok first ∧ ofSource gardenAgain = .ok second ∧
      first.Alike second := by
  have hreordered : gardenSource.Reordered gardenAgain :=
    ⟨by decide, by decide, .cons ⟨by decide, rfl⟩ (.cons ⟨by decide, rfl⟩ .nil)⟩
  have hconsistent : gardenSource.Consistent :=
    ⟨by decide, by decide, by decide, by decide, by decide⟩
  obtain ⟨hboth, halike⟩ := alike_of_reordered hreordered
  obtain ⟨first, hfirst⟩ := exists_of_consistent hconsistent
  obtain ⟨second, hsecond⟩ := hboth.1 ⟨first, hfirst⟩
  exact ⟨hreordered, first, second, hfirst, hsecond, halike first second hfirst hsecond⟩

end Catalog

end TileCourse
