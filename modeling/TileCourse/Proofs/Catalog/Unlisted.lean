import Mathlib.Data.List.Nodup
import Mathlib.Data.List.Pairwise
import TileCourse.Proofs.Catalog.Lookup

/-!
# Chapters that no course lists

The passes over a source look at the chapters that its courses list, and at no others. The levels
of the listed chapters are levels of the source, and no two of these chapters share one. Every
level of the source is in a listed chapter, so a chapter that is left out has none that it could
list as well: `Catalog.chapters_agree_iff` says that the chapters of a source that makes a catalog
agree with its levels exactly if those that no course lists are empty. A source is not refused when
they are not.
-/

namespace TileCourse

namespace Chapter

/-- No level is listed by both chapters. -/
def Apart (a b : Chapter) : Prop := ∀ id ∈ a.levelIds, id ∉ b.levelIds

instance : Std.Symm Apart := ⟨fun _ _ hapart id hb ha => hapart id ha hb⟩

/-- Every level that chapters list is there, and no two of the chapters list the same one. -/
structure Agree (chapters : List Chapter) (levels : List Level) : Prop where
  known : ∀ chapter ∈ chapters, ∀ id ∈ chapter.levelIds, ∃ level ∈ levels, level.id = id
  apart : chapters.Pairwise Apart

end Chapter

namespace CatalogSource

/-- A course names the chapter. -/
def Lists (source : CatalogSource) (chapter : Chapter) : Prop :=
  ∃ ids ∈ source.courseLists, chapter.id ∈ ids

instance (source : CatalogSource) : DecidablePred source.Lists := fun chapter =>
  inferInstanceAs (Decidable (∃ ids ∈ source.courseLists, chapter.id ∈ ids))

/-- The chapters that courses name, as often as they name them. -/
def playedChapters (source : CatalogSource) : List Chapter :=
  source.courseLists.flatMap source.named

variable {source : CatalogSource} {a b chapter : Chapter}

/-- The levels that are played are those of the chapters that are played. -/
theorem played_ids_eq (source : CatalogSource) :
    source.playedIds = source.playedChapters.flatMap (·.levelIds) := by
  rw [playedIds, playedChapters, List.flatMap_assoc]

/-- The chapters that courses name are those of the source that are listed. -/
theorem mem_played_chapters_iff :
    chapter ∈ source.playedChapters ↔ chapter ∈ source.chapters ∧ source.Lists chapter := by
  simp only [playedChapters, named, Lists, List.mem_flatMap, List.mem_filter, decide_eq_true_eq]
  constructor
  · intro h
    obtain ⟨ids, hids, id, hid, hchapter, rfl⟩ := h
    exact ⟨hchapter, ids, hids, hid⟩
  · intro h
    obtain ⟨hchapter, ids, hids, hid⟩ := h
    exact ⟨ids, hids, chapter.id, hid, hchapter, rfl⟩

namespace Consistent

/-- The levels of a listed chapter are played, and what is played is there. -/
theorem known (h : source.Consistent) (hchapter : chapter ∈ source.chapters)
    (hlisted : source.Lists chapter) :
    ∀ id ∈ chapter.levelIds, ∃ level ∈ source.levels, level.id = id := by
  intro id hid
  have hplayed : id ∈ source.playedIds := by
    rw [played_ids_eq]
    exact List.mem_flatMap.2 ⟨chapter, mem_played_chapters_iff.2 ⟨hchapter, hlisted⟩, hid⟩
  exact List.mem_map.1 (h.played.mem_iff.1 hplayed)

/-- Every level is played, so it is in a listed chapter. -/
theorem exists_listed (h : source.Consistent) {level : Level} (hlevel : level ∈ source.levels) :
    ∃ chapter ∈ source.chapters, source.Lists chapter ∧ level.id ∈ chapter.levelIds := by
  have hplayed : level.id ∈ source.playedIds :=
    h.played.mem_iff.2 (List.mem_map_of_mem hlevel)
  rw [played_ids_eq] at hplayed
  obtain ⟨chapter, hchapter, hid⟩ := List.mem_flatMap.1 hplayed
  obtain ⟨hchapter, hlisted⟩ := mem_played_chapters_iff.1 hchapter
  exact ⟨chapter, hchapter, hlisted, hid⟩

/-- No level is played twice, so two listed chapters share none. -/
theorem apart (h : source.Consistent) (ha : a ∈ source.chapters) (halisted : source.Lists a)
    (hb : b ∈ source.chapters) (hblisted : source.Lists b) (hne : a ≠ b) : a.Apart b := by
  have hnodup : (source.playedChapters.flatMap (·.levelIds)).Nodup := by
    rw [← played_ids_eq]
    exact h.played.nodup_iff.2 h.levelIds
  have happart : source.playedChapters.Pairwise Chapter.Apart :=
    (List.nodup_flatMap.1 hnodup).2.imp fun hdisjoint _ hid hshared => hdisjoint hid hshared
  exact happart.forall (mem_played_chapters_iff.2 ⟨ha, halisted⟩)
    (mem_played_chapters_iff.2 ⟨hb, hblisted⟩) hne

/-- No chapter of a consistent source is there twice. -/
theorem nodup_chapters (h : source.Consistent) : source.chapters.Nodup :=
  .of_map _ h.chapterIds

/-- The listed chapters agree with the levels. -/
theorem listed_agree (h : source.Consistent) :
    Chapter.Agree (source.chapters.filter source.Lists) source.levels := by
  constructor
  · intro chapter hchapter
    obtain ⟨hchapter, hlisted⟩ := List.mem_filter.1 hchapter
    exact h.known hchapter (of_decide_eq_true hlisted)
  · refine (h.nodup_chapters.filter _).pairwise_of_forall_ne fun a ha b hb hne => ?_
    obtain ⟨ha, halisted⟩ := List.mem_filter.1 ha
    obtain ⟨hb, hblisted⟩ := List.mem_filter.1 hb
    exact h.apart ha (of_decide_eq_true halisted) hb (of_decide_eq_true hblisted) hne

/-- Where all chapters agree with the levels, a chapter that is left out is empty: whatever level it
lists is in a listed chapter too. -/
theorem empty_of_agree (h : source.Consistent)
    (hagree : Chapter.Agree source.chapters source.levels) (hchapter : chapter ∈ source.chapters)
    (hleft : ¬source.Lists chapter) : chapter.levelIds = [] := by
  by_contra hlevels
  obtain ⟨id, hid⟩ := List.exists_mem_of_ne_nil _ hlevels
  obtain ⟨level, hlevel, rfl⟩ := hagree.known chapter hchapter id hid
  obtain ⟨other, hother, hlisted, hshared⟩ := h.exists_listed hlevel
  have hne : chapter ≠ other := by
    intro hsame
    exact hleft (hsame ▸ hlisted)
  exact hagree.apart.forall hchapter hother hne _ hid hshared

/-- Empty chapters agree with whatever the others agree with. -/
theorem agree_of_empty (h : source.Consistent)
    (hempty : ∀ chapter ∈ source.chapters, ¬source.Lists chapter → chapter.levelIds = []) :
    Chapter.Agree source.chapters source.levels := by
  constructor
  · intro chapter hchapter
    by_cases hlisted : source.Lists chapter
    · exact h.known hchapter hlisted
    · simp [hempty chapter hchapter hlisted]
  · refine h.nodup_chapters.pairwise_of_forall_ne fun a ha b hb hne => ?_
    by_cases halisted : source.Lists a
    · by_cases hblisted : source.Lists b
      · exact h.apart ha halisted hb hblisted hne
      · simp [Chapter.Apart, hempty b hb hblisted]
    · simp [Chapter.Apart, hempty a ha halisted]

end Consistent

end CatalogSource

namespace Catalog

variable {source : CatalogSource} {catalog : Catalog}

/-- In a source that makes a catalog, the chapters that courses list agree with the levels. All
chapters do exactly if those that no course lists are empty. -/
theorem chapters_agree_iff (h : ofSource source = .ok catalog) :
    Chapter.Agree (source.chapters.filter source.Lists) source.levels ∧
      (Chapter.Agree source.chapters source.levels ↔
        ∀ chapter ∈ source.chapters, ¬source.Lists chapter → chapter.levelIds = []) := by
  have hconsistent := consistent_of_source h
  exact ⟨hconsistent.listed_agree,
    fun hagree _ hchapter hleft => hconsistent.empty_of_agree hagree hchapter hleft,
    hconsistent.agree_of_empty⟩

/-- A course with one bed, and beside it a chapter that lists the bed again and one that is not
there. -/
def fallowSource : CatalogSource where
  courses := [⟨"year", "Year", "", ["spring"]⟩]
  chapters := [⟨"spring", "Spring", 0, ["tulip"]⟩, ⟨"fallow", "Fallow", 1, ["tulip", "weed"]⟩]
  levels := [bed "tulip"]

/-- A chapter outside every course does not make a source inconsistent. -/
theorem fallow_consistent : fallowSource.Consistent :=
  ⟨by decide, by decide, by decide, by decide, by decide⟩

/-- Beside the fallow chapter, the chapters of courses agree with the levels all the same. -/
theorem chapters_agree_fallow : ∃ catalog, ofSource fallowSource = .ok catalog ∧
    Chapter.Agree (fallowSource.chapters.filter fallowSource.Lists) fallowSource.levels ∧
      (Chapter.Agree fallowSource.chapters fallowSource.levels ↔
        ∀ chapter ∈ fallowSource.chapters, ¬fallowSource.Lists chapter → chapter.levelIds = []) := by
  obtain ⟨catalog, hcatalog⟩ := exists_of_consistent fallow_consistent
  exact ⟨catalog, hcatalog, chapters_agree_iff hcatalog⟩

/-- A catalog may be made of a source with a chapter that agrees with no other and with no level, as
long as no course lists it. -/
theorem not_chapters_agree : ¬∀ (source : CatalogSource) (catalog : Catalog),
    ofSource source = .ok catalog → Chapter.Agree source.chapters source.levels := by
  intro hall
  obtain ⟨catalog, hcatalog⟩ := exists_of_consistent fallow_consistent
  have hagree := hall fallowSource catalog hcatalog
  obtain ⟨level, hlevel, hid⟩ :=
    hagree.known ⟨"fallow", "Fallow", 1, ["tulip", "weed"]⟩ (by decide) "weed" (by decide)
  obtain rfl := List.mem_singleton.1 hlevel
  exact absurd hid (by decide)

end Catalog

end TileCourse
