import TileCourse.Proofs.Catalog.Index
import TileCourse.Proofs.Outcome

/-!
# The sources that make a catalog

The passes over a source check one thing after the other, each with a table or a list of its own.
Together they ask for no more and no less than `CatalogSource.Consistent`: grids with a tile, ids
that tell levels and chapters apart, courses that name chapters of the source, and every level of
the source played once. `Catalog.accepted_iff_consistent` says so.
-/

namespace TileCourse

namespace CatalogSource

/-- The ids of chapters that each course names, in the order of the courses. A source without
courses has one that names every chapter. -/
def courseLists (source : CatalogSource) : List (List String) :=
  match source.courses with
  | [] => [source.chapters.map (·.id)]
  | courses => courses.map (·.chapterIds)

/-- The chapters that ids name, as often as they name them. -/
def named (source : CatalogSource) (ids : List String) : List Chapter :=
  ids.flatMap fun id => source.chapters.filter fun chapter => chapter.id = id

/-- The ids of the levels in the chapters of all courses, as often as they are played. -/
def playedIds (source : CatalogSource) : List String :=
  source.courseLists.flatMap fun ids => (source.named ids).flatMap (·.levelIds)

/-- Every reference in a source leads to exactly one thing. -/
structure Consistent (source : CatalogSource) : Prop where
  grids : ∀ level ∈ source.levels, 1 ≤ level.width ∧ 1 ≤ level.height
  levelIds : (source.levels.map (·.id)).Nodup
  chapterIds : (source.chapters.map (·.id)).Nodup
  references : ∀ ids ∈ source.courseLists, ∀ id ∈ ids, ∃ chapter ∈ source.chapters, chapter.id = id
  played : source.playedIds.Perm (source.levels.map (·.id))

end CatalogSource

namespace Catalog

/-! ### Ids that are new -/

/-- No id of a list is there twice, and none was seen before. -/
def New (seen : String → Prop) (ids : List String) : Prop :=
  ids.Nodup ∧ ∀ id ∈ ids, ¬seen id

variable {seen : String → Prop}

/-- No ids are new, whatever was seen before. -/
theorem new_nil : New seen [] := ⟨.nil, by simp⟩

/-- A list of new ids begins with a new id, and the others are new when that one has been seen. -/
theorem new_cons_iff {id : String} {rest : List String} :
    New seen (id :: rest) ↔ ¬seen id ∧ New (fun other => other = id ∨ seen other) rest := by
  rw [New, New, List.nodup_cons, List.forall_mem_cons]
  constructor
  · rintro ⟨⟨hid, hrest⟩, hnew, hothers⟩
    refine ⟨hnew, hrest, fun other hother => ?_⟩
    rintro (rfl | hseen)
    · exact hid hother
    · exact hothers other hother hseen
  · rintro ⟨hnew, hrest, hothers⟩
    refine ⟨⟨fun hid => hothers id hid (.inl rfl), hrest⟩, hnew, fun other hother hseen => ?_⟩
    exact hothers other hother (.inr hseen)

/-- Two lists of ids are new together if the first is new and the second is new after it. -/
theorem new_append_iff {first rest : List String} : New seen (first ++ rest) ↔
    New seen first ∧ New (fun other => other ∈ first ∨ seen other) rest := by
  induction first generalizing seen with
  | nil => simp [new_nil]
  | cons id first ih =>
      rw [List.cons_append, new_cons_iff, new_cons_iff, ih, and_assoc]
      simp only [List.mem_cons, or_assoc, or_left_comm]

/-! ### When a pass succeeds -/

/-- Levels can be gathered exactly if each grid has a tile and their ids are new. -/
theorem gather_levels_ok_iff {levels : List Level} {table : Table Level} :
    (∃ gathered, gatherLevels levels table = .ok gathered) ↔
      (∀ level ∈ levels, 1 ≤ level.width ∧ 1 ≤ level.height) ∧
        New (fun id => table.contains id = true) (levels.map (·.id)) := by
  induction levels generalizing table with
  | nil => simp [gatherLevels, new_nil]
  | cons level rest ih =>
      have hgrid : ¬(level.width = 0 ∨ level.height = 0) ↔ 1 ≤ level.width ∧ 1 ≤ level.height := by
        grind
      rw [gatherLevels, List.forall_mem_cons, List.map_cons, new_cons_iff, ← hgrid]
      by_cases hempty : level.width = 0 ∨ level.height = 0
      · simp [hempty]
      · by_cases hseen : table.contains level.id = true
        · simp [hempty, hseen]
        · -- the levels that come after find this one among those that have been gathered
          rw [if_neg hempty, if_neg hseen, ih]
          simp only [Table.contains_insert_iff, hempty, hseen, Bool.false_eq_true,
            not_false_eq_true, true_and]

/-- The check of chapters succeeds exactly if their ids are new. -/
theorem check_chapters_ok_iff {chapters : List Chapter} {seen : List String} :
    checkChapters chapters seen = .ok () ↔ New (· ∈ seen) (chapters.map (·.id)) := by
  induction chapters generalizing seen with
  | nil => simp [checkChapters, new_nil]
  | cons chapter rest ih =>
      rw [checkChapters, List.map_cons, new_cons_iff]
      by_cases hseen : chapter.id ∈ seen
      · simp [hseen]
      · rw [if_neg hseen, ih]
        simp only [List.mem_cons, hseen, not_false_eq_true, true_and]

/-- The levels of a chapter can be placed exactly if they are known and have no slots yet. -/
theorem place_levels_ok_iff {levels : Table Level} {chapter index : Nat} {name : String}
    {ids : List String} {slots : Table Slot} :
    (∃ placed, placeLevels levels chapter name ids index slots = .ok placed) ↔
      (∀ id ∈ ids, levels.contains id = true) ∧ New (fun id => slots.contains id = true) ids := by
  induction ids generalizing index slots with
  | nil => simp [placeLevels, new_nil]
  | cons id rest ih =>
      rw [placeLevels, List.forall_mem_cons, new_cons_iff]
      by_cases hknown : levels.contains id = true
      · by_cases hseen : slots.contains id = true
        · simp [hknown, hseen]
        · rw [if_neg (by simpa using hknown), if_neg hseen, ih]
          simp only [Table.contains_insert_iff, hknown, hseen, Bool.false_eq_true,
            not_false_eq_true, true_and]
      · simp [hknown]

/-- The levels of a chapter are placed beside those that have been placed before. -/
theorem contains_of_place_levels {levels : Table Level} {chapter index : Nat} {name : String}
    {ids : List String} {slots placed : Table Slot}
    (h : placeLevels levels chapter name ids index slots = .ok placed) {id : String} :
    placed.contains id = true ↔ id ∈ ids ∨ slots.contains id = true := by
  have hkeys : placed.keys.Perm (ids ++ slots.keys) := by
    have hperm := (place_levels_perm h).2.map (·.1)
    rwa [List.map_append, slots_from_keys] at hperm
  rw [Table.contains_eq_true_iff, Table.contains_eq_true_iff, hkeys.mem_iff, List.mem_append]

/-- Chapters can be placed exactly if their levels are known and all of them have no slots yet. -/
theorem place_chapters_ok_iff {levels : Table Level} {chapters : List Chapter} {number : Nat}
    {slots : Table Slot} :
    (∃ placed, placeChapters levels chapters number slots = .ok placed) ↔
      (∀ id ∈ chapters.flatMap (·.levelIds), levels.contains id = true) ∧
        New (fun id => slots.contains id = true) (chapters.flatMap (·.levelIds)) := by
  induction chapters generalizing number slots with
  | nil => simp [placeChapters, new_nil]
  | cons chapter rest ih =>
      have hown : (∃ placed, placeLevels levels number chapter.id chapter.levelIds 0 slots =
          .ok placed) ↔ _ := place_levels_ok_iff
      rw [placeChapters, List.flatMap_cons, List.forall_mem_append, new_append_iff]
      cases hplaced : placeLevels levels number chapter.id chapter.levelIds 0 slots with
      | error error =>
          -- the chapter alone is at fault: it asks for no more than the whole list does
          rw [hplaced] at hown
          refine iff_of_false (by simp) fun hall => ?_
          obtain ⟨placed, hok⟩ := hown.2 ⟨hall.1.1, hall.2.1⟩
          cases hok
      | ok placed =>
          rw [hplaced] at hown
          obtain ⟨hknown, hnew⟩ := hown.1 ⟨placed, rfl⟩
          show (∃ all, placeChapters levels rest (number + 1) placed = .ok all) ↔ _
          simp only [ih, contains_of_place_levels hplaced]
          exact ⟨fun h => ⟨⟨hknown, h.1⟩, hnew, h.2⟩, fun h => ⟨h.1.2, h.2.2⟩⟩

/-! ### Chapters in the order of play -/

/-- Where the ids of chapters differ, the chapter that is found under an id is the only one. -/
theorem filter_eq_of_find {chapters : List Chapter} (hids : (chapters.map (·.id)).Nodup)
    {id : String} {chapter : Chapter}
    (hfind : chapters.find? (fun chapter => chapter.id == id) = some chapter) :
    (chapters.filter fun chapter => chapter.id = id) = [chapter] := by
  induction chapters with
  | nil => cases hfind
  | cons first rest ih =>
      obtain ⟨hfirst, hrest⟩ := List.nodup_cons.1 hids
      by_cases hsame : first.id = id
      · -- no chapter after the first one has its id, so the filter stops here as well
        rw [List.find?_cons_of_pos (by simpa using hsame)] at hfind
        obtain rfl := Option.some.inj hfind
        have hothers : (rest.filter fun chapter => chapter.id = id) = [] := by
          rw [List.filter_eq_nil_iff]
          intro other hother hid
          rw [decide_eq_true_eq] at hid
          exact hfirst (List.mem_map.2 ⟨other, hother, hid.trans hsame.symm⟩)
        rw [List.filter_cons_of_pos (by simpa using hsame), hothers]
      · rw [List.find?_cons_of_neg (by simpa using hsame)] at hfind
        rw [List.filter_cons_of_neg (by simpa using hsame), ih hrest hfind]

variable {source : CatalogSource}

/-- A chapter that is found stands before those that the course lists after it. -/
theorem listed_cons_of_find {chapters : List Chapter} {course : Course} {id : String}
    {rest : List String} {chapter : Chapter}
    (hfind : chapters.find? (fun chapter => chapter.id == id) = some chapter) :
    listed chapters course (id :: rest) = (listed chapters course rest).map (chapter :: ·) := by
  rw [listed, hfind]
  cases listed chapters course rest <;> rfl

/-- A course lists the chapters it names, if the source has them all. -/
theorem listed_eq_ok_iff (hids : (source.chapters.map (·.id)).Nodup) {course : Course}
    {ids : List String} {own : List Chapter} :
    listed source.chapters course ids = .ok own ↔
      (∀ id ∈ ids, ∃ chapter ∈ source.chapters, chapter.id = id) ∧ own = source.named ids := by
  induction ids generalizing own with
  | nil => simp [listed, CatalogSource.named, eq_comm]
  | cons id rest ih =>
      rw [List.forall_mem_cons]
      cases hfind : source.chapters.find? fun chapter => chapter.id == id with
      | none =>
          have hmissing : ¬∃ chapter ∈ source.chapters, chapter.id = id := by
            simpa using List.find?_eq_none.1 hfind
          simp [listed, hfind, hmissing]
      | some chapter =>
          have hfound : ∃ chapter ∈ source.chapters, chapter.id = id :=
            ⟨chapter, List.mem_of_find?_eq_some hfind, by simpa using List.find?_some hfind⟩
          have hnamed : source.named (id :: rest) = chapter :: source.named rest := by
            rw [CatalogSource.named, List.flatMap_cons, filter_eq_of_find hids hfind]
            rfl
          rw [listed_cons_of_find hfind, map_eq_ok_iff, hnamed, and_iff_right hfound,
            eq_comm (a := own)]
          simp only [ih, and_assoc, exists_and_left, exists_eq_left]

/-- The chapters of the first course, in order, stand before those of the other courses. -/
theorem order_chapters_cons (chapters : List Chapter) (course : Course) (rest : List Course) :
    orderChapters chapters (course :: rest) = (listed chapters course course.chapterIds).bind
      fun own => (orderChapters chapters rest).map (own.mergeSort playedBefore ++ ·) := by
  rw [orderChapters]
  cases listed chapters course course.chapterIds with
  | error error => rfl
  | ok own => cases orderChapters chapters rest <;> rfl

/-- The order of play has the named chapters course by course, if the source has them all. -/
theorem order_chapters_eq_ok_iff (hids : (source.chapters.map (·.id)).Nodup)
    {courses : List Course} {ordered : List Chapter} :
    orderChapters source.chapters courses = .ok ordered ↔
      (∀ ids ∈ courses.map (·.chapterIds), ∀ id ∈ ids,
        ∃ chapter ∈ source.chapters, chapter.id = id) ∧
      ordered = (courses.map (·.chapterIds)).flatMap fun ids =>
        (source.named ids).mergeSort playedBefore := by
  induction courses generalizing ordered with
  | nil => simp [orderChapters, eq_comm]
  | cons course rest ih =>
      rw [List.map_cons, List.forall_mem_cons, List.flatMap_cons, order_chapters_cons]
      show (listed source.chapters course course.chapterIds >>= _) = _ ↔ _
      rw [bind_eq_ok_iff, eq_comm (a := ordered)]
      simp only [map_eq_ok_iff, listed_eq_ok_iff hids, ih, and_assoc, exists_and_left,
        exists_eq_left]

/-- The courses of a source name the chapters that it says they name. -/
theorem courses_of_lists (source : CatalogSource) :
    (coursesOf source).map (·.chapterIds) = source.courseLists := by
  unfold coursesOf CatalogSource.courseLists
  cases source.courses <;> rfl

/-- The chapters of each course in the order of play, course by course. -/
def inPlay (source : CatalogSource) : List Chapter :=
  source.courseLists.flatMap fun ids => (source.named ids).mergeSort playedBefore

/-- Putting the chapters of each course in order changes nothing about which levels are played. -/
theorem in_play_level_ids_perm (source : CatalogSource) :
    ((inPlay source).flatMap (·.levelIds)).Perm source.playedIds := by
  rw [inPlay, List.flatMap_assoc, CatalogSource.playedIds]
  exact .flatMap_left _ fun ids _ => (List.mergeSort_perm _ _).flatMap_right _

/-! ### Sources that are accepted -/

/-- A source of which a catalog was made is consistent. -/
theorem consistent_of_source {catalog : Catalog} (h : ofSource source = .ok catalog) :
    source.Consistent := by
  obtain ⟨hlevels, hchecked, _, hordered, _⟩ := of_source_eq_ok_iff.1 h
  -- that levels were placed at all is in the indexes; the earlier passes give the rest
  have hindexes := indexes_of_source h
  obtain ⟨hgrids, _⟩ := gather_levels_ok_iff.1 ⟨_, hlevels⟩
  have hchapters := (check_chapters_ok_iff.1 hchecked).1
  obtain ⟨hreferences, hplay⟩ := (order_chapters_eq_ok_iff hchapters).1 hordered
  rw [courses_of_lists] at hreferences hplay
  refine ⟨hgrids, hindexes.nodup_ids, hchapters, hreferences, ?_⟩
  have hplayed : source.playedIds.Perm catalog.levelIds := by
    rw [levelIds, hplay]
    exact (in_play_level_ids_perm source).symm
  exact hplayed.trans (hindexes.level_ids_perm.trans hindexes.keys_perm)

/-- Every pass over a consistent source succeeds. -/
theorem exists_of_consistent (h : source.Consistent) :
    ∃ catalog, ofSource source = .ok catalog := by
  have hplay : ((inPlay source).flatMap (·.levelIds)).Perm (source.levels.map (·.id)) :=
    (in_play_level_ids_perm source).trans h.played
  have hnothing (ids : List String) (hids : ids.Nodup) {α : Type} :
      New (fun id => (Table.empty : Table α).contains id = true) ids :=
    ⟨hids, fun _ _ hseen => by cases hseen⟩
  obtain ⟨levels, hlevels⟩ := gather_levels_ok_iff.2 ⟨h.grids, hnothing _ h.levelIds⟩
  have hkeys : levels.keys.Perm (source.levels.map (·.id)) := by
    simpa [Table.empty, Table.keys, Function.comp_def] using (gather_levels_perm hlevels).map (·.1)
  have hchecked := check_chapters_ok_iff.2 ⟨h.chapterIds, fun _ _ => List.not_mem_nil⟩
  have hordered : orderChapters source.chapters (coursesOf source) = .ok (inPlay source) := by
    rw [order_chapters_eq_ok_iff h.chapterIds, courses_of_lists]
    exact ⟨h.references, rfl⟩
  -- the levels in the order of play are those that were gathered, so each of them is known
  have hknown : ∀ id ∈ (inPlay source).flatMap (·.levelIds), levels.contains id = true :=
    fun id hid => Table.contains_eq_true_iff.2 ((hplay.trans hkeys.symm).mem_iff.1 hid)
  obtain ⟨slots, hslots⟩ := place_chapters_ok_iff.2
    ⟨hknown, hnothing _ (hplay.nodup_iff.2 h.levelIds)⟩
  have hplaced : ∀ id ∈ levels.keys, slots.contains id = true := by
    intro id hid
    have hid : id ∈ (inPlay source).flatMap (·.levelIds) := (hplay.trans hkeys.symm).mem_iff.2 hid
    rw [Table.contains_eq_true_iff, Table.keys, ((place_chapters_perm hslots).2.map (·.1)).mem_iff,
      List.map_append, slots_of_keys]
    exact List.mem_append_left _ hid
  exact ⟨⟨coursesOf source, inPlay source, levels, slots⟩,
    of_source_eq_ok_iff.2 ⟨hlevels, hchecked, rfl, hordered, hslots, hplaced⟩⟩

/-- A source makes a catalog if and only if it is consistent. -/
theorem accepted_iff_consistent (source : CatalogSource) :
    (∃ catalog, ofSource source = .ok catalog) ↔ source.Consistent :=
  ⟨fun ⟨_, h⟩ => consistent_of_source h, exists_of_consistent⟩

end Catalog

end TileCourse
