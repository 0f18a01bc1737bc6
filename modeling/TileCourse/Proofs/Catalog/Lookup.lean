import TileCourse.Proofs.Catalog.Acceptance

/-!
# Looking things up in a catalog

Levels and slots are kept in two tables that are filled in different passes, and the order of play
in a list of chapters. `Catalog.Exact` says what every question about a catalog is answered with,
in terms of the chapters alone, and how these come from the courses of the source.
-/

namespace TileCourse

/-- A chapter may stand before another in a course: chapters are sorted by their order, and those
of the same order by their ids. -/
def Chapter.Precedes (a b : Chapter) : Prop :=
  a.order < b.order ∨ a.order = b.order ∧ a.id ≤ b.id

namespace Chapter.Precedes

/-- A chapter precedes all that those after it precede. -/
theorem trans {a b c : Chapter} (hab : a.Precedes b) (hbc : b.Precedes c) :
    a.Precedes c := by
  rcases hab with hab | ⟨hab, hids⟩
  · rcases hbc with hbc | ⟨hbc, -⟩
    · exact .inl (Int32.lt_trans hab hbc)
    · exact .inl (hbc ▸ hab)
  · rcases hbc with hbc | ⟨hbc, hlater⟩
    · exact .inl (hab ▸ hbc)
    · exact .inr ⟨hab.trans hbc, String.le_trans hids hlater⟩

/-- Of two chapters one precedes the other. -/
theorem total (a b : Chapter) : a.Precedes b ∨ b.Precedes a := by
  by_cases hab : a.order < b.order
  · exact .inl (.inl hab)
  · by_cases hba : b.order < a.order
    · exact .inr (.inl hba)
    · have hsame : a.order = b.order :=
        Int32.le_antisymm (Int32.not_lt.1 hba) (Int32.not_lt.1 hab)
      exact (String.le_total a.id b.id).imp (.inr ⟨hsame, ·⟩) (.inr ⟨hsame.symm, ·⟩)

/-- Of two chapters that may stand before each other, both have the same order and id. -/
theorem antisymm {a b : Chapter} (hab : a.Precedes b) (hba : b.Precedes a) :
    a.order = b.order ∧ a.id = b.id := by
  rcases hab with hless | ⟨hsame, hids⟩
  · rcases hba with hmore | ⟨hsame, -⟩
    · exact absurd hmore (Int32.lt_asymm hless)
    · exact absurd hsame.symm (Int32.ne_of_lt hless)
  · rcases hba with hmore | ⟨-, hback⟩
    · exact absurd hsame.symm (Int32.ne_of_lt hmore)
    · exact ⟨hsame, String.le_antisymm hids hback⟩

end Chapter.Precedes

namespace Catalog

/-! ### Chapters in the order of play -/

/-- The comparison by which chapters are sorted tells which precedes which. -/
theorem played_before_iff {a b : Chapter} : playedBefore a b = true ↔ a.Precedes b := by
  simp only [playedBefore, Chapter.Precedes, Bool.or_eq_true, Bool.and_eq_true, decide_eq_true_eq,
    beq_iff_eq, Bool.not_eq_true', decide_eq_false_iff_not, String.not_lt]

/-- The chapters of a course are sorted, whatever they are. -/
theorem pairwise_precedes (chapters : List Chapter) :
    (chapters.mergeSort playedBefore).Pairwise Chapter.Precedes := by
  have hsorted : (chapters.mergeSort playedBefore).Pairwise fun a b => playedBefore a b = true := by
    refine List.pairwise_mergeSort (fun a b c hab hbc => ?_) (fun a b => ?_) chapters
    · exact played_before_iff.2 ((played_before_iff.1 hab).trans (played_before_iff.1 hbc))
    · rw [Bool.or_eq_true, played_before_iff, played_before_iff]
      exact Chapter.Precedes.total a b
  exact hsorted.imp played_before_iff.1

variable {source : CatalogSource} {catalog : Catalog}

/-- A catalog has the chapters of its source in the order of play. -/
theorem chapters_eq_in_play (h : ofSource source = .ok catalog) :
    catalog.chapters = inPlay source := by
  obtain ⟨_, _, _, hordered, _⟩ := of_source_eq_ok_iff.1 h
  rw [((order_chapters_eq_ok_iff (consistent_of_source h).chapterIds).1 hordered).2,
    courses_of_lists, inPlay]

/-! ### Slots -/

/-- One member of a list stands immediately before another. -/
theorem pair_infix_iff {a b : String} {ids : List String} :
    [a, b] <:+: ids ↔ ∃ index, ids[index]? = some a ∧ ids[index + 1]? = some b := by
  rw [List.infix_iff_getElem?]
  constructor
  · rintro ⟨index, -, hpair⟩
    exact ⟨index, by simpa using hpair 0 (by simp), by simpa [Nat.add_comm] using hpair 1 (by simp)⟩
  · rintro ⟨index, ha, hb⟩
    have hlength : index + 1 < ids.length := (List.getElem?_eq_some_iff.1 hb).1
    refine ⟨index, by simp; omega, fun offset hoffset => ?_⟩
    match offset, hoffset with
    | 0, _ => simpa using ha
    | 1, _ => simpa [Nat.add_comm] using hb

/-- A level has a slot in a chapter if it stands at the index that the slot gives. -/
theorem mem_slots_from {chapter index : Nat} {ids : List String} {id : String} {slot : Slot} :
    (id, slot) ∈ slotsFrom chapter ids index ↔
      slot.chapter = chapter ∧ index ≤ slot.index ∧ ids[slot.index - index]? = some id := by
  obtain ⟨number, place⟩ := slot
  simp only [slotsFrom, List.mem_map, Prod.mk.injEq, Slot.mk.injEq, Prod.exists,
    List.mk_mem_zipIdx_iff_le_and_getElem?_sub]
  constructor
  · rintro ⟨_, _, hplace, rfl, rfl, rfl⟩
    exact ⟨rfl, hplace⟩
  · rintro ⟨rfl, hplace⟩
    exact ⟨id, place, hplace, rfl, rfl, rfl⟩

/-- A level has a slot if it stands in the chapter, at the index, that the slot gives. -/
theorem mem_slots_of {chapters : List Chapter} {number : Nat} {id : String} {slot : Slot} :
    (id, slot) ∈ slotsOf chapters number ↔ number ≤ slot.chapter ∧
      ∃ chapter, chapters[slot.chapter - number]? = some chapter ∧
        chapter.levelIds[slot.index]? = some id := by
  induction chapters generalizing number with
  | nil => simp [slotsOf]
  | cons first rest ih =>
      rw [slotsOf, List.mem_append, mem_slots_from, ih]
      rcases Nat.lt_trichotomy slot.chapter number with hbefore | hhere | hafter
      · have hlater : ¬number + 1 ≤ slot.chapter := by omega
        simp [hlater, Nat.not_le.2 hbefore, Nat.ne_of_lt hbefore]
      · have hlater : ¬number + 1 ≤ number := by omega
        simp [hlater, hhere]
      · -- what is further on is as far on among the other chapters, less the one that went before
        obtain ⟨more, hmore⟩ : ∃ more, slot.chapter - number = more + 1 :=
          ⟨slot.chapter - number - 1, by omega⟩
        have hrest : slot.chapter - (number + 1) = more := by omega
        simp [hmore, hrest, Nat.ne_of_gt hafter, Nat.le_of_lt hafter, Nat.succ_le_of_lt hafter]

namespace Indexes

variable {id previous : String} {slot : Slot} {chapter : Chapter} {level : Level}

/-- A slot is the place of a level in the order of play. -/
theorem slot_eq_some_iff (h : catalog.Indexes source) : catalog.slot? id = some slot ↔
    ∃ chapter, catalog.chapters[slot.chapter]? = some chapter ∧
      chapter.levelIds[slot.index]? = some id := by
  rw [slot?, Table.get?_eq_some_iff, h.slots.mem_iff, mem_slots_of]
  simp

/-- Exactly the levels that are not there have no slot. -/
theorem slot_eq_none_iff (h : catalog.Indexes source) :
    catalog.slot? id = none ↔ catalog.level? id = none := by
  have hsame : catalog.slots.contains id = true ↔ catalog.levels.contains id = true := by
    have hkeys := h.slots.map (·.1)
    rw [slots_of_keys] at hkeys
    rw [Table.contains_eq_true_iff, Table.contains_eq_true_iff, ← h.level_ids_perm.mem_iff]
    exact hkeys.mem_iff
  rw [Table.contains, Table.contains, Option.isSome_iff_ne_none, Option.isSome_iff_ne_none] at hsame
  exact not_iff_not.1 hsame

/-- The levels of a catalog are those of its source, each under its own id. -/
theorem level_eq_some_iff (h : catalog.Indexes source) :
    catalog.level? id = some level ↔ level ∈ source.levels ∧ level.id = id := by
  rw [level?, Table.get?_eq_some_iff, h.levels.mem_iff, List.mem_map]
  constructor
  · rintro ⟨_, hlevel, heq⟩
    obtain ⟨rfl, rfl⟩ := Prod.mk.inj heq
    exact ⟨hlevel, rfl⟩
  · rintro ⟨hlevel, rfl⟩
    exact ⟨level, hlevel, rfl⟩

/-- A level is listed in one place only. -/
theorem place_unique (h : catalog.Indexes source) {a b : Nat} {first second : Chapter}
    (ha : catalog.chapters[a]? = some first) (hb : catalog.chapters[b]? = some second)
    (hfirst : id ∈ first.levelIds) (hsecond : id ∈ second.levelIds) : a = b := by
  obtain ⟨i, hi⟩ := List.mem_iff_getElem?.1 hfirst
  obtain ⟨j, hj⟩ := List.mem_iff_getElem?.1 hsecond
  have hhere : catalog.slot? id = some ⟨a, i⟩ := h.slot_eq_some_iff.2 ⟨first, ha, hi⟩
  have hthere : catalog.slot? id = some ⟨b, j⟩ := h.slot_eq_some_iff.2 ⟨second, hb, hj⟩
  exact congrArg Slot.chapter (Option.some.inj (hhere.symm.trans hthere))

/-- The chapter of a level is the one that lists it. -/
theorem chapter_of_eq_some_iff (h : catalog.Indexes source) :
    catalog.chapterOf? id = some chapter ↔ chapter ∈ catalog.chapters ∧ id ∈ chapter.levelIds := by
  rw [chapterOf?, Option.bind_eq_some_iff]
  constructor
  · rintro ⟨slot, hslot, hchapter⟩
    obtain ⟨_, hsame, hid⟩ := h.slot_eq_some_iff.1 hslot
    obtain rfl := Option.some.inj (hchapter.symm.trans hsame)
    exact ⟨List.mem_of_getElem? hchapter, List.mem_of_getElem? hid⟩
  · rintro ⟨hchapter, hid⟩
    obtain ⟨number, hnumber⟩ := List.mem_iff_getElem?.1 hchapter
    obtain ⟨index, hindex⟩ := List.mem_iff_getElem?.1 hid
    exact ⟨⟨number, index⟩, h.slot_eq_some_iff.2 ⟨chapter, hnumber, hindex⟩, hnumber⟩

/-- The predecessor of a level stands just before it in a chapter. -/
theorem predecessor_eq_some_iff (h : catalog.Indexes source) :
    catalog.predecessor? id = some previous ↔
      ∃ chapter ∈ catalog.chapters, [previous, id] <:+: chapter.levelIds := by
  simp only [pair_infix_iff]
  constructor
  · intro hprevious
    unfold predecessor? at hprevious
    -- the first level of a chapter has nothing before it, like a level without a slot
    split at hprevious
    · rename_i number index hslot
      obtain ⟨chapter, hchapter, hbefore⟩ := Option.bind_eq_some_iff.1 hprevious
      obtain ⟨_, hsame, hid⟩ := h.slot_eq_some_iff.1 hslot
      obtain rfl := Option.some.inj (hchapter.symm.trans hsame)
      exact ⟨chapter, List.mem_of_getElem? hchapter, index, hbefore, hid⟩
    · cases hprevious
  · rintro ⟨chapter, hchapter, index, hbefore, hid⟩
    obtain ⟨number, hnumber⟩ := List.mem_iff_getElem?.1 hchapter
    have hslot : catalog.slot? id = some ⟨number, index + 1⟩ :=
      h.slot_eq_some_iff.2 ⟨chapter, hnumber, hid⟩
    simp [predecessor?, hslot, hnumber, hbefore]

end Indexes

/-! ### Catalogs are exact -/

/-- What a catalog answers is what its chapters say, and these come from the courses of its
source. -/
structure Exact (catalog : Catalog) (source : CatalogSource) : Prop where
  /-- Play goes through the levels of the source, each of them once. -/
  inOrder : catalog.levelsInOrder.Perm source.levels
  once : (catalog.levelsInOrder.map (·.id)).Nodup
  count : catalog.levelsInOrder.length = catalog.levelCount
  level : ∀ id level, catalog.level? id = some level ↔ level ∈ source.levels ∧ level.id = id
  slot : ∀ id number index, catalog.slot? id = some ⟨number, index⟩ ↔
    ∃ chapter, catalog.chapters[number]? = some chapter ∧ chapter.levelIds[index]? = some id
  slotless : ∀ id, catalog.slot? id = none ↔ catalog.level? id = none
  /-- There is a chapter wherever a slot points. -/
  inRange : ∀ id slot, catalog.slot? id = some slot → slot.chapter < catalog.chapters.length
  chapter : ∀ id chapter, catalog.chapterOf? id = some chapter ↔
    chapter ∈ catalog.chapters ∧ id ∈ chapter.levelIds
  /-- No level is listed in two places of the order of play. -/
  onlyChapter : ∀ id (a b : Nat) (first second : Chapter), catalog.chapters[a]? = some first →
    catalog.chapters[b]? = some second → id ∈ first.levelIds → id ∈ second.levelIds → a = b
  predecessor : ∀ id previous, catalog.predecessor? id = some previous ↔
    ∃ chapter ∈ catalog.chapters, [previous, id] <:+: chapter.levelIds
  /-- The chapters are those of one course after the other, each course in order. -/
  courses : ∃ owns : List (List Chapter), catalog.chapters = owns.flatten ∧
    List.Forall₂ (fun ids own => own.Perm (source.named ids) ∧ own.Pairwise Chapter.Precedes)
      source.courseLists owns

/-- Every catalog that is made of a source is exact. -/
theorem exact_of_source (h : ofSource source = .ok catalog) : catalog.Exact source := by
  have hindexes := indexes_of_source h
  have horder := hindexes.levels_in_order_perm
  exact {
    inOrder := horder
    once := (horder.map (·.id)).nodup_iff.2 hindexes.nodup_ids
    count := horder.length_eq.trans hindexes.level_count_eq.symm
    level := fun _ _ => hindexes.level_eq_some_iff
    slot := fun _ _ _ => hindexes.slot_eq_some_iff
    slotless := fun _ => hindexes.slot_eq_none_iff
    inRange := fun _ _ hslot => by
      obtain ⟨_, hchapter, _⟩ := hindexes.slot_eq_some_iff.1 hslot
      exact (List.getElem?_eq_some_iff.1 hchapter).1
    chapter := fun _ _ => hindexes.chapter_of_eq_some_iff
    onlyChapter := fun _ _ _ _ _ => hindexes.place_unique
    predecessor := fun _ _ => hindexes.predecessor_eq_some_iff
    courses := by
      refine ⟨source.courseLists.map fun ids => (source.named ids).mergeSort playedBefore, ?_, ?_⟩
      · rw [chapters_eq_in_play h, inPlay, List.flatMap_def]
      · rw [List.forall₂_map_right_iff, List.forall₂_same]
        exact fun ids _ => ⟨List.mergeSort_perm _ _, pairwise_precedes _⟩ }

/-- A level of one tile. -/
def bed (id : String) : Level :=
  ⟨id, id, 1, 1, [⟨0, 0, true, none⟩], ⟨0, 0, .north⟩, .none, 1, [], .empty, "", .none⟩

/-- Two courses; the first names its later chapter first, and the order of two of its chapters is
the same. -/
def gardenSource : CatalogSource where
  courses := [⟨"year", "Year", "", ["summer", "spring", "may"]⟩, ⟨"rest", "Rest", "", ["winter"]⟩]
  chapters := [⟨"winter", "Winter", 0, ["snow"]⟩, ⟨"summer", "Summer", 2, ["rose", "lily"]⟩,
    ⟨"spring", "Spring", -1, ["tulip"]⟩, ⟨"may", "May", -1, []⟩]
  levels := [bed "snow", bed "tulip", bed "lily", bed "rose"]

/-- The garden makes an exact catalog. -/
theorem exact_garden : ∃ catalog,
    ofSource gardenSource = .ok catalog ∧ catalog.Exact gardenSource := by
  have hconsistent : gardenSource.Consistent :=
    ⟨by decide, by decide, by decide, by decide, by decide⟩
  obtain ⟨catalog, hcatalog⟩ := exists_of_consistent hconsistent
  exact ⟨catalog, hcatalog, exact_of_source hcatalog⟩

end Catalog

end TileCourse
