import TileCourse.Proofs.Catalog.Lookup
import TileCourse.Proofs.Classroom.Earnings
import TileCourse.Proofs.Classroom.Requests

/-!
# What a student is shown of a level

Whether a level is open is asked in three places: by the map, for one level alone, and before a
level is handed out. Each of them finds its answer in its own way, through lists of chapters or
through slots. `Profile.Ruled` says what all of them must answer, with the chapters alone, and
`Roster.views_agree` that they do so for every student, whatever the records are.
-/

namespace TileCourse

namespace Catalog.Indexes

variable {source : CatalogSource} {catalog : Catalog} {id : String} {level : Level}

/-- Every level is listed in a chapter, in a place of its own. -/
theorem exists_place (h : catalog.Indexes source) (hlevel : catalog.level? id = some level) :
    ∃ slot chapter, catalog.slot? id = some slot ∧
      catalog.chapters[slot.chapter]? = some chapter ∧ chapter.levelIds[slot.index]? = some id := by
  have hplaced : catalog.slot? id ≠ none := by
    rw [Ne, h.slot_eq_none_iff, hlevel]
    exact Option.some_ne_none level
  obtain ⟨slot, hslot⟩ := Option.ne_none_iff_exists'.1 hplaced
  obtain ⟨chapter, hchapter, hid⟩ := h.slot_eq_some_iff.1 hslot
  exact ⟨slot, chapter, hslot, hchapter, hid⟩

/-- Looking up the levels of a chapter gives each of them once, in the order of the chapter. -/
theorem levels_of_chapter_ids (h : catalog.Indexes source) {ids : List String}
    (hids : ∀ id ∈ ids, id ∈ catalog.levelIds) :
    (ids.filterMap catalog.level?).map (·.id) = ids := by
  induction ids with
  | nil => rfl
  | cons id rest ih =>
      obtain ⟨hid, hrest⟩ := List.forall_mem_cons.1 hids
      obtain ⟨level, hlevel⟩ := Option.isSome_iff_exists.1 (h.known id hid)
      have hlevel : catalog.level? id = some level := hlevel
      rw [List.filterMap_cons, hlevel, List.map_cons, ih hrest, (h.level_eq_some_iff.1 hlevel).2]

end Catalog.Indexes

namespace Profile

variable {source : CatalogSource} {catalog : Catalog} {id : String} {level : Level}

/-- The rule by which levels open: a level is the first one of its chapter, or the level just before
it in the chapter has a star. -/
def Opens (profile : Profile) (catalog : Catalog) (id : String) : Prop :=
  ∃ chapter ∈ catalog.chapters, chapter.levelIds.head? = some id ∨
    ∃ previous, [previous, id] <:+: chapter.levelIds ∧ 0 < profile.starsFor previous

/-- A status is the one that the rule gives a level. A star makes it complete, whatever is known
about the level before it. -/
structure Ruled (profile : Profile) (catalog : Catalog) (unlockAll : Bool) (id : String)
    (status : LevelStatus) : Prop where
  completed : status = .completed ↔ 0 < profile.starsFor id
  unlocked : status = .unlocked ↔
    profile.starsFor id = 0 ∧ (unlockAll = true ∨ profile.Opens catalog id)
  locked : status = .locked ↔
    profile.starsFor id = 0 ∧ unlockAll = false ∧ ¬ profile.Opens catalog id

/-- What slots say about a level being open is what the chapters say. -/
theorem is_unlocked_iff (profile : Profile) (h : catalog.Indexes source)
    (hlevel : catalog.level? id = some level) :
    profile.isUnlocked catalog id = true ↔ profile.Opens catalog id := by
  obtain ⟨⟨number, index⟩, chapter, hslot, hchapter, hid⟩ := h.exists_place hlevel
  have hmem := List.mem_of_getElem? hchapter
  cases index with
  | zero =>
      have hfirst : catalog.predecessor? id = none := by simp [Catalog.predecessor?, hslot]
      have hopens : profile.Opens catalog id :=
        ⟨chapter, hmem, .inl (by rw [List.head?_eq_getElem?]; exact hid)⟩
      simp [isUnlocked, hfirst, hslot, hopens]
  | succ index =>
      have hlength : index < chapter.levelIds.length :=
        Nat.lt_of_succ_lt (List.getElem?_eq_some_iff.1 hid).1
      have hbefore : catalog.predecessor? id = some chapter.levelIds[index] := by
        simp [Catalog.predecessor?, hslot, hchapter, hlength]
      rw [isUnlocked, hbefore]
      show decide _ = true ↔ _
      rw [decide_eq_true_eq]
      constructor
      · intro hstar
        obtain ⟨own, hown, hpair⟩ := h.predecessor_eq_some_iff.1 hbefore
        exact ⟨own, hown, .inr ⟨_, hpair, hstar⟩⟩
      · intro hopens
        obtain ⟨own, hown, hhead | ⟨previous, hpair, hstar⟩⟩ := hopens
        · -- the level has one place only, and that is not the first of a chapter
          obtain ⟨other, hother⟩ := List.mem_iff_getElem?.1 hown
          have hfirst : catalog.slot? id = some ⟨other, 0⟩ :=
            h.slot_eq_some_iff.2 ⟨own, hother, by rw [← List.head?_eq_getElem?]; exact hhead⟩
          rw [hslot] at hfirst
          cases hfirst
        · have hsame := h.predecessor_eq_some_iff.2 ⟨own, hown, hpair⟩
          obtain rfl := Option.some.inj (hbefore.symm.trans hsame)
          exact hstar

/-- The status of a level is the one that the rule gives it. -/
theorem ruled_status (profile : Profile) (h : catalog.Indexes source) (unlockAll : Bool)
    (hlevel : catalog.level? id = some level) :
    profile.Ruled catalog unlockAll id (profile.status catalog unlockAll id) := by
  have hopen : (unlockAll || profile.isUnlocked catalog id) = true ↔
      unlockAll = true ∨ profile.Opens catalog id := by
    rw [Bool.or_eq_true, profile.is_unlocked_iff h hlevel]
  have hcleared : profile.hasCleared id = true ↔ ¬ profile.starsFor id = 0 := by
    rw [← Ne, ← UInt8.pos_iff_ne_zero]
    exact decide_eq_true_iff
  refine ⟨status_completed_iff, ?_, ?_⟩
  · unfold status
    split_ifs with hclear hopens
    · exact iff_of_false (by simp) fun h => hcleared.1 hclear h.1
    · exact iff_of_true rfl ⟨not_not.1 (mt hcleared.2 hclear), hopen.1 hopens⟩
    · exact iff_of_false (by simp) fun h => hopens (hopen.2 h.2)
  · unfold status
    split_ifs with hclear hopens
    · exact iff_of_false (by simp) fun h => hcleared.1 hclear h.1
    · exact iff_of_false (by simp) fun h => not_or.2 ⟨by simp [h.2.1], h.2.2⟩ (hopen.1 hopens)
    · obtain ⟨hunlock, hrule⟩ := not_or.1 (mt hopen.2 hopens)
      exact iff_of_true rfl ⟨not_not.1 (mt hcleared.2 hclear), by simpa using hunlock, hrule⟩

end Profile

/-- The levels on a map, in the order in which it lists them. -/
def MapView.levels (view : MapView) : List LevelSummary := view.chapters.flatMap (·.levels)

namespace Roster

/-- What a student is shown goes by one rule: the map lists every level of the source once, in the
order of play, with its status and stars, and whoever asks for one level alone is told the same. -/
structure Shows (roster : Roster) (source : CatalogSource) (student : String) : Prop where
  /-- The map has the chapters in the order of play, each with its levels in order. -/
  chapters : (roster.map student).1.chapters.map
      (fun view => (view.id, view.title, view.levels.map (·.id))) =
    roster.catalog.chapters.map fun chapter => (chapter.id, chapter.title, chapter.levelIds)
  inOrder : (roster.map student).1.levels.map (·.id) = roster.catalog.levelsInOrder.map (·.id)
  /-- No level is left out, and none is listed twice. -/
  all : ((roster.map student).1.levels.map (·.id)).Perm (source.levels.map (·.id))
  once : ((roster.map student).1.levels.map (·.id)).Nodup
  ruled : ∀ summary ∈ (roster.map student).1.levels,
    (roster.profileOf student).Ruled roster.catalog roster.policy.unlockAll summary.id
      summary.status
  stars : ∀ summary ∈ (roster.map student).1.levels,
    summary.stars = (roster.profileOf student).starsFor summary.id
  status : ∀ summary ∈ (roster.map student).1.levels,
    (roster.status student summary.id).1 = summary.status
  /-- A level is handed out with the chapter and the status of the map, unless it is locked. -/
  detail : ∀ view ∈ (roster.map student).1.chapters, ∀ summary ∈ view.levels,
    ∃ level ∈ source.levels, level.id = summary.id ∧
      (roster.levelDetail student summary.id).1 =
        if summary.status = .locked then .error (.levelLocked summary.id)
        else .ok ⟨level, view.id, summary.status,
          (roster.profileOf student).progress.get? summary.id⟩
  locked : ∀ id other, (roster.levelDetail student id).1 = .error (.levelLocked other) ↔
    other = id ∧ ∃ summary ∈ (roster.map student).1.levels,
      summary.id = id ∧ summary.status = .locked

variable {roster : Roster} {source : CatalogSource} {student id : String} {level : Level}

/-- The map lists the levels in the order of play. -/
theorem map_levels_eq (roster : Roster) (student : String) :
    (roster.map student).1.levels = roster.catalog.levelsInOrder.map
      ((roster.profileOf student).levelSummary roster.catalog roster.policy.unlockAll) := by
  simp [map, Profile.map, MapView.levels, Catalog.levelsInOrder, List.flatMap_map, List.map_flatMap]

/-- A level that is listed in a chapter is handed out unless it is locked. -/
theorem level_detail_eq {chapter : Chapter} (h : roster.catalog.Indexes source)
    (hchapter : chapter ∈ roster.catalog.chapters) (hid : id ∈ chapter.levelIds)
    (hlevel : roster.catalog.level? id = some level) :
    (roster.levelDetail student id).1 =
      if (roster.status student id).1 = .locked then .error (.levelLocked id)
      else .ok ⟨level, chapter.id, (roster.status student id).1,
        (roster.profileOf student).progress.get? id⟩ := by
  have hfound : roster.level id = .ok level := level_eq_ok_iff.2 hlevel
  have hwhere : roster.catalog.chapterOf? id = some chapter :=
    h.chapter_of_eq_some_iff.2 ⟨hchapter, hid⟩
  simp only [levelDetail, hfound, hwhere, Option.map_some, Option.getD_some]
  rfl

/-- What the map says of a level is on it exactly if the level is in the source. -/
theorem mem_map_levels_iff (h : roster.catalog.Indexes source) {summary : LevelSummary} :
    summary ∈ (roster.map student).1.levels ↔
      ∃ level, roster.catalog.level? level.id = some level ∧
        (roster.profileOf student).levelSummary roster.catalog roster.policy.unlockAll level =
          summary := by
  rw [map_levels_eq, List.mem_map]
  simp only [h.level_eq_some_iff, h.levels_in_order_perm.mem_iff, and_true]

/-- A level is refused as locked exactly if it is there and its status is that. -/
theorem level_detail_locked_iff (h : roster.catalog.Indexes source) {other : String} :
    (roster.levelDetail student id).1 = .error (.levelLocked other) ↔
      other = id ∧ (∃ level, roster.catalog.level? id = some level) ∧
        (roster.status student id).1 = .locked := by
  cases hlevel : roster.catalog.level? id with
  | none => simp [levelDetail, Roster.level, hlevel]
  | some level =>
      obtain ⟨slot, chapter, -, hchapter, hid⟩ := h.exists_place hlevel
      rw [level_detail_eq h (List.mem_of_getElem? hchapter) (List.mem_of_getElem? hid) hlevel]
      by_cases hstatus : (roster.status student id).1 = .locked
      · simp [hstatus, eq_comm]
      · simp [hstatus]

/-- What a roster shows follows from what its catalog holds. -/
theorem shows_of_indexes (h : roster.catalog.Indexes source) (student : String) :
    roster.Shows source student := by
  have hids : (roster.map student).1.levels.map (·.id) =
      roster.catalog.levelsInOrder.map (·.id) := by
    rw [map_levels_eq, List.map_map]
    rfl
  have hall := h.levels_in_order_perm.map (·.id)
  exact {
    chapters := by
      rw [map, Profile.map, List.map_map]
      refine List.map_congr_left fun chapter hchapter => ?_
      have hknown : ∀ id ∈ chapter.levelIds, id ∈ roster.catalog.levelIds :=
        fun id hid => List.mem_flatMap.2 ⟨chapter, hchapter, hid⟩
      have hnames := h.levels_of_chapter_ids hknown
      simpa [Function.comp_def, Profile.levelSummary] using hnames
    inOrder := hids
    all := hids ▸ hall
    once := hids ▸ hall.nodup_iff.2 h.nodup_ids
    ruled := fun summary hsummary => by
      obtain ⟨level, hlevel, rfl⟩ := (mem_map_levels_iff h).1 hsummary
      exact (roster.profileOf student).ruled_status h roster.policy.unlockAll hlevel
    stars := fun summary hsummary => by
      obtain ⟨level, -, rfl⟩ := (mem_map_levels_iff h).1 hsummary
      rfl
    status := fun summary hsummary => by
      obtain ⟨level, -, rfl⟩ := (mem_map_levels_iff h).1 hsummary
      rfl
    detail := fun view hview summary hsummary => by
      obtain ⟨chapter, hchapter, rfl⟩ := List.mem_map.1 hview
      obtain ⟨level, hlevel, rfl⟩ := List.mem_map.1 hsummary
      obtain ⟨id, hid, hfound⟩ := List.mem_filterMap.1 hlevel
      obtain ⟨hmem, rfl⟩ := h.level_eq_some_iff.1 hfound
      exact ⟨level, hmem, rfl, level_detail_eq h hchapter hid hfound⟩
    locked := fun id other => by
      rw [level_detail_locked_iff h]
      refine and_congr_right fun _ => ⟨?_, ?_⟩
      · rintro ⟨⟨level, hlevel⟩, hstatus⟩
        obtain ⟨-, rfl⟩ := h.level_eq_some_iff.1 hlevel
        exact ⟨_, (mem_map_levels_iff h).2 ⟨level, hlevel, rfl⟩, rfl, hstatus⟩
      · rintro ⟨summary, hsummary, rfl, hstatus⟩
        obtain ⟨level, hlevel, rfl⟩ := (mem_map_levels_iff h).1 hsummary
        exact ⟨⟨level, hlevel⟩, hstatus⟩ }

end Roster

/-- One rule says which levels are open, and every view of them goes by it. In a catalog that is
accepted the status of each level is the one the rule gives it, for every profile; and whatever is
on a roster, the map of every student shows these statuses, as does each level alone. -/
theorem Roster.views_agree {source : CatalogSource} {catalog : Catalog}
    (h : Catalog.ofSource source = .ok catalog) :
    (∀ (profile : Profile) (unlockAll : Bool), ∀ level ∈ source.levels,
      profile.Ruled catalog unlockAll level.id (profile.status catalog unlockAll level.id)) ∧
    ∀ roster : Roster, roster.catalog = catalog → ∀ student, roster.Shows source student := by
  have hindexes := Catalog.indexes_of_source h
  constructor
  · intro profile unlockAll level hlevel
    exact profile.ruled_status hindexes unlockAll (hindexes.level_eq_some_iff.2 ⟨hlevel, rfl⟩)
  · intro roster hcatalog student
    subst hcatalog
    exact Roster.shows_of_indexes hindexes student

/-- A profile that has cleared a level out of order, and one that is not there. -/
def strayProfile : Profile :=
  { Profile.fresh "ada" "explorer" .standard with
    progress := .ofList [("lily", ⟨"lily", 2, 1, 0, 0, none, 0, []⟩),
      ("moss", ⟨"moss", 3, 1, 0, 0, none, 0, []⟩)] }

/-- In the garden all views agree, also for a student with stray records. -/
theorem views_agree_garden : ∃ catalog, Catalog.ofSource Catalog.gardenSource = .ok catalog ∧
    strayProfile.Ruled catalog false "lily" (strayProfile.status catalog false "lily") ∧
    ((Roster.new catalog .standard).put "ada" strayProfile).Shows Catalog.gardenSource "ada" := by
  have hconsistent : Catalog.gardenSource.Consistent :=
    ⟨by decide, by decide, by decide, by decide, by decide⟩
  obtain ⟨catalog, hcatalog⟩ := Catalog.exists_of_consistent hconsistent
  obtain ⟨hruled, hshows⟩ := Roster.views_agree hcatalog
  have hlily : Catalog.bed "lily" ∈ Catalog.gardenSource.levels := by simp [Catalog.gardenSource]
  exact ⟨catalog, hcatalog, hruled strayProfile false _ hlily, hshows _ rfl "ada"⟩

end TileCourse
