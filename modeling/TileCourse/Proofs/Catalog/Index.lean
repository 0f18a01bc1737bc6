import Mathlib.Data.List.Perm.Basic
import TileCourse.Catalog.Index
import TileCourse.Proofs.Text.Collections

/-!
# What a catalog holds

A catalog that is made of a source holds exactly the levels of the source, and the order of play
goes through each of them once. `Catalog.Indexes` collects what the passes over the source
establish; `Catalog.Indexes.levels_in_order_perm` is what counting over a catalog rests on.
-/

namespace TileCourse.Catalog

/-! ### Passes over a source -/

/-- The slots of levels of a chapter, from the one with number `index` on. -/
def slotsFrom (chapter : Nat) (ids : List String) (index : Nat) : List (String × Slot) :=
  (ids.zipIdx index).map fun entry => (entry.1, ⟨chapter, entry.2⟩)

/-- The slots of the levels of chapters, from the one with number `number` on. -/
def slotsOf : List Chapter → (number : Nat) → List (String × Slot)
  | [], _ => []
  | chapter :: rest, number => slotsFrom number chapter.levelIds 0 ++ slotsOf rest (number + 1)

/-- The ids of the levels in the order of play. -/
def levelIds (catalog : Catalog) : List String := catalog.chapters.flatMap (·.levelIds)

/-- The slots of levels of a chapter have the ids of these levels as keys. -/
theorem slots_from_keys (chapter : Nat) (ids : List String) (index : Nat) :
    (slotsFrom chapter ids index).map (·.1) = ids := by
  rw [slotsFrom, List.map_map]
  exact List.zipIdx_map_fst index ids

/-- The slots of the levels of chapters have the ids of these levels as keys. -/
theorem slots_of_keys (chapters : List Chapter) (number : Nat) :
    (slotsOf chapters number).map (·.1) = chapters.flatMap (·.levelIds) := by
  induction chapters generalizing number with
  | nil => rfl
  | cons chapter rest ih =>
      rw [slotsOf, List.map_append, ih, slots_from_keys, List.flatMap_cons]

/-- Gathered levels are the given ones in addition to those that were there. -/
theorem gather_levels_perm {levels : List Level} {table gathered : Table Level}
    (h : gatherLevels levels table = .ok gathered) :
    gathered.entries.Perm ((levels.map fun level => (level.id, level)) ++ table.entries) := by
  induction levels generalizing table with
  | nil =>
      obtain rfl := Except.ok.inj h
      exact .refl _
  | cons level rest ih =>
      rw [gatherLevels] at h
      split at h
      · cases h
      · split at h
        · cases h
        · rename_i hnew
          -- the id is new, so the level is one more entry, wherever it is put
          have hperm := Table.entries_insert_perm level (Bool.not_eq_true _ ▸ hnew)
          exact (ih h).trans ((hperm.append_left _).trans List.perm_middle)

/-- Placed levels are known, and their slots come in addition to those that were there. -/
theorem place_levels_perm {levels : Table Level} {chapter index : Nat} {name : String}
    {ids : List String} {slots placed : Table Slot}
    (h : placeLevels levels chapter name ids index slots = .ok placed) :
    (∀ id ∈ ids, levels.contains id = true) ∧
      placed.entries.Perm (slotsFrom chapter ids index ++ slots.entries) := by
  induction ids generalizing index slots with
  | nil =>
      obtain rfl := Except.ok.inj h
      exact ⟨by simp, .refl _⟩
  | cons id rest ih =>
      rw [placeLevels] at h
      split at h
      · cases h
      · rename_i hknown
        split at h
        · cases h
        · rename_i hnew
          obtain ⟨hrest, hplaced⟩ := ih h
          have hperm := Table.entries_insert_perm (⟨chapter, index⟩ : Slot)
            (Bool.not_eq_true _ ▸ hnew)
          refine ⟨List.forall_mem_cons.2 ⟨by simpa using hknown, hrest⟩, ?_⟩
          exact hplaced.trans ((hperm.append_left _).trans List.perm_middle)

/-- The levels of placed chapters are known, and their slots come in addition to those that were
there. -/
theorem place_chapters_perm {levels : Table Level} {chapters : List Chapter} {number : Nat}
    {slots placed : Table Slot} (h : placeChapters levels chapters number slots = .ok placed) :
    (∀ id ∈ chapters.flatMap (·.levelIds), levels.contains id = true) ∧
      placed.entries.Perm (slotsOf chapters number ++ slots.entries) := by
  induction chapters generalizing number slots with
  | nil =>
      obtain rfl := Except.ok.inj h
      exact ⟨by simp, .refl _⟩
  | cons chapter rest ih =>
      rw [placeChapters] at h
      split at h
      · cases h
      · rename_i hown
        obtain ⟨hknown, hfirst⟩ := place_levels_perm hown
        obtain ⟨hrest, hplaced⟩ := ih h
        constructor
        · intro id hid
          rw [List.flatMap_cons] at hid
          exact (List.mem_append.1 hid).elim (hknown id) (hrest id)
        · refine hplaced.trans ((hfirst.append_left _).trans ?_)
          rw [slotsOf, ← List.append_assoc]
          exact List.perm_append_comm.append_right _

/-! ### Catalogs -/

/-- Looking up every key of the levels gives every level. -/
theorem filter_map_keys (catalog : Catalog) :
    catalog.levels.keys.filterMap catalog.level? = catalog.levels.entries.map (·.2) := by
  have hfound : ∀ entry ∈ catalog.levels.entries,
      (catalog.level? ∘ fun e : String × Level => e.1) entry = some entry.2 :=
    fun _ hentry => Table.get?_eq_some_iff.2 hentry
  rw [Table.keys, List.filterMap_map, List.filterMap_congr hfound, ← List.filterMap_eq_map]
  rfl

/-- A catalog holds the levels of its source, and every level has one slot. -/
structure Indexes (catalog : Catalog) (source : CatalogSource) : Prop where
  levels : catalog.levels.entries.Perm (source.levels.map fun level => (level.id, level))
  slots : catalog.slots.entries.Perm (slotsOf catalog.chapters 0)
  known : ∀ id ∈ catalog.levelIds, catalog.levels.contains id = true
  placed : ∀ id ∈ catalog.levels.keys, catalog.slots.contains id = true

variable {source : CatalogSource} {catalog : Catalog}

/-- A source makes a catalog exactly if every pass over it succeeds. -/
theorem of_source_eq_ok_iff : ofSource source = .ok catalog ↔
    gatherLevels source.levels .empty = .ok catalog.levels ∧
    checkChapters source.chapters [] = .ok () ∧
    catalog.courses = coursesOf source ∧
    orderChapters source.chapters (coursesOf source) = .ok catalog.chapters ∧
    placeChapters catalog.levels catalog.chapters 0 .empty = .ok catalog.slots ∧
    ∀ id ∈ catalog.levels.keys, catalog.slots.contains id = true := by
  constructor
  · intro h
    unfold ofSource at h
    split at h
    · cases h
    rename_i levels hlevels
    split at h
    · cases h
    rename_i hchecked
    dsimp only at h
    split at h
    · cases h
    rename_i chapters hchapters
    split at h
    · cases h
    rename_i slots hslots
    split at h
    · cases h
    rename_i horphan
    obtain rfl := Except.ok.inj h
    exact ⟨hlevels, hchecked, rfl, hchapters, hslots, by simpa using List.find?_eq_none.1 horphan⟩
  · obtain ⟨courses, chapters, levels, slots⟩ := catalog
    rintro ⟨hlevels, hchecked, rfl, hchapters, hslots, hplaced⟩
    have horphan : levels.keys.find? (fun id => !slots.contains id) = none :=
      List.find?_eq_none.2 fun id hid => by simpa using hplaced id hid
    simp only [ofSource, hlevels, hchecked, hchapters, hslots, horphan]

/-- A catalog that was made of a source holds its levels and gives each of them one slot. -/
theorem indexes_of_source (h : ofSource source = .ok catalog) : catalog.Indexes source := by
  obtain ⟨hlevels, _, _, _, hslots, hall⟩ := of_source_eq_ok_iff.1 h
  obtain ⟨hknown, hplaced⟩ := place_chapters_perm hslots
  refine ⟨?_, ?_, hknown, hall⟩
  · simpa [Table.empty] using gather_levels_perm hlevels
  · simpa [Table.empty] using hplaced

namespace Indexes

/-- The keys of a catalog are the ids of the levels of its source. -/
theorem keys_perm (h : catalog.Indexes source) :
    catalog.levels.keys.Perm (source.levels.map (·.id)) := by
  simpa [Table.keys, Function.comp_def] using h.levels.map (·.1)

/-- No two levels of the source have the same id. -/
theorem nodup_ids (h : catalog.Indexes source) : (source.levels.map (·.id)).Nodup :=
  h.keys_perm.nodup_iff.1 catalog.levels.nodup_keys

/-- A catalog has as many levels as its source. -/
theorem level_count_eq (h : catalog.Indexes source) :
    catalog.levelCount = source.levels.length := by
  simpa [levelCount, Table.size] using h.levels.length_eq

/-- The order of play goes through the ids of all levels, each of them once. -/
theorem level_ids_perm (h : catalog.Indexes source) :
    catalog.levelIds.Perm catalog.levels.keys := by
  have hslots : catalog.slots.keys.Perm catalog.levelIds := by
    have hperm := h.slots.map (·.1)
    rwa [slots_of_keys] at hperm
  have hnodup : catalog.levelIds.Nodup := hslots.nodup_iff.1 catalog.slots.nodup_keys
  -- both lists are free of repetition, so it is enough that they have the same members
  refine (List.perm_ext_iff_of_nodup hnodup catalog.levels.nodup_keys).2 fun id => ⟨?_, ?_⟩
  · exact fun hid => Table.contains_eq_true_iff.1 (h.known id hid)
  · exact fun hid => hslots.mem_iff.1 (Table.contains_eq_true_iff.1 (h.placed id hid))

/-- The order of play goes through the levels of the source, each of them once. -/
theorem levels_in_order_perm (h : catalog.Indexes source) :
    catalog.levelsInOrder.Perm source.levels := by
  have horder : catalog.levelsInOrder = catalog.levelIds.filterMap catalog.level? := by
    rw [levelsInOrder, levelIds, List.filterMap_flatMap]
  rw [horder]
  refine (h.level_ids_perm.filterMap _).trans ?_
  rw [filter_map_keys]
  simpa [Function.comp_def] using h.levels.map (·.2)

end Indexes

end TileCourse.Catalog
