import Mathlib.Data.List.Nodup
import TileCourse.Text.Table
import TileCourse.Text.TextSet

/-!
# Filling tables and sets

A table or a set that is filled with its own entries, in their order, is the same table or set
again. So whatever lists the entries keeps the whole. What is put under a new key is one more entry,
so tables that are filled key by key can be counted. Tables that give every key the same value are
equal, and so are sets with the same members: it does not matter in which order they were filled.
-/

namespace TileCourse

namespace Text

/-- A text above all the others is put last. -/
theorem insert_ascending_last {s : String} {ts : List String} (h : ∀ t ∈ ts, t < s) :
    insertAscending s ts = ts ++ [s] := by
  induction ts with
  | nil => rfl
  | cons t ts ih =>
      obtain ⟨ht, hts⟩ := List.forall_mem_cons.1 h
      rw [insertAscending, if_neg (String.lt_asymm ht),
        if_neg (by rintro rfl; exact String.lt_irrefl _ ht), ih hts, List.cons_append]

/-- An entry whose key is above all the others is put last. -/
theorem put_entry_last {α : Type} {key : String} {value : α} {entries : List (String × α)}
    (h : ∀ entry ∈ entries, entry.1 < key) :
    putEntry key value entries = entries ++ [(key, value)] := by
  induction entries with
  | nil => rfl
  | cons entry entries ih =>
      obtain ⟨hentry, hentries⟩ := List.forall_mem_cons.1 h
      rw [putEntry, if_neg (String.lt_asymm hentry),
        if_neg (by rintro rfl; exact String.lt_irrefl _ hentry), ih hentries, List.cons_append]

end Text

/-- Texts that come in ascending order are put at the end of a set one after the other. -/
theorem TextSet.fold_insert {more : List String} (start : TextSet)
    (h : (start.toList ++ more).Pairwise (· < ·)) :
    (more.foldl TextSet.insert start).toList = start.toList ++ more := by
  induction more generalizing start with
  | nil => simp
  | cons s more ih =>
      have hlast : (start.insert s).toList = start.toList ++ [s] :=
        Text.insert_ascending_last fun t ht => (List.pairwise_append.1 h).2.2 t ht s (by simp)
      rw [List.foldl_cons, ih _ (by rw [hlast]; simpa using h), hlast]
      simp

/-- A set is filled by its members. -/
theorem TextSet.of_list_to_list (set : TextSet) : .ofList set.toList = set :=
  TextSet.ext (TextSet.fold_insert .empty set.ascending)

/-- Entries that come in ascending order are put at the end of a table one after the other. -/
theorem Table.fold_insert {α : Type} {more : List (String × α)} (start : Table α)
    (h : Text.Ascending (start.entries ++ more)) :
    (more.foldl (fun table entry => table.insert entry.1 entry.2) start).entries =
      start.entries ++ more := by
  induction more generalizing start with
  | nil => simp
  | cons entry more ih =>
      have hlast : (start.insert entry.1 entry.2).entries = start.entries ++ [entry] :=
        Text.put_entry_last fun e he => (List.pairwise_append.1 h).2.2 e he entry (by simp)
      rw [List.foldl_cons, ih _ (by rw [hlast]; simpa using h), hlast]
      simp

/-- A table that is filled in ascending order has the entries it is filled with. -/
theorem Table.entries_of_list {α : Type} {entries : List (String × α)}
    (h : (entries.map (·.1)).Pairwise (· < ·)) : (Table.ofList entries).entries = entries :=
  Table.fold_insert .empty (List.pairwise_map.1 h)

/-- The keys of a table stand in ascending order. -/
theorem Table.ascending_keys {α : Type} (table : Table α) :
    (table.entries.map (·.1)).Pairwise (· < ·) :=
  List.pairwise_map.2 table.ascending

/-! ### Entries and members -/

namespace Text

variable {α : Type} {key : String} {value : α} {entries : List (String × α)}

/-- What is put under a new key is one more entry, at some place. -/
theorem put_entry_perm (h : entryValue? key entries = none) :
    (putEntry key value entries).Perm ((key, value) :: entries) := by
  induction entries with
  | nil => exact .refl _
  | cons entry rest ih =>
      obtain ⟨k, v⟩ := entry
      rw [entryValue?] at h
      split at h
      · cases h
      · rename_i hne
        rw [putEntry]
        split
        · exact .refl _
        · rw [if_neg (Ne.symm hne)]
          exact ((ih h).cons _).trans (.swap _ _ _)

/-- The entries of a list in ascending order give each key the value that is found for it. -/
theorem entry_value_eq_some_iff (h : Ascending entries) :
    entryValue? key entries = some value ↔ (key, value) ∈ entries := by
  induction entries with
  | nil => simp [entryValue?]
  | cons entry rest ih =>
      obtain ⟨k, v⟩ := entry
      obtain ⟨hhead, htail⟩ := List.pairwise_cons.1 h
      rw [entryValue?, List.mem_cons, Prod.mk.injEq]
      split
      · rename_i heq
        subst heq
        have hnot : (k, value) ∉ rest := fun hmem => String.lt_irrefl k (hhead (k, value) hmem)
        simp [hnot, eq_comm]
      · rename_i hne
        rw [ih htail, or_iff_right fun hhere => hne hhere.1.symm]

end Text

namespace Table

variable {α : Type} {table : Table α} {key : String} {value : α}

/-- The value of a key is the one with which it is among the entries. -/
theorem get?_eq_some_iff : table.get? key = some value ↔ (key, value) ∈ table.entries :=
  Text.entry_value_eq_some_iff table.ascending

/-- A key has a value exactly if it is among the keys. -/
theorem contains_eq_true_iff : table.contains key = true ↔ key ∈ table.keys := by
  rw [contains, Option.isSome_iff_exists, keys, List.mem_map]
  constructor
  · rintro ⟨value, hvalue⟩
    exact ⟨(key, value), get?_eq_some_iff.1 hvalue, rfl⟩
  · rintro ⟨⟨_, value⟩, hmem, rfl⟩
    exact ⟨value, get?_eq_some_iff.2 hmem⟩

/-- Giving a value to a key adds that key and no other. -/
theorem contains_insert_iff (value : α) {k : String} :
    (table.insert key value).contains k = true ↔ k = key ∨ table.contains k = true := by
  rw [contains, get?_insert]
  split
  · rename_i hsame
    simp [hsame]
  · rename_i hother
    rw [or_iff_right hother]
    rfl

/-- A table has each of its keys once. -/
theorem nodup_keys (table : Table α) : table.keys.Nodup := by
  refine table.ascending_keys.imp fun {a b} (hlt : a < b) => ?_
  rintro rfl
  exact String.lt_irrefl a hlt

/-- A new key is one more entry of a table. -/
theorem entries_insert_perm (value : α) (h : table.contains key = false) :
    (table.insert key value).entries.Perm ((key, value) :: table.entries) :=
  Text.put_entry_perm (Option.not_isSome_iff_eq_none.1 (Bool.not_eq_true _ ▸ h))

/-- The entries of a table are the same in whatever order they are listed. -/
theorem eq_of_perm {a b : Table α} (h : a.entries.Perm b.entries) : a = b := by
  refine Table.ext (h.eq_of_pairwise ?_ a.ascending b.ascending)
  intro first second _ _ hless hmore
  exact absurd hmore (String.lt_asymm hless)

/-- No entry of a table is there twice. -/
theorem nodup_entries (table : Table α) : table.entries.Nodup :=
  List.Nodup.of_map _ table.nodup_keys

/-- A table is known by the values that it gives to keys. -/
theorem eq_of_get {a b : Table α} (h : ∀ key, a.get? key = b.get? key) : a = b := by
  refine eq_of_perm ((List.perm_ext_iff_of_nodup a.nodup_entries b.nodup_entries).2 fun entry => ?_)
  rw [← get?_eq_some_iff, ← get?_eq_some_iff, h]

/-- The later value of a key takes the place of the earlier one. -/
theorem insert_insert (table : Table α) (key : String) (first second : α) :
    (table.insert key first).insert key second = table.insert key second := by
  refine eq_of_get fun k => ?_
  simp only [get?_insert]
  split <;> rfl

/-- Values that are given to different keys can be given in either order. -/
theorem insert_comm (table : Table α) {k k' : String} (h : k ≠ k') (first second : α) :
    (table.insert k first).insert k' second = (table.insert k' second).insert k first := by
  refine eq_of_get fun key => ?_
  simp only [get?_insert]
  by_cases hkey : key = k
  · rw [if_neg (hkey ▸ h), if_pos hkey, if_pos hkey]
  · rw [if_neg hkey, if_neg hkey]

end Table

namespace TextSet

variable {set : TextSet} {s : String}

/-- A text that is inserted under a condition is there if the condition holds or it was there
before. -/
@[simp] theorem mem_insert_if {condition : Bool} {other : String} :
    s ∈ set.insertIf condition other ↔ (condition = true ∧ s = other) ∨ s ∈ set := by
  cases condition <;> simp [insertIf]

/-- The texts that are inserted one after the other are there, and so are those from before. -/
theorem mem_fold_insert {ts : List String} :
    s ∈ ts.foldl TextSet.insert set ↔ s ∈ ts ∨ s ∈ set := by
  induction ts generalizing set with
  | nil => simp
  | cons t ts ih => rw [List.foldl_cons, ih, mem_insert, List.mem_cons, or_assoc, or_left_comm]

/-- The set of a list has the texts of the list. -/
theorem mem_of_list {ts : List String} : s ∈ ofList ts ↔ s ∈ ts := by
  rw [ofList, mem_fold_insert, or_iff_left (not_mem_empty s)]

/-- A set is known by its members. -/
theorem eq_of_mem {a b : TextSet} (h : ∀ s, s ∈ a ↔ s ∈ b) : a = b := by
  have hnodup (set : TextSet) : set.toList.Nodup := by
    refine set.ascending.imp fun {s t} (hlt : s < t) => ?_
    rintro rfl
    exact String.lt_irrefl s hlt
  have hperm : a.toList.Perm b.toList :=
    (List.perm_ext_iff_of_nodup (hnodup a) (hnodup b)).2 h
  refine TextSet.ext (hperm.eq_of_pairwise ?_ a.ascending b.ascending)
  intro first second _ _ hless hmore
  exact absurd hmore (String.lt_asymm hless)

end TextSet

end TileCourse
