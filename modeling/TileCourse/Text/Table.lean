/-!
# Tables keyed by texts

A table gives a value to each of finitely many texts. Its entries are kept in ascending order of
their keys, each key once, so that equal tables are equal values and a table is written in one
way only. `get?_insert` and `get?_erase` say what a change does to every key.
-/

namespace TileCourse.Text

variable {α : Type}

/-- Give a value to a key in an ascending list of entries. -/
def putEntry (key : String) (value : α) : List (String × α) → List (String × α)
  | [] => [(key, value)]
  | (k, v) :: rest =>
    if key < k then (key, value) :: (k, v) :: rest
    else if key = k then (key, value) :: rest
    else (k, v) :: putEntry key value rest

/-- The value that the first entry of a key gives it. -/
def entryValue? (key : String) : List (String × α) → Option α
  | [] => none
  | (k, v) :: rest => if k = key then some v else entryValue? key rest

/-- The entries stand in ascending order of their keys, each key once. -/
def Ascending (entries : List (String × α)) : Prop :=
  entries.Pairwise fun a b => a.1 < b.1

/-- An entry that is there after one is put is that one or was there before. -/
theorem mem_put_entry {key : String} {value : α} {entry : String × α}
    {entries : List (String × α)} (h : entry ∈ putEntry key value entries) :
    entry = (key, value) ∨ entry ∈ entries := by
  induction entries with
  | nil => simpa [putEntry] using h
  | cons head rest ih =>
    obtain ⟨k, v⟩ := head
    rw [putEntry] at h
    split at h
    · simpa using h
    · split at h
      · rcases List.mem_cons.1 h with h | h
        · exact .inl h
        · exact .inr (List.mem_cons_of_mem _ h)
      · rcases List.mem_cons.1 h with h | h
        · exact .inr (h ▸ List.mem_cons_self)
        · exact (ih h).imp_right (List.mem_cons_of_mem _)

/-- Entries stay in ascending order when one is put among them. -/
theorem ascending_put_entry {key : String} {value : α} {entries : List (String × α)}
    (h : Ascending entries) : Ascending (putEntry key value entries) := by
  induction entries with
  | nil => simp [putEntry, Ascending]
  | cons head rest ih =>
    obtain ⟨k, v⟩ := head
    obtain ⟨hhead, htail⟩ := List.pairwise_cons.1 h
    rw [putEntry]
    split
    · rename_i hlt
      refine List.pairwise_cons.2 ⟨fun x hx => ?_, h⟩
      rcases List.mem_cons.1 hx with rfl | hx
      · exact hlt
      · exact String.lt_trans hlt (hhead x hx)
    · split
      · rename_i heq
        exact List.pairwise_cons.2 ⟨fun x hx => heq ▸ hhead x hx, htail⟩
      · rename_i hge hne
        have hlt : k < key := by
          rcases Classical.em (k < key) with hlt | hlt
          · exact hlt
          · exact absurd (String.le_antisymm (String.not_lt.1 hlt) (String.not_lt.1 hge)) hne
        refine List.pairwise_cons.2 ⟨fun x hx => ?_, ih htail⟩
        rcases mem_put_entry hx with rfl | hx
        · exact hlt
        · exact hhead x hx

/-- Putting an entry changes the value of its key and of no other. -/
theorem entry_value_put_entry (key : String) (value : α) (entries : List (String × α))
    (k : String) :
    entryValue? k (putEntry key value entries) =
      if k = key then some value else entryValue? k entries := by
  induction entries with
  | nil => simp [putEntry, entryValue?, eq_comm]
  | cons head rest ih =>
    obtain ⟨k', v'⟩ := head
    rw [putEntry]
    split
    · simp [entryValue?, eq_comm]
    · split
      · rename_i heq
        subst heq
        by_cases h : key = k
        · subst h
          simp [entryValue?]
        · simp [entryValue?, h, Ne.symm h]
      · rename_i hne
        by_cases h : k' = k
        · subst h
          simp [entryValue?, Ne.symm hne]
        · simp [entryValue?, h, ih]

/-- Leaving out the entries of a key takes away its value and no other. -/
theorem entry_value_filter_ne (entries : List (String × α)) (key k : String) :
    entryValue? k (entries.filter fun entry => entry.1 != key) =
      if k = key then none else entryValue? k entries := by
  induction entries with
  | nil => simp [entryValue?]
  | cons head rest ih =>
    obtain ⟨k', v'⟩ := head
    by_cases hk : k' = key
    · subst hk
      rw [List.filter_cons_of_neg (by simp), ih]
      by_cases h : k' = k
      · subst h
        simp
      · simp [entryValue?, h, Ne.symm h]
    · rw [List.filter_cons_of_pos (by simpa using hk), entryValue?, ih, entryValue?]
      by_cases h : k' = k
      · subst h
        simp [hk]
      · simp [h]

end TileCourse.Text

namespace TileCourse

/-- A value for each of finitely many texts. -/
structure Table (α : Type) where
  /-- The keys with their values. -/
  entries : List (String × α)
  /-- The keys stand in ascending order, and each of them once. -/
  ascending : Text.Ascending entries

namespace Table

variable {α : Type}

/-- Tables with the same entries are the same. -/
theorem ext {a b : Table α} (h : a.entries = b.entries) : a = b := by
  cases a
  cases b
  simpa using h

instance [DecidableEq α] : DecidableEq (Table α) := fun a b =>
  if h : a.entries = b.entries then isTrue (ext h)
  else isFalse fun heq => h (heq ▸ rfl)

/-- The table without keys. -/
def empty : Table α := ⟨[], .nil⟩

instance : Inhabited (Table α) := ⟨empty⟩

/-- The value of a key. -/
def get? (table : Table α) (key : String) : Option α :=
  Text.entryValue? key table.entries

/-- Whether a key has a value. -/
def contains (table : Table α) (key : String) : Bool :=
  (table.get? key).isSome

/-- Give a value to a key. -/
def insert (table : Table α) (key : String) (value : α) : Table α :=
  ⟨Text.putEntry key value table.entries, Text.ascending_put_entry table.ascending⟩

/-- Take the value of a key away. -/
def erase (table : Table α) (key : String) : Table α :=
  ⟨table.entries.filter fun entry => entry.1 != key, table.ascending.filter _⟩

/-- The table that a list of entries fills, the last entry of a key deciding. -/
def ofList (entries : List (String × α)) : Table α :=
  entries.foldl (fun table entry => table.insert entry.1 entry.2) empty

/-- The keys. -/
def keys (table : Table α) : List String := table.entries.map (·.1)

/-- The number of keys. -/
def size (table : Table α) : Nat := table.entries.length

/-- No key of the empty table has a value. -/
@[simp] theorem get?_empty (key : String) : (empty : Table α).get? key = none := rfl

/-- Giving a value to a key changes the value of this key and of no other. -/
theorem get?_insert (table : Table α) (key : String) (value : α) (k : String) :
    (table.insert key value).get? k = if k = key then some value else table.get? k :=
  Text.entry_value_put_entry key value table.entries k

/-- Taking away the value of a key changes the value of no other key. -/
theorem get?_erase (table : Table α) (key k : String) :
    (table.erase key).get? k = if k = key then none else table.get? k :=
  Text.entry_value_filter_ne table.entries key k

end Table

end TileCourse
