/-!
# Ordered sets of texts

A set of texts is kept in ascending order of code points, without repetition, so that two sets
with the same members are equal and a set is written in one way only. `mem_insert` says what an
insertion adds.
-/

namespace TileCourse.Text

/-- Put a text at its place in an ascending list, unless it is there already. -/
def insertAscending (s : String) : List String → List String
  | [] => [s]
  | t :: ts =>
    if s < t then s :: t :: ts
    else if s = t then t :: ts
    else t :: insertAscending s ts

/-- A text is there after one is inserted if it is that one or was there before. -/
theorem mem_insert_ascending {s x : String} {ts : List String} :
    x ∈ insertAscending s ts ↔ x = s ∨ x ∈ ts := by
  induction ts with
  | nil => simp [insertAscending]
  | cons t ts ih =>
    rw [insertAscending]
    split
    · simp
    · split
      · rename_i h
        simp [h]
      · simp only [List.mem_cons, ih]
        constructor
        · rintro (h | h | h) <;> simp [h]
        · rintro (h | h | h) <;> simp [h]

/-- Texts stay in ascending order when one is inserted among them. -/
theorem pairwise_insert_ascending {s : String} {ts : List String} (h : ts.Pairwise (· < ·)) :
    (insertAscending s ts).Pairwise (· < ·) := by
  induction ts with
  | nil => simp [insertAscending]
  | cons t ts ih =>
    obtain ⟨hhead, htail⟩ := List.pairwise_cons.1 h
    rw [insertAscending]
    split
    · rename_i hlt
      refine List.pairwise_cons.2 ⟨fun x hx => ?_, h⟩
      rcases List.mem_cons.1 hx with rfl | hx
      · exact hlt
      · exact String.lt_trans hlt (hhead x hx)
    · split
      · exact h
      · rename_i hge hne
        have hlt : t < s := by
          rcases Classical.em (t < s) with hlt | hlt
          · exact hlt
          · exact absurd (String.le_antisymm (String.not_lt.1 hlt) (String.not_lt.1 hge)) hne
        refine List.pairwise_cons.2 ⟨fun x hx => ?_, ih htail⟩
        rcases mem_insert_ascending.1 hx with rfl | hx
        · exact hlt
        · exact hhead x hx

end TileCourse.Text

namespace TileCourse

/-- A set of texts in ascending order. -/
structure TextSet where
  /-- The members. -/
  toList : List String
  /-- The members stand in ascending order, and each of them once. -/
  ascending : toList.Pairwise (· < ·)
  deriving DecidableEq

namespace TextSet

/-- Sets with the same texts in the same order are the same. -/
theorem ext {a b : TextSet} (h : a.toList = b.toList) : a = b := by
  cases a
  cases b
  simpa using h

/-- The set without members. -/
def empty : TextSet := ⟨[], .nil⟩

instance : Inhabited TextSet := ⟨empty⟩

instance : Membership String TextSet := ⟨fun set s => s ∈ set.toList⟩

instance (s : String) (set : TextSet) : Decidable (s ∈ set) :=
  inferInstanceAs (Decidable (s ∈ set.toList))

/-- The set with one more member. -/
def insert (set : TextSet) (s : String) : TextSet :=
  ⟨Text.insertAscending s set.toList, Text.pairwise_insert_ascending set.ascending⟩

/-- The set with a member that depends on a condition. -/
def insertIf (set : TextSet) (condition : Bool) (s : String) : TextSet :=
  if condition then set.insert s else set

/-- The set of the texts of a list. -/
def ofList (ts : List String) : TextSet := ts.foldl insert empty

/-- Whether the set has no members. -/
def isEmpty (set : TextSet) : Bool := set.toList.isEmpty

/-- The texts of a set are those on its list. -/
theorem mem_to_list {s : String} {set : TextSet} : s ∈ set.toList ↔ s ∈ set := Iff.rfl

/-- No text is in the empty set. -/
@[simp] theorem not_mem_empty (s : String) : s ∉ empty := List.not_mem_nil

/-- A text is in a set with another if it is that one or was in the set before. -/
@[simp] theorem mem_insert {s x : String} {set : TextSet} :
    x ∈ set.insert s ↔ x = s ∨ x ∈ set :=
  Text.mem_insert_ascending

end TextSet

end TileCourse
