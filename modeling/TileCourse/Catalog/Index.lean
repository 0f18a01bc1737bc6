import TileCourse.Catalog.Basic

/-!
# Catalogs

A catalog is made of its source once and for all. Every reference must lead to exactly one thing:
a level stands in one place of one chapter, and a chapter in one place of one course. The catalog
keeps the levels by id, and for each level its slot in the order of play.
-/

namespace TileCourse

/-- Why a source makes no catalog. -/
inductive CatalogError where
  /-- A level has no tiles in one of the two directions. -/
  | emptyGrid (level : String)
  /-- Two levels have the same id. -/
  | duplicateLevel (level : String)
  /-- Two chapters have the same id. -/
  | duplicateChapter (chapter : String)
  /-- A course refers to a chapter that is not there. -/
  | unknownChapter (course chapter : String)
  /-- A chapter refers to a level that is not there. -/
  | unknownLevel (chapter level : String)
  /-- A level stands in more than one place. -/
  | repeatedLevel (level : String)
  /-- A level stands nowhere. -/
  | orphanLevel (level : String)
  deriving DecidableEq, Repr

/-- The wording of an error. -/
def CatalogError.message : CatalogError → String
  | .emptyGrid level => "invalid level '" ++ level ++ "': grid must be at least 1x1"
  | .duplicateLevel level => "duplicate level id '" ++ level ++ "'"
  | .duplicateChapter chapter => "duplicate chapter id '" ++ chapter ++ "'"
  | .unknownChapter course chapter =>
    "course '" ++ course ++ "' references unknown chapter '" ++ chapter ++ "'"
  | .unknownLevel chapter level =>
    "chapter '" ++ chapter ++ "' references unknown level '" ++ level ++ "'"
  | .repeatedLevel level =>
    "invalid level '" ++ level ++ "': level appears in more than one chapter"
  | .orphanLevel level => "invalid level '" ++ level ++ "': level is not part of any chapter"

/-- The place of a level in the order of play. -/
structure Slot where
  /-- The number of the chapter. -/
  chapter : Nat
  /-- The number of the level in the chapter. -/
  index : Nat
  deriving DecidableEq, Repr

/-- A catalog. -/
structure Catalog where
  courses : List Course
  /-- The chapters in the order of play. -/
  chapters : List Chapter
  /-- The levels by id. -/
  levels : Table Level
  /-- The slots of the levels by id. -/
  slots : Table Slot

namespace Catalog

/-- Whether one chapter may stand before another in a course. -/
def playedBefore (a b : Chapter) : Bool :=
  a.order < b.order || (a.order == b.order && !(b.id < a.id))

/-- Gather the levels by id, in addition to those that have been gathered. -/
def gatherLevels : List Level → Table Level → Except CatalogError (Table Level)
  | [], gathered => .ok gathered
  | level :: rest, gathered =>
    if level.width = 0 ∨ level.height = 0 then .error (.emptyGrid level.id)
    else if gathered.contains level.id then .error (.duplicateLevel level.id)
    else gatherLevels rest (gathered.insert level.id level)

/-- Check that the ids of chapters are new, among themselves and beside those seen before. -/
def checkChapters : List Chapter → (seen : List String) → Except CatalogError Unit
  | [], _ => .ok ()
  | chapter :: rest, seen =>
    if chapter.id ∈ seen then .error (.duplicateChapter chapter.id)
    else checkChapters rest (chapter.id :: seen)

/-- The course that holds every chapter of a source without courses. -/
def implicitCourse (source : CatalogSource) : Course :=
  ⟨"default", "Default course", "", source.chapters.map (·.id)⟩

/-- The courses of a source, stated or implicit. -/
def coursesOf (source : CatalogSource) : List Course :=
  if source.courses.isEmpty then [implicitCourse source] else source.courses

/-- The chapters that a course lists. -/
def listed (chapters : List Chapter) (course : Course) :
    List String → Except CatalogError (List Chapter)
  | [] => .ok []
  | id :: rest =>
    match chapters.find? fun chapter => chapter.id == id with
    | none => .error (.unknownChapter course.id id)
    | some chapter =>
      match listed chapters course rest with
      | .error error => .error error
      | .ok others => .ok (chapter :: others)

/-- The chapters of courses in the order of play. -/
def orderChapters (chapters : List Chapter) :
    List Course → Except CatalogError (List Chapter)
  | [] => .ok []
  | course :: rest =>
    match listed chapters course course.chapterIds with
    | .error error => .error error
    | .ok own =>
      match orderChapters chapters rest with
      | .error error => .error error
      | .ok others => .ok (own.mergeSort playedBefore ++ others)

/-- Give slots to the levels of a chapter, from the one with number `index` on. -/
def placeLevels (levels : Table Level) (chapter : Nat) (name : String) :
    List String → (index : Nat) → Table Slot → Except CatalogError (Table Slot)
  | [], _, slots => .ok slots
  | id :: rest, index, slots =>
    if !levels.contains id then .error (.unknownLevel name id)
    else if slots.contains id then .error (.repeatedLevel id)
    else placeLevels levels chapter name rest (index + 1) (slots.insert id ⟨chapter, index⟩)

/-- Give slots to the levels of chapters, from the one with number `number` on. -/
def placeChapters (levels : Table Level) :
    List Chapter → (number : Nat) → Table Slot → Except CatalogError (Table Slot)
  | [], _, slots => .ok slots
  | chapter :: rest, number, slots =>
    match placeLevels levels number chapter.id chapter.levelIds 0 slots with
    | .error error => .error error
    | .ok slots => placeChapters levels rest (number + 1) slots

/-- Make a catalog of its source. -/
def ofSource (source : CatalogSource) : Except CatalogError Catalog :=
  match gatherLevels source.levels .empty with
  | .error error => .error error
  | .ok levels =>
    match checkChapters source.chapters [] with
    | .error error => .error error
    | .ok () =>
      let courses := coursesOf source
      match orderChapters source.chapters courses with
      | .error error => .error error
      | .ok chapters =>
        match placeChapters levels chapters 0 .empty with
        | .error error => .error error
        | .ok slots =>
          match levels.keys.find? fun id => !slots.contains id with
          | some orphan => .error (.orphanLevel orphan)
          | none => .ok ⟨courses, chapters, levels, slots⟩

/-! ### Looking things up -/

/-- The level with an id. -/
def level? (catalog : Catalog) (id : String) : Option Level := catalog.levels.get? id

/-- The slot of a level. -/
def slot? (catalog : Catalog) (id : String) : Option Slot := catalog.slots.get? id

/-- The chapter in which a level stands. -/
def chapterOf? (catalog : Catalog) (id : String) : Option Chapter :=
  (catalog.slot? id).bind fun slot => catalog.chapters[slot.chapter]?

/-- The level that stands just before another in the same chapter. -/
def predecessor? (catalog : Catalog) (id : String) : Option String :=
  match catalog.slot? id with
  | some ⟨chapter, index + 1⟩ => (catalog.chapters[chapter]?).bind fun c => c.levelIds[index]?
  | _ => none

/-- Every level in the order of play. -/
def levelsInOrder (catalog : Catalog) : List Level :=
  catalog.chapters.flatMap fun chapter => chapter.levelIds.filterMap catalog.level?

/-- The number of levels. -/
def levelCount (catalog : Catalog) : Nat := catalog.levels.size

end Catalog

end TileCourse
