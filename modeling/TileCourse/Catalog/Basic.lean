import TileCourse.Level.Wire
import TileCourse.Text.Table

/-!
# Courses, chapters and the source of a catalog

A catalog is stated as lists of levels, chapters and courses that refer to each other by ids.
-/

namespace TileCourse

/-- A chapter: some levels in the order in which they are played. -/
structure Chapter where
  id : String
  title : String
  /-- Chapters of a course are played in ascending order. -/
  order : Int32
  levelIds : List String
  deriving DecidableEq, Repr

/-- A course: some chapters. -/
structure Course where
  id : String
  name : String
  description : String
  chapterIds : List String
  deriving DecidableEq, Repr

/-- The lists of which a catalog is made. -/
structure CatalogSource where
  courses : List Course
  chapters : List Chapter
  levels : List Level
  deriving DecidableEq

open Json

/-- The fields of a chapter. -/
def Chapter.plan : Plan Chapter (String → String → Int32 → List String → Chapter) :=
  .cons (.required "id" (·.id)) <|
  .cons (.required "title" (·.title)) <|
  .cons (.defaulted "order" 0 (·.order)) <|
  .cons (.required "levelIds" (·.levelIds)) .nil

instance : Wire Chapter :=
  ⟨Chapter.plan.decoder "ChapterDefinition" Chapter.mk, Chapter.plan.encoder⟩

/-- The fields of a course. -/
def Course.plan : Plan Course (String → String → String → List String → Course) :=
  .cons (.required "id" (·.id)) <|
  .cons (.required "name" (·.name)) <|
  .cons (.defaulted "description" "" (·.description)) <|
  .cons (.required "chapterIds" (·.chapterIds)) .nil

instance : Wire Course :=
  ⟨Course.plan.decoder "CourseDefinition" Course.mk, Course.plan.encoder⟩

/-- The fields of the source of a catalog. -/
def CatalogSource.plan :
    Plan CatalogSource (List Course → List Chapter → List Level → CatalogSource) :=
  .cons (.defaulted "courses" [] (·.courses)) <|
  .cons (.required "chapters" (·.chapters)) <|
  .cons (.required "levels" (·.levels)) .nil

instance : Wire CatalogSource :=
  ⟨CatalogSource.plan.decoder "CatalogSource" CatalogSource.mk, CatalogSource.plan.encoder⟩

end TileCourse
