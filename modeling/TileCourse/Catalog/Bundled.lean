import TileCourse.Catalog.Index

/-!
# The bundled catalog

The course that comes with the program: two chapters with five levels.
-/

namespace TileCourse.Catalog

/-- A tile to stand on. -/
private def path (x y : Int32) : Tile := ⟨x, y, true, none⟩

/-- A tile to stand on with something to collect. -/
private def find (x y : Int32) (kind : String) : Tile := ⟨x, y, true, some kind⟩

/-- The level "First steps". -/
def firstSteps : Level where
  id := "level-1-1"
  name := "First steps"
  width := 5
  height := 5
  tiles := [
    path 0 2, path 1 2, path 2 2, path 3 2, path 4 2]
  start := ⟨0, 2, .east⟩
  goal := ⟨none, some ⟨4, 2⟩, some 8⟩
  bestSteps := 4
  hints := [
    "Move forward until you reach the flag.", "Count the tiles between you and the flag.",
    "Four moves are enough."]
  allowedBlocks := .ofList ["MOVE", "TURN_LEFT", "TURN_RIGHT"]
  comic := "Qi needs to walk along the bridge to the flag."
  rewards := ⟨some "explorer-boots", 3⟩

/-- The level "Around the corner". -/
def aroundTheCorner : Level where
  id := "level-1-2"
  name := "Around the corner"
  width := 3
  height := 3
  tiles := [
    path 0 0, path 1 0, path 2 0, path 2 1, path 2 2]
  start := ⟨0, 0, .east⟩
  goal := ⟨none, some ⟨2, 2⟩, some 10⟩
  bestSteps := 5
  hints := [
    "Walk to the corner first.", "Which way do you turn to face the exit?",
    "Move, move, turn right, move, move."]
  allowedBlocks := .ofList ["MOVE", "TURN_LEFT", "TURN_RIGHT"]
  comic := "The path bends at the old tree."
  rewards := ⟨none, 3⟩

/-- The level "Gem collector". -/
def gemCollector : Level where
  id := "level-1-3"
  name := "Gem collector"
  width := 5
  height := 5
  tiles := [
    path 0 2, find 1 2 "gem", path 2 2, find 3 2 "gem", path 4 2]
  start := ⟨0, 2, .east⟩
  goal := ⟨some 2, some ⟨4, 2⟩, some 12⟩
  bestSteps := 6
  hints := [
    "Stand on a gem before collecting it.", "There are two gems on the way.",
    "Collect each gem as soon as you reach it."]
  allowedBlocks := .ofList ["MOVE", "TURN_LEFT", "TURN_RIGHT", "COLLECT"]
  comic := "Shiny gems are scattered along the bridge."
  rewards := ⟨some "gem-hat", 2⟩

/-- The level "Long road". -/
def longRoad : Level where
  id := "level-2-1"
  name := "Long road"
  width := 7
  height := 1
  tiles := [
    path 0 0, path 1 0, path 2 0, path 3 0, path 4 0, path 5 0, path 6 0]
  start := ⟨0, 0, .east⟩
  goal := ⟨none, some ⟨6, 0⟩, some 10⟩
  bestSteps := 7
  hints := [
    "That is a lot of moves.", "A repeat block can do the same move many times.",
    "Repeat move six times."]
  allowedBlocks := .ofList ["MOVE", "REPEAT"]
  comic := "The road to the castle is long and straight."
  rewards := ⟨none, 3⟩

/-- The level "Look before you leap". -/
def lookBeforeYouLeap : Level where
  id := "level-2-2"
  name := "Look before you leap"
  width := 4
  height := 4
  tiles := [
    path 0 0, path 1 0, path 2 0, path 3 0, path 3 1, path 3 2, find 3 3 "key"]
  start := ⟨0, 0, .east⟩
  goal := ⟨some 1, some ⟨3, 3⟩, some 30⟩
  bestSteps := 16
  hints := [
    "Check the tile ahead before moving.", "Turn when the path ends.",
    "Repeat: if the tile ahead is walkable move, otherwise turn right. Then collect."]
  allowedBlocks := .ofList []
  comic := "The key waits at the bottom of the tower."
  rewards := ⟨some "loop-cape", 1⟩

/-- The source of the bundled catalog. -/
def bundledSource : CatalogSource where
  courses := [
    ⟨"course-1", "Sequencing basics", "Step-by-step instructions for young explorers.",
      ["chapter-1", "chapter-2"]⟩]
  chapters := [
    ⟨"chapter-1", "Chapter 1: Order and direction", 1,
      ["level-1-1", "level-1-2", "level-1-3"]⟩,
    ⟨"chapter-2", "Chapter 2: Loops and decisions", 2,
      ["level-2-1", "level-2-2"]⟩]
  levels := [firstSteps, aroundTheCorner, gemCollector, longRoad, lookBeforeYouLeap]

/-- The catalog without levels. -/
def empty : Catalog := ⟨[], [], .empty, .empty⟩

/-- The bundled catalog. -/
def bundled : Catalog :=
  match ofSource bundledSource with
  | .ok catalog => catalog
  | .error _ => empty

end TileCourse.Catalog
