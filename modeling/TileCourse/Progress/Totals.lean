import TileCourse.Catalog.Index
import TileCourse.Progress.Profile

/-!
# What follows from records

Badges, the compendium and the access to the sandbox are never changed on their own: `settle`
makes them anew from the records of a profile and a catalog, so they cannot go out of date.
-/

namespace TileCourse

/-- Sums over the levels of a catalog. -/
structure Totals where
  /-- The levels with a star. -/
  completed : Nat
  /-- The levels with three stars. -/
  perfect : Nat
  /-- The stars of all levels, added up in 32 bits. -/
  starTotal : UInt32
  /-- The levels of the catalog. -/
  levels : Nat
  deriving DecidableEq, Repr

namespace Totals

/-- The stars of all levels, as far as 32 bits tell. -/
def stars (totals : Totals) : Nat := totals.starTotal.toNat

/-- The badges that sums earn. -/
def badges (totals : Totals) : TextSet :=
  TextSet.empty
    |>.insertIf (1 ≤ totals.completed) "first-clear"
    |>.insertIf (5 ≤ totals.completed) "traveler"
    |>.insertIf (3 ≤ totals.perfect) "perfectionist"
    |>.insertIf (0 < totals.levels && totals.completed == totals.levels) "chapter-master"
    |>.insertIf (30 ≤ totals.stars) "star-collector"

end Totals

/-- The entry of a level in the compendium. -/
def compendiumEntry (level : String) : String := level ++ "-3star"

namespace Profile

/-- The sums over the levels of a catalog. -/
def totals (profile : Profile) (catalog : Catalog) : Totals :=
  let stars := catalog.levelsInOrder.map fun level => profile.starsFor level.id
  { completed := stars.countP (0 < ·)
    perfect := stars.countP (· == 3)
    starTotal := stars.foldl (fun total earned => total + earned.toUInt32) 0
    levels := catalog.levelCount }

/-- The entries of the levels with three stars. -/
def compendium (profile : Profile) (catalog : Catalog) : TextSet :=
  .ofList <|
    (catalog.levelsInOrder.filter fun level => profile.starsFor level.id == 3).map fun level =>
      compendiumEntry level.id

/-- The profile with everything that follows from its records. -/
def settle (profile : Profile) (catalog : Catalog) : Profile :=
  let totals := profile.totals catalog
  { profile with
    achievements := ⟨totals.badges, profile.compendium catalog⟩
    sandboxUnlocked := 0 < totals.completed }

end Profile

end TileCourse
