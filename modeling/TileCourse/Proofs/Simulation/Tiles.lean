import Mathlib.Data.List.Nodup
import TileCourse.Proofs.Simulation.Grid
import TileCourse.Proofs.Simulation.Leads

/-!
# What a run sees of the tiles

The grid of a level answers two questions about a point, and both answers can be read off the list
of tiles: some tile on the point can be walked on, and something lies on the first of them. A run
asks the grid nothing else, so `simulate_retiled` says that levels whose tiles give the same answers
and the same count have the same results. `grid_tells_tiles` sums this up: where no two tiles share
a point, their order does not matter.
-/

namespace TileCourse

/-! ### Answers of the grid -/

/-- A point lies on the grid if neither coordinate is negative or reaches the size. -/
theorem Level.in_bounds_iff {level : Level} {point : Point} : level.inBounds point = true ↔
    (0 ≤ point.x.toInt ∧ point.x.toInt < level.width.toNat) ∧
      0 ≤ point.y.toInt ∧ point.y.toInt < level.height.toNat := by
  simp only [inBounds, Bool.and_eq_true, decide_eq_true_eq]
  exact ⟨fun ⟨⟨⟨hx, hy⟩, hwidth⟩, hheight⟩ => ⟨⟨hx, hwidth⟩, hy, hheight⟩,
    fun ⟨⟨hx, hwidth⟩, hy, hheight⟩ => ⟨⟨⟨hx, hy⟩, hwidth⟩, hheight⟩⟩

namespace Grid

variable {level : Level} {point : Point}

/-- A cell can be walked on if any of its tiles can. -/
theorem is_walkable_eq (level : Level) (point : Point) :
    (ofLevel level).isWalkable point =
      (level.inBounds point && (level.tiles.filter (·.point = point)).any (·.walkable)) := by
  rw [isWalkable, cell_at_of_level]
  cases level.tiles.filter (·.point = point) <;> rfl

/-- What lies on the first tile of a cell lies on its point. -/
theorem collectible_at_eq (level : Level) (point : Point) :
    (ofLevel level).collectibleAt? point =
      (level.tiles.filter (·.point = point)).head?.bind (·.collectible) := by
  rw [collectibleAt?, cell_at_of_level]
  cases level.tiles.filter (·.point = point) <;> rfl

/-- A point can be walked on exactly if it lies on the grid and some tile there can be. -/
theorem is_walkable_iff : (ofLevel level).isWalkable point = true ↔
    ((0 ≤ point.x.toInt ∧ point.x.toInt < level.width.toNat) ∧
      0 ≤ point.y.toInt ∧ point.y.toInt < level.height.toNat) ∧
    ∃ tile ∈ level.tiles, tile.point = point ∧ tile.walkable = true := by
  rw [is_walkable_eq, Bool.and_eq_true, Level.in_bounds_iff]
  simp only [List.any_eq_true, List.mem_filter, decide_eq_true_eq, and_assoc]

/-- What lies on a point is what lies on the tile that is listed first there. -/
theorem collectible_at_eq_find (level : Level) (point : Point) :
    (ofLevel level).collectibleAt? point =
      (level.tiles.find? (·.point = point)).bind (·.collectible) := by
  rw [collectible_at_eq, List.head?_filter]

end Grid

/-! ### Runs on grids that give the same answers -/

/-- An instruction does the same by itself in settings that differ only in their grids, if the grids
give the same answers. -/
theorem Setting.matches_of_grid {other setting : Setting}
    (hwalkable : ∀ point, other.grid.isWalkable point = setting.grid.isWalkable point)
    (hcollectible : ∀ point, other.grid.collectibleAt? point = setting.grid.collectibleAt? point)
    (hdepth : other.maxDepth = setting.maxDepth) (hlimit : other.stepLimit = setting.stepLimit)
    (hlog : other.captureLog = setting.captureLog) : Matches id other setting where
  maxDepth := hdepth
  stepLimit := hlimit
  steps _ := rfl
  charge instruction run := by
    show other.charge instruction run = setting.charge instruction run
    rw [charge, charge, hlog]
  move run := by
    show other.move run = setting.move run
    rw [move, move, hwalkable]
  turn _ _ := rfl
  pickUp run := by
    show other.pickUp run = setting.pickUp run
    rw [pickUp, pickUp, hcollectible]
  holds run condition := by
    cases condition with
    | tileAheadWalkable => exact hwalkable _
    | collectiblesRemaining => rfl

/-- Other tiles about which the grid answers alike, and on which lies as much, change no result. -/
theorem simulate_retiled {level : Level} {tiles : List Tile}
    (hwalkable : ∀ point, (Grid.ofLevel { level with tiles }).isWalkable point =
      (Grid.ofLevel level).isWalkable point)
    (hcollectible : ∀ point, (Grid.ofLevel { level with tiles }).collectibleAt? point =
      (Grid.ofLevel level).collectibleAt? point)
    (hcount : Level.collectibleCount { level with tiles } = level.collectibleCount)
    (options : Options) (program : Program) :
    simulate { level with tiles } options program = simulate level options program := by
  have hmatches : Setting.Matches id (options.setting { level with tiles })
      (options.setting level) :=
    Setting.matches_of_grid hwalkable hcollectible rfl rfl rfl
  have hstart : Run.start { level with tiles } = .start level := by
    rw [Run.start, World.start, hcount]
    rfl
  have hexecute : (options.setting { level with tiles }).execute 0 program (.start level) =
      (options.setting level).execute 0 program (.start level) :=
    hmatches.execute 0 program (.start level)
  rw [simulate, hstart, hexecute]
  rfl

/-! ### The order of tiles -/

/-- Where no two tiles share a point, at most one tile is on each point, whatever their order. -/
theorem tiles_on_point_eq {tiles others : List Tile} (hpoints : (others.map Tile.point).Nodup)
    (h : tiles.Perm others) (point : Point) :
    tiles.filter (·.point = point) = others.filter (·.point = point) := by
  have hapart {list : List Tile} (hlist : (list.map Tile.point).Nodup) :
      (list.filter (·.point = point)).Pairwise (·.point ≠ ·.point) :=
    (List.pairwise_map.1 hlist).filter _
  have hsame {list : List Tile} : ∀ tile ∈ list.filter (·.point = point), tile.point = point :=
    fun _ htile => of_decide_eq_true (List.mem_filter.1 htile).2
  -- Reordered lists of which no two elements can follow each other are equal.
  refine (h.filter _).eq_of_pairwise ?_ (hapart ((h.map _).nodup_iff.2 hpoints)) (hapart hpoints)
  intro first second hfirst hsecond hne
  exact absurd ((hsame first hfirst).trans (hsame second hsecond).symm) hne

/-- The grid of a level tells what its list of tiles says, whatever tiles are on the list: a point
can be walked on if it lies on the grid and any tile there can be, and what lies there is what lies
on the tile that is listed first. So tiles that lie on points of their own may be listed in any
order: no program has another result. -/
theorem grid_tells_tiles (level : Level) :
    (∀ point, (Grid.ofLevel level).isWalkable point = true ↔
      ((0 ≤ point.x.toInt ∧ point.x.toInt < level.width.toNat) ∧
        0 ≤ point.y.toInt ∧ point.y.toInt < level.height.toNat) ∧
      ∃ tile ∈ level.tiles, tile.point = point ∧ tile.walkable = true) ∧
    (∀ point, (Grid.ofLevel level).collectibleAt? point =
      (level.tiles.find? (·.point = point)).bind (·.collectible)) ∧
    ((level.tiles.map Tile.point).Nodup → ∀ tiles, tiles.Perm level.tiles →
      ∀ options program,
        simulate { level with tiles } options program = simulate level options program) := by
  refine ⟨fun _ => Grid.is_walkable_iff, Grid.collectible_at_eq_find level, ?_⟩
  intro hpoints tiles hperm options program
  have hcells (point : Point) := tiles_on_point_eq hpoints hperm point
  refine simulate_retiled ?_ ?_ ?_ options program
  · intro point
    rw [Grid.is_walkable_eq, Grid.is_walkable_eq, hcells]
    rfl
  · intro point
    rw [Grid.collectible_at_eq, Grid.collectible_at_eq, hcells]
  · rw [Level.collectibleCount, Level.collectibleCount, hperm.countP_eq]

/-- A level on which one tile lies beyond the border, next to the start. -/
def Level.outlying : Level where
  id := "outlying"
  name := "Outlying"
  width := 2
  height := 1
  tiles := [⟨1, 0, true, some "apple"⟩, ⟨-1, 0, true, some "pear"⟩, ⟨0, 0, true, none⟩]
  start := ⟨0, 0, .east⟩
  goal := .none
  bestSteps := 2
  hints := []
  allowedBlocks := .empty
  comic := ""
  rewards := .none

/-- Listed the other way round, the tiles give a walk to the apple and back to the border the same
result, and nobody gets to the pear. -/
theorem grid_tells_outlying :
    let options := Options.ofDefaults 100 8
    let program : Program := [.move, .collect, .turn .left, .turn .left, .move, .move]
    (Level.outlying.tiles.map Tile.point).Nodup ∧
    Level.outlying.tiles.reverse.Perm Level.outlying.tiles ∧
    (Grid.ofLevel .outlying).isWalkable ⟨-1, 0⟩ = false ∧
    (Grid.ofLevel .outlying).collectibleAt? ⟨-1, 0⟩ = some "pear" ∧
    simulate { Level.outlying with tiles := Level.outlying.tiles.reverse } options program =
      simulate .outlying options program ∧
    (simulate .outlying options program).errorCode = some .collide := by
  intro options program
  obtain ⟨hwalkable, hcollectible, hreordered⟩ := grid_tells_tiles .outlying
  have hpoints : (Level.outlying.tiles.map Tile.point).Nodup := by decide
  have hperm : Level.outlying.tiles.reverse.Perm Level.outlying.tiles := List.reverse_perm _
  have hborder : (Grid.ofLevel .outlying).isWalkable ⟨-1, 0⟩ = false := by
    rw [← Bool.not_eq_true, hwalkable]
    exact fun hwithin => absurd hwithin.1.1.1 (by decide)
  exact ⟨hpoints, hperm, hborder, hcollectible ⟨-1, 0⟩, hreordered hpoints _ hperm options program,
    by decide⟩

end TileCourse
