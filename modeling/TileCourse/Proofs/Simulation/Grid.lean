import TileCourse.Simulation.Grid

/-!
# Cells and tiles

What the grid of a level knows about a point, in terms of the tiles on that point. Adding a tile
changes the cell of its own point only; `cell_at_of_level` sums up a whole list of tiles.
-/

namespace TileCourse.Grid

/-- The cell of a point on which tiles are put one after the other. -/
def cellOf? : List Tile → Option Cell
  | [] => none
  | first :: rest => some ⟨(first :: rest).any (·.walkable), first.collectible⟩

/-- A cell with more tiles put on it. -/
def heap (below : Option Cell) (tiles : List Tile) : Option Cell :=
  match below with
  | none => cellOf? tiles
  | some cell => some { cell with walkable := cell.walkable || tiles.any (·.walkable) }

/-- A cell on which no more tiles are put stays as it is. -/
theorem heap_nil (below : Option Cell) : heap below [] = below := by
  cases below <;> simp [heap, cellOf?]

/-- Tiles can be put on a cell one after the other. -/
theorem heap_cons (below : Option Cell) (tile : Tile) (rest : List Tile) :
    heap below (tile :: rest) = heap (heap below [tile]) rest := by
  cases below <;> simp [heap, cellOf?, Bool.or_assoc]

/-- A tile is put on the cell of its own point, and no other cell changes. -/
theorem cell_at_add_tile (point : Point) (tile : Tile) (cells : List (Point × Cell)) :
    cellAt? point (addTile tile cells) =
      if tile.point = point then heap (cellAt? point cells) [tile] else cellAt? point cells := by
  induction cells with
  | nil => by_cases h : tile.point = point <;> simp [addTile, cellAt?, heap, cellOf?, h]
  | cons entry rest ih =>
      obtain ⟨p, cell⟩ := entry
      by_cases hp : p = tile.point
      · subst hp
        by_cases h : tile.point = point <;> simp [addTile, cellAt?, heap, h]
      · by_cases h : p = point
        · subst h
          simp [addTile, cellAt?, hp, Ne.symm hp]
        · simp [addTile, cellAt?, hp, h, ih]

/-- All tiles of a list that lie on a point are put on its cell. -/
theorem cell_at_foldl (point : Point) (tiles : List Tile) (cells : List (Point × Cell)) :
    cellAt? point (tiles.foldl (fun cells tile => addTile tile cells) cells) =
      heap (cellAt? point cells) (tiles.filter (·.point = point)) := by
  induction tiles generalizing cells with
  | nil => exact (heap_nil _).symm
  | cons tile rest ih =>
      rw [List.foldl_cons, ih, cell_at_add_tile]
      by_cases h : tile.point = point
      · rw [if_pos h, List.filter_cons_of_pos (by simpa using h)]
        exact (heap_cons _ tile _).symm
      · rw [if_neg h, List.filter_cons_of_neg (by simpa using h)]

/-- The cell of a point is made of the level's tiles on that point. -/
theorem cell_at_of_level (level : Level) (point : Point) :
    cellAt? point (ofLevel level).cells =
      cellOf? (level.tiles.filter (·.point = point)) :=
  cell_at_foldl point level.tiles []

/-- What lies on a point lies on a tile of the level. -/
theorem exists_tile_of_collectible_at {level : Level} {point : Point} {kind : String}
    (h : (ofLevel level).collectibleAt? point = some kind) :
    ∃ tile ∈ level.tiles, tile.point = point ∧ tile.collectible = some kind := by
  rw [collectibleAt?, cell_at_of_level] at h
  cases htiles : level.tiles.filter (·.point = point) with
  | nil => simp [htiles, cellOf?] at h
  | cons tile rest =>
      have hmem : tile ∈ level.tiles.filter (·.point = point) := htiles ▸ List.mem_cons_self
      rw [List.mem_filter, decide_eq_true_eq] at hmem
      refine ⟨tile, hmem.1, hmem.2, ?_⟩
      simpa [htiles, cellOf?] using h

end TileCourse.Grid
