import Mathlib.Data.Set.Card
import TileCourse.Proofs.Catalog.Acceptance
import TileCourse.Proofs.Simulation.Collection

/-!
# Things that cannot be collected

Of several tiles on one point the first decides what lies there, but whatever lies on the others is
counted too. Such things are buried: nobody can collect them, and so many are left when everything
has been collected that can be. `remaining_after_all` says that these are the only ones.
-/

namespace TileCourse

/-! ### First tiles and others -/

/-- The points of the tiles with something on them that are the first ones on their points, with
tiles on the points `above` them. -/
def exposed (above : List Point) : List Tile → List Point
  | [] => []
  | tile :: rest =>
    if tile.collectible.isSome ∧ tile.point ∉ above then
      tile.point :: exposed (tile.point :: above) rest
    else exposed (tile.point :: above) rest

/-- The tiles with something on them that are not the first ones on their points. -/
def buriedUnder (above : List Point) : List Tile → List Tile
  | [] => []
  | tile :: rest =>
    if tile.collectible.isSome ∧ tile.point ∈ above then
      tile :: buriedUnder (tile.point :: above) rest
    else buriedUnder (tile.point :: above) rest

/-- A tile with something on it is exposed or buried. -/
theorem count_eq_exposed_add_buried (above : List Point) (tiles : List Tile) :
    (tiles.countP fun tile => tile.collectible.isSome) =
      (exposed above tiles).length + (buriedUnder above tiles).length := by
  induction tiles generalizing above with
  | nil => rfl
  | cons tile rest ih =>
      rw [List.countP_cons, ih (tile.point :: above), exposed, buriedUnder]
      by_cases hsome : tile.collectible.isSome = true
      · by_cases habove : tile.point ∈ above <;> simp [hsome, habove] <;> omega
      · simp [hsome]

/-- What is exposed lies on the first tile of its point. -/
theorem mem_exposed_iff {above : List Point} {tiles : List Tile} {point : Point} :
    point ∈ exposed above tiles ↔
      point ∉ above ∧ ((tiles.find? (·.point = point)).bind (·.collectible)).isSome := by
  induction tiles generalizing above with
  | nil => simp [exposed]
  | cons tile rest ih =>
      have hmem : point ∈ exposed above (tile :: rest) ↔
          (tile.collectible.isSome ∧ tile.point ∉ above ∧ point = tile.point) ∨
            point ∈ exposed (tile.point :: above) rest := by
        rw [exposed]
        split <;> rename_i hfirst
        · rw [List.mem_cons]
          tauto
        · tauto
      rw [hmem, ih, List.mem_cons, not_or]
      -- the tile hides what lies on later tiles of its point
      by_cases hpoint : tile.point = point
      · subst hpoint
        simp [and_comm]
      · simp [List.find?_cons_of_neg, hpoint, Ne.symm hpoint]

/-- No point is exposed twice. -/
theorem nodup_exposed (above : List Point) (tiles : List Tile) : (exposed above tiles).Nodup := by
  induction tiles generalizing above with
  | nil => exact List.nodup_nil
  | cons tile rest ih =>
      rw [exposed]
      split
      · refine List.nodup_cons.2 ⟨fun hmem => ?_, ih _⟩
        exact (mem_exposed_iff.1 hmem).1 List.mem_cons_self
      · exact ih _

/-- Nothing is buried if nothing lies on a tile that is not the first on its point. -/
theorem buried_under_eq_nil_iff {above : List Point} {tiles : List Tile} :
    buriedUnder above tiles = [] ↔
      (∀ tile ∈ tiles, tile.point ∈ above → tile.collectible = none) ∧
        tiles.Pairwise fun upper lower => upper.point = lower.point → lower.collectible = none := by
  induction tiles generalizing above with
  | nil => simp [buriedUnder]
  | cons tile rest ih =>
      have hcons : buriedUnder above (tile :: rest) = [] ↔
          (tile.point ∈ above → tile.collectible = none) ∧
            buriedUnder (tile.point :: above) rest = [] := by
        rw [buriedUnder, ← Option.not_isSome_iff_eq_none]
        split <;> rename_i hburied
        · exact ⟨fun h => (List.cons_ne_nil _ _ h).elim, fun h => absurd hburied.1 (h.1 hburied.2)⟩
        · tauto
      rw [hcons, ih, List.forall_mem_cons, List.pairwise_cons]
      have habove : (∀ lower ∈ rest, lower.point ∈ tile.point :: above → lower.collectible = none) ↔
          (∀ lower ∈ rest, tile.point = lower.point → lower.collectible = none) ∧
            ∀ lower ∈ rest, lower.point ∈ above → lower.collectible = none := by
        simp only [List.mem_cons, or_imp, forall_and, @eq_comm _ tile.point]
      rw [habove]
      tauto

namespace Level

/-- The points on which something lies. -/
def collectiblePoints (level : Level) : Set Point :=
  {point | ((Grid.ofLevel level).collectibleAt? point).isSome}

/-- The tiles with something on them that lie on a point on which there is a tile before them. -/
def buried (level : Level) : List Tile := buriedUnder [] level.tiles

/-- Something lies on the points that are exposed, and on no others. -/
theorem mem_collectible_points_iff {level : Level} {point : Point} :
    point ∈ level.collectiblePoints ↔ point ∈ exposed [] level.tiles := by
  rw [mem_exposed_iff, ← List.head?_filter, collectiblePoints, Set.mem_ofPred_eq,
    Grid.collectibleAt?, Grid.cell_at_of_level]
  cases level.tiles.filter (·.point = point) <;> simp [Grid.cellOf?]

/-- The points on which something lies are as many as the tiles with something on them, less those
that are buried. -/
theorem collectible_tiles_eq (level : Level) :
    level.collectibleTiles = level.collectiblePoints.ncard + level.buried.length := by
  have hpoints : level.collectiblePoints = ((exposed [] level.tiles).toFinset : Set Point) :=
    Set.ext fun point => by simp [mem_collectible_points_iff]
  rw [hpoints, Set.ncard_coe_finset, List.toFinset_card_of_nodup (nodup_exposed _ _), buried,
    ← count_eq_exposed_add_buried, collectibleTiles]

/-- Nothing is buried exactly if there is nothing on a tile with another tile before it on its
point. -/
theorem buried_eq_nil_iff {level : Level} :
    level.buried = [] ↔
      level.tiles.Pairwise fun upper lower => upper.point = lower.point →
        lower.collectible = none := by
  simp [buried, buried_under_eq_nil_iff]

end Level

/-! ### Runs that collect everything -/

/-- The points on which something has been collected are as many as the keys. -/
theorem World.Accounts.card_keys {world : World} {level : Level} {log : List Step}
    (h : world.Accounts level log) : world.keys.card = (level.collectedIn log).ncard := by
  rw [← Set.ncard_coe_finset, ← h.keys.image_eq]
  exact h.keys.injOn.ncard_image

/-- A level counts as many things as there are points on which something lies, and as many more as
are buried; what is buried is left when something has been collected on every such point. So
everything can be accounted for exactly on the levels on which nothing is buried. -/
theorem remaining_after_all (level : Level) (hfits : level.collectibleTiles < 2 ^ 32) :
    level.collectibleCount.toNat = level.collectiblePoints.ncard + level.buried.length ∧
    (level.collectibleCount.toNat = level.collectiblePoints.ncard ↔
      level.tiles.Pairwise fun upper lower => upper.point = lower.point →
        lower.collectible = none) ∧
    ∀ (options : Options) (program : Program),
      let result := simulate level { options with captureLog := true } program
      (∀ point ∈ level.collectiblePoints,
        ∃ step ∈ result.log, step.instruction = .collect ∧ step.position.point = point) →
      result.remaining.toNat = level.buried.length := by
  have hcount : level.collectibleCount.toNat =
      level.collectiblePoints.ncard + level.buried.length :=
    (Level.collectible_count_to_nat hfits).trans level.collectible_tiles_eq
  refine ⟨hcount, ?_, ?_⟩
  · rw [hcount, Nat.add_eq_left, List.length_eq_zero_iff, Level.buried_eq_nil_iff]
  · intro options program result hall
    have haccounts := ({ options with captureLog := true } : Options).final_world_accounts level
      program rfl
    have hcollected : level.collectedIn result.log = level.collectiblePoints :=
      Set.ext fun point => ⟨fun h => h.1, fun h => ⟨h, hall point h⟩⟩
    have hkeys := haccounts.card_keys
    have hbalance := haccounts.balance hfits
    rw [hkeys, hcollected, hcount] at hbalance
    have hremaining : result.remaining.toNat + level.collectiblePoints.ncard =
        level.collectiblePoints.ncard + level.buried.length := hbalance
    omega

/-- A level with one tile on another one, and something on both. -/
def Level.mound : Level where
  id := "mound"
  name := "Mound"
  width := 1
  height := 1
  tiles := [⟨0, 0, true, some "gem"⟩, ⟨0, 0, true, some "coin"⟩]
  start := ⟨0, 0, .north⟩
  goal := ⟨some 1, none, none⟩
  bestSteps := 1
  hints := []
  allowedBlocks := .empty
  comic := ""
  rewards := .none

/-- The mound in a chapter of its own. -/
def moundSource : CatalogSource := ⟨[], [⟨"digs", "Digs", 1, ["mound"]⟩], [.mound]⟩

/-- On the mound the coin lies under the tile with the gem. -/
theorem remaining_after_all_mound :
    Level.mound.collectibleTiles < 2 ^ 32 ∧
    (∀ point ∈ Level.mound.collectiblePoints,
      ∃ step ∈ (simulate .mound (.ofDefaults 100 8) [.collect]).log,
        step.instruction = .collect ∧ step.position.point = point) ∧
    (simulate .mound (.ofDefaults 100 8) [.collect]).remaining.toNat = 1 := by
  have hfits : Level.mound.collectibleTiles < 2 ^ 32 := by decide
  have hall : ∀ point ∈ Level.mound.collectiblePoints,
      ∃ step ∈ (simulate .mound (.ofDefaults 100 8) [.collect]).log,
        step.instruction = .collect ∧ step.position.point = point := by
    intro point hpoint
    have hpoint : point ∈ [(⟨0, 0⟩ : Point)] := Level.mem_collectible_points_iff.1 hpoint
    rw [List.mem_singleton.1 hpoint]
    decide
  obtain ⟨-, -, hremaining⟩ := remaining_after_all .mound hfits
  exact ⟨hfits, hall, hremaining (.ofDefaults 100 8) [.collect] hall⟩

/-- A catalog may have a level that counts more things than there are points on which something
lies. -/
theorem not_count_eq_points : ¬ ∀ source catalog, Catalog.ofSource source = .ok catalog →
    ∀ level ∈ source.levels, level.collectibleCount.toNat = level.collectiblePoints.ncard := by
  intro h
  have hconsistent : moundSource.Consistent :=
    ⟨by decide, by decide, by decide, by decide, by decide⟩
  obtain ⟨catalog, hcatalog⟩ := Catalog.exists_of_consistent hconsistent
  have hsame := h moundSource catalog hcatalog .mound List.mem_cons_self
  have htiles := Level.mound.collectible_tiles_eq
  have hfew : Level.mound.collectibleTiles = 2 ∧ Level.mound.collectibleCount.toNat = 2 ∧
      Level.mound.buried.length = 1 := by decide
  omega

end TileCourse
