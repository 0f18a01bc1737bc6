import Mathlib.Algebra.Group.Nat.Defs
import Mathlib.Data.List.Nodup
import Mathlib.Data.List.Perm.Subperm
import TileCourse.Proofs.Simulation.Grid
import TileCourse.Proofs.Simulation.Leads

/-!
# Counting what has been collected

Everything that has been collected was lying on its point, and nothing is collected twice. So at
every moment of a run the things collected and those still to be collected add up to the number
of tiles on which something lies, as long as 32 bits can hold that number. `advance_cases` says
what a step can do to what has been collected.
-/

namespace TileCourse

/-- The number of tiles on which something lies. -/
def Level.collectibleTiles (level : Level) : Nat :=
  level.tiles.countP fun tile => tile.collectible.isSome

/-- The things that have been collected are known to the grid, and none counts twice. -/
structure World.Tallied (level : Level) (world : World) : Prop where
  nodup : world.visited.Nodup
  /-- A thing lies on its point. -/
  lies : ∀ pickup ∈ world.visited,
    (Grid.ofLevel level).collectibleAt? pickup.point = some pickup.kind
  /-- What is collected and what is not make up everything. -/
  count : level.collectibleTiles < 2 ^ 32 →
    world.remaining.toNat + world.visited.length = level.collectibleTiles

namespace World

/-- Different things on the grid lie on different points, and on each point is a tile. -/
theorem visited_length_le {level : Level} {visited : List Pickup} (hnodup : visited.Nodup)
    (hlies : ∀ pickup ∈ visited,
      (Grid.ofLevel level).collectibleAt? pickup.point = some pickup.kind) :
    visited.length ≤ level.collectibleTiles := by
  have hpoints : (visited.map (·.point)).Nodup := by
    refine hnodup.map_on fun a ha b hb hab => ?_
    have hkind : some a.kind = some b.kind := by rw [← hlies a ha, ← hlies b hb, hab]
    cases a
    cases b
    simp_all
  have hsubset : visited.map (·.point) ⊆
      (level.tiles.filter fun tile => tile.collectible.isSome).map (·.point) := by
    intro point hpoint
    obtain ⟨pickup, hpickup, rfl⟩ := List.mem_map.1 hpoint
    obtain ⟨tile, htile, hat, hkind⟩ := Grid.exists_tile_of_collectible_at (hlies pickup hpickup)
    exact List.mem_map.2 ⟨tile, List.mem_filter.2 ⟨htile, by simp [hkind]⟩, hat⟩
  have hle := (hpoints.subperm hsubset).length_le
  rwa [List.length_map, List.length_map, ← List.countP_eq_length_filter] at hle

/-- One less, but never less than nothing. -/
theorem to_nat_pred (n : UInt32) : (if n = 0 then 0 else n - 1).toNat = n.toNat - 1 := by
  split
  · rename_i h
    simp [h]
  · rename_i h
    have hpos : 1 ≤ n.toNat := by
      by_contra hlt
      exact h (UInt32.toNat_inj.1 (by simp; omega))
    exact UInt32.toNat_sub_of_le _ _ (UInt32.le_iff_toNat_le.2 hpos)

variable {level : Level} {world : World}

/-- Collecting again what has been collected changes nothing. -/
theorem collect_of_mem (world : World) {point : Point} {kind : String}
    (h : (⟨point, kind⟩ : Pickup) ∈ world.visited) : (world.collect point kind).2 = world := by
  simp [World.collect, h]

/-- Collecting something new lowers the count, unless it is zero. -/
theorem collect_of_not_mem (world : World) {point : Point} {kind : String}
    (h : (⟨point, kind⟩ : Pickup) ∉ world.visited) :
    (world.collect point kind).2 =
      { world with
        visited := ⟨point, kind⟩ :: world.visited
        remaining := if world.remaining = 0 then 0 else world.remaining - 1 } := by
  simp [World.collect, h]

/-- As long as something on the grid has not been collected, the count is not used up. -/
theorem Tallied.remaining_pos (h : world.Tallied level) (hfits : level.collectibleTiles < 2 ^ 32)
    {point : Point} {kind : String}
    (hkind : (Grid.ofLevel level).collectibleAt? point = some kind)
    (hnew : (⟨point, kind⟩ : Pickup) ∉ world.visited) : 0 < world.remaining.toNat := by
  have hlies : ∀ pickup ∈ (⟨point, kind⟩ : Pickup) :: world.visited,
      (Grid.ofLevel level).collectibleAt? pickup.point = some pickup.kind :=
    List.forall_mem_cons.2 ⟨hkind, h.lies⟩
  have hle := visited_length_le (List.nodup_cons.2 ⟨hnew, h.nodup⟩) hlies
  have hcount := h.count hfits
  rw [List.length_cons] at hle
  omega

/-- At the start nothing has been collected, and everything is left. -/
theorem tallied_start (level : Level) : (World.start level).Tallied level where
  nodup := List.nodup_nil
  lies := by simp [World.start]
  count := by
    intro hfits
    have htoNat : level.collectibleCount.toNat = level.collectibleTiles := by
      rw [Level.collectibleCount, UInt32.toNat_ofNat']
      exact Nat.mod_eq_of_lt hfits
    simpa [World.start] using htoNat

/-- Only the position and what has been collected matter to the tally. -/
theorem Tallied.congr {other : World} (h : world.Tallied level)
    (hvisited : other.visited = world.visited) (hremaining : other.remaining = world.remaining) :
    other.Tallied level where
  nodup := hvisited ▸ h.nodup
  lies := hvisited ▸ h.lies
  count := by rw [hvisited, hremaining]; exact h.count

/-- The state `next` has collected `pickup`, which `world` had not. -/
structure Gains (world : World) (level : Level) (pickup : Pickup) (next : World) : Prop where
  lies : (Grid.ofLevel level).collectibleAt? pickup.point = some pickup.kind
  fresh : pickup ∉ world.visited
  visited : next.visited = pickup :: world.visited
  remaining : next.remaining.toNat = world.remaining.toNat - 1

/-- What is gained lowers the count by one, unless there is nothing left to take it off. -/
theorem Gains.lowers {pickup : Pickup} {next : World} (h : world.Gains level pickup next) :
    next.remaining.toNat + 1 = world.remaining.toNat ∨
      world.remaining = 0 ∧ next.remaining = 0 := by
  have hremaining := h.remaining
  rw [← UInt32.toNat_inj, ← UInt32.toNat_inj, UInt32.toNat_zero]
  omega

/-- What is gained is added to the tally. -/
theorem Tallied.gain {pickup : Pickup} {next : World} (h : world.Tallied level)
    (hgains : world.Gains level pickup next) : next.Tallied level where
  nodup := hgains.visited ▸ List.nodup_cons.2 ⟨hgains.fresh, h.nodup⟩
  lies := hgains.visited ▸ List.forall_mem_cons.2 ⟨hgains.lies, h.lies⟩
  count := by
    intro hfits
    have hpos := h.remaining_pos hfits hgains.lies hgains.fresh
    have hcount := h.count hfits
    rw [hgains.remaining, hgains.visited, List.length_cons]
    omega

end World

namespace Setting

variable {level : Level} {setting : Setting}

/-- What a step does to what has been collected: it collects a thing on the agent's point that has
not been collected before, or it changes nothing. -/
theorem advance_cases (hgrid : setting.grid = .ofLevel level) (instruction : Instruction)
    (run : Run) :
    (instruction = .collect ∧ ∃ kind,
      run.world.Gains level ⟨run.world.position.point, kind⟩
        (setting.advance instruction run).world) ∨
    ((instruction = .collect → ∀ kind,
        (Grid.ofLevel level).collectibleAt? run.world.position.point = some kind →
          (⟨run.world.position.point, kind⟩ : Pickup) ∈ run.world.visited) ∧
      (setting.advance instruction run).world.visited = run.world.visited ∧
      (setting.advance instruction run).world.remaining = run.world.remaining) := by
  cases instruction with
  | move =>
      refine .inr ⟨by simp, ?_⟩
      rw [advance, affect, move]
      split <;> exact ⟨rfl, rfl⟩
  | turn | loop | branch | other => exact .inr ⟨by simp, rfl, rfl⟩
  | collect =>
      have hhere : setting.grid.collectibleAt? (setting.charge .collect run).world.position.point =
          (Grid.ofLevel level).collectibleAt? run.world.position.point := by
        rw [hgrid]
        rfl
      cases hkind : (Grid.ofLevel level).collectibleAt? run.world.position.point with
      | none =>
          rw [advance, affect, pickUp, hhere, hkind]
          exact .inr ⟨by simp, rfl, rfl⟩
      | some kind =>
          rw [advance, affect, pickUp, hhere, hkind]
          dsimp only
          by_cases hmem : (⟨run.world.position.point, kind⟩ : Pickup) ∈ run.world.visited
          · have hcollect : ((setting.charge .collect run).world.collect
                (setting.charge .collect run).world.position.point kind).2 =
                  (setting.charge .collect run).world := World.collect_of_mem _ hmem
            rw [Run.withWorld, hcollect]
            refine .inr ⟨?_, rfl, rfl⟩
            rintro - other ⟨⟩
            exact hmem
          · have hfresh : (⟨(setting.charge .collect run).world.position.point, kind⟩ : Pickup) ∉
                (setting.charge .collect run).world.visited := hmem
            have hcollect := World.collect_of_not_mem (setting.charge .collect run).world hfresh
            rw [Run.withWorld, hcollect]
            exact .inl ⟨rfl, kind, hkind, hmem, rfl, World.to_nat_pred _⟩

/-- A step keeps the tally. -/
theorem tallied_advance (hgrid : setting.grid = .ofLevel level) (instruction : Instruction)
    {run : Run} (h : run.world.Tallied level) :
    (setting.advance instruction run).world.Tallied level := by
  obtain ⟨-, kind, hgains⟩ | ⟨-, hvisited, hremaining⟩ := advance_cases hgrid instruction run
  · exact h.gain hgains
  · exact h.congr hvisited hremaining

end Setting

end TileCourse
