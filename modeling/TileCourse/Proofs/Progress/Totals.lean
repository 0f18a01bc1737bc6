import Mathlib.Algebra.GroupWithZero.Nat
import Mathlib.Algebra.Order.BigOperators.Group.List
import Mathlib.Algebra.Order.Group.Nat
import TileCourse.Progress.Totals
import TileCourse.Proofs.Catalog.Index

/-!
# What a settled profile shows

Settling goes through the levels in the order of play. Since a catalog plays each level of its
source once, what a settled profile shows can be told from the levels of the source alone, in any
order: `Profile.current_settle`.
-/

namespace TileCourse

/-- Which sums earn a badge. -/
theorem Totals.mem_badges {totals : Totals} {badge : String} : badge ∈ totals.badges ↔
    badge = "first-clear" ∧ 1 ≤ totals.completed ∨ badge = "traveler" ∧ 5 ≤ totals.completed ∨
      badge = "perfectionist" ∧ 3 ≤ totals.perfect ∨
      badge = "chapter-master" ∧ 0 < totals.levels ∧ totals.completed = totals.levels ∨
      badge = "star-collector" ∧ 30 ≤ totals.stars := by
  simp only [badges, TextSet.mem_insert_if, TextSet.not_mem_empty, or_false, decide_eq_true_eq,
    Bool.and_eq_true, beq_iff_eq]
  tauto

namespace Profile

/-- How many of some levels have a star. -/
def cleared (profile : Profile) (levels : List Level) : Nat :=
  levels.countP fun level => 0 < profile.starsFor level.id

/-- How many of some levels have exactly three stars. -/
def perfected (profile : Profile) (levels : List Level) : Nat :=
  levels.countP fun level => profile.starsFor level.id = 3

/-- The stars of some levels together. -/
def starSum (profile : Profile) (levels : List Level) : Nat :=
  (levels.map fun level => (profile.starsFor level.id).toNat).sum

/-- A badge is earned by the stars of levels. -/
def Earns (profile : Profile) (levels : List Level) (badge : String) : Prop :=
  badge = "first-clear" ∧ 1 ≤ profile.cleared levels ∨
  badge = "traveler" ∧ 5 ≤ profile.cleared levels ∨
  badge = "perfectionist" ∧ 3 ≤ profile.perfected levels ∨
  badge = "chapter-master" ∧ levels ≠ [] ∧ (∀ level ∈ levels, 0 < profile.starsFor level.id) ∨
  badge = "star-collector" ∧ 30 ≤ profile.starSum levels

/-- What a profile shows is what the stars of levels have earned. -/
structure Current (profile : Profile) (levels : List Level) : Prop where
  sandbox : profile.sandboxUnlocked = true ↔ ∃ level ∈ levels, 0 < profile.starsFor level.id
  compendium : ∀ entry, entry ∈ profile.achievements.compendium ↔
    ∃ level ∈ levels, profile.starsFor level.id = 3 ∧ entry = level.id ++ "-3star"
  /-- The badge for all stars together is the earned one as long as 32 bits hold their sum. -/
  badges : ∀ badge, (badge = "star-collector" → profile.starSum levels < 2 ^ 32) →
    (badge ∈ profile.achievements.badges ↔ profile.Earns levels badge)

/-- All levels are cleared if as many are as there are. -/
theorem cleared_eq_length_iff {profile : Profile} {levels : List Level} :
    profile.cleared levels = levels.length ↔ ∀ level ∈ levels, 0 < profile.starsFor level.id := by
  simp [cleared, List.countP_eq_length]

/-- Some level is cleared if any has a star. -/
theorem cleared_pos_iff {profile : Profile} {levels : List Level} :
    0 < profile.cleared levels ↔ ∃ level ∈ levels, 0 < profile.starsFor level.id := by
  simp [cleared, List.countP_pos_iff]

section Settling

variable {source : CatalogSource} {catalog : Catalog}

/-- Stars that are added up in 32 bits make their sum, but for what 32 bits cannot hold. -/
theorem star_total_to_nat (stars : List UInt8) (start : UInt32) :
    (stars.foldl (fun total earned => total + earned.toUInt32) start).toNat =
      (start.toNat + (stars.map UInt8.toNat).sum) % 2 ^ 32 := by
  induction stars generalizing start with
  | nil => simp
  | cons earned stars ih =>
      rw [List.foldl_cons, ih, UInt32.toNat_add, UInt8.toNat_toUInt32, List.map_cons,
        List.sum_cons, Nat.mod_add_mod, Nat.add_assoc]

/-- The sums over the order of play are those over the levels of the source. -/
theorem totals_eq (h : catalog.Indexes source) (profile : Profile) :
    profile.totals catalog = ⟨profile.cleared source.levels, profile.perfected source.levels,
      .ofNat (profile.starSum source.levels), source.levels.length⟩ := by
  -- a count or a sum does not depend on the order in which the levels are gone through
  have horder := h.levels_in_order_perm
  have hcleared : (catalog.levelsInOrder.map fun level => profile.starsFor level.id).countP
      (0 < ·) = profile.cleared source.levels := by
    rw [List.countP_map]
    exact horder.countP_eq _
  have hperfected : (catalog.levelsInOrder.map fun level => profile.starsFor level.id).countP
      (· == 3) = profile.perfected source.levels := by
    rw [List.countP_map]
    exact horder.countP_eq _
  have hsum : ((catalog.levelsInOrder.map fun level => profile.starsFor level.id).map
      UInt8.toNat).sum = profile.starSum source.levels := by
    rw [List.map_map]
    exact (horder.map _).sum_eq
  have hstars : (catalog.levelsInOrder.map fun level => profile.starsFor level.id).foldl
      (fun total earned => total + earned.toUInt32) 0 =
        .ofNat (profile.starSum source.levels) := by
    rw [← UInt32.toNat_inj, star_total_to_nat, hsum, UInt32.toNat_zero, Nat.zero_add,
      UInt32.toNat_ofNat']
  simp only [totals, hcleared, hperfected, hstars, h.level_count_eq]

/-- The badges of a settled profile are those that the sums over the levels of the source earn. -/
theorem mem_badges_settle (h : catalog.Indexes source) {profile : Profile} {badge : String} :
    badge ∈ (profile.settle catalog).achievements.badges ↔
      badge ∈ Totals.badges ⟨profile.cleared source.levels, profile.perfected source.levels,
        .ofNat (profile.starSum source.levels), source.levels.length⟩ := by
  rw [← totals_eq h]
  rfl

/-- The badge for all stars together is there for thirty stars, as 32 bits count them. -/
theorem mem_star_collector_iff (h : catalog.Indexes source) {profile : Profile} :
    "star-collector" ∈ (profile.settle catalog).achievements.badges ↔
      30 ≤ profile.starSum source.levels % 2 ^ 32 := by
  rw [mem_badges_settle h, Totals.mem_badges]
  simp [Totals.stars]

/-- The compendium has the levels of the source that have three stars. -/
theorem mem_compendium (h : catalog.Indexes source) {profile : Profile} {entry : String} :
    entry ∈ profile.compendium catalog ↔
      ∃ level ∈ source.levels, profile.starsFor level.id = 3 ∧ entry = level.id ++ "-3star" := by
  rw [compendium, TextSet.mem_of_list]
  simp only [List.mem_map, List.mem_filter, h.levels_in_order_perm.mem_iff, beq_iff_eq,
    compendiumEntry, and_assoc, eq_comm (a := entry)]

/-- A settled profile shows what its stars have earned. -/
theorem current_settle (h : catalog.Indexes source) (profile : Profile) :
    (profile.settle catalog).Current source.levels where
  sandbox := by
    show decide (0 < (profile.totals catalog).completed) = true ↔ _
    rw [totals_eq h, decide_eq_true_eq]
    exact cleared_pos_iff
  compendium := fun _ => mem_compendium h
  badges := fun badge hfits => by
    have hnonempty : 0 < source.levels.length ↔ source.levels ≠ [] := List.length_pos_iff
    have hsum : badge = "star-collector" →
        (UInt32.ofNat (profile.starSum source.levels)).toNat = profile.starSum source.levels :=
      fun hbadge => UInt32.toNat_ofNat_of_lt' (hfits hbadge)
    rw [mem_badges_settle h, Totals.mem_badges]
    simp only [hnonempty, cleared_eq_length_iff, Totals.stars]
    refine or_congr_right (or_congr_right (or_congr_right (or_congr_right ?_)))
    exact and_congr_right fun hbadge => by rw [hsum hbadge]; rfl

end Settling

/-! ### More stars -/

variable {before after : Profile} {levels : List Level}

/-- More stars on every level make no smaller sum. -/
theorem star_sum_mono (levels : List Level)
    (hstars : ∀ level, before.starsFor level ≤ after.starsFor level) :
    before.starSum levels ≤ after.starSum levels :=
  List.sum_le_sum fun level _ => UInt8.le_iff_toNat_le.1 (hstars level.id)

/-- A badge that is earned is still earned with more stars, if no level has lost its three. -/
theorem Earns.mono {badge : String} (h : before.Earns levels badge)
    (hstars : ∀ level, before.starsFor level ≤ after.starsFor level)
    (hperfect : ∀ level, before.starsFor level = 3 → after.starsFor level = 3) :
    after.Earns levels badge := by
  have hpos : ∀ level, 0 < before.starsFor level → 0 < after.starsFor level :=
    fun level hlevel => UInt8.lt_of_lt_of_le hlevel (hstars level)
  have hcleared : before.cleared levels ≤ after.cleared levels :=
    List.countP_mono_left fun level _ => by simpa using hpos level.id
  have hperfected : before.perfected levels ≤ after.perfected levels :=
    List.countP_mono_left fun level _ => by simpa using hperfect level.id
  rcases h with h | h | h | ⟨hbadge, hlevels, hall⟩ | h
  · exact .inl ⟨h.1, h.2.trans hcleared⟩
  · exact .inr (.inl ⟨h.1, h.2.trans hcleared⟩)
  · exact .inr (.inr (.inl ⟨h.1, h.2.trans hperfected⟩))
  · exact .inr (.inr (.inr (.inl
      ⟨hbadge, hlevels, fun level hlevel => hpos level.id (hall level hlevel)⟩)))
  · exact .inr (.inr (.inr (.inr ⟨h.1, h.2.trans (star_sum_mono levels hstars)⟩)))

end Profile

end TileCourse
