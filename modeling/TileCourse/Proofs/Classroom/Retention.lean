import TileCourse.Proofs.Catalog.Lookup
import TileCourse.Proofs.Classroom.Completions
import TileCourse.Proofs.Classroom.Operations
import TileCourse.Proofs.Text.Digits
import TileCourse.Storage.Memory

/-!
# What is kept of what was earned

However operations follow each other, nothing that a student has earned is lost by them, unless
somebody starts afresh or another profile is put in the place of the old one: `earned_retained`.
One badge is kept under a condition only. It asks for the stars of all levels together, which are
added up in 32 bits, so it is gone when one more star makes their sum wrap around.
-/

namespace TileCourse

namespace Classroom

variable {ρ : Type} [Repository ρ] {source : CatalogSource} {catalog : Catalog} {policy : Policy}

/-- A classroom shows nothing less about a student than another: no record is worse, no level is
further from being completed, and nothing that was won is gone, but for the badge for all stars
together if 32 bits cannot hold the stars of the levels. -/
structure Retains (after : Classroom) (levels : List Level) (before : Classroom)
    (student : String) : Prop where
  profile : (after.profile student).1.Retains levels (before.profile student).1
  status : ∀ level, (before.status student level).1.rank ≤ (after.status student level).1.rank

/-- Better profiles show nothing less, as long as what they show is up to date. -/
theorem retains_of_improves {before after : Classroom} {student : String}
    (hindexes : catalog.Indexes source) (hbefore : before.roster.Settled catalog policy)
    (hafter : after.roster.Settled catalog policy)
    (himproves : (after.roster.profileOf student).Improves (before.roster.profileOf student)) :
    after.Retains source.levels before student where
  profile := himproves.retains (hbefore.current hindexes student) (hafter.current hindexes student)
  status level := by
    show ((before.roster.profileOf student).status before.roster.catalog
        before.roster.policy.unlockAll level).rank ≤
      ((after.roster.profileOf student).status after.roster.catalog
        after.roster.policy.unlockAll level).rank
    rw [hbefore.sameCatalog, hbefore.samePolicy, hafter.sameCatalog, hafter.samePolicy]
    exact Profile.status_rank_mono himproves.has_cleared policy.unlockAll level

/-- Whatever was done with a classroom, nothing that a student has earned by then is lost by more
operations, unless one of them puts another profile in the place of one. The badge for all stars
together is kept as long as 32 bits hold the stars of the levels. -/
theorem earned_retained (hcatalog : Catalog.ofSource source = .ok catalog)
    (operations : List (Operation ρ)) {more : List (Operation ρ)}
    (hkeeping : ∀ operation ∈ more, operation.Keeping) (student : String) :
    (((new catalog policy).performAll operations).performAll more).Retains source.levels
      ((new catalog policy).performAll operations) student :=
  have hreached := reached_settled catalog policy operations
  retains_of_improves (Catalog.indexes_of_source hcatalog) hreached
    (perform_all_settled more hreached) (perform_all_improves hkeeping student)

/-- A completion of the meadow is sent in. -/
def sentIn (stars : UInt8) (now : UInt64) : List (Operation Folder) :=
  [.request "ada" (.complete "meadow" ⟨stars, 1, 0, 30, none, []⟩ now)]

/-- A worse completion after a better one; the stars are far from more than 32 bits can hold. -/
theorem earned_retained_meadow :
    let before := (new meadowCatalog .standard).performAll (sentIn 3 0)
    let after := before.performAll (sentIn 1 1)
    Catalog.ofSource meadowSource = .ok meadowCatalog ∧
    (∀ operation ∈ sentIn 1 1, operation.Keeping) ∧
    (after.profile "ada").1.starSum meadowSource.levels < 2 ^ 32 ∧
    after.Retains meadowSource.levels before "ada" :=
  have hkeeping : ∀ operation ∈ sentIn 1 1, operation.Keeping :=
    List.forall_mem_singleton.2 trivial
  ⟨meadow_catalog_eq, hkeeping, by decide, earned_retained meadow_catalog_eq _ hkeeping "ada"⟩

/-! ### Stars that 32 bits do not hold -/

/-- Meadows, one for each natural below `n`. -/
def meadows (n : Nat) : List Level := (List.range n).map fun i => { meadow with id := i.repr }

/-- The meadows in one chapter. -/
def meadowsSource (n : Nat) : CatalogSource :=
  ⟨[], [⟨"walks", "Walks", 1, (meadows n).map (·.id)⟩], meadows n⟩

/-- Any number of meadows makes a catalog. -/
theorem meadows_consistent (n : Nat) : (meadowsSource n).Consistent where
  grids := by
    intro level hlevel
    obtain ⟨i, -, rfl⟩ := List.mem_map.1 hlevel
    exact ⟨UInt32.le_refl 1, UInt32.le_refl 1⟩
  levelIds := by
    show ((meadows n).map (·.id)).Nodup
    rw [meadows, List.map_map]
    exact List.nodup_range.map fun _ _ => Text.nat_repr_inj.1
  chapterIds := List.nodup_singleton _
  references := by simp [CatalogSource.courseLists, meadowsSource]
  played := by
    simp [CatalogSource.playedIds, CatalogSource.courseLists, CatalogSource.named, meadowsSource]

/-- The stars of meadows together, if all but the last have as many as a record can hold. -/
theorem star_sum_meadows {profile : Profile} {n : Nat}
    (hfull : ∀ i < n, profile.starsFor i.repr = 255) :
    profile.starSum (meadows (n + 1)) = 255 * n + (profile.starsFor n.repr).toNat := by
  have hconst : (List.range n).map (fun i => (profile.starsFor i.repr).toNat) =
      (List.range n).map fun _ => 255 :=
    List.map_congr_left fun i hi => by rw [hfull i (List.mem_range.1 hi)]; rfl
  have hsum : ((List.range n).map fun i => (profile.starsFor i.repr).toNat).sum = 255 * n := by
    rw [hconst, List.map_const', List.length_range, List.sum_replicate, smul_eq_mul, Nat.mul_comm]
  simp only [Profile.starSum, meadows, List.map_map, List.range_succ, List.map_append,
    List.sum_append, Function.comp_def, hsum, List.map_cons, List.map_nil, List.sum_singleton]

/-- A record of a meadow with as many stars as a record can hold. No run earns them, but a profile
from elsewhere may have them. -/
def fullRecord (i : Nat) : LevelRecord := ⟨i.repr, 255, 1, 0, 0, none, 0, []⟩

/-- Full records of the first meadows. -/
def fullRecords : Nat → Table LevelRecord
  | 0 => .empty
  | n + 1 => (fullRecords n).insert n.repr (fullRecord n)

/-- Exactly the first meadows have full records. -/
theorem full_records_get (n i : Nat) :
    (fullRecords n).get? i.repr = if i < n then some (fullRecord i) else none := by
  induction n with
  | zero => rfl
  | succ n ih =>
      rw [fullRecords, Table.get?_insert]
      by_cases hsame : i = n
      · rw [hsame, if_pos rfl, if_pos (Nat.lt_succ_self n)]
      · rw [if_neg fun h => hsame (Text.nat_repr_inj.1 h), ih]
        exact if_congr (by omega) rfl rfl

/-- A student who comes with full records of the first meadows. -/
def laden (n : Nat) : Profile :=
  { Profile.fresh "ada" "cape" .standard with progress := fullRecords n }

/-- The laden student is loaded. -/
def arrival (n : Nat) : List (Operation Memory) :=
  [.hydrate "ada" ⟨Table.empty.insert "ada" (laden n)⟩]

/-- A completion with one star. -/
def oneStar : Completion := ⟨1, 1, 0, 0, none, []⟩

/-- The meadow that was left out is completed with one star. -/
def lastWalk (n : Nat) : List (Operation Memory) :=
  [.request "ada" (.complete n.repr oneStar 0)]

variable {n : Nat}

/-- The laden student has full stars on the first meadows, and none on any other. -/
theorem laden_stars_for (n i : Nat) :
    (laden n).starsFor i.repr = if i < n then 255 else 0 := by
  show (((fullRecords n).get? i.repr).map (·.stars)).getD 0 = _
  rw [full_records_get]
  split <;> rfl

/-- The laden student is put on the roster with a settled profile. -/
theorem roster_of_arrival (catalog : Catalog) (n : Nat) :
    ((new catalog .standard).performAll (arrival n)).roster =
      (Roster.new catalog .standard).put "ada" ((laden n).settle catalog) := by
  have hload : (Table.empty.insert "ada" (laden n)).get? "ada" = some (laden n) := by
    rw [Table.get?_insert, if_pos rfl]
  show ((new catalog .standard).receive "ada"
    (.ok ((Table.empty.insert "ada" (laden n)).get? "ada"))).2.roster = _
  rw [hload]
  rfl

/-- The profile of the laden student after the last walk. -/
def walked (catalog : Catalog) (level : Level) (n : Nat) : Profile :=
  (((laden n).settle catalog).complete n.repr level oneStar 0).2

/-- The last walk earns a star on the last meadow and leaves all other stars as they are. -/
theorem walked_stars_for (catalog : Catalog) (level : Level) (n i : Nat) :
    (walked catalog level n).starsFor i.repr =
      if i = n then 1 else (laden n).starsFor i.repr := by
  have hnew : ((laden n).settle catalog).progress.get? n.repr = none := by
    show (fullRecords n).get? n.repr = none
    rw [full_records_get, if_neg (Nat.lt_irrefl n)]
  show (((Table.insert (fullRecords n) n.repr (oneStar.merge level 0
    (((laden n).settle catalog).progress.get? n.repr))).get? i.repr).map (·.stars)).getD 0 = _
  rw [hnew, Table.get?_insert]
  by_cases hsame : i = n
  · rw [if_pos (congrArg Nat.repr hsame), if_pos hsame]
    rfl
  · rw [if_neg fun h => hsame (Text.nat_repr_inj.1 h), if_neg hsame]
    rfl

/-- The laden student is shown with the settled profile of the last walk. -/
theorem profile_of_last_walk (hindexes : catalog.Indexes (meadowsSource (n + 1))) :
    ∃ level, (((new catalog .standard).performAll (arrival n)).performAll
      (lastWalk n)).roster.profileOf "ada" = (walked catalog level n).settle catalog := by
  obtain ⟨level, hlevel⟩ : ∃ level, catalog.level? n.repr = some level :=
    ⟨{ meadow with id := n.repr }, hindexes.level_eq_some_iff.2
      ⟨List.mem_map.2 ⟨n, List.mem_range.2 (Nat.lt_succ_self n), rfl⟩, rfl⟩⟩
  refine ⟨level, ?_⟩
  show (((new catalog .standard).performAll (arrival n)).roster.complete "ada" n.repr oneStar
    0).2.profileOf "ada" = _
  rw [roster_of_arrival, Roster.complete_eq hlevel (by decide) "ada" 0, Roster.profile_of_put,
    if_pos rfl, Roster.profile_of_put, if_pos rfl]
  rfl

/-- If 32 bits just hold the stars of the laden student, one more star costs a badge. -/
theorem collector_lost (hfull : 255 * n + 1 = 2 ^ 32)
    (hcatalog : Catalog.ofSource (meadowsSource (n + 1)) = .ok catalog) :
    let before := (new catalog .standard).performAll (arrival n)
    let after := before.performAll (lastWalk n)
    "star-collector" ∈ (before.profile "ada").1.achievements.badges ∧
      "star-collector" ∉ (after.profile "ada").1.achievements.badges := by
  intro before after
  have hindexes := Catalog.indexes_of_source hcatalog
  have hbefore : (before.profile "ada").1 = (laden n).settle catalog := by
    show before.roster.profileOf "ada" = _
    rw [roster_of_arrival, Roster.profile_of_put, if_pos rfl]
  obtain ⟨level, hafter⟩ : ∃ level, (after.profile "ada").1 =
      (walked catalog level n).settle catalog := profile_of_last_walk hindexes
  have hladen (i : Nat) (hi : i < n) : (laden n).starsFor i.repr = 255 := by
    rw [laden_stars_for, if_pos hi]
  have hwalked (i : Nat) (hi : i < n) : (walked catalog level n).starsFor i.repr = 255 := by
    rw [walked_stars_for, if_neg hi.ne, hladen i hi]
  constructor
  · have hsum : (laden n).starSum (meadows (n + 1)) = 255 * n := by
      rw [star_sum_meadows hladen, laden_stars_for, if_neg (Nat.lt_irrefl n)]
      rfl
    have hmany : 30 ≤ (laden n).starSum (meadows (n + 1)) % 2 ^ 32 := by omega
    rw [hbefore]
    exact (Profile.mem_star_collector_iff hindexes).2 hmany
  · have hsum : (walked catalog level n).starSum (meadows (n + 1)) = 2 ^ 32 := by
      rw [star_sum_meadows hwalked, walked_stars_for, if_pos rfl]
      exact hfull
    have hnone : ¬ 30 ≤ (walked catalog level n).starSum (meadows (n + 1)) % 2 ^ 32 := by
      rw [hsum]
      decide
    rw [hafter]
    exact fun hbadge => hnone ((Profile.mem_star_collector_iff hindexes).1 hbadge)

/-- In a catalog of 16843010 levels a student may have as many stars as 32 bits hold, with 255 on
every level but the last. Then one star on the last level is one too many: their sum starts again
at zero, and the badge for all stars together is gone. -/
theorem star_collector_lost : ∃ catalog,
    Catalog.ofSource (meadowsSource (16843009 + 1)) = .ok catalog ∧
    (∀ operation ∈ lastWalk 16843009, operation.Keeping) ∧
    let before := (new catalog .standard).performAll (arrival 16843009)
    let after := before.performAll (lastWalk 16843009)
    "star-collector" ∈ (before.profile "ada").1.achievements.badges ∧
      "star-collector" ∉ (after.profile "ada").1.achievements.badges := by
  obtain ⟨catalog, hcatalog⟩ := Catalog.exists_of_consistent (meadows_consistent (16843009 + 1))
  -- 255 stars on each of the other levels are the most that 32 bits hold
  have hfull : 255 * 16843009 + 1 = 2 ^ 32 := by decide
  exact ⟨catalog, hcatalog, List.forall_mem_singleton.2 trivial, collector_lost hfull hcatalog⟩

end Classroom

end TileCourse
