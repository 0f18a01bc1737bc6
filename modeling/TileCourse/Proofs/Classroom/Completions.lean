import TileCourse.Proofs.Classroom.Earnings
import TileCourse.Proofs.Classroom.Hydration

/-!
# Runs that are sent in

A run is carried out on a level, and its result is sent in as a completion of the level. The two
requests know nothing of each other: the result has to be acceptable as it stands, and what is kept
of it has to agree with it. `Classroom.run_completes` says that they fit together, even if other
requests are served between them.
-/

namespace TileCourse

namespace Completion

variable {completion : Completion} {level : Level} {now : UInt64} {before : Option LevelRecord}

/-- A completion takes the place of the best run: it has a star, and the best run had none or took
more steps. -/
def Beats (completion : Completion) (record : LevelRecord) : Prop :=
  0 < completion.stars ∧ (record.stars = 0 ∨ completion.steps < record.steps)

/-- The comparison by which records take over a run tells which runs beat them. -/
theorem improves_iff {record : LevelRecord} :
    completion.improves record = true ↔ completion.Beats record := by
  simp [improves, Beats]

/-- A record has a star exactly if it had one before or is given one. -/
theorem merge_stars_pos_iff : 0 < (completion.merge level now before).stars ↔
    0 < completion.stars ∨ ∃ record ∈ before, 0 < record.stars := by
  cases before with
  | none => simp [merge, firstRecord]
  | some record =>
      show 0 < (completion.updateRecord level now record).stars ↔ _
      rw [update_record_stars]
      split
      · rename_i hle
        refine ⟨.inl, fun h => ?_⟩
        obtain hstar | ⟨_, ⟨⟩, hstar⟩ := h
        · exact hstar
        · exact UInt8.lt_of_lt_of_le hstar hle
      · rename_i hless
        have hless := UInt8.not_le.1 hless
        refine ⟨fun hstar => .inr ⟨record, rfl, hstar⟩, fun h => ?_⟩
        obtain hstar | ⟨_, ⟨⟩, hstar⟩ := h
        · exact UInt8.lt_trans hstar hless
        · exact hstar

/-- A completion that beats the record, or makes one, leaves its own steps, and by how many of them
it misses the best number. -/
theorem merge_beats (h : ∀ record ∈ before, completion.Beats record) :
    (completion.merge level now before).steps = completion.steps ∧
      (completion.merge level now before).difference = some (completion.differenceOn level) := by
  cases before with
  | none => exact ⟨rfl, rfl⟩
  | some record =>
      have himproves := improves_iff.2 (h record rfl)
      simp [merge, updateRecord, himproves]

/-- Any other completion leaves the steps of the best run alone. -/
theorem merge_steps {record : LevelRecord} (h : ¬ completion.Beats record) :
    (completion.merge level now (some record)).steps = record.steps ∧
      (completion.merge level now (some record)).difference = record.difference := by
  have himproves : ¬ completion.improves record = true := fun hbeats => h (improves_iff.1 hbeats)
  simp [merge, updateRecord, himproves]

end Completion

/-- A difference is a number of steps, however many there are. -/
theorem step_difference_to_int (steps best : UInt32) :
    (stepDifference steps best).toInt = (steps.toNat : Int) - best.toNat := by
  have hsteps := steps.toNat_lt
  have hbest := best.toNat_lt
  exact Int64.toInt_ofInt_of_le (by omega) (by omega)

/-- The profile after a completion that is accepted. -/
theorem Roster.complete_eq {roster : Roster} {id : String} {level : Level}
    {completion : Completion} (hlevel : roster.catalog.level? id = some level)
    (hstars : completion.stars ≤ 3) (student : String) (now : UInt64) :
    let done := (roster.profileOf student).complete id level completion now
    roster.complete student id completion now =
      (.ok done.1, roster.put student (done.2.settle roster.catalog)) := by
  have hfound : roster.level id = .ok level := level_eq_ok_iff.2 hlevel
  simp only [complete, hfound, if_neg (UInt8.not_lt.2 hstars), change]

namespace Classroom

/-- A result that is sent in for a level is accepted, and what is kept of it agrees with it: the
level is completed if the run was a success, and a record that takes its steps from the run says by
how many they miss the best number. -/
structure Files (classroom : Classroom) (student id : String) (level : Level) (result : Result)
    (now : UInt64) (record : LevelRecord) : Prop where
  accepted : (classroom.complete student id (.ofResult result) now).1 = .ok record
  stored : ((classroom.complete student id (.ofResult result) now).2.roster.profileOf
    student).progress.get? id = some record
  status_iff : ((classroom.complete student id (.ofResult result) now).2.status student id).1 =
      .completed ↔
    result.success = true ∨ (classroom.status student id).1 = .completed
  /-- There was no record, or the run beats it. -/
  beaten : (∀ before ∈ (classroom.roster.profileOf student).progress.get? id,
      (Completion.ofResult result).Beats before) →
    record.steps = result.steps ∧ ∃ difference, record.difference = some difference ∧
      difference.toInt = (result.steps.toNat : Int) - level.bestSteps.toNat
  unbeaten : ∀ before ∈ (classroom.roster.profileOf student).progress.get? id,
    ¬ (Completion.ofResult result).Beats before →
      record.steps = before.steps ∧ record.difference = before.difference

variable {classroom : Classroom} {id : String} {level : Level} {program : Program}
  {result : Result}

/-- A program is run exactly if a level of the catalog accepts it, and then as the policy has it. -/
theorem run_eq_ok_iff : classroom.run id program = .ok result ↔
    ∃ level, classroom.roster.catalog.level? id = some level ∧ level.accept program = .ok () ∧
      result = simulate level classroom.roster.policy.options program := by
  constructor
  · intro h
    unfold run runWith at h
    split at h
    · cases h
    · rename_i level hfound
      have hlevel := Roster.level_eq_ok_iff.1 (map_error_eq_ok_iff.1 hfound)
      split at h
      · cases h
      · rename_i haccepted
        exact ⟨level, hlevel, haccepted, (Except.ok.inj h).symm⟩
  · intro h
    obtain ⟨level, hlevel, haccepted, rfl⟩ := h
    have hfound : classroom.level id = .ok level :=
      map_error_eq_ok_iff.2 (Roster.level_eq_ok_iff.2 hlevel)
    simp only [run, runWith, hfound, haccepted]

/-- A result with no more stars than there are is filed. -/
theorem exists_files (hlevel : classroom.roster.catalog.level? id = some level)
    (hstars : result.stars ≤ 3) (hsuccess : result.success = true ↔ 0 < result.stars)
    (hbest : result.metadata.bestSteps = level.bestSteps) (student : String) (now : UInt64) :
    ∃ record, classroom.Files student id level result now record := by
  have hfew : (Completion.ofResult result).stars ≤ 3 := hstars
  have hcomplete := Roster.complete_eq hlevel hfew student now
  let before := (classroom.roster.profileOf student).progress.get? id
  let record := (Completion.ofResult result).merge level now before
  have hafter : (classroom.complete student id (.ofResult result) now).2.roster.profileOf
      student = (((classroom.roster.profileOf student).complete id level (.ofResult result)
        now).2.settle classroom.roster.catalog) := by
    rw [complete, ofRoster, hcomplete, Roster.profile_of_put, if_pos rfl]
  have hstored : ((classroom.complete student id (.ofResult result) now).2.roster.profileOf
      student).progress.get? id = some record := by
    rw [hafter]
    show ((classroom.roster.profileOf student).progress.insert id record).get? id = _
    rw [Table.get?_insert, if_pos rfl]
  have hdifference : (Completion.ofResult result).differenceOn level =
      stepDifference result.steps level.bestSteps := hbest ▸ rfl
  refine ⟨record, ?_, hstored, ?_, fun hbeats => ?_, fun old hold hnot => ?_⟩
  · rw [complete, ofRoster, hcomplete]
    rfl
  · show Profile.status _ _ _ _ = .completed ↔ _ ∨ Profile.status _ _ _ _ = .completed
    rw [Profile.status_completed_iff, Profile.status_completed_iff, Profile.stars_for_pos_iff,
      Profile.stars_for_pos_iff, hstored, hsuccess]
    have hmerged : 0 < record.stars ↔ 0 < result.stars ∨ ∃ old ∈ before, 0 < old.stars :=
      Completion.merge_stars_pos_iff
    simpa using hmerged
  · obtain ⟨hsteps, hrecorded⟩ := Completion.merge_beats hbeats
    exact ⟨hsteps, _, hrecorded, by rw [hdifference, step_difference_to_int]⟩
  · have hmerge : record = (Completion.ofResult result).merge level now (some old) := by
      rw [← hold]
    rw [hmerge]
    exact Completion.merge_steps hnot

/-- Running a program and sending in the result fit together. Whenever a run is given a result, the
result tells how the run ended; and the result is accepted as a completion of the level at any time
in any later state of the classroom, which keeps the catalog. -/
theorem run_completes (h : classroom.run id program = .ok result) :
    ∃ level, classroom.roster.catalog.level? id = some level ∧
      result.Judged level classroom.roster.policy.options program ∧
      ∀ later : Classroom, later.roster.catalog = classroom.roster.catalog →
        ∀ (student : String) (now : UInt64), ∃ record,
          later.Files student id level result now record := by
  obtain ⟨level, hlevel, -, rfl⟩ := run_eq_ok_iff.1 h
  have hown : classroom.roster.policy.options.stepLimit = none := rfl
  have hjudged := simulate_judged level program hown
  refine ⟨level, hlevel, hjudged, fun later hlater student now => ?_⟩
  have hstars := simulate_stars_le level classroom.roster.policy.options program
  have hsuccess : (simulate level classroom.roster.policy.options program).success = true ↔
      0 < (simulate level classroom.roster.policy.options program).stars := by
    rw [hjudged.stars_iff, and_iff_left hstars, UInt8.le_iff_toNat_le, UInt8.lt_iff_toNat_lt]
    exact Nat.succ_le_iff
  exact exists_files (hlater ▸ hlevel) hstars hsuccess rfl student now

/-- Turning twice on the meadow reaches everything, and what is filed says so. -/
theorem run_completes_meadow : ∃ result,
    (new meadowCatalog .standard).run "meadow" [.turn .left, .turn .left] = .ok result ∧
    result.Judged meadow Policy.standard.options [.turn .left, .turn .left] ∧
    ∃ record, (new meadowCatalog .standard).Files "ada" "meadow" meadow result 7 record := by
  have hlevel : meadowCatalog.level? "meadow" = some meadow := by
    rw [Catalog.level?, meadowCatalog, Table.get?_insert, if_pos rfl]
  have hrun : (new meadowCatalog .standard).run "meadow" [.turn .left, .turn .left] =
      .ok (simulate meadow Policy.standard.options [.turn .left, .turn .left]) :=
    run_eq_ok_iff.2 ⟨meadow, hlevel, rfl, rfl⟩
  obtain ⟨level, hfound, hjudged, hfiles⟩ := run_completes hrun
  obtain rfl := Option.some.inj (hlevel.symm.trans hfound)
  exact ⟨_, hrun, hjudged, hfiles _ rfl "ada" 7⟩

end Classroom

end TileCourse
