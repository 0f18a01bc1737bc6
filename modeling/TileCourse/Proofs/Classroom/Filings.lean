import TileCourse.Proofs.Classroom.Completions
import TileCourse.Proofs.Classroom.Isolation

/-!
# What many completions leave

A record is merged from one completion after the other. `LevelRecord.SumsUp` says what it holds
after any number of them in terms of the completions themselves: the most stars, the sums of hints
and seconds, the last log, and the steps of one run, which is the first of the best ones.
`Classroom.filings_sum_up` says that this is what a classroom keeps of the completions that a
student has filed for a level, whatever else was done in the meantime.
-/

namespace TileCourse

/-- A completion that is sent in at a time. -/
structure Filing where
  completion : Completion
  now : UInt64
  deriving DecidableEq, Repr

namespace Filing

variable {best filing : Filing} {filings : List Filing}

/-- A filing has a star. -/
def Starred (filing : Filing) : Prop := 0 < filing.completion.stars

/-- A filing has a star, takes no more steps than any other that has one, and is the first of those
that take so few. -/
structure Best (best : Filing) (filings : List Filing) : Prop where
  starred : best.Starred
  first : ∃ earlier later, filings = earlier ++ best :: later ∧
    (∀ filing ∈ earlier, filing.Starred → best.completion.steps < filing.completion.steps) ∧
    ∀ filing ∈ later, filing.Starred → best.completion.steps ≤ filing.completion.steps

/-- The best filing is one of the filings. -/
theorem Best.mem (h : best.Best filings) : best ∈ filings := by
  obtain ⟨earlier, later, rfl, -⟩ := h.first
  exact List.mem_append_right _ List.mem_cons_self

/-- The best filing takes no more steps than any other with a star. -/
theorem Best.steps_le (h : best.Best filings) (hmem : filing ∈ filings) (hstar : filing.Starred) :
    best.completion.steps ≤ filing.completion.steps := by
  obtain ⟨earlier, later, rfl, hearlier, hlater⟩ := h.first
  rcases List.mem_append.1 hmem with hmem | hmem
  · exact UInt32.le_of_lt (hearlier filing hmem hstar)
  · rcases List.mem_cons.1 hmem with rfl | hmem
    · exact UInt32.le_refl _
    · exact hlater filing hmem hstar

/-- The best filing stays the best if the next one does not take fewer steps. -/
theorem Best.append (h : best.Best filings)
    (hnext : filing.Starred → best.completion.steps ≤ filing.completion.steps) :
    best.Best (filings ++ [filing]) := by
  obtain ⟨earlier, later, rfl, hearlier, hlater⟩ := h.first
  refine ⟨h.starred, earlier, later ++ [filing], by simp, hearlier, fun other hmem hstar => ?_⟩
  rcases List.mem_append.1 hmem with hmem | hmem
  · exact hlater other hmem hstar
  · rw [List.mem_singleton.1 hmem] at hstar ⊢
    exact hnext hstar

/-- The last filing is the best if it takes fewer steps than all others that have a star. -/
theorem best_of_last (filings : List Filing) (hstar : filing.Starred)
    (hfewer : ∀ other ∈ filings, other.Starred →
      filing.completion.steps < other.completion.steps) : filing.Best (filings ++ [filing]) :=
  ⟨hstar, filings, [], rfl, hfewer, by simp⟩

/-- A filing is the one that a record takes its steps from: the best one, or the first one as long
as no filing has a star. -/
def Decides (filing : Filing) (filings : List Filing) : Prop :=
  filing.Best filings ∨ (∀ other ∈ filings, ¬ other.Starred) ∧ filings.head? = some filing

/-- The filing that decides goes on deciding if the next one has no star or is no better than
another that has one. -/
theorem Decides.append {decisive : Filing} (h : decisive.Decides filings)
    (hnext : filing.Starred → ∃ other ∈ filings, other.Starred ∧
      other.completion.steps ≤ filing.completion.steps) :
    decisive.Decides (filings ++ [filing]) := by
  rcases h with hbest | ⟨hnone, hhead⟩
  · refine .inl (hbest.append fun hstar => ?_)
    obtain ⟨other, hmem, hother, hle⟩ := hnext hstar
    exact UInt32.le_trans (hbest.steps_le hmem hother) hle
  · have hdull : ¬ filing.Starred := fun hstar => by
      obtain ⟨other, hmem, hother, -⟩ := hnext hstar
      exact hnone other hmem hother
    refine .inr ⟨fun other hmem => ?_, by rw [List.head?_append, hhead]; rfl⟩
    rcases List.mem_append.1 hmem with hmem | hmem
    · exact hnone other hmem
    · rwa [List.mem_singleton.1 hmem]

end Filing

/-! ### Sums -/

/-- A sum of hints is that of the numbers, up to the greatest number there is. -/
theorem add_hints_to_nat (a b : UInt32) :
    (addHints a b).toNat = min (a.toNat + b.toNat) (2 ^ 32 - 1) :=
  UInt32.toNat_ofNat_of_lt' (show min (a.toNat + b.toNat) (2 ^ 32 - 1) < 2 ^ 32 by omega)

/-- A sum of seconds is that of the numbers, up to the greatest number there is. -/
theorem add_seconds_to_nat (a b : UInt64) :
    (addSeconds a b).toNat = min (a.toNat + b.toNat) (2 ^ 64 - 1) :=
  UInt64.toNat_ofNat_of_lt' (show min (a.toNat + b.toNat) (2 ^ 64 - 1) < 2 ^ 64 by omega)

/-- By how many steps a completion misses the best number of a level: as reported, or else as
counted. -/
def Completion.Misses (completion : Completion) (level : Level) (difference : Int64) : Prop :=
  match completion.difference with
  | some reported => difference = reported
  | none => difference.toInt = (completion.steps.toNat : Int) - level.bestSteps.toNat

/-- The difference that a record takes is the one by which the run misses the best number. -/
theorem Completion.misses_difference_on (completion : Completion) (level : Level) :
    completion.Misses level (completion.differenceOn level) := by
  rw [Misses, differenceOn]
  split <;> rename_i hdifference
  · rw [hdifference]
    rfl
  · rw [hdifference]
    exact step_difference_to_int _ _

/-- The stars of a merged record are the more of two numbers. -/
theorem Completion.update_record_stars_cases (completion : Completion) (level : Level)
    (now : UInt64) (record : LevelRecord) :
    let after := completion.updateRecord level now record
    record.stars ≤ after.stars ∧ completion.stars ≤ after.stars ∧
      (after.stars = record.stars ∨ after.stars = completion.stars) := by
  intro after
  have hstars : after.stars = _ := completion.update_record_stars level now record
  rw [hstars]
  split
  · exact ⟨‹_›, UInt8.le_refl _, .inr rfl⟩
  · exact ⟨UInt8.le_refl _, UInt8.le_of_lt (UInt8.not_le.1 ‹_›), .inl rfl⟩

namespace LevelRecord

/-- A record holds what remains of filings for a level, the first one first. -/
structure SumsUp (record : LevelRecord) (level : Level) (filings : List Filing) : Prop where
  levelId : record.levelId = level.id
  /-- No filing has more stars. -/
  stars_le : ∀ filing ∈ filings, filing.completion.stars ≤ record.stars
  /-- One has as many. -/
  stars_reached : ∃ filing ∈ filings, filing.completion.stars = record.stars
  hints : record.hints.toNat =
    min (filings.map fun filing => filing.completion.hints.toNat).sum (2 ^ 32 - 1)
  seconds : record.seconds.toNat =
    min (filings.map fun filing => filing.completion.seconds.toNat).sum (2 ^ 64 - 1)
  /-- The log and the time are those of the last filing. -/
  last : ∃ filing, filings.getLast? = some filing ∧
    record.replay = filing.completion.replay ∧ record.completedAt = filing.now
  /-- The steps and the difference are those of the filing that decides. -/
  decided : ∃ filing : Filing, filing.Decides filings ∧ record.steps = filing.completion.steps ∧
    ∃ difference ∈ record.difference, filing.completion.Misses level difference

variable {record : LevelRecord} {level : Level} {filings : List Filing}

/-- The record of a first filing sums it up. -/
theorem sums_up_first (level : Level) (filing : Filing) :
    (filing.completion.merge level filing.now none).SumsUp level [filing] where
  levelId := rfl
  stars_le := by
    intro other hmem
    rw [List.mem_singleton.1 hmem]
    exact UInt8.le_refl _
  stars_reached := ⟨filing, List.mem_singleton.2 rfl, rfl⟩
  hints := by
    have hfits := filing.completion.hints.toNat_lt
    show filing.completion.hints.toNat = _
    rw [List.map_singleton, List.sum_singleton]
    omega
  seconds := by
    have hfits := filing.completion.seconds.toNat_lt
    show filing.completion.seconds.toNat = _
    rw [List.map_singleton, List.sum_singleton]
    omega
  last := ⟨filing, rfl, rfl, rfl⟩
  decided := by
    refine ⟨filing, ?_, rfl, _, rfl, filing.completion.misses_difference_on level⟩
    by_cases hstar : filing.Starred
    · exact .inl (Filing.best_of_last [] hstar (by simp))
    · refine .inr ⟨fun other hmem => ?_, rfl⟩
      rwa [List.mem_singleton.1 hmem]

namespace SumsUp

/-- A record has a star exactly if one of its filings has. -/
theorem stars_pos_iff (h : record.SumsUp level filings) :
    0 < record.stars ↔ ∃ filing ∈ filings, filing.Starred := by
  constructor
  · intro hstar
    obtain ⟨filing, hmem, hsame⟩ := h.stars_reached
    exact ⟨filing, hmem, show 0 < filing.completion.stars from hsame ▸ hstar⟩
  · rintro ⟨filing, hmem, hstar⟩
    exact UInt8.lt_of_lt_of_le hstar (h.stars_le filing hmem)

/-- If any filing has a star, the best one decides. -/
theorem exists_best (h : record.SumsUp level filings)
    (hstarred : ∃ filing ∈ filings, filing.Starred) :
    ∃ best : Filing, best.Best filings ∧ record.steps = best.completion.steps := by
  obtain ⟨best, hbest | ⟨hnone, -⟩, hsteps, -⟩ := h.decided
  · exact ⟨best, hbest, hsteps⟩
  · obtain ⟨filing, hmem, hstar⟩ := hstarred
    exact absurd hstar (hnone filing hmem)

/-- A filing beats the record exactly if it has a star and takes fewer steps than every other one
that has. -/
theorem beats_iff (h : record.SumsUp level filings) (filing : Filing) :
    filing.completion.Beats record ↔ filing.Starred ∧ ∀ other ∈ filings, other.Starred →
      filing.completion.steps < other.completion.steps := by
  refine and_congr_right fun _ => ?_
  by_cases hstarred : ∃ other ∈ filings, other.Starred
  · obtain ⟨best, hbest, hsteps⟩ := h.exists_best hstarred
    have hstars : record.stars ≠ 0 := (UInt8.ne_of_lt (h.stars_pos_iff.2 hstarred)).symm
    rw [or_iff_right hstars, hsteps]
    exact ⟨fun hless other hmem hstar => UInt32.lt_of_lt_of_le hless (hbest.steps_le hmem hstar),
      fun hfewer => hfewer best hbest.mem hbest.starred⟩
  · have hstars : record.stars = 0 := by
      by_contra hnot
      exact hstarred (h.stars_pos_iff.1 (UInt8.pos_iff_ne_zero.2 hnot))
    exact ⟨fun _ other hmem hstar => absurd ⟨other, hmem, hstar⟩ hstarred, fun _ => .inl hstars⟩

/-- One more filing. -/
theorem file (h : record.SumsUp level filings) (filing : Filing) :
    (filing.completion.merge level filing.now (some record)).SumsUp level
      (filings ++ [filing]) where
  levelId := h.levelId
  stars_le other hmem := by
    obtain ⟨hkept, hnew, -⟩ := filing.completion.update_record_stars_cases level filing.now record
    rcases List.mem_append.1 hmem with hmem | hmem
    · exact UInt8.le_trans (h.stars_le other hmem) hkept
    · rwa [List.mem_singleton.1 hmem]
  stars_reached := by
    obtain ⟨-, -, hsame | hsame⟩ :=
      filing.completion.update_record_stars_cases level filing.now record
    · obtain ⟨most, hmem, hmost⟩ := h.stars_reached
      exact ⟨most, List.mem_append_left _ hmem, hmost.trans hsame.symm⟩
    · exact ⟨filing, List.mem_append_right _ List.mem_cons_self, hsame.symm⟩
  hints := by
    show (addHints record.hints filing.completion.hints).toNat = _
    rw [add_hints_to_nat, h.hints, List.map_append, List.sum_append, List.map_singleton,
      List.sum_singleton]
    omega
  seconds := by
    show (addSeconds record.seconds filing.completion.seconds).toNat = _
    rw [add_seconds_to_nat, h.seconds, List.map_append, List.sum_append, List.map_singleton,
      List.sum_singleton]
    omega
  last := ⟨filing, by simp, rfl, rfl⟩
  decided := by
    by_cases hbeats : filing.completion.Beats record
    · obtain ⟨hstar, hfewer⟩ := (h.beats_iff filing).1 hbeats
      have hbefore : ∀ before ∈ some record, filing.completion.Beats before := by
        rintro _ ⟨⟩
        exact hbeats
      obtain ⟨hsteps, hdifference⟩ :
          (filing.completion.merge level filing.now (some record)).steps =
            filing.completion.steps ∧ _ := Completion.merge_beats hbefore
      exact ⟨filing, .inl (Filing.best_of_last filings hstar hfewer), hsteps, _, hdifference,
        filing.completion.misses_difference_on level⟩
    · obtain ⟨decisive, hdecides, hdecided⟩ := h.decided
      obtain ⟨hsteps, hdifference⟩ :
          (filing.completion.merge level filing.now (some record)).steps = record.steps ∧ _ :=
        Completion.merge_steps hbeats
      rw [hsteps, hdifference]
      refine ⟨decisive, hdecides.append fun hstar => ?_, hdecided⟩
      by_contra hnone
      refine hbeats ((h.beats_iff filing).2 ⟨hstar, fun other hmem hother => ?_⟩)
      exact UInt32.not_le.1 fun hle => hnone ⟨other, hmem, hother, hle⟩

/-- The order of the filings matters only to the log, the time and the difference, and to the steps
only as long as no filing has a star. -/
theorem perm {reordered : LevelRecord} {others : List Filing} (h : record.SumsUp level filings)
    (hother : reordered.SumsUp level others) (hperm : others.Perm filings) :
    reordered.stars = record.stars ∧ reordered.hints = record.hints ∧
      reordered.seconds = record.seconds ∧
      ((∃ filing ∈ filings, filing.Starred) → reordered.steps = record.steps) := by
  refine ⟨UInt8.le_antisymm ?_ ?_, UInt32.toNat_inj.1 ?_, UInt64.toNat_inj.1 ?_, ?_⟩
  · obtain ⟨most, hmem, hmost⟩ := hother.stars_reached
    exact hmost ▸ h.stars_le most (hperm.mem_iff.1 hmem)
  · obtain ⟨most, hmem, hmost⟩ := h.stars_reached
    exact hmost ▸ hother.stars_le most (hperm.mem_iff.2 hmem)
  · rw [h.hints, hother.hints, (hperm.map _).sum_nat]
  · rw [h.seconds, hother.seconds, (hperm.map _).sum_nat]
  · rintro ⟨filing, hmem, hstar⟩
    obtain ⟨best, hbest, hsteps⟩ := h.exists_best ⟨filing, hmem, hstar⟩
    obtain ⟨rival, hrival, hrivalSteps⟩ :=
      hother.exists_best ⟨filing, hperm.mem_iff.2 hmem, hstar⟩
    rw [hsteps, hrivalSteps]
    exact UInt32.le_antisymm (hrival.steps_le (hperm.mem_iff.2 hbest.mem) hbest.starred)
      (hbest.steps_le (hperm.mem_iff.1 hrival.mem) hrival.starred)

end SumsUp

/-- What is kept of filings, the first one first: nothing at the beginning, and then a record. -/
def SummedUp (level : Level) (filings : List Filing) : Option LevelRecord → Prop
  | none => filings = []
  | some record => record.SumsUp level filings

/-- What is kept sums up one filing more after that filing is merged into it. -/
theorem SummedUp.file {kept : Option LevelRecord} (h : SummedUp level filings kept)
    (filing : Filing) :
    SummedUp level (filings ++ [filing])
      (some (filing.completion.merge level filing.now kept)) := by
  cases kept with
  | none =>
      obtain rfl : filings = [] := h
      exact sums_up_first level filing
  | some record => exact SumsUp.file h filing

end LevelRecord

/-! ### Filings in a classroom -/

/-- Putting on an outfit leaves the records alone. -/
theorem Profile.equip_progress {profile changed : Profile} {outfit : String} {avatar : Avatar}
    (h : profile.equip outfit = .ok (avatar, changed)) : changed.progress = profile.progress := by
  unfold equip at h
  split at h
  · cases h
    rfl
  · cases h

namespace Roster

variable {roster : Roster} {student id : String} {level : Level}

/-- The record of a student for a level. -/
def recordOf (roster : Roster) (student id : String) : Option LevelRecord :=
  (roster.profileOf student).progress.get? id

/-- What a completion does to the record of a level, which may be another level. -/
theorem record_of_complete (hlevel : roster.catalog.level? id = some level) (student other : String)
    (completion : Completion) (now : UInt64) :
    (roster.complete student other completion now).2.recordOf student id =
      if other = id ∧ completion.stars ≤ 3 then
        some (completion.merge level now (roster.recordOf student id))
      else roster.recordOf student id := by
  have hput (found : Level) : (roster.put student (((roster.profileOf student).complete other found
        completion now).2.settle roster.catalog)).recordOf student id =
      if id = other then some (completion.merge found now (roster.recordOf student other))
      else roster.recordOf student id := by
    rw [recordOf, profile_of_put, if_pos rfl]
    exact Table.get?_insert _ _ _ id
  by_cases hfiled : other = id ∧ completion.stars ≤ 3
  · obtain ⟨rfl, hstars⟩ := hfiled
    rw [complete_eq hlevel hstars, hput, if_pos rfl, if_pos ⟨rfl, hstars⟩]
  · rw [if_neg hfiled]
    rcases roster.complete_cases student other completion now with
      hsame | ⟨found, -, hstars, hchanged⟩
    · rw [hsame]
    · rw [hchanged, hput, if_neg fun hid => hfiled ⟨hid.symm, hstars⟩]

/-- A change to profiles that leaves their records alone. -/
theorem record_of_change {α : Type} {f : Profile → Except ProgressError (α × Profile)}
    (hf : ∀ profile a changed, f profile = .ok (a, changed) →
      changed.progress = profile.progress) :
    (roster.change student f).2.recordOf student id = roster.recordOf student id := by
  rcases roster.change_cases student f with hsame | ⟨a, changed, hok, hput⟩
  · rw [hsame]
  · rw [hput, recordOf, profile_of_put, if_pos rfl, recordOf, ← hf _ a changed hok]
    rfl

end Roster

/-- The filing of a student for a level that an operation is, if it has no more stars than there
are. -/
def Operation.filing? {ρ : Type} (student id : String) : Operation ρ → Option Filing
  | .request who (.complete level completion now) =>
    if who = student ∧ level = id ∧ completion.stars ≤ 3 then some ⟨completion, now⟩ else none
  | _ => none

/-- An operation for another student is no filing of this one. -/
theorem Operation.filing_of_other {ρ : Type} {student id : String} {operation : Operation ρ}
    (h : operation.student ≠ student) : operation.filing? student id = none := by
  cases operation with
  | request who request =>
      cases request with
      | complete => exact if_neg fun hfiled => h hfiled.1
      | run | equip | update | reset => rfl
  | inquire | persist | hydrate | insert => rfl

/-- The filings of a student for a level among operations. -/
def Operation.filings {ρ : Type} (student id : String) (operations : List (Operation ρ)) :
    List Filing :=
  operations.filterMap (filing? student id)

namespace Classroom

variable {ρ : Type} [Repository ρ] {classroom : Classroom} {student id : String} {level : Level}

/-- An operation changes the record only if it is a filing for it. -/
theorem perform_record (hlevel : classroom.roster.catalog.level? id = some level)
    {operation : Operation ρ} (hkeeping : operation.student = student → operation.Keeping) :
    (classroom.perform operation).roster.recordOf student id =
      match operation.filing? student id with
      | some filing =>
        some (filing.completion.merge level filing.now (classroom.roster.recordOf student id))
      | none => classroom.roster.recordOf student id := by
  by_cases hown : operation.student = student
  · subst hown
    have hkeeping := hkeeping rfl
    cases operation with
    | request student request =>
        cases request with
        | run => rfl
        | complete other completion now =>
            have hrecord := Roster.record_of_complete hlevel student other completion now
            refine hrecord.trans ?_
            rw [Operation.filing?]
            by_cases hfiled : other = id ∧ completion.stars ≤ 3
            · rw [if_pos hfiled, if_pos ⟨rfl, hfiled⟩]
              rfl
            · rw [if_neg hfiled, if_neg fun h => hfiled h.2]
              rfl
        | equip outfit => exact Roster.record_of_change fun _ _ _ => Profile.equip_progress
        | update patch =>
            refine Roster.record_of_change fun profile settings changed hok => ?_
            cases hok
            rfl
        | reset => cases hkeeping
    | inquire student inquiry =>
        have hsame := (Alike.of_inquire classroom student inquiry).profiles student
        exact congrArg (·.progress.get? id) hsame.symm
    | persist student =>
        have hsame := (Alike.of_enrol classroom student).profiles student
        exact congrArg (·.progress.get? id) hsame.symm
    | hydrate | insert => cases hkeeping
  · rw [Operation.filing_of_other hown]
    have hsame := (classroom.discreet operation).others student (Ne.symm hown)
    exact congrArg (·.progress.get? id) hsame

/-- What is kept of filings goes on being what is kept of them, whatever is done. -/
theorem perform_all_record (hlevel : classroom.roster.catalog.level? id = some level)
    {operations : List (Operation ρ)}
    (hkeeping : ∀ operation ∈ operations, operation.student = student → operation.Keeping)
    {earlier : List Filing}
    (h : LevelRecord.SummedUp level earlier (classroom.roster.recordOf student id)) :
    LevelRecord.SummedUp level (earlier ++ Operation.filings student id operations)
      ((classroom.performAll operations).roster.recordOf student id) := by
  -- on the operations, whatever has been filed before the first of them
  induction operations generalizing classroom earlier with
  | nil => rwa [Operation.filings, List.filterMap_nil, List.append_nil]
  | cons operation rest ih =>
      obtain ⟨hfirst, hrest⟩ := List.forall_mem_cons.1 hkeeping
      have hcatalog := (classroom.perform_steps operation).sameCatalog
      have hrecord := perform_record hlevel hfirst
      rw [← hcatalog] at hlevel
      rw [Operation.filings, List.filterMap_cons]
      cases hfiling : operation.filing? student id with
      | none =>
          rw [hfiling] at hrecord
          exact ih hlevel hrest (hrecord ▸ h)
      | some filing =>
          rw [hfiling] at hrecord
          have hnext : LevelRecord.SummedUp level (earlier ++ [filing])
              ((classroom.perform operation).roster.recordOf student id) := by
            rw [hrecord]
            exact h.file filing
          have hsums := ih hlevel hrest hnext
          rwa [List.append_assoc] at hsums

/-- A student who had no record for a level has one after a filing for it, and that sums up the
filings. -/
theorem exists_record_sums_up (hlevel : classroom.roster.catalog.level? id = some level)
    (hnew : classroom.roster.recordOf student id = none) {operations : List (Operation ρ)}
    (hkeeping : ∀ operation ∈ operations, operation.student = student → operation.Keeping)
    (hfiled : Operation.filings student id operations ≠ []) :
    ∃ record, (classroom.performAll operations).roster.recordOf student id = some record ∧
      record.SumsUp level (Operation.filings student id operations) := by
  have hnothing : LevelRecord.SummedUp level [] (classroom.roster.recordOf student id) :=
    hnew ▸ rfl
  have hsummed := perform_all_record hlevel hkeeping hnothing
  rw [List.nil_append] at hsummed
  cases hrecord : (classroom.performAll operations).roster.recordOf student id with
  | none =>
      rw [hrecord] at hsummed
      exact absurd hsummed hfiled
  | some record =>
      rw [hrecord] at hsummed
      exact ⟨record, rfl, hsummed⟩

/-- The record of a level that a student has not completed before sums up what the student files
for the level, whatever else is done in the meantime, unless it puts another profile in the place
of the student's own. In another order the same filings leave the same stars, hints and seconds,
and the same steps if any of them has a star. -/
theorem filings_sum_up (hlevel : classroom.roster.catalog.level? id = some level)
    (hnew : classroom.roster.recordOf student id = none) {operations : List (Operation ρ)}
    (hkeeping : ∀ operation ∈ operations, operation.student = student → operation.Keeping)
    (hfiled : Operation.filings student id operations ≠ []) :
    ∃ record, (classroom.performAll operations).roster.recordOf student id = some record ∧
      record.SumsUp level (Operation.filings student id operations) ∧
      ∀ others : List (Operation ρ),
        (∀ operation ∈ others, operation.student = student → operation.Keeping) →
        (Operation.filings student id others).Perm (Operation.filings student id operations) →
        ∃ reordered, (classroom.performAll others).roster.recordOf student id = some reordered ∧
          reordered.stars = record.stars ∧ reordered.hints = record.hints ∧
          reordered.seconds = record.seconds ∧
          ((∃ filing ∈ Operation.filings student id operations, filing.Starred) →
            reordered.steps = record.steps) := by
  obtain ⟨record, hrecord, hsums⟩ := exists_record_sums_up hlevel hnew hkeeping hfiled
  refine ⟨record, hrecord, hsums, fun others hothers hperm => ?_⟩
  have hsome : Operation.filings student id others ≠ [] := fun hnil =>
    hfiled (List.nil_perm.1 (hnil ▸ hperm))
  obtain ⟨reordered, hreordered, hother⟩ := exists_record_sums_up hlevel hnew hothers hsome
  exact ⟨reordered, hreordered, hsums.perm hother hperm⟩

/-- A day on the meadow: a run without a star, five stars that nobody can have, two runs of four
steps with stars, and somebody else who starts afresh. -/
def meadowDay : List (Operation Folder) :=
  [.request "ada" (.complete "meadow" ⟨0, 2, 1, 20, none, []⟩ 1),
    .request "ada" (.complete "meadow" ⟨5, 1, 0, 20, none, []⟩ 2),
    .request "ada" (.complete "meadow" ⟨1, 4, 2, 20, none, []⟩ 3),
    .request "bob" .reset,
    .request "ada" (.complete "meadow" ⟨2, 4, 0, 20, some 7, []⟩ 4)]

/-- What the day leaves is summed up from three filings. -/
theorem filings_sum_up_meadow :
    meadowCatalog.level? "meadow" = some meadow ∧
    (new meadowCatalog .standard).roster.recordOf "ada" "meadow" = none ∧
    (∀ operation ∈ meadowDay, operation.student = "ada" → operation.Keeping) ∧
    ∃ record, ((new meadowCatalog .standard).performAll meadowDay).roster.recordOf "ada" "meadow" =
        some record ∧
      record.SumsUp meadow [⟨⟨0, 2, 1, 20, none, []⟩, 1⟩, ⟨⟨1, 4, 2, 20, none, []⟩, 3⟩,
        ⟨⟨2, 4, 0, 20, some 7, []⟩, 4⟩] ∧ record.hints.toNat = 3 := by
  have hlevel : meadowCatalog.level? "meadow" = some meadow := by
    rw [Catalog.level?, meadowCatalog, Table.get?_insert, if_pos rfl]
  have hkeeping : ∀ operation ∈ meadowDay, operation.student = "ada" → operation.Keeping := by
    simp [meadowDay, Operation.Keeping, Operation.student]
  have hfilings : Operation.filings "ada" "meadow" meadowDay =
      [⟨⟨0, 2, 1, 20, none, []⟩, 1⟩, ⟨⟨1, 4, 2, 20, none, []⟩, 3⟩,
        ⟨⟨2, 4, 0, 20, some 7, []⟩, 4⟩] := by decide
  have hnew : (new meadowCatalog .standard).roster.recordOf "ada" "meadow" = none := rfl
  obtain ⟨record, hrecord, hsums, -⟩ :=
    filings_sum_up hlevel hnew hkeeping (hfilings ▸ List.cons_ne_nil _ _)
  rw [hfilings] at hsums
  exact ⟨hlevel, hnew, hkeeping, record, hrecord, hsums, hsums.hints.trans (by decide)⟩

end Classroom

end TileCourse
