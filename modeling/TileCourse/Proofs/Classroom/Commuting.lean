import TileCourse.Proofs.Classroom.Awards
import TileCourse.Proofs.Classroom.Filings

/-!
# Completions of different levels

Every completion writes a whole profile: a record, an outfit that may be won by several levels, and
all that follows from the records. Still, two completions have nothing to do with each other unless
they are of the same level by the same student: `Roster.submissions_commute` says that they are
answered alike in either order and leave the same roster, and that of a whole history of
completions only the order at each place matters.
-/

namespace TileCourse

/-- A completion of a level that a student sends in. -/
structure Submission where
  student : String
  level : String
  filing : Filing
  deriving DecidableEq, Repr

/-- Whose record a submission is about, and of which level. -/
def Submission.place (submission : Submission) : String × String :=
  (submission.student, submission.level)

/-- Submissions of one student for different places are for different levels. -/
theorem Submission.level_ne {first second : Submission} (h : first.place ≠ second.place)
    (hstudent : second.student = first.student) : first.level ≠ second.level := by
  intro hlevel
  exact h (Prod.ext hstudent.symm hlevel)

/-! ### Profiles -/

namespace Profile

/-- The profile after a submission for a level, settled. -/
def submit (profile : Profile) (catalog : Catalog) (level : Level) (submission : Submission) :
    Profile :=
  (profile.complete submission.level level submission.filing.completion
    submission.filing.now).2.settle catalog

/-- What the profile keeps of a submission for a level. -/
def recorded (profile : Profile) (level : Level) (submission : Submission) : LevelRecord :=
  submission.filing.completion.merge level submission.filing.now
    (profile.progress.get? submission.level)

/-- Settled profiles are alike if they are in what does not follow from the records, and in the
records. -/
theorem eq_of_settled {profile other : Profile} {catalog : Catalog}
    (hprofile : profile.settle catalog = profile) (hother : other.settle catalog = other)
    (hid : profile.id = other.id) (hequipped : profile.avatar.equipped = other.avatar.equipped)
    (hunlocked : ∀ outfit, outfit ∈ profile.avatar.unlocked ↔ outfit ∈ other.avatar.unlocked)
    (hsettings : profile.settings = other.settings)
    (hprogress : profile.progress = other.progress) : profile = other := by
  have hsettle : profile.settle catalog = other.settle catalog := by
    obtain ⟨id, ⟨equipped, unlocked⟩, _, settings, _, progress⟩ := profile
    obtain ⟨_, ⟨_, _⟩, _, _, _, _⟩ := other
    cases hid
    cases hequipped
    cases TextSet.eq_of_mem hunlocked
    cases hsettings
    cases hprogress
    rfl
  rw [← hprofile, hsettle, hother]

section

variable (profile : Profile) (catalog : Catalog) (level later : Level)
  {submission first second : Submission}

/-- A submission leaves the id of a profile as it is. -/
theorem submit_id : (profile.submit catalog level submission).id = profile.id :=
  reward_id level _

/-- A submission leaves the settings of a profile as they are. -/
theorem submit_settings : (profile.submit catalog level submission).settings = profile.settings :=
  reward_settings level _

/-- A submission leaves the outfit that is worn as it is. -/
theorem submit_equipped : (profile.submit catalog level submission).avatar.equipped =
    profile.avatar.equipped :=
  reward_equipped profile level _

/-- A submission unlocks the outfit that its record has earned, and takes none away. -/
theorem mem_submit_iff {outfit : String} :
    outfit ∈ (profile.submit catalog level submission).avatar.unlocked ↔
      level.Awards (profile.recorded level submission) outfit ∨
        outfit ∈ profile.avatar.unlocked :=
  mem_reward_iff

/-- A submission changes the record of its level and no other. -/
theorem submit_progress : (profile.submit catalog level submission).progress =
    profile.progress.insert submission.level (profile.recorded level submission) := rfl

/-- A submission leaves the records of other levels alone. -/
theorem recorded_submit (h : first.level ≠ second.level) :
    (profile.submit catalog level first).recorded later second = profile.recorded later second := by
  rw [recorded, submit_progress, Table.get?_insert, if_neg (Ne.symm h), recorded]

/-- Submissions for different levels leave the same profile in either order: each merges its own
record, and it makes no difference which of them wins an outfit first. -/
theorem submit_comm (h : first.level ≠ second.level) :
    (profile.submit catalog level first).submit catalog later second =
      (profile.submit catalog later second).submit catalog level first := by
  have hlater := recorded_submit profile catalog level later h
  have hlevel := recorded_submit profile catalog later level (Ne.symm h)
  refine eq_of_settled (settle_settle _ catalog) (settle_settle _ catalog) ?hid ?hequipped
    ?hunlocked ?hsettings ?hprogress
  case hid => simp only [submit_id]
  case hequipped => simp only [submit_equipped]
  case hunlocked =>
    intro outfit
    simp only [mem_submit_iff, hlater, hlevel]
    exact or_left_comm
  case hsettings => simp only [submit_settings]
  case hprogress =>
    simp only [submit_progress, hlater, hlevel]
    exact Table.insert_comm _ h _ _

end

end Profile

/-! ### Rosters -/

namespace Roster

/-- Serve a submission. -/
def submit (roster : Roster) (submission : Submission) :
    Except ProgressError LevelRecord × Roster :=
  roster.complete submission.student submission.level submission.filing.completion
    submission.filing.now

/-- The roster after submissions, the first one first. -/
def submitAll (roster : Roster) (submissions : List Submission) : Roster :=
  submissions.foldl (fun roster submission => (roster.submit submission).2) roster

/-- A submission is refused by every roster over a catalog, for one reason and without a change, or
it is accepted by each of them. -/
theorem submit_cases (catalog : Catalog) (submission : Submission) :
    (∃ error, ∀ roster : Roster, roster.catalog = catalog →
      roster.submit submission = (.error error, roster)) ∨
    ∃ level, ∀ roster : Roster, roster.catalog = catalog → roster.submit submission =
      (.ok ((roster.profileOf submission.student).recorded level submission),
        roster.put submission.student
          ((roster.profileOf submission.student).submit catalog level submission)) := by
  cases hlevel : catalog.level? submission.level with
  | none =>
      refine .inl ⟨.levelNotFound submission.level, ?_⟩
      intro roster hcatalog
      simp only [submit, complete, Roster.level, hcatalog, hlevel, Option.elim_none]
  | some level =>
      by_cases hstars : submission.filing.completion.stars ≤ 3
      case pos =>
        refine .inr ⟨level, ?_⟩
        intro roster hcatalog
        subst hcatalog
        exact complete_eq hlevel hstars submission.student submission.filing.now
      case neg =>
        refine .inl ⟨.tooManyStars submission.filing.completion.stars, ?_⟩
        intro roster hcatalog
        have hfound : roster.level submission.level = .ok level :=
          level_eq_ok_iff.2 (hcatalog ▸ hlevel)
        have hmany : 3 < submission.filing.completion.stars := UInt8.not_le.1 hstars
        simp only [submit, complete, hfound, if_pos hmany]

/-- A submission leaves the catalog of a roster as it is. -/
theorem submit_catalog (roster : Roster) (submission : Submission) :
    (roster.submit submission).2.catalog = roster.catalog := by
  rcases submit_cases roster.catalog submission with ⟨error, hrefused⟩ | ⟨level, haccepted⟩
  · rw [hrefused roster rfl]
  · rw [haccepted roster rfl, put]

/-- Of two profiles that are put for a student the second one stays. -/
theorem put_put (roster : Roster) (student : String) (profile changed : Profile) :
    (roster.put student profile).put student changed = roster.put student changed := by
  simp only [put, Table.insert_insert]

/-- Profiles of different students can be put in either order. -/
theorem put_comm (roster : Roster) {student other : String} (h : student ≠ other)
    (profile changed : Profile) : (roster.put student profile).put other changed =
      (roster.put other changed).put student profile := by
  simp only [put, Table.insert_comm _ h]

section

variable {roster : Roster} {first second : Submission}

/-- A submission does not change the answer to another one at another place. -/
theorem answer_submit (h : first.place ≠ second.place) :
    ((roster.submit first).2.submit second).1 = (roster.submit second).1 := by
  have hcatalog := roster.submit_catalog first
  rcases submit_cases roster.catalog second with ⟨error, hsecond⟩ | ⟨later, hsecond⟩
  · rw [hsecond _ hcatalog, hsecond roster rfl]
  rcases submit_cases roster.catalog first with ⟨error, hfirst⟩ | ⟨level, hfirst⟩
  · rw [hfirst roster rfl]
  rw [hsecond _ hcatalog, hsecond roster rfl, hfirst roster rfl, profile_of_put]
  split
  · rename_i hstudent
    rw [Profile.recorded_submit _ _ _ _ (Submission.level_ne h hstudent), hstudent]
  · rfl

/-- Submissions at different places leave the same roster in either order. -/
theorem roster_submit_comm (h : first.place ≠ second.place) :
    ((roster.submit first).2.submit second).2 = ((roster.submit second).2.submit first).2 := by
  have hcatalog := roster.submit_catalog first
  have hcatalog' := roster.submit_catalog second
  rcases submit_cases roster.catalog first with ⟨error, hfirst⟩ | ⟨level, hfirst⟩
  · rw [hfirst _ hcatalog', hfirst roster rfl]
  rcases submit_cases roster.catalog second with ⟨error, hsecond⟩ | ⟨later, hsecond⟩
  · rw [hsecond _ hcatalog, hsecond roster rfl]
  rw [hfirst _ hcatalog', hsecond _ hcatalog, hfirst roster rfl, hsecond roster rfl]
  -- two submissions meet in one profile only if they are of the same student
  by_cases hstudent : second.student = first.student
  case pos =>
    simp only [hstudent, profile_of_put, if_true, put_put]
    rw [Profile.submit_comm _ _ _ _ (Submission.level_ne h hstudent)]
  case neg =>
    rw [profile_of_put, if_neg hstudent, profile_of_put, if_neg (Ne.symm hstudent)]
    exact put_comm roster (Ne.symm hstudent) _ _

end

/-! ### Histories -/

/-- A submission may be served before all those that are at other places. -/
theorem submit_all_front (roster : Roster) {front back : List Submission} {submission : Submission}
    (h : ∀ other ∈ front, other.place ≠ submission.place) :
    roster.submitAll (front ++ submission :: back) =
      roster.submitAll (submission :: (front ++ back)) := by
  induction front generalizing roster with
  | nil => rfl
  | cons other front ih =>
      obtain ⟨hother, hfront⟩ := List.forall_mem_cons.1 h
      calc roster.submitAll (other :: front ++ submission :: back)
          = (roster.submit other).2.submitAll (submission :: (front ++ back)) :=
            ih (roster.submit other).2 hfront
        _ = ((roster.submit other).2.submit submission).2.submitAll (front ++ back) := rfl
        _ = ((roster.submit submission).2.submit other).2.submitAll (front ++ back) := by
            rw [roster_submit_comm hother]
        _ = roster.submitAll (submission :: (other :: front ++ back)) := rfl

/-- Histories leave the same roster if they are the same at every place. -/
theorem submit_all_congr (roster : Roster) {history others : List Submission}
    (h : ∀ place, history.filter (·.place = place) = others.filter (·.place = place)) :
    roster.submitAll history = roster.submitAll others := by
  induction history generalizing roster others with
  | nil =>
      cases others with
      | nil => rfl
      | cons submission others =>
          have hplace := h submission.place
          simp at hplace
  | cons submission history ih =>
      have hplace := h submission.place
      rw [List.filter_cons_of_pos (by simp)] at hplace
      -- the submission comes first at its place in the other history as well, so all that stands
      -- before it there is at other places
      obtain ⟨front, back, rfl, hfront, _, hback⟩ := List.filter_eq_cons_iff.1 hplace.symm
      have hothers : ∀ other ∈ front, other.place ≠ submission.place := by
        simpa using hfront
      rw [submit_all_front roster hothers]
      refine ih (roster.submit submission).2 fun place => ?_
      rw [List.filter_append]
      by_cases hsame : submission.place = place
      case pos =>
        rw [← hsame, hback, List.filter_eq_nil_iff.2 hfront, List.nil_append]
      case neg =>
        have hrest := h place
        rwa [List.filter_cons_of_neg (by simpa using hsame), List.filter_append,
          List.filter_cons_of_neg (by simpa using hsame)] at hrest

/-- Submissions at different places are answered alike in either order and leave the same roster,
and of a history of submissions only the order at each place matters for the roster. -/
theorem submissions_commute (roster : Roster) :
    (∀ first second : Submission, first.place ≠ second.place →
      ((roster.submit second).2.submit first).1 = (roster.submit first).1 ∧
      ((roster.submit first).2.submit second).1 = (roster.submit second).1 ∧
      ((roster.submit first).2.submit second).2 = ((roster.submit second).2.submit first).2) ∧
    ∀ history others : List Submission,
      (∀ place, history.filter (·.place = place) = others.filter (·.place = place)) →
      roster.submitAll history = roster.submitAll others := by
  refine ⟨fun first second h => ?_, fun history others h => roster.submit_all_congr h⟩
  exact ⟨answer_submit (Ne.symm h), answer_submit h, roster_submit_comm h⟩

/-- Ada climbs the hill. -/
def climbed : Submission := ⟨"ada", "hill", ⟨2, 4, 0, 30, none, []⟩, 0⟩

/-- Ada walks over the meadow. -/
def walked : Submission := ⟨"ada", "meadow", ⟨3, 1, 0, 9, none, []⟩, 1⟩

/-- Ada climbs the hill once more. -/
def returned : Submission := ⟨"ada", "hill", ⟨3, 3, 1, 20, none, []⟩, 2⟩

/-- On an outing it does not matter whether the hill or the meadow comes first. -/
theorem submissions_commute_outing : ∃ catalog,
    Catalog.ofSource Classroom.hillSource = .ok catalog ∧ climbed.place ≠ walked.place ∧
    (∀ place, [climbed, walked, returned].filter (·.place = place) =
      [walked, climbed, returned].filter (·.place = place)) ∧
    let roster := new catalog .standard
    ((roster.submit climbed).2.submit walked).1 = (roster.submit walked).1 ∧
      roster.submitAll [climbed, walked, returned] =
        roster.submitAll [walked, climbed, returned] := by
  have hconsistent : Classroom.hillSource.Consistent :=
    ⟨by decide, by decide, by decide, by decide, by decide⟩
  obtain ⟨catalog, hcatalog⟩ := Catalog.exists_of_consistent hconsistent
  have happart : climbed.place ≠ walked.place := by decide
  have hplaces : ∀ place, [climbed, walked, returned].filter (·.place = place) =
      [walked, climbed, returned].filter (·.place = place) := by
    intro place
    by_cases hplace : climbed.place = place
    case pos =>
      rw [← hplace]
      rfl
    case neg => simp [List.filter_cons, hplace]
  have hcommute := submissions_commute (new catalog .standard)
  exact ⟨catalog, hcatalog, happart, hplaces, (hcommute.1 climbed walked happart).2.1,
    hcommute.2 _ _ hplaces⟩

end Roster

end TileCourse
