import TileCourse.Proofs.Classroom.Operations

/-!
# What students see of each other

Looking at something enrols a student, a change is made to a copy of a profile, and a fresh profile
is put on the roster as it is. None of this shows. Classrooms that show the same profiles are
`Classroom.Alike`. `Classroom.perform_cases` says what an operation does: the classroom looks as it
did before, or the operation succeeds and puts a profile on the roster for its own student. Alike
classrooms answer alike and stay alike, so nobody can tell who has been enrolled.
-/

namespace TileCourse

/-! ### Answers -/

/-- What an operation answers when it succeeds. -/
inductive Answer (ρ : Type) where
  | ran (result : Result)
  | completed (record : LevelRecord)
  | wearing (avatar : Avatar)
  | settings (settings : Settings)
  | map (view : MapView)
  | levelDetail (detail : LevelDetail)
  | levelPrep (prep : LevelPrep)
  | hint (text : String)
  | profile (profile : Profile)
  | summary (summary : ProfileSummary)
  | status (status : LevelStatus)
  | sandbox (isOpen : Bool)
  /-- The repository in which a profile has been saved. -/
  | saved (repository : ρ)
  /-- Whether there was a profile to load. -/
  | loaded (found : Bool)
  | done

namespace Operation

variable {ρ : Type}

/-- The student whom an operation is for. -/
def student : Operation ρ → String
  | .request student _ | .inquire student _ | .persist student _ | .hydrate student _ => student
  | .insert profile => profile.id

/-- An operation runs a program, looks at something or saves a profile. -/
def Reading : Operation ρ → Prop
  | .request _ (.run _ _) | .inquire _ _ | .persist _ _ => True
  | _ => False

end Operation

namespace Classroom

variable {ρ : Type}

/-- The answer to a request of a student. -/
def answerRequest (classroom : Classroom) (student : String) :
    Request → Except ClassroomError (Answer ρ)
  | .run level program => (classroom.run level program).map .ran
  | .complete level completion now =>
    (classroom.complete student level completion now).1.map .completed
  | .equip outfit => (classroom.equip student outfit).1.map .wearing
  | .update patch => (classroom.updateSettings student patch).1.map .settings
  | .reset => (classroom.reset student).1.map fun _ => .done

/-- The answer to a student who looks at something. -/
def answerInquiry (classroom : Classroom) (student : String) :
    Inquiry → Except ClassroomError (Answer ρ)
  | .run level program options => (classroom.runWith level program options).map .ran
  | .sandboxRun level program => (classroom.sandboxRun student level program).1.map .ran
  | .map => .ok (.map (classroom.map student).1)
  | .levelDetail level => (classroom.levelDetail student level).1.map .levelDetail
  | .levelPrep level => (classroom.levelPrep level).map .levelPrep
  | .hint level attempts lastError => (classroom.hint level attempts lastError).map .hint
  | .profile => .ok (.profile (classroom.profile student).1)
  | .summary => .ok (.summary (classroom.summary student).1)
  | .status level => .ok (.status (classroom.status student level).1)
  | .sandboxUnlocked => .ok (.sandbox (classroom.sandboxUnlocked student).1)

variable [Repository ρ]

/-- The answer to an operation. -/
def answer (classroom : Classroom) : Operation ρ → Except ClassroomError (Answer ρ)
  | .request student request => classroom.answerRequest student request
  | .inquire student inquiry => classroom.answerInquiry student inquiry
  | .persist student repository => (classroom.persist repository student).1.map .saved
  | .hydrate student repository => (classroom.hydrate repository student).1.map .loaded
  | .insert _ => .ok .done

/-- The answers to operations, each of which meets the classroom that the one before it has left. -/
def answers (classroom : Classroom) :
    List (Operation ρ) → List (Except ClassroomError (Answer ρ))
  | [] => []
  | operation :: rest => classroom.answer operation :: (classroom.perform operation).answers rest

end Classroom

/-! ### Classrooms that look alike -/

namespace Classroom

/-- Two classrooms have the same catalog and policy and show the same profile of every student,
whoever is on the roster. -/
structure Alike (a b : Classroom) : Prop where
  sameCatalog : a.roster.catalog = b.roster.catalog
  samePolicy : a.roster.policy = b.roster.policy
  profiles : ∀ student, a.roster.profileOf student = b.roster.profileOf student

namespace Alike

variable {a b c : Classroom}

/-- A classroom looks like itself. -/
theorem refl (classroom : Classroom) : classroom.Alike classroom := ⟨rfl, rfl, fun _ => rfl⟩

/-- Looking alike goes both ways. -/
theorem symm (h : a.Alike b) : b.Alike a :=
  ⟨h.sameCatalog.symm, h.samePolicy.symm, fun student => (h.profiles student).symm⟩

/-- Classrooms that look like a third one look alike. -/
theorem trans (h : a.Alike b) (h' : b.Alike c) : a.Alike c where
  sameCatalog := h.sameCatalog.trans h'.sameCatalog
  samePolicy := h.samePolicy.trans h'.samePolicy
  profiles student := (h.profiles student).trans (h'.profiles student)

/-- Classrooms still look alike after the same profile is put on both rosters. -/
theorem put (h : a.Alike b) (student : String) (profile : Profile) :
    Alike ⟨a.roster.put student profile⟩ ⟨b.roster.put student profile⟩ where
  sameCatalog := h.sameCatalog
  samePolicy := h.samePolicy
  profiles other := by
    rw [Roster.profile_of_put, Roster.profile_of_put, h.profiles]

/-- Classrooms still look alike after the same profile is settled and put on both rosters. -/
theorem insert (h : a.Alike b) (profile : Profile) :
    (a.insert profile).Alike (b.insert profile) := by
  rw [Classroom.insert, Classroom.insert, Roster.insert, Roster.insert, h.sameCatalog]
  exact h.put _ _

/-- Enrolling a student does not show. -/
theorem of_enrol (classroom : Classroom) (student : String) :
    classroom.Alike ⟨classroom.roster.enrol student⟩ where
  sameCatalog := Roster.enrol_catalog.symm
  samePolicy := Roster.enrol_policy.symm
  profiles _ := Roster.profile_of_enrol.symm

/-- A student who is not on the roster looks like one who has a fresh profile there. -/
theorem of_absent {classroom : Classroom} {student : String}
    (h : classroom.roster.profiles.get? student = none) :
    classroom.Alike ⟨classroom.roster.put student (classroom.roster.freshProfile student)⟩ := by
  have henrol : classroom.roster.enrol student =
      classroom.roster.put student (classroom.roster.freshProfile student) := by
    rw [Roster.enrol, Table.contains, h]
    rfl
  rw [← henrol]
  exact .of_enrol classroom student

/-- Looking at something does not show. -/
theorem of_inquire (classroom : Classroom) (student : String) (inquiry : Inquiry) :
    classroom.Alike (classroom.inquire student inquiry) := by
  show classroom.Alike ⟨(classroom.inquire student inquiry).roster⟩
  rcases classroom.inquire_cases student inquiry with hsame | henrol
  · rw [hsame]
    exact .refl classroom
  · rw [henrol]
    exact .of_enrol classroom student

end Alike

/-! ### What one operation does -/

variable {classroom : Classroom} {student : String} {α : Type}

/-- A classroom looks as it did before, or a success has put a profile on the roster. -/
def Commits (classroom : Classroom) (student : String)
    (outcome : Except ClassroomError α × Classroom) : Prop :=
  classroom.Alike outcome.2 ∨
    ∃ a profile, outcome = (.ok a, ⟨classroom.roster.put student profile⟩)

/-- A change to a profile shows for its student only, and only if it succeeds. -/
theorem change_commits (classroom : Classroom) (student : String)
    (f : Profile → Except ProgressError (α × Profile)) :
    classroom.Commits student (ofRoster (classroom.roster.change student f)) := by
  unfold Roster.change
  split
  · exact .inl (.refl classroom)
  · exact .inr ⟨_, _, rfl⟩

/-- A completion shows for its student only, and only if it succeeds. -/
theorem complete_commits (classroom : Classroom) (student level : String)
    (completion : Completion) (now : UInt64) :
    classroom.Commits student (classroom.complete student level completion now) := by
  unfold complete Roster.complete
  split
  · exact .inl (.refl classroom)
  · split
    · exact .inl (.refl classroom)
    · exact classroom.change_commits student _

/-- A profile that was found is put on the roster only if it is the student's own. -/
theorem receive_commits (classroom : Classroom) (student : String)
    (found : Except RepositoryError (Option Profile)) :
    classroom.Commits student (classroom.receive student found) := by
  unfold receive
  split
  · exact .inl (.refl classroom)
  · exact .inl (.refl classroom)
  · split
    · rename_i profile hown
      exact .inr ⟨true, profile.settle classroom.roster.catalog, by rw [← hown]; rfl⟩
    · exact .inl (.refl classroom)

/-- Whatever shows is answered with a success. -/
theorem Commits.cases {ρ : Type} {outcome : Except ClassroomError α × Classroom}
    (h : classroom.Commits student outcome) (f : α → Answer ρ) :
    classroom.Alike outcome.2 ∨ (∃ answer, outcome.1.map f = .ok answer) ∧
      ∃ profile, outcome.2 = ⟨classroom.roster.put student profile⟩ := by
  rcases h with halike | ⟨a, profile, rfl⟩
  · exact .inl halike
  · exact .inr ⟨⟨f a, rfl⟩, profile, rfl⟩

section

variable {ρ : Type} [Repository ρ]

/-- After an operation the classroom looks as it did before, or the operation is no reading, has
succeeded and has put a profile on the roster for its student. -/
theorem perform_cases (classroom : Classroom) (operation : Operation ρ) :
    classroom.Alike (classroom.perform operation) ∨
      ¬operation.Reading ∧ (∃ answer, classroom.answer operation = .ok answer) ∧
        ∃ profile,
          classroom.perform operation = ⟨classroom.roster.put operation.student profile⟩ := by
  cases operation with
  | request student request =>
      -- each change is made to a copy, which reaches the roster only with a success
      cases request with
      | run => exact .inl (.refl classroom)
      | complete level completion now =>
          have hcommits := classroom.complete_commits student level completion now
          exact (hcommits.cases .completed).imp_right (.intro not_false)
      | equip outfit =>
          have hcommits := classroom.change_commits student (·.equip outfit)
          exact (hcommits.cases .wearing).imp_right (.intro not_false)
      | update patch =>
          have hcommits : classroom.Commits student (classroom.updateSettings student patch) :=
            classroom.change_commits student _
          exact (hcommits.cases .settings).imp_right (.intro not_false)
      | reset =>
          have hcommits : classroom.Commits student (classroom.reset student) :=
            classroom.change_commits student _
          exact (hcommits.cases fun _ => .done).imp_right (.intro not_false)
  | inquire student inquiry => exact .inl (.of_inquire classroom student inquiry)
  | persist student => exact .inl (.of_enrol classroom student)
  | hydrate student repository =>
      have hcommits := classroom.receive_commits student (Repository.load repository student)
      exact (hcommits.cases .loaded).imp_right (.intro not_false)
  | insert profile => exact .inr ⟨not_false, ⟨.done, rfl⟩, _, rfl⟩

end

/-! ### Answers of classrooms that look alike -/

namespace Alike

variable {a b : Classroom}

/-- Rosters of classrooms that look alike have the same levels. -/
theorem roster_level_eq (h : a.Alike b) (id : String) : a.roster.level id = b.roster.level id := by
  rw [Roster.level, Roster.level, h.sameCatalog]

/-- Classrooms that look alike have the same levels. -/
theorem level_eq (h : a.Alike b) (id : String) : a.level id = b.level id := by
  rw [Classroom.level, Classroom.level, h.roster_level_eq]

/-- A run with options goes the same way in classrooms that look alike. -/
theorem run_with_eq (h : a.Alike b) (level : String) (program : Program) (options : Options) :
    a.runWith level program options = b.runWith level program options := by
  rw [runWith, runWith, h.level_eq]

/-- A run goes the same way in classrooms that look alike. -/
theorem run_eq (h : a.Alike b) (level : String) (program : Program) :
    a.run level program = b.run level program := by
  rw [run, run, h.samePolicy, h.run_with_eq]

/-- Whatever a student looks at looks the same. -/
theorem inquiry_eq {ρ : Type} (h : a.Alike b) (student : String) (inquiry : Inquiry) :
    (a.answerInquiry student inquiry : Except ClassroomError (Answer ρ)) =
      b.answerInquiry student inquiry := by
  cases inquiry with
  | run level program options => rw [answerInquiry, answerInquiry, h.run_with_eq]
  | sandboxRun level program =>
      -- whether the sandbox is open is in the profile; the run itself knows no student
      show Except.map _ (if (a.roster.profileOf student).sandboxUnlocked then
          a.run level program else .error .sandboxLocked) =
        Except.map _ (if (b.roster.profileOf student).sandboxUnlocked then
          b.run level program else .error .sandboxLocked)
      rw [h.profiles, h.run_eq]
  | map =>
      simp only [answerInquiry, Classroom.map, Roster.map, h.profiles, h.sameCatalog, h.samePolicy]
  | levelDetail level =>
      show (ofRoster (a.roster.levelDetail student level)).1.map _ =
        (ofRoster (b.roster.levelDetail student level)).1.map _
      rw [Roster.levelDetail, Roster.levelDetail, h.roster_level_eq]
      -- an unknown level is refused before the profile is looked at
      cases b.roster.level level with
      | error error => rfl
      | ok found => simp only [ofRoster, h.profiles, h.sameCatalog, h.samePolicy]
  | levelPrep level => rw [answerInquiry, answerInquiry, levelPrep, levelPrep, h.level_eq]
  | hint level attempts lastError =>
      rw [answerInquiry, answerInquiry, Classroom.hint, Classroom.hint, h.level_eq]
  | profile => simp only [answerInquiry, Classroom.profile, Roster.profile, h.profiles]
  | summary => simp only [answerInquiry, Classroom.summary, Roster.summary, h.profiles]
  | status level =>
      simp only [answerInquiry, Classroom.status, Roster.status, h.profiles, h.sameCatalog,
        h.samePolicy]
  | sandboxUnlocked =>
      simp only [answerInquiry, Classroom.sandboxUnlocked, Roster.sandboxUnlocked, h.profiles]

/-- Two outcomes are the same answer in classrooms that look alike. -/
def Outcomes (x y : Except ClassroomError α × Classroom) : Prop := x.1 = y.1 ∧ x.2.Alike y.2

/-- A change to a profile has the same outcome in classrooms that look alike. -/
theorem change (h : a.Alike b) (student : String)
    (f : Profile → Except ProgressError (α × Profile)) :
    Outcomes (ofRoster (a.roster.change student f)) (ofRoster (b.roster.change student f)) := by
  rw [Roster.change, Roster.change, h.profiles, h.sameCatalog]
  split
  · exact ⟨rfl, h⟩
  · exact ⟨rfl, h.put student _⟩

/-- A completion has the same outcome in classrooms that look alike. -/
theorem complete (h : a.Alike b) (student level : String) (completion : Completion)
    (now : UInt64) :
    Outcomes (a.complete student level completion now)
      (b.complete student level completion now) := by
  rw [Classroom.complete, Classroom.complete, Roster.complete, Roster.complete, h.roster_level_eq]
  split
  · exact ⟨rfl, h⟩
  · split
    · exact ⟨rfl, h⟩
    · exact h.change student _

/-- Starting afresh has the same outcome in classrooms that look alike. -/
theorem reset (h : a.Alike b) (student : String) :
    Outcomes (a.reset student) (b.reset student) := by
  have hfresh : a.roster.freshProfile student = b.roster.freshProfile student := by
    rw [Roster.freshProfile, Roster.freshProfile, h.samePolicy]
  rw [Classroom.reset, Classroom.reset, Roster.reset, Roster.reset, hfresh]
  exact h.change student _

/-- Receiving a profile has the same outcome in classrooms that look alike. -/
theorem receive (h : a.Alike b) (student : String)
    (found : Except RepositoryError (Option Profile)) :
    Outcomes (a.receive student found) (b.receive student found) := by
  unfold Classroom.receive
  split
  · exact ⟨rfl, h⟩
  · exact ⟨rfl, h⟩
  · split
    · exact ⟨rfl, h.insert _⟩
    · exact ⟨rfl, h⟩

variable {ρ : Type} [Repository ρ]

/-- An operation is answered alike in classrooms that look alike, and they go on looking alike. -/
theorem perform (h : a.Alike b) (operation : Operation ρ) :
    a.answer operation = b.answer operation ∧
      (a.perform operation).Alike (b.perform operation) := by
  cases operation with
  | request student request =>
      cases request with
      | run level program => exact ⟨congrArg (Except.map Answer.ran) (h.run_eq level program), h⟩
      | complete level completion now =>
          exact (h.complete student level completion now).imp_left
            (congrArg (Except.map Answer.completed))
      | equip outfit =>
          exact (h.change student (·.equip outfit)).imp_left (congrArg (Except.map Answer.wearing))
      | update patch =>
          exact (h.change student _).imp_left (congrArg (Except.map Answer.settings))
      | reset =>
          exact (h.reset student).imp_left (congrArg (Except.map fun _ => Answer.done))
  | inquire student inquiry =>
      have ha := of_inquire a student inquiry
      have hb := of_inquire b student inquiry
      exact ⟨h.inquiry_eq student inquiry, ha.symm.trans (h.trans hb)⟩
  | persist student repository =>
      -- the student is enrolled on both sides, and the same profile is saved
      refine ⟨?_, (of_enrol a student).symm.trans (h.trans (of_enrol b student))⟩
      show ((Repository.save repository (a.roster.profileOf student)).mapError
          ClassroomError.repository).map _ =
        ((Repository.save repository (b.roster.profileOf student)).mapError
          ClassroomError.repository).map _
      rw [h.profiles]
  | hydrate student repository =>
      exact (h.receive student (Repository.load repository student)).imp_left
        (congrArg (Except.map Answer.loaded))
  | insert profile => exact ⟨rfl, h.insert profile⟩

/-- Operations are answered the same way in classrooms that look alike. -/
theorem answers_eq (h : a.Alike b) (operations : List (Operation ρ)) :
    a.answers operations = b.answers operations := by
  -- each operation leaves another pair of classrooms, which look alike again
  induction operations generalizing a b with
  | nil => rfl
  | cons operation rest ih =>
      obtain ⟨hanswer, halike⟩ := h.perform operation
      rw [answers, answers, hanswer, ih halike]

end Alike

/-! ### What shows -/

section

variable {ρ : Type} [Repository ρ]

/-- An operation shows in the profile of its own student at most, and not even there when it is
refused or a reading. -/
structure Discreet (classroom : Classroom) (operation : Operation ρ) : Prop where
  others : ∀ other ≠ operation.student,
    (classroom.perform operation).roster.profileOf other = classroom.roster.profileOf other
  refused : ∀ error, classroom.answer operation = .error error → ∀ other,
    (classroom.perform operation).roster.profileOf other = classroom.roster.profileOf other
  reading : operation.Reading → ∀ other,
    (classroom.perform operation).roster.profileOf other = classroom.roster.profileOf other

/-- Every operation is discreet. -/
theorem discreet (classroom : Classroom) (operation : Operation ρ) :
    classroom.Discreet operation := by
  rcases classroom.perform_cases operation with halike | ⟨hreading, ⟨answer, hok⟩, profile, hput⟩
  · have hsame other := (halike.profiles other).symm
    exact ⟨fun other _ => hsame other, fun _ _ => hsame, fun _ => hsame⟩
  · refine ⟨fun other hother => ?_, fun error herror => ?_, fun h => absurd h hreading⟩
    · rw [hput, Roster.profile_of_put, if_neg hother]
    · rw [hok] at herror
      cases herror

/-- Every operation is discreet, and no operations tell a student who is not on the roster from one
who has a fresh profile there. Since the answers agree one by one, choosing operations by the
answers so far does not help. -/
theorem students_isolated (classroom : Classroom) :
    (∀ operation : Operation ρ, classroom.Discreet operation) ∧
    ∀ student, classroom.roster.profiles.get? student = none →
      ∀ operations : List (Operation ρ), classroom.answers operations =
        answers ⟨classroom.roster.put student (classroom.roster.freshProfile student)⟩
          operations :=
  ⟨classroom.discreet, fun _ habsent => (Alike.of_absent habsent).answers_eq⟩

/-- A student asks for a cape that nobody has earned. -/
def vain : Operation Folder := .request "ada" (.equip "cape")

/-- The cape is refused, which does not show, whether the student has been enrolled or not. -/
theorem students_isolated_vain :
    (new meadowCatalog .standard).answer vain = .error (.progress (.outfitLocked "cape")) ∧
    (new meadowCatalog .standard).roster.profiles.get? "ada" = none ∧
    (∀ other, ((new meadowCatalog .standard).perform vain).roster.profileOf other =
      (new meadowCatalog .standard).roster.profileOf other) ∧
    (new meadowCatalog .standard).answers [vain] =
      answers ⟨(new meadowCatalog .standard).roster.put "ada"
        ((new meadowCatalog .standard).roster.freshProfile "ada")⟩ [vain] := by
  have hrefused : (new meadowCatalog .standard).answer vain =
    .error (.progress (.outfitLocked "cape")) := rfl
  obtain ⟨hdiscreet, hanswers⟩ := @students_isolated Folder _ (new meadowCatalog .standard)
  exact ⟨hrefused, rfl, (hdiscreet vain).refused _ hrefused, hanswers "ada" rfl [vain]⟩

end

end Classroom

end TileCourse
