import TileCourse.Proofs.Classroom.Requests
import TileCourse.Storage.Folder

/-!
# Profiles that come back

A profile is saved as a text and loaded into a new classroom. Programs in text form may be nested
more deeply than the reader of a stored profile can follow, and they may use a word that the reader
takes for something else. `hydrate_persisted_iff` says that nothing else is ever in the way.
-/

namespace TileCourse

/-- No logged instruction is nested too deeply for a stored profile, and none uses the one word
that a stored profile takes for a branch. -/
def Profile.Restorable (profile : Profile) : Prop :=
  ∀ entry ∈ profile.progress.entries, ∀ step ∈ entry.2.replay,
    step.instruction.nesting ≤ 60 ∧ step.instruction.Everywhere (· ≠ .other "conditional")

/-- A profile can be saved exactly if its id is the name of a file, whatever is in it. -/
theorem Folder.save_eq_ok_iff {folder saved : Folder} {profile : Profile} :
    folder.save profile = .ok saved ↔ ∃ name, fileName profile.id = .ok name ∧
      checkName name = .ok () ∧ ⟨folder.files.insert name profile.toText⟩ = saved := by
  unfold save
  split
  · rename_i hname
    simp [hname]
  · rename_i name hname
    rw [map_error_eq_ok_iff, write, map_eq_ok_iff, hname]
    constructor
    · rintro ⟨_, hcheck, hsaved⟩
      exact ⟨name, rfl, hcheck, hsaved⟩
    · rintro ⟨_, ⟨⟩, hcheck, hsaved⟩
      exact ⟨(), hcheck, hsaved⟩

/-- A folder loads what it has saved last under an id, as far as the text of the profile can be
read. -/
theorem Folder.load_of_save {folder saved : Folder} {profile : Profile}
    (h : folder.save profile = .ok saved) :
    saved.load profile.id = (Profile.ofText profile.toText).map some := by
  obtain ⟨name, hname, hcheck, rfl⟩ := save_eq_ok_iff.1 h
  have hread : Folder.read ⟨folder.files.insert name profile.toText⟩ name =
      .ok profile.toText := by
    simp [read, hcheck, Table.get?_insert]
  rw [load, hname]
  show profileOf? (read _ name) = _
  rw [hread]
  rfl

namespace Profile.Kept

variable {catalog : Catalog} {student : String} {profile : Profile}

/-- A profile that is kept is read from its own text exactly if it is restorable. -/
theorem of_text_iff (h : profile.Kept catalog student) :
    ofText profile.toText = .ok profile ↔ profile.Restorable := by
  rw [of_text_to_text_iff profile h.volume]
  refine forall_congr' fun entry => forall_congr' fun hentry => forall_congr' fun step =>
    forall_congr' fun hstep => and_congr Iff.rfl ?_
  exact Instruction.Everywhere.congr (fun _ => Instruction.Foreign.candid_iff)
    (h.replays entry hentry step hstep)

/-- What is read from the text of a profile that is kept is the profile itself, if settling makes
it so. -/
theorem eq_of_settle {found : Profile} (h : profile.Kept catalog student)
    (htext : ofText profile.toText = .ok found) (hsettle : found.settle catalog = profile) :
    found = profile := by
  obtain ⟨hachievements, hsandbox⟩ := achievements_of_text h.volume htext
  rw [← hsettle] at hachievements hsandbox ⊢
  cases found
  simp only [settle] at hachievements hsandbox ⊢
  rw [← hachievements, ← hsandbox]

end Profile.Kept

namespace Classroom

variable {catalog : Catalog} {policy : Policy} {student : String}

/-- A student's own profile is put on the roster when it is received. -/
theorem profile_of_receive {classroom : Classroom} {profile : Profile}
    (hown : profile.id = student) :
    classroom.receive student (.ok (some profile)) = (.ok true, classroom.insert profile) := by
  rw [receive, if_pos hown]

/-- A profile that is put on the roster is shown as it is, settled. -/
theorem profile_insert (classroom : Classroom) (profile : Profile) :
    ((classroom.insert profile).profile profile.id).1 =
      profile.settle classroom.roster.catalog := by
  show Roster.profileOf (classroom.roster.put profile.id _) profile.id = _
  rw [Roster.profile_of_put, if_pos rfl]

/-- A classroom loads the profile of a student from a folder as it is in another classroom. -/
def Regains (fresh classroom : Classroom) (folder : Folder) (student : String) : Prop :=
  (fresh.hydrate folder student).1 = .ok true ∧
    ((fresh.hydrate folder student).2.profile student).1 = (classroom.profile student).1

/-- A new classroom takes what is read from the text of a kept profile for the profile exactly if
the profile is restorable. -/
theorem receive_kept_iff {profile : Profile} (h : profile.Kept catalog student)
    {fresh : Classroom} (hfresh : fresh.roster.catalog = catalog) :
    ((fresh.receive student ((Profile.ofText profile.toText).map some)).1 = .ok true ∧
      ((fresh.receive student ((Profile.ofText profile.toText).map some)).2.profile student).1 =
        profile) ↔ profile.Restorable := by
  rw [← h.of_text_iff]
  cases htext : Profile.ofText profile.toText with
  | error error => simp [Except.map, receive]
  | ok found =>
      show (fresh.receive student (.ok (some found))).1 = .ok true ∧
        ((fresh.receive student (.ok (some found))).2.profile student).1 = profile ↔ _
      by_cases hown : found.id = student
      · have hprofile := profile_insert fresh found
        rw [hown, hfresh] at hprofile
        rw [profile_of_receive hown, hprofile]
        constructor
        · intro hback
          rw [h.eq_of_settle htext hback.2]
        · intro hback
          obtain rfl := Except.ok.inj hback
          exact ⟨rfl, h.settled⟩
      · rw [receive, if_neg hown]
        refine iff_of_false (by simp) ?_
        intro hback
        obtain rfl := Except.ok.inj hback
        exact hown h.own

/-- A new classroom regains a kept profile that was saved exactly if the profile is restorable. -/
theorem regains_saved_iff {classroom fresh : Classroom} {folder saved : Folder}
    (hkept : (classroom.profile student).1.Kept catalog student)
    (hfresh : fresh.roster.catalog = catalog)
    (hsaved : (classroom.persist folder student).1 = .ok saved) :
    fresh.Regains classroom saved student ↔ (classroom.profile student).1.Restorable := by
  have hload : saved.load student =
      (Profile.ofText (classroom.profile student).1.toText).map some := by
    have hsave : folder.save (classroom.profile student).1 = .ok saved :=
      map_error_eq_ok_iff.1 hsaved
    have hload := Folder.load_of_save hsave
    rwa [hkept.own] at hload
  have hhydrate : fresh.hydrate saved student =
      fresh.receive student (saved.load student) := rfl
  rw [Regains, hhydrate, hload]
  exact receive_kept_iff hkept hfresh

/-- After fair requests the profile of a student is kept. -/
theorem profile_kept {asked : List (String × Request)} (hvolume : policy.settings.volume.Survives)
    (hfair : ∀ entry ∈ asked, entry.2.Fair) (student : String) :
    (((new catalog policy).serveAll asked).profile student).1.Kept catalog student :=
  (serve_all_kept (Roster.kept_new catalog hvolume) hfair).profiles student

/-! ### Strolls over a meadow -/

/-- One tile to stand on, and nothing to reach. -/
def meadow : Level where
  id := "meadow"
  name := "Meadow"
  width := 1
  height := 1
  tiles := [⟨0, 0, true, none⟩]
  start := ⟨0, 0, .north⟩
  goal := .none
  bestSteps := 1
  hints := []
  allowedBlocks := .empty
  comic := ""
  rewards := .none

/-- The meadow in a chapter of its own. -/
def meadowSource : CatalogSource := ⟨[], [⟨"walks", "Walks", 1, ["meadow"]⟩], [meadow]⟩

def meadowCatalog : Catalog where
  courses := Catalog.coursesOf meadowSource
  chapters := meadowSource.chapters
  levels := Table.empty.insert "meadow" meadow
  slots := Table.empty.insert "meadow" ⟨0, 0⟩

/-- The meadow makes the catalog of the meadow. -/
theorem meadow_catalog_eq : Catalog.ofSource meadowSource = .ok meadowCatalog := by
  simp [Catalog.ofSource, meadowSource, meadowCatalog, Catalog.gatherLevels,
    Catalog.checkChapters, Catalog.coursesOf, Catalog.implicitCourse, Catalog.orderChapters,
    Catalog.listed, Catalog.placeChapters, Catalog.placeLevels, meadow, Table.contains,
    Table.get?_insert, Table.keys]
  rfl

/-- Loops in loops that never turn. -/
def tower : Nat → Instruction
  | 0 => .move
  | n + 1 => .loop 0 [tower n]

/-- A tower is as deep as it has loops. -/
theorem tower_nesting (n : Nat) : (tower n).nesting = n := by
  induction n with
  | zero => rfl
  | succ n ih => simp [tower, Instruction.nesting, Instruction.bodyNesting, ih]

/-- What holds of moves and of loops that never turn holds everywhere in a tower. -/
theorem tower_everywhere {p : Instruction → Prop} (hmove : p .move)
    (hloop : ∀ body, p (.loop 0 body)) (n : Nat) : (tower n).Everywhere p := by
  induction n with
  | zero => exact hmove
  | succ n ih => exact ⟨hloop _, ih, trivial⟩

/-- A tower that a text can state is parsed. -/
theorem tower_parsed {n : Nat} (h : n ≤ maxNesting) : Program.Parsed [tower n] := by
  refine .inl ⟨Program.render [tower n], Program.Representable.parse_render ⟨?_, ?_⟩⟩
  · exact ⟨tower_everywhere trivial (fun _ => trivial) n, trivial⟩
  · intro instruction hinstruction
    rw [List.mem_singleton.1 hinstruction, tower_nesting]
    exact h

/-- A stroll over the meadow through a tower, sent in as it is. -/
def stroll (n : Nat) : List (String × Request) :=
  [("ada", .complete "meadow" (.ofResult (simulate meadow Policy.standard.options [tower n])) 0)]

/-- A stroll asks for nothing that a student cannot ask for. -/
theorem stroll_fair {n : Nat} (h : n ≤ maxNesting) : ∀ entry ∈ stroll n, entry.2.Fair := by
  intro entry hentry
  rw [List.mem_singleton.1 hentry]
  exact ⟨meadow, Policy.standard.options, [tower n], tower_parsed h, rfl⟩

/-- After one completion of the meadow its record is the only one. -/
theorem entries_of_complete (completion : Completion) (now : UInt64)
    (hstars : completion.stars ≤ 3) :
    (((new meadowCatalog .standard).serveAll [("ada", .complete "meadow" completion now)]).profile
      "ada").1.progress.entries = [("meadow", completion.firstRecord meadow now)] := by
  have hlevel : meadowCatalog.level? "meadow" = some meadow := by
    rw [Catalog.level?, meadowCatalog, Table.get?_insert, if_pos rfl]
  simp [serveAll, serve, complete, ofRoster, Roster.complete, Roster.level, new, Roster.new,
    hlevel, UInt8.not_lt.2 hstars]
  rfl

/-- The log of a stroll is the tower as a whole, so it is the tower that must be shallow. -/
theorem stroll_restorable_iff (n : Nat) :
    (((new meadowCatalog .standard).serveAll (stroll n)).profile "ada").1.Restorable ↔ n ≤ 60 := by
  have hlog : (simulate meadow Policy.standard.options [tower n]).log.map (·.instruction) =
      [tower n] := by
    cases n <;> rfl
  have hstars : (simulate meadow Policy.standard.options [tower n]).stars ≤ 3 :=
    simulate_stars_le meadow Policy.standard.options [tower n]
  rw [Profile.Restorable, stroll, entries_of_complete _ 0 hstars, List.forall_mem_singleton]
  have hshallow : (tower n).nesting ≤ 60 ∧ (tower n).Everywhere (· ≠ .other "conditional") ↔
      n ≤ 60 := by
    rw [tower_nesting]
    exact and_iff_left (tower_everywhere (by simp) (by simp) n)
  have hsteps := List.forall_mem_map (f := fun step : Step => step.instruction)
    (l := (simulate meadow Policy.standard.options [tower n]).log)
    (P := fun i => i.nesting ≤ 60 ∧ i.Everywhere (· ≠ .other "conditional"))
  rw [hlog, List.forall_mem_singleton, hshallow] at hsteps
  exact hsteps.symm

/-- The standard loudness survives being written. -/
theorem standard_volume_survives : Policy.standard.settings.volume.Survives :=
  Single.survives_below_one rfl (by decide) (by decide)

/-- After a stroll the profile is kept. -/
theorem stroll_kept {n : Nat} (h : n ≤ maxNesting) :
    (((new meadowCatalog .standard).serveAll (stroll n)).profile "ada").1.Kept meadowCatalog
      "ada" :=
  profile_kept standard_volume_survives (stroll_fair h) "ada"

/-- A file can always be named after this student. -/
theorem persist_ada {classroom : Classroom} (hown : (classroom.profile "ada").1.id = "ada")
    (folder : Folder) : ∃ saved, (classroom.persist folder "ada").1 = .ok saved := by
  have hname : Folder.fileName (classroom.profile "ada").1.id = .ok "ada.json" := by
    rw [hown]
    rfl
  exact ⟨_, map_error_eq_ok_iff.2 (Folder.save_eq_ok_iff.2 ⟨"ada.json", hname, rfl, rfl⟩)⟩

/-! ### Profiles that come back -/

/-- However many fair requests were served before a profile was saved, a new classroom with the
same catalog and policy regains the profile exactly if it is restorable. -/
theorem hydrate_persisted_iff {asked : List (String × Request)} {folder saved : Folder}
    (hvolume : policy.settings.volume.Survives) (hfair : ∀ entry ∈ asked, entry.2.Fair)
    (hsaved : (((new catalog policy).serveAll asked).persist folder student).1 = .ok saved) :
    (new catalog policy).Regains ((new catalog policy).serveAll asked) saved student ↔
      (((new catalog policy).serveAll asked).profile student).1.Restorable :=
  regains_saved_iff (profile_kept hvolume hfair student) rfl hsaved

/-- As deep as a stored profile can be, the profile comes back. -/
theorem regains_stroll_sixty : ∃ saved,
    (((new meadowCatalog .standard).serveAll (stroll 60)).persist .empty "ada").1 = .ok saved ∧
      (new meadowCatalog .standard).Regains ((new meadowCatalog .standard).serveAll (stroll 60))
        saved "ada" := by
  have hfair := stroll_fair (n := 60) (by decide)
  obtain ⟨saved, hsaved⟩ := persist_ada (stroll_kept (n := 60) (by decide)).own .empty
  refine ⟨saved, hsaved, (hydrate_persisted_iff standard_volume_survives hfair hsaved).2 ?_⟩
  exact (stroll_restorable_iff 60).2 (by decide)

/-- Not every profile that was saved comes back: a program in text form may be nested one body
deeper. -/
theorem not_regains_persisted :
    ¬∀ (source : CatalogSource) (catalog : Catalog) (policy : Policy) (student : String)
      (asked : List (String × Request)) (folder saved : Folder),
      Catalog.ofSource source = .ok catalog → policy.settings.volume.Survives →
      (∀ entry ∈ asked, entry.2.Fair) →
      (((new catalog policy).serveAll asked).persist folder student).1 = .ok saved →
      (new catalog policy).Regains ((new catalog policy).serveAll asked) saved student := by
  intro hall
  have hkept := stroll_kept (n := 61) (by decide)
  obtain ⟨saved, hsaved⟩ := persist_ada hkept.own .empty
  have hback := hall meadowSource meadowCatalog .standard "ada" (stroll 61) .empty saved
    meadow_catalog_eq standard_volume_survives (stroll_fair (by decide)) hsaved
  have hrestorable := (regains_saved_iff hkept rfl hsaved).1 hback
  exact absurd ((stroll_restorable_iff 61).1 hrestorable) (by decide)

end Classroom

end TileCourse
