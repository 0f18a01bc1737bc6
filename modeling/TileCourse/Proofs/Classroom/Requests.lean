import TileCourse.Classroom.Basic
import TileCourse.Proofs.Json.Singles
import TileCourse.Proofs.Program.RoundTrip
import TileCourse.Proofs.Progress.Wire
import TileCourse.Proofs.Simulation.Verdict

/-!
# Requests of students

A classroom serves requests one after the other. What one request preserves of every student's
profile holds after any number of them, whoever asks and in whatever order. `Profile.Kept` is what
is needed to get a profile back from where it was saved.
-/

namespace TileCourse

/-! ### Requests -/

/-- What a student can ask for, apart from looking at things. -/
inductive Request where
  /-- Run a program on a level. -/
  | run (level : String) (program : Program)
  /-- Complete a level at a time. -/
  | complete (level : String) (completion : Completion) (now : UInt64)
  /-- Put on an outfit. -/
  | equip (outfit : String)
  /-- Change the settings. -/
  | update (patch : SettingsPatch)
  /-- Start afresh. -/
  | reset

/-- A program that is read from a text, in either of the two forms of programs. -/
def Program.Parsed (program : Program) : Prop :=
  (∃ source, parse source = .ok program) ∨ ∃ source, parseJson source = .ok program

/-- A completion reports the log of a run, every program is one that was read, and a loudness is
finite. -/
def Request.Fair : Request → Prop
  | .run _ program => program.Parsed
  | .complete _ completion _ => ∃ level options program, Program.Parsed program ∧
      completion.replay = (simulate level options program).log
  | .update patch => ∀ volume ∈ patch.volume, volume.isFinite = true
  | .equip _ | .reset => True

namespace Classroom

/-- The classroom after a request of a student. A run changes nothing. -/
def serve (classroom : Classroom) (student : String) : Request → Classroom
  | .run _ _ => classroom
  | .complete level completion now => (classroom.complete student level completion now).2
  | .equip outfit => (classroom.equip student outfit).2
  | .update patch => (classroom.updateSettings student patch).2
  | .reset => (classroom.reset student).2

/-- The classroom after requests of students, the first one first. -/
def serveAll (classroom : Classroom) (asked : List (String × Request)) : Classroom :=
  asked.foldl (fun classroom entry => classroom.serve entry.1 entry.2) classroom

end Classroom

/-! ### Logged instructions -/

namespace Instruction

/-- An unknown kind is not empty, and none of the words that both forms of programs know. -/
def Foreign : Instruction → Prop
  | .other kind => kind ∉ ["move", "turn", "collect", "repeat", ""]
  | _ => True

/-- An unknown word of the text form is foreign. -/
theorem foreign_of_speakable : ∀ {instruction : Instruction}, instruction.Speakable →
    instruction.Foreign
  | .other kind, h => by
      obtain ⟨hword, hkeyword⟩ := h
      have hempty : kind ≠ "" := by
        rintro rfl
        exact hword.nonempty rfl
      simp only [keywords, List.mem_cons, List.not_mem_nil, or_false, not_or] at hkeyword
      simp [Foreign, hempty, hkeyword]
  | .move, _ | .turn _, _ | .collect, _ | .loop _ _, _ | .branch _ _ _, _ => trivial

/-- An unknown kind of the other form is foreign. -/
theorem foreign_of_candid : ∀ {instruction : Instruction}, instruction.Candid →
    instruction.Foreign
  | .other kind, h => by
      simp only [Candid, UnknownKind, List.mem_cons, List.not_mem_nil, or_false, not_or] at h
      simp [Foreign, h]
  | .move, _ | .turn _, _ | .collect, _ | .loop _ _, _ | .branch _ _ _, _ => trivial

/-- Only one word is known to programs in JSON and unknown to those in text. -/
theorem Foreign.candid_iff : ∀ {instruction : Instruction}, instruction.Foreign →
    (instruction.Candid ↔ instruction ≠ .other "conditional")
  | .other kind, h => by
      simp only [Foreign, List.mem_cons, List.not_mem_nil, or_false, not_or] at h
      simp [Candid, UnknownKind, h]
  | .move, _ | .turn _, _ | .collect, _ | .loop _ _, _ | .branch _ _ _, _ => by simp [Candid]

end Instruction

/-- In a program that is read from a text, an unknown kind is foreign to both forms. -/
theorem Program.Parsed.foreign {program : Program} (h : program.Parsed) :
    Instruction.EverywhereIn Instruction.Foreign program := by
  rcases h with ⟨source, htext⟩ | ⟨source, hjson⟩
  · exact (representable_of_parse htext).kinds.mono fun _ => Instruction.foreign_of_speakable
  · exact (candid_of_parse_json hjson).mono fun _ => Instruction.foreign_of_candid

/-- The log of a record is that of the last completion. -/
theorem Completion.merge_replay (completion : Completion) (level : Level) (now : UInt64)
    (before : Option LevelRecord) : (completion.merge level now before).replay =
      completion.replay := by
  cases before <;> rfl

/-! ### Profiles -/

namespace Profile

variable {catalog : Catalog} {student : String} {profile : Profile}

/-- Settling a profile once more changes nothing. -/
theorem settle_settle (profile : Profile) (catalog : Catalog) :
    (profile.settle catalog).settle catalog = profile.settle catalog := rfl

/-- Nothing follows from no records. -/
theorem settle_fresh (id outfit : String) (settings : Settings) (catalog : Catalog) :
    (fresh id outfit settings).settle catalog = fresh id outfit settings := by
  have hstars : (fresh id outfit settings).starsFor = fun _ => 0 := rfl
  have htotals : (fresh id outfit settings).totals catalog = ⟨0, 0, 0, catalog.levelCount⟩ := by
    have hsum (n : Nat) : (List.replicate n (0 : UInt8)).foldl
        (fun total earned => total + earned.toUInt32) 0 = 0 := by
      induction n with
      | zero => rfl
      | succ n ih => exact ih
    simp [totals, hstars, hsum]
  have hbadges : Totals.badges ⟨0, 0, 0, catalog.levelCount⟩ = .empty := by
    rcases Nat.eq_zero_or_pos catalog.levelCount with hzero | hpos
    · simp [Totals.badges, Totals.stars, TextSet.insertIf, hzero]
    · simp [Totals.badges, Totals.stars, TextSet.insertIf, Nat.ne_of_lt hpos]
  have hcompendium : (fresh id outfit settings).compendium catalog = .empty := by
    simp [compendium, hstars, TextSet.ofList]
  simp only [settle, htotals, hbadges, hcompendium]
  rfl

/-- A profile is the student's own, everything in it that follows from its records is up to date,
its loudness survives being written, and its logs are about instructions that were read. -/
structure Kept (catalog : Catalog) (student : String) (profile : Profile) : Prop where
  own : profile.id = student
  settled : profile.settle catalog = profile
  volume : profile.settings.volume.Survives
  replays : ∀ entry ∈ profile.progress.entries, ∀ step ∈ entry.2.replay,
    step.instruction.Everywhere Instruction.Foreign

/-- A fresh profile is kept, if its loudness survives being written. -/
theorem kept_fresh (catalog : Catalog) (student outfit : String) {settings : Settings}
    (hvolume : settings.volume.Survives) :
    (fresh student outfit settings).Kept catalog student where
  own := rfl
  settled := settle_fresh student outfit settings catalog
  volume := hvolume
  replays := fun _ h => absurd h List.not_mem_nil

/-- A profile that is kept but for what follows from its records is kept when it is settled. -/
theorem kept_settle (hown : profile.id = student) (hvolume : profile.settings.volume.Survives)
    (hreplays : ∀ entry ∈ profile.progress.entries, ∀ step ∈ entry.2.replay,
      step.instruction.Everywhere Instruction.Foreign) :
    (profile.settle catalog).Kept catalog student :=
  ⟨hown, settle_settle profile catalog, hvolume, hreplays⟩

/-- A reward leaves the id of a profile as it is. -/
@[simp] theorem reward_id (level : Level) (record : LevelRecord) :
    (profile.reward level record).id = profile.id := by
  unfold reward
  split
  · split <;> rfl
  · rfl

/-- A reward leaves the settings of a profile as they are. -/
@[simp] theorem reward_settings (level : Level) (record : LevelRecord) :
    (profile.reward level record).settings = profile.settings := by
  unfold reward
  split
  · split <;> rfl
  · rfl

/-- A completion whose log is about instructions that were read keeps a profile. -/
theorem Kept.complete (h : profile.Kept catalog student) (id : String) (level : Level)
    {completion : Completion} (now : UInt64)
    (hreplay : ∀ step ∈ completion.replay, step.instruction.Everywhere Instruction.Foreign) :
    ((profile.complete id level completion now).2.settle catalog).Kept catalog student := by
  refine kept_settle ?_ ?_ ?_
  · simpa [Profile.complete] using h.own
  · simpa [Profile.complete] using h.volume
  · intro entry hentry
    rcases Text.mem_put_entry hentry with rfl | hentry
    · rw [completion.merge_replay]
      exact hreplay
    · exact h.replays entry hentry

/-- Another outfit keeps a profile. -/
theorem Kept.equip (h : profile.Kept catalog student) {outfit : String} {avatar : Avatar}
    {changed : Profile} (hequip : profile.equip outfit = .ok (avatar, changed)) :
    (changed.settle catalog).Kept catalog student := by
  unfold Profile.equip at hequip
  split at hequip
  · cases hequip
    exact kept_settle h.own h.volume h.replays
  · cases hequip

/-- Other settings keep a profile if a new loudness survives being written. -/
theorem Kept.update (h : profile.Kept catalog student) {patch : SettingsPatch}
    (hvolume : ∀ volume ∈ patch.volume, volume.clampToUnit.Survives) :
    ({ profile with settings := profile.settings.apply patch }.settle catalog).Kept catalog
      student := by
  refine kept_settle h.own ?_ h.replays
  show (Settings.apply profile.settings patch).volume.Survives
  unfold Settings.apply
  cases hpatch : patch.volume with
  | none => exact h.volume
  | some volume => exact hvolume volume hpatch

end Profile

/-! ### Rosters -/

namespace Roster

variable {roster : Roster} {student other : String} {profile : Profile}

/-- Putting a profile changes that of its student and no other. -/
theorem profile_of_put : (roster.put student profile).profileOf other =
    if other = student then profile else roster.profileOf other := by
  rw [profileOf, put, Table.get?_insert]
  split
  · rfl
  · rfl

/-- The levels of a roster are those of its catalog. -/
theorem level_eq_ok_iff {id : String} {level : Level} :
    roster.level id = .ok level ↔ roster.catalog.level? id = some level := by
  unfold Roster.level
  cases roster.catalog.level? id <;> simp

/-- A change that is refused leaves the roster as it is; any other puts the changed profile on it,
settled. -/
theorem change_cases {α : Type} (roster : Roster) (student : String)
    (f : Profile → Except ProgressError (α × Profile)) :
    (roster.change student f).2 = roster ∨
      ∃ a changed, f (roster.profileOf student) = .ok (a, changed) ∧
        (roster.change student f).2 = roster.put student (changed.settle roster.catalog) := by
  unfold change
  split
  · exact .inl rfl
  · rename_i a changed hok
    exact .inr ⟨a, changed, hok, rfl⟩

/-- A completion changes the roster only if the level is there and there are not too many stars. -/
theorem complete_cases (roster : Roster) (student level : String) (completion : Completion)
    (now : UInt64) :
    (roster.complete student level completion now).2 = roster ∨
      ∃ found, roster.catalog.level? level = some found ∧ completion.stars ≤ 3 ∧
        (roster.complete student level completion now).2 = roster.put student
          (((roster.profileOf student).complete level found completion now).2.settle
            roster.catalog) := by
  unfold complete
  split
  · exact .inl rfl
  · rename_i found hfound
    split
    · exact .inl rfl
    · rename_i hstars
      exact .inr ⟨found, level_eq_ok_iff.1 hfound, UInt8.not_lt.1 hstars, rfl⟩

/-- Every student of a roster has a profile that is kept, enrolled or not. -/
structure Kept (catalog : Catalog) (policy : Policy) (roster : Roster) : Prop where
  sameCatalog : roster.catalog = catalog
  samePolicy : roster.policy = policy
  profiles : ∀ student, (roster.profileOf student).Kept catalog student

variable {catalog : Catalog} {policy : Policy}

/-- The roster without students keeps profiles, if the standard loudness survives being written. -/
theorem kept_new (catalog : Catalog) (hvolume : policy.settings.volume.Survives) :
    (new catalog policy).Kept catalog policy where
  sameCatalog := rfl
  samePolicy := rfl
  profiles := fun student => Profile.kept_fresh catalog student policy.starterOutfit hvolume

/-- A roster keeps profiles when one that is kept is put on it. -/
theorem Kept.put (h : roster.Kept catalog policy) (hprofile : profile.Kept catalog student) :
    (roster.put student profile).Kept catalog policy := by
  refine ⟨h.sameCatalog, h.samePolicy, fun other => ?_⟩
  rw [profile_of_put]
  split
  · rename_i heq
    rwa [heq]
  · exact h.profiles other

/-- A change to one profile keeps all of them if it keeps that one but for what follows from its
records. -/
theorem Kept.change {α : Type} (h : roster.Kept catalog policy)
    {f : Profile → Except ProgressError (α × Profile)}
    (hf : ∀ {profile a changed}, profile.Kept catalog student → f profile = .ok (a, changed) →
      (changed.settle catalog).Kept catalog student) :
    (roster.change student f).2.Kept catalog policy := by
  rcases roster.change_cases student f with hsame | ⟨a, changed, hok, hput⟩
  · rwa [hsame]
  · rw [hput, h.sameCatalog]
    exact h.put (hf (h.profiles student) hok)

/-- A roster keeps profiles after a completion with a log of instructions that were read. -/
theorem Kept.complete (h : roster.Kept catalog policy) (level : String) {completion : Completion}
    (now : UInt64)
    (hreplay : ∀ step ∈ completion.replay, step.instruction.Everywhere Instruction.Foreign) :
    (roster.complete student level completion now).2.Kept catalog policy := by
  rcases roster.complete_cases student level completion now with hsame | ⟨found, _, _, hput⟩
  · rwa [hsame]
  · rw [hput, h.sameCatalog]
    exact h.put ((h.profiles student).complete level found now hreplay)

/-- A roster keeps profiles after an outfit is put on. -/
theorem Kept.equip (h : roster.Kept catalog policy) (outfit : String) :
    (roster.equip student outfit).2.Kept catalog policy :=
  h.change fun hprofile hok => hprofile.equip hok

/-- A roster keeps profiles after a loudness is set that survives being written. -/
theorem Kept.update (h : roster.Kept catalog policy) {patch : SettingsPatch}
    (hvolume : ∀ volume ∈ patch.volume, volume.clampToUnit.Survives) :
    (roster.updateSettings student patch).2.Kept catalog policy := by
  refine h.change fun hprofile hok => ?_
  cases hok
  exact hprofile.update hvolume

/-- A roster keeps profiles after a student starts afresh. -/
theorem Kept.reset (h : roster.Kept catalog policy) :
    (roster.reset student).2.Kept catalog policy := by
  refine h.change fun hprofile hok => ?_
  cases hok
  exact Profile.kept_settle rfl hprofile.volume fun _ hentry => absurd hentry List.not_mem_nil

end Roster

/-! ### Classrooms -/

namespace Classroom

variable {catalog : Catalog} {policy : Policy}

/-- A fair request keeps every profile. -/
theorem serve_kept {classroom : Classroom} (h : classroom.roster.Kept catalog policy)
    (student : String) {request : Request} (hfair : request.Fair) :
    (classroom.serve student request).roster.Kept catalog policy := by
  cases request with
  | run => exact h
  | complete level completion now =>
      obtain ⟨played, options, program, hparsed, hreplay⟩ := hfair
      refine h.complete level now fun step hstep => ?_
      exact simulate_logged hparsed.foreign played options step (hreplay ▸ hstep)
  | equip outfit => exact h.equip outfit
  | update patch => exact h.update fun v hv => Single.survives_clamp_to_unit (hfair v hv)
  | reset => exact h.reset

/-- Fair requests keep every profile, however many there are. -/
theorem serve_all_kept {classroom : Classroom} (h : classroom.roster.Kept catalog policy)
    {asked : List (String × Request)} (hfair : ∀ entry ∈ asked, entry.2.Fair) :
    (classroom.serveAll asked).roster.Kept catalog policy := by
  induction asked generalizing classroom with
  | nil => exact h
  | cons entry asked ih =>
      obtain ⟨hentry, hasked⟩ := List.forall_mem_cons.1 hfair
      exact ih (serve_kept h entry.1 hentry) hasked

end Classroom

end TileCourse
