import TileCourse.Command.Basic
import TileCourse.Proofs.Json.Singles
import TileCourse.Proofs.Progress.Wire
import TileCourse.Proofs.Storage.Calls
import TileCourse.Proofs.Storage.Path
import TileCourse.Storage.Shelf

/-!
# Shelves as repositories

A shelf keeps profiles as a repository in memory does, wherever files can be written and read again.
What it needs of a system of files is said by `FileSystem.IsMapIn`: in one folder it is a map from
names to texts. What it needs of ids is that none leads out of the folder and no two lead to one
file. `shelf_serves_like_memory` puts this together for calls one after another.

The folder that a classroom is given and the files of a command are such systems, with limits on
names and paths: `Folder.load_eq_shelf` and `Command.run_in_load` say that both keep profiles on
shelves.
-/

namespace TileCourse

open Repository (Call Reply Keeps Alike replies)

/-! ### Ids as names of files -/

namespace Folder

/-- An id that could lead out of a folder. -/
def IsStray (id : String) : Prop :=
  id = "" ∨ ['.', '.'] <:+: id.toList ∨ '/' ∈ id.toList ∨ '\\' ∈ id.toList

/-- The search for two dots finds them if they stand side by side. -/
theorem has_double_dot_iff {cs : List Char} : hasDoubleDot cs = true ↔ ['.', '.'] <:+: cs := by
  fun_induction hasDoubleDot cs with
  | case1 cs => simp [List.infix_cons_iff]
  | case2 c cs hfirst ih =>
      have hprefix : ¬ ['.', '.'] <+: c :: cs := by
        rintro ⟨rest, hrest⟩
        obtain ⟨rfl, rfl⟩ := List.cons.inj hrest
        exact hfirst rest rfl rfl
      rw [ih, List.infix_cons_iff, or_iff_right hprefix]
  | case3 => simp

/-- Exactly the ids that are not stray are safe. -/
theorem is_safe_id_iff {id : String} : isSafeId id = true ↔ ¬ IsStray id := by
  have hempty : id.toList.isEmpty = true ↔ id = "" := by
    rw [List.isEmpty_iff, String.toList_eq_nil_iff]
  have hslash (c : Char) : id.toList.contains c = true ↔ c ∈ id.toList := List.contains_iff_mem
  rw [isSafeId, IsStray, ← has_double_dot_iff, ← hempty, ← hslash, ← hslash]
  simp only [Bool.and_eq_true, Bool.not_eq_true', Bool.not_eq_true, not_or, and_assoc]

/-- The file of a student is named after the id, if that is not stray. -/
theorem file_name_eq {id : String} (h : ¬ IsStray id) : fileName id = .ok (id ++ ".json") :=
  if_pos (is_safe_id_iff.2 h)

/-- A stray id is refused as the name of a file. -/
theorem file_name_refused {id : String} (h : IsStray id) :
    fileName id = .error (.invalidId id) :=
  if_neg fun hsafe => is_safe_id_iff.1 hsafe h

/-- Where the file of an id is looked up, it is found in the folder itself. -/
theorem file_leads_on {id : String} (h : ¬ IsStray id) : Path.LeadsOn (id ++ ".json") := by
  have hlist : (id ++ ".json").toList = id.toList ++ ['.', 'j', 's', 'o', 'n'] := by
    simp [String.toList_append]
  have hlong (short : String) (hshort : short.toList.length < 5) : id ++ ".json" ≠ short := by
    rintro rfl
    rw [hlist, List.length_append] at hshort
    exact absurd hshort (by simp)
  refine ⟨?_, ⟨hlong "" (by decide), hlong "." (by decide)⟩, hlong ".." (by decide)⟩
  rw [hlist, List.mem_append, not_or]
  exact ⟨fun hslash => h (.inr (.inr (.inl hslash))), by decide⟩

end Folder

/-! ### Systems of files that are maps -/

namespace FileChange

variable {φ α β : Type} {files after : φ}

/-- A change at once happens as a whole or leaves the files as they were. -/
theorem at_once_eq (step : φ → Except FileError φ) (files : φ) :
    atOnce step files = match step files with
      | .ok after => .ok () after
      | .error error => .error error files := by
  rw [atOnce]
  show (MonadExcept.ofExcept (step files) >>= set : FileChange φ Unit) files = _
  cases step files <;> rfl

/-- A change at once that succeeds leads to the changed files. -/
theorem at_once_ok {step : φ → Except FileError φ} (h : step files = .ok after) :
    atOnce step files = .ok () after := by
  rw [at_once_eq, h]

/-- After a change that succeeds the next one goes on from its files. -/
theorem bind_ok {first : FileChange φ α} {next : α → FileChange φ β} {a : α}
    (h : first files = .ok a after) : (first >>= next) files = next a after := by
  show EStateM.bind first next files = _
  rw [EStateM.bind, h]

end FileChange

/-- In a folder, a system of files is a map from certain names to texts: the folder can be made, a
file can be written under such a name, its text is then read there, and nothing changes under the
other names. -/
def FileSystem.IsMapIn (φ : Type) [FileSystem φ] (base : String) (admits : String → Prop) : Prop :=
  ∀ (files : φ) (name text : String), admits name → ∃ made written,
    makeFolder base files = .ok () made ∧ write (Path.join base name) text made = .ok () written ∧
      ∀ other, admits other → read written (Path.join base other) =
        if other = name then .ok text else read files (Path.join base other)

/-- The map of all texts is a map in every folder. -/
theorem FileMap.is_map_in (base : String) : FileSystem.IsMapIn FileMap base fun _ => True := by
  intro files name text _
  refine ⟨files, ⟨files.texts.insert (Path.join base name) text⟩, rfl, rfl, ?_⟩
  intro other _
  show ((files.texts.insert _ text).get? (Path.join base other)).elim _ _ = _
  rw [Table.get?_insert]
  by_cases hsame : other = name
  · rw [if_pos (congrArg _ hsame), if_pos hsame]
    rfl
  · rw [if_neg (mt Path.join_inj.1 hsame), if_neg hsame]
    rfl

/-- A folder is a map from the names that files can have. -/
theorem Folder.is_map_in :
    FileSystem.IsMapIn Folder "" fun name => Folder.checkName name = .ok () := by
  intro folder name text hname
  refine ⟨folder, ⟨folder.files.insert name text⟩, rfl, ?_, ?_⟩
  · have hwrite : folder.write name text = .ok ⟨folder.files.insert name text⟩ := by
      rw [write, hname]
      rfl
    rw [Path.join_empty]
    show FileChange.atOnce (Folder.write · name text) folder = _
    rw [FileChange.at_once_ok hwrite]
  · intro other hother
    show Folder.read _ (Path.join "" other) = if _ then _ else folder.read (Path.join "" other)
    rw [Path.join_empty, read, read, hother]
    show ((folder.files.insert name text).get? other).elim _ _ = _
    rw [Table.get?_insert]
    split <;> rfl

/-! ### Shelves -/

namespace Shelf

variable {φ : Type} [FileSystem φ] {base : String}

/-- The path of a profile is that of its file in the folder, if the id is not stray. -/
theorem path_of_eq {id : String} (h : ¬ Folder.IsStray id) :
    pathOf base id = .ok (Path.join base (id ++ ".json")) := by
  rw [pathOf, Folder.file_name_eq h]
  rfl

/-- A stray id has no path. -/
theorem path_of_refused {id : String} (h : Folder.IsStray id) :
    pathOf base id = .error (.invalidId id) := by
  rw [pathOf, Folder.file_name_refused h]
  rfl

/-- Different ids have files at different paths. -/
theorem path_of_inj {id other path : String} (h : pathOf base id = .ok path)
    (hother : pathOf base other = .ok path) : id = other := by
  have hpath {id : String} (h : pathOf base id = .ok path) :
      path = Path.join base (id ++ ".json") := by
    by_cases hid : Folder.IsStray id
    · rw [path_of_refused hid] at h
      cases h
    · rw [path_of_eq hid] at h
      exact (Except.ok.inj h).symm
  have hnames := Path.join_inj.1 ((hpath h).symm.trans (hpath hother))
  exact (String.append_left_inj _).1 hnames

/-- A load reads the file of the student in the folder, if the id is not stray. -/
theorem load_eq (shelf : Shelf φ base) {id : String} (h : ¬ Folder.IsStray id) :
    shelf.load id =
      Folder.profileOf? (FileSystem.read shelf.files (Path.join base (id ++ ".json"))) := by
  rw [load, path_of_eq h]

/-- No profile is loaded under a stray id, whatever files there are. -/
theorem load_stray (shelf : Shelf φ base) {id : String} (h : Folder.IsStray id) :
    shelf.load id = .error (.invalidId id) := by
  rw [load, path_of_refused h]

/-- A profile with a stray id is refused before any file is touched. -/
theorem put_stray (shelf : Shelf φ base) {profile : Profile} (h : Folder.IsStray profile.id) :
    shelf.put profile = (.error (.invalidId profile.id), shelf) := by
  rw [put, path_of_refused h]

/-- A profile is written into its file, whatever is in it. -/
theorem exists_put {admits : String → Prop} (h : FileSystem.IsMapIn φ base admits)
    (shelf : Shelf φ base) {profile : Profile} (hid : ¬ Folder.IsStray profile.id)
    (hname : admits (profile.id ++ ".json")) :
    ∃ after, shelf.put profile = (.ok (), after) ∧
      ∀ id, ¬ Folder.IsStray id → admits (id ++ ".json") → after.load id =
        if id = profile.id then (Profile.ofText profile.toText).map some else shelf.load id := by
  obtain ⟨made, written, hmade, hwritten, hread⟩ :=
    h shelf.files (profile.id ++ ".json") profile.toText hname
  refine ⟨⟨written⟩, ?_, ?_⟩
  · rw [put, path_of_eq hid]
    simp only [FileSystem.writeInto, FileChange.bind_ok hmade, hwritten]
  · intro id hother hothername
    -- What a system of files says about names is true of ids, as each id has a name of its own.
    rw [load_eq _ hother, load_eq _ hother, hread _ hothername]
    by_cases hsame : id = profile.id
    · rw [if_pos (congrArg (· ++ ".json") hsame), if_pos hsame]
      rfl
    · rw [if_neg (mt (String.append_left_inj _).1 hsame), if_neg hsame]

/-- A shelf keeps profiles if its system of files keeps texts. -/
theorem keeps {admits : String → Prop} (h : FileSystem.IsMapIn φ base admits) :
    Keeps (Shelf φ base) fun id => ¬ Folder.IsStray id ∧ admits (id ++ ".json") := by
  intro shelf profile hid htext
  obtain ⟨after, hput, hloads⟩ := exists_put h shelf hid.1 hid.2
  refine ⟨after, ?_, ?_⟩
  · show shelf.save profile = .ok after
    rw [save, hput]
    rfl
  · intro id hother
    rw [htext] at hloads
    exact hloads id hother.1 hother.2

/-- Whatever comes of writing one profile, what is loaded under another id stays the same. -/
theorem load_after_put (shelf : Shelf FileMap base) {profile : Profile} {id : String}
    (h : id ≠ profile.id) : (shelf.put profile).2.load id = shelf.load id := by
  by_cases hprofile : Folder.IsStray profile.id
  · rw [put_stray shelf hprofile]
  · obtain ⟨after, hput, hloads⟩ := exists_put (FileMap.is_map_in base) shelf hprofile trivial
    rw [hput]
    by_cases hid : Folder.IsStray id
    · rw [load_stray _ hid, load_stray _ hid]
    · rw [hloads id hid trivial, if_neg h]

/-- Where no file lies in its folder, a shelf loads nothing. -/
theorem alike_empty {shelf : Shelf FileMap base}
    (h : ∀ name, '/' ∉ name.toList → shelf.files.texts.get? (Path.join base name) = none) :
    Alike (¬ Folder.IsStray ·) shelf Memory.empty := by
  intro id hid
  show shelf.load id = .ok none
  rw [load_eq shelf hid]
  show Folder.profileOf? ((shelf.files.texts.get? _).elim _ _) = _
  rw [h _ (Folder.file_leads_on hid).whole]
  rfl

end Shelf

/-! ### Folders and files that are used -/

/-- A folder is a shelf on itself. -/
theorem Folder.load_eq_shelf (folder : Folder) (id : String) :
    folder.load id = (⟨folder⟩ : Shelf Folder "").load id := by
  rw [load, Shelf.load, Shelf.pathOf]
  cases fileName id with
  | error error => rfl
  | ok name =>
      show _ = profileOf? (folder.read (Path.join "" name))
      rw [Path.join_empty]

/-- A folder saves profiles as a shelf of its files does. -/
theorem Folder.save_eq_shelf (folder : Folder) (profile : Profile) :
    folder.save profile = ((⟨folder⟩ : Shelf Folder "").save profile).map Shelf.files := by
  rw [save, Shelf.save, Shelf.put, Shelf.pathOf]
  cases fileName profile.id with
  | error error => rfl
  | ok name =>
      have hchange : FileSystem.writeInto "" (Path.join "" name) profile.toText folder =
          FileChange.atOnce (Folder.write · name profile.toText) folder := by
        rw [Path.join_empty]
        rfl
      simp only [Except.map, hchange, FileChange.at_once_eq]
      cases folder.write name profile.toText <;> rfl

/-- A folder keeps the profiles for which there can be files. -/
theorem Folder.keeps : Keeps Folder fun id =>
    ¬ IsStray id ∧ checkName (id ++ ".json") = .ok () := by
  intro folder profile hid htext
  obtain ⟨saved, hsaved, hloads⟩ :=
    Shelf.keeps is_map_in (⟨folder⟩ : Shelf Folder "") profile hid htext
  have hsave : folder.save profile = .ok saved.files := by
    have hsaved : (⟨folder⟩ : Shelf Folder "").save profile = .ok saved := hsaved
    rw [save_eq_shelf, hsaved]
    rfl
  refine ⟨saved.files, hsave, ?_⟩
  intro id hother
  show saved.files.load id = if _ then _ else folder.load id
  rw [load_eq_shelf, load_eq_shelf]
  exact hloads id hother

/-- An empty folder holds what an empty memory holds, under ids that can be names of files. -/
theorem Folder.alike_empty :
    Alike (fun id => ¬ IsStray id ∧ checkName (id ++ ".json") = .ok ()) empty Memory.empty := by
  intro id hid
  show empty.load id = .ok none
  rw [load, file_name_eq hid.1]
  show profileOf? (empty.read (id ++ ".json")) = _
  rw [read, hid.2]
  rfl

namespace Command

variable (classroom : Classroom) (base student : String) (now : UInt64) (tree : FileTree)

/-- A command loads the profile of a student from the shelf at the path that it is given. -/
theorem run_in_load (next : Classroom → Script) :
    (load classroom (some base) student next).runIn now tree =
      match classroom.hydrate (⟨tree⟩ : Shelf FileTree base) student with
      | (.ok _, classroom) => (next classroom).runIn now tree
      | (.error error, _) => (fail error.message).runIn now tree := by
  have hgo (loaded : Except RepositoryError (Option Profile)) :
      Script.runIn now tree (match classroom.receive student loaded with
        | (.ok _, classroom) => next classroom
        | (.error error, _) => fail error.message) =
      match classroom.receive student loaded with
      | (.ok _, classroom) => (next classroom).runIn now tree
      | (.error error, _) => (fail error.message).runIn now tree := by
    split <;> rfl
  rw [Classroom.hydrate]
  show _ = match classroom.receive student ((⟨tree⟩ : Shelf FileTree base).load student) with
    | (.ok _, classroom) => (next classroom).runIn now tree
    | (.error error, _) => (fail error.message).runIn now tree
  rw [load, Shelf.load, Shelf.pathOf]
  cases Folder.fileName student with
  | error error => exact hgo (.error error)
  | ok name => exact hgo (Folder.profileOf? (tree.read (Path.join base name)))

/-- A command saves the profile of a student on the shelf at the path that it is given, and then
ends. -/
theorem run_in_store :
    (store classroom (some base) student).runIn now tree =
      match (⟨tree⟩ : Shelf FileTree base).put (classroom.profile student).1 with
      | (.ok (), shelf) => ⟨0, "", "", shelf.files⟩
      | (.error error, shelf) =>
          (fail (ClassroomError.repository error).message).runIn now shelf.files := by
  rw [store, Shelf.put, Shelf.pathOf]
  cases Folder.fileName (classroom.profile student).1.id with
  | error error => rfl
  | ok name =>
      generalize (classroom.profile student).1.toText = text
      simp only [Except.map, Script.runIn, FileTree.write]
      cases FileSystem.writeInto base (Path.join base name) text tree <;> rfl

end Command

/-! ### Calls one after another -/

/-- A shelf serves like a repository in memory. Each id that cannot lead out of the folder has a
file of its own, and that file lies in the folder itself; a call about any other id is refused
before a file is touched. If the files are a map from paths to texts and none lies in the folder at
first, all calls about ids that are not refused are answered as in memory, as long as each profile
that is saved can be read from its own text. So saving one profile changes nothing for the others.
A folder whose files have names of limited size does the same for the names that it can hold. -/
theorem shelf_serves_like_memory (base : String) :
    (∀ id, ¬ Folder.IsStray id → ∃ path, Shelf.pathOf base id = .ok path ∧
      Path.steps path = Path.steps base ++ [id ++ ".json"] ∧
      Path.fromRoot path = Path.fromRoot base ∧
      ∀ (tree : FileTree) (place found : List String), tree.find base = .ok place →
        tree.find path = .ok found → found = place ++ [id ++ ".json"]) ∧
    (∀ id other path, Shelf.pathOf base id = .ok path → Shelf.pathOf base other = .ok path →
      id = other) ∧
    (∀ (φ : Type) [FileSystem φ] (shelf : Shelf φ base),
      (∀ id, Folder.IsStray id → shelf.load id = .error (.invalidId id)) ∧
      ∀ profile : Profile, Folder.IsStray profile.id →
        shelf.put profile = (.error (.invalidId profile.id), shelf)) ∧
    (∀ (shelf : Shelf FileMap base) (calls : List Call),
      (∀ name, '/' ∉ name.toList → shelf.files.texts.get? (Path.join base name) = none) →
      (∀ call ∈ calls, call.Admitted (¬ Folder.IsStray ·)) →
      replies shelf calls = replies Memory.empty calls ∧
        ∀ error, .refused error ∉ replies shelf calls) ∧
    (∀ (shelf : Shelf FileMap base) (profile : Profile) (id : String), id ≠ profile.id →
      (shelf.put profile).2.load id = shelf.load id) ∧
    (∀ calls : List Call,
      (∀ call ∈ calls, call.Admitted fun id =>
        ¬ Folder.IsStray id ∧ Folder.checkName (id ++ ".json") = .ok ()) →
      replies Folder.empty calls = replies Memory.empty calls) := by
  have hmemory := Repository.memory_keeps
  refine ⟨?_, fun _ _ _ => Shelf.path_of_inj,
    fun _ _ shelf => ⟨fun _ => shelf.load_stray, fun _ => shelf.put_stray⟩, ?_,
    fun shelf _ _ => shelf.load_after_put, ?_⟩
  · intro id hid
    have hname := Folder.file_leads_on hid
    exact ⟨_, Shelf.path_of_eq hid, Path.steps_join base hname, Path.from_root_join hname,
      fun _ _ _ => FileTree.find_join hname⟩
  · intro shelf calls hempty hcalls
    have hkeeps : Keeps (Shelf FileMap base) (¬ Folder.IsStray ·) :=
      (Shelf.keeps (FileMap.is_map_in base)).mono fun _ hid => ⟨hid, trivial⟩
    have hreplies : replies shelf calls = replies Memory.empty calls :=
      Repository.replies_eq (Shelf.alike_empty hempty) hkeeps (hmemory.mono fun _ _ => trivial)
        hcalls
    exact ⟨hreplies, fun error => hreplies ▸ Repository.memory_never_refuses _ calls error⟩
  · intro calls hcalls
    exact Repository.replies_eq Folder.alike_empty Folder.keeps (hmemory.mono fun _ _ => trivial)
      hcalls

/-- A folder with the profiles of two students, and another file with the name of one of them. -/
def shelvedTree : FileTree where
  entries := .ofList [("home", .folder), ("home/profiles", .folder),
    ("home/profiles/a.da.json", .file ""), ("home/profiles/ada.json", .file ""),
    ("home/ada.json", .file "")]
  work := ["home"]

/-- Two students, the id of one of whom has a dot in it, have their profiles side by side on one
shelf, and nobody gets to a file beside the shelf. -/
theorem shelf_serves_ada :
    let ada : Profile := .fresh "ada" "starter-cape" .standard
    let dot : Profile := .fresh "a.da" "starter-cape" .standard
    let shelf : Shelf FileMap "profiles" := ⟨⟨Table.empty.insert "ada.json" "draft"⟩⟩
    let calls : List Call := [.load "ada", .save ada, .save dot, .load "ada", .load "a.da"]
    let kept : List Reply :=
      [.loaded none, .saved, .saved, .loaded (some ada), .loaded (some dot)]
    (¬ Folder.IsStray "ada" ∧ ¬ Folder.IsStray "a.da" ∧ Folder.IsStray "../ada") ∧
    (shelvedTree.find "profiles" = .ok ["home", "profiles"] ∧
      shelvedTree.find "profiles/a.da.json" = .ok ["home", "profiles", "a.da.json"]) ∧
    Shelf.pathOf "profiles" "ada" ≠ Shelf.pathOf "profiles" "a.da" ∧
    shelf.load "../ada" = .error (.invalidId "../ada") ∧
    shelf.put { ada with id := "../ada" } = (.error (.invalidId "../ada"), shelf) ∧
    (∀ name, '/' ∉ name.toList → shelf.files.texts.get? (Path.join "profiles" name) = none) ∧
    (∀ call ∈ calls, call.Admitted (¬ Folder.IsStray ·)) ∧
    replies shelf calls = kept ∧
    (shelf.put dot).2.load "ada" = .ok none ∧
    replies Folder.empty calls = kept := by
  intro ada dot shelf calls kept
  have hada : ¬ Folder.IsStray "ada" := Folder.is_safe_id_iff.1 (by decide)
  have hdot : ¬ Folder.IsStray "a.da" := Folder.is_safe_id_iff.1 (by decide)
  have hstray : Folder.IsStray "../ada" := .inr (.inr (.inl (by decide)))
  have hempty : ∀ name, '/' ∉ name.toList →
      shelf.files.texts.get? (Path.join "profiles" name) = none := by
    intro name _
    have hother : Path.join "profiles" name ≠ "ada.json" := by
      intro h
      have hhead := congrArg (fun path : String => path.toList.head?) h
      simp [Path.join] at hhead
    rw [Table.get?_insert, if_neg hother]
    rfl
  have hvolume : Settings.standard.volume.Survives :=
    Single.survives_below_one rfl (by decide) (by decide)
  have hfresh (id : String) : Profile.ofText (Profile.fresh id "starter-cape" .standard).toText =
      .ok (.fresh id "starter-cape" .standard) :=
    (Profile.of_text_to_text_iff _ hvolume).2 fun _ hentry => absurd hentry List.not_mem_nil
  have hcalls {admits : String → Prop} (hfirst : admits "ada") (hsecond : admits "a.da") :
      ∀ call ∈ calls, call.Admitted admits := by
    have hload {id : String} (hid : admits id) : (Call.load id).Admitted admits :=
      ⟨hid, fun _ hsave => absurd hsave (by simp)⟩
    have hsave {id : String} (hid : admits id) :
        (Call.save (.fresh id "starter-cape" .standard)).Admitted admits :=
      ⟨hid, fun _ hsave => Call.save.inj hsave ▸ hfresh id⟩
    simp only [calls, List.forall_mem_cons]
    exact ⟨hload hfirst, hsave hfirst, hsave hsecond, hload hfirst, hload hsecond,
      fun _ hcall => absurd hcall List.not_mem_nil⟩
  obtain ⟨hfiles, hpaths, hrefused, hserves, hothers, hfolder⟩ :=
    shelf_serves_like_memory "profiles"
  have hbase : shelvedTree.find "profiles" = .ok ["home", "profiles"] := by decide
  have hfound : shelvedTree.find "profiles/a.da.json" =
      .ok ["home", "profiles", "a.da.json"] := by decide
  refine ⟨⟨hada, hdot, hstray⟩, ⟨hbase, hfound⟩, ?_, (hrefused _ shelf).1 "../ada" hstray,
    (hrefused _ shelf).2 { ada with id := "../ada" } hstray, hempty, hcalls hada hdot, ?_, ?_, ?_⟩
  · intro hsame
    obtain ⟨path, hpath, -⟩ := hfiles "ada" hada
    exact absurd (hpaths "ada" "a.da" path hpath (hsame ▸ hpath)) (by decide)
  · exact (hserves shelf calls hempty (hcalls hada hdot)).1.trans (by decide)
  · rw [hothers shelf dot "ada" (by decide)]
    rfl
  · exact (hfolder calls (hcalls ⟨hada, rfl⟩ ⟨hdot, rfl⟩)).trans (by decide)

end TileCourse
