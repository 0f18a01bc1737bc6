import TileCourse.Proofs.Outcome
import TileCourse.Storage.FileTree

/-!
# Files in a folder

The path of a name in a folder leads where the path of the folder leads, and from there one step on.
`Path.steps_join` says so of paths as texts, and `FileTree.find_join` of the places in a tree of
files.
-/

namespace TileCourse

namespace Path

/-- A name that leads on: no slash cuts it in pieces, and it neither stays nor leads back. -/
structure LeadsOn (name : String) : Prop where
  whole : '/' ∉ name.toList
  stays : name ≠ "" ∧ name ≠ "."
  back : name ≠ ".."

variable {base name : String}

/-- A name by itself is a path from nowhere. -/
@[simp] theorem join_empty (name : String) : join "" name = name := by simp [join]

/-- A name after a slash is the last name of a path. -/
theorem names_append_slash (folder : String) (hname : '/' ∉ name.toList) :
    names (folder ++ "/" ++ name) = names folder ++ [name] := by
  have hlist : (folder ++ "/" ++ name).toList = folder.toList ++ '/' :: name.toList := by
    simp [String.toList_append]
  rw [names, hlist, List.splitOn_append_cons_self, List.splitOn_eq_singleton hname]
  simp [names]

/-- The path of a name in a folder has the names of the folder and that name, and does not have the
empty name that a slash at the end of a path leaves. -/
theorem names_join (hbase : base ≠ "") (hname : '/' ∉ name.toList) :
    ∃ above, names (join base name) = above ++ [name] ∧
      (names base = above ∨ names base = above ++ [""]) := by
  -- Only where the folder ends with a slash is no other put before the name; cutting the folder at
  -- that slash gives the empty name.
  by_cases hslash : base.toList.getLast? = some '/'
  · obtain ⟨cs, hcs⟩ := List.getLast?_eq_some_iff.1 hslash
    have hcut : base = String.ofList cs ++ "/" ++ "" := by
      apply String.toList_inj.1
      simpa using hcs
    have hjoin : join base name = String.ofList cs ++ "/" ++ name := by
      rw [join, if_pos (.inr hslash), hcut, String.append_empty]
    refine ⟨names (String.ofList cs), ?_, .inr ?_⟩
    · rw [hjoin, names_append_slash _ hname]
    · rw [hcut, names_append_slash _ (by simp)]
  · have hjoin : join base name = base ++ "/" ++ name := by
      rw [join, if_neg (not_or.2 ⟨hbase, hslash⟩)]
    exact ⟨names base, by rw [hjoin, names_append_slash _ hname], .inl rfl⟩

/-- The path of a name in a folder starts where the path of the folder starts. -/
theorem from_root_join (hname : LeadsOn name) : fromRoot (join base name) = fromRoot base := by
  by_cases hbase : base = ""
  · have hhead : name.toList.head? ≠ some '/' := fun hhead =>
      hname.whole (List.mem_of_head? hhead)
    simp [join, fromRoot, hbase, hhead]
  · obtain ⟨c, cs, hcs⟩ := List.exists_cons_of_ne_nil (mt String.toList_eq_nil_iff.1 hbase)
    rw [join]
    split <;> simp [fromRoot, hcs]

/-- The path of a name in a folder leads one step on from where the path of the folder leads. -/
theorem steps_join (base : String) (hname : LeadsOn name) :
    steps (join base name) = steps base ++ [name] := by
  have hstep : ([name].filter fun name => name != "" && name != ".") = [name] := by
    simp [hname.stays]
  by_cases hbase : base = ""
  · have hnames : names name = [name] := by
      rw [names, List.splitOn_eq_singleton hname.whole]
      simp
    rw [hbase, join_empty, steps, hnames, hstep]
    rfl
  · obtain ⟨above, hjoin, hnames⟩ := names_join hbase hname.whole
    rw [steps, hjoin, List.filter_append, hstep, steps]
    rcases hnames with hnames | hnames <;> simp [hnames]

/-- Different names have different paths in a folder. -/
theorem join_inj {other : String} : join base name = join base other ↔ name = other := by
  constructor
  · intro h
    rw [join, join] at h
    split at h
    · exact (String.append_right_inj _).1 h
    · exact (String.append_right_inj _).1 h
  · exact congrArg _

end Path

namespace FileTree

variable {tree : FileTree} {here there place found : List String} {base name : String}

/-- A way in two parts leads where the second part leads from the end of the first. -/
theorem walk_append (here xs ys : List String) :
    tree.walk here (xs ++ ys) = tree.walk here xs >>= fun there => tree.walk there ys := by
  induction xs generalizing here with
  | nil => rfl
  | cons x xs ih =>
      rw [List.cons_append, walk, walk]
      cases tree.look here x with
      | error error => rfl
      | ok step =>
          obtain ⟨there, _ | entry⟩ := step
          · rfl
          · exact ih there

/-- A name that leads on leads from a place to the place below it. -/
theorem walk_leads_on (hname : Path.LeadsOn name) (h : tree.walk here [name] = .ok there) :
    there = here ++ [name] := by
  obtain ⟨⟨next, entry⟩, hlook, hnext⟩ := bind_eq_ok_iff.1 h
  have hplace : next = here ++ [name] := by
    rw [look, if_neg (not_or.2 hname.stays), if_neg hname.back] at hlook
    split at hlook
    · cases hlook
    · cases hlook
    · split at hlook
      · cases hlook
      · exact (congrArg Prod.fst (Except.ok.inj hlook)).symm
  cases entry with
  | none => cases hnext
  | some entry => exact (Except.ok.inj hnext).symm.trans hplace

/-- An empty name stays where one is. -/
theorem walk_empty (h : tree.walk here [""] = .ok there) : there = here := by
  obtain ⟨⟨next, entry⟩, hlook, hnext⟩ := bind_eq_ok_iff.1 h
  rw [look, if_pos (.inl rfl)] at hlook
  split at hlook
  · cases hlook
  · cases hlook
  · cases hlook
    exact (Except.ok.inj hnext).symm

/-- What is found at the path of a name in a folder lies in that folder under that name. -/
theorem find_join (hname : Path.LeadsOn name) (hplace : tree.find base = .ok place)
    (hfound : tree.find (Path.join base name) = .ok found) : found = place ++ [name] := by
  obtain ⟨_, hcheck, hplace⟩ := bind_eq_ok_iff.1 hplace
  obtain ⟨_, _, hfound⟩ := bind_eq_ok_iff.1 hfound
  have hbase : base ≠ "" := by
    rintro rfl
    simp [Path.check] at hcheck
  obtain ⟨above, hjoin, hnames⟩ := Path.names_join hbase hname.whole
  rw [hjoin, walk_append, origin, Path.from_root_join hname, ← origin] at hfound
  obtain ⟨there, habove, hlast⟩ := bind_eq_ok_iff.1 hfound
  have hthere : place = there := by
    rcases hnames with hnames | hnames
    · rw [hnames, habove] at hplace
      exact (Except.ok.inj hplace).symm
    · rw [hnames, walk_append, habove] at hplace
      exact walk_empty hplace
  rw [hthere]
  exact walk_leads_on hname hlast

end FileTree

end TileCourse
