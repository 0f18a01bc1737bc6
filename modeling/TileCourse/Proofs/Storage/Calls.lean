import TileCourse.Storage.Memory

/-!
# Repositories asked one call after another

What a repository is asked and what it replies, one call after another. A repository that keeps
profiles gives back what was saved last under an id, whatever is saved under other ids in between:
`Keeps` says what one call to save does, and `replies_eq` that two repositories which both keep
profiles give the same replies to all calls.
-/

namespace TileCourse.Repository

/-- What a repository can be asked. -/
inductive Call where
  | load (id : String)
  | save (profile : Profile)

/-- The id that a call is about. -/
def Call.id : Call → String
  | load id => id
  | save profile => profile.id

/-- What a repository replies. -/
inductive Reply where
  | loaded (found : Option Profile)
  | saved
  | refused (error : RepositoryError)
  deriving DecidableEq

section Replies

variable {ρ : Type} [Repository ρ]

/-- The reply to a call, and the repository with which one goes on. After a call that is refused it
is the one that was there before. -/
def reply (repository : ρ) : Call → Reply × ρ
  | .load id =>
    match Repository.load repository id with
    | .ok found => (.loaded found, repository)
    | .error error => (.refused error, repository)
  | .save profile =>
    match Repository.save repository profile with
    | .ok repository => (.saved, repository)
    | .error error => (.refused error, repository)

/-- The replies to some calls, one after another. -/
def replies (repository : ρ) : List Call → List Reply
  | [] => []
  | call :: calls => (reply repository call).1 :: replies (reply repository call).2 calls

/-- A load that succeeds replies what it finds. -/
theorem reply_load {repository : ρ} {id : String} {found : Option Profile}
    (h : Repository.load repository id = .ok found) :
    reply repository (.load id) = (.loaded found, repository) := by
  rw [reply, h]

/-- A load that is refused changes nothing. -/
theorem reply_load_refused {repository : ρ} {id : String} {error : RepositoryError}
    (h : Repository.load repository id = .error error) :
    reply repository (.load id) = (.refused error, repository) := by
  rw [reply, h]

/-- A save that succeeds leads to the repository with the profile. -/
theorem reply_save {repository saved : ρ} {profile : Profile}
    (h : Repository.save repository profile = .ok saved) :
    reply repository (.save profile) = (.saved, saved) := by
  rw [reply, h]

end Replies

/-- Where calls are admitted: loads of certain ids, and saves under these ids of profiles that can
be read from their own texts. -/
def Call.Admitted (admits : String → Prop) (call : Call) : Prop :=
  admits call.id ∧ ∀ profile, call = .save profile → Profile.ofText profile.toText = .ok profile

/-- Repositories of a kind keep the profiles under certain ids: a profile that can be read from its
own text is saved, it is what is then loaded under its id, and nothing changes under the others. -/
def Keeps (ρ : Type) [Repository ρ] (admits : String → Prop) : Prop :=
  ∀ (repository : ρ) (profile : Profile), admits profile.id →
    Profile.ofText profile.toText = .ok profile →
    ∃ saved, save repository profile = .ok saved ∧ ∀ id, admits id →
      load saved id = if id = profile.id then .ok (some profile) else load repository id

variable {ρ σ : Type} [Repository ρ] [Repository σ] {admits : String → Prop}

/-- Repositories that keep profiles under some ids keep them under fewer. -/
theorem Keeps.mono {fewer : String → Prop} (h : Keeps ρ admits)
    (hfewer : ∀ id, fewer id → admits id) : Keeps ρ fewer := by
  intro repository profile hid htext
  obtain ⟨saved, hsaved, hloads⟩ := h repository profile (hfewer _ hid) htext
  exact ⟨saved, hsaved, fun id hid => hloads id (hfewer id hid)⟩

/-- Two repositories load the same under certain ids. -/
def Alike (admits : String → Prop) (first : ρ) (second : σ) : Prop :=
  ∀ id, admits id → load first id = load second id

/-- Alike repositories that keep profiles give the same reply to a call, and remain alike. -/
theorem Alike.reply {first : ρ} {second : σ} (h : Alike admits first second)
    (hfirst : Keeps ρ admits) (hsecond : Keeps σ admits) {call : Call}
    (hcall : call.Admitted admits) :
    (Repository.reply first call).1 = (Repository.reply second call).1 ∧
      Alike admits (Repository.reply first call).2 (Repository.reply second call).2 := by
  obtain ⟨hid, htext⟩ := hcall
  cases call with
  | load id =>
      have hload : load first id = load second id := h id hid
      cases hsecond : load second id with
      | ok found =>
          rw [reply_load (hload.trans hsecond), reply_load hsecond]
          exact ⟨rfl, h⟩
      | error error =>
          rw [reply_load_refused (hload.trans hsecond), reply_load_refused hsecond]
          exact ⟨rfl, h⟩
  | save profile =>
      obtain ⟨saved, hsaved, hloads⟩ := hfirst first profile hid (htext profile rfl)
      obtain ⟨other, hother, hotherLoads⟩ := hsecond second profile hid (htext profile rfl)
      rw [reply_save hsaved, reply_save hother]
      refine ⟨rfl, ?_⟩
      intro id hid
      rw [hloads id hid, hotherLoads id hid, h id hid]

/-- Alike repositories that keep profiles give the same replies to calls one after another. -/
theorem replies_eq {first : ρ} {second : σ} (h : Alike admits first second)
    (hfirst : Keeps ρ admits) (hsecond : Keeps σ admits) {calls : List Call}
    (hcalls : ∀ call ∈ calls, call.Admitted admits) :
    replies first calls = replies second calls := by
  -- The repositories change with each call that saves; that they are alike is what remains.
  induction calls generalizing first second with
  | nil => rfl
  | cons call calls ih =>
      obtain ⟨hcall, hrest⟩ := List.forall_mem_cons.1 hcalls
      obtain ⟨hreply, hafter⟩ := h.reply hfirst hsecond hcall
      rw [replies, replies, hreply, ih hafter hrest]

/-! ### Memory -/

/-- A repository in memory keeps profiles under all ids. -/
theorem memory_keeps : Keeps Memory fun _ => True := by
  intro memory profile _ _
  refine ⟨⟨memory.profiles.insert profile.id profile⟩, rfl, ?_⟩
  intro id _
  show Except.ok ((memory.profiles.insert profile.id profile).get? id) = _
  rw [Table.get?_insert]
  split <;> rfl

/-- A repository in memory refuses nothing. -/
theorem memory_never_refuses (memory : Memory) (calls : List Call) (error : RepositoryError) :
    Reply.refused error ∉ replies memory calls := by
  induction calls generalizing memory with
  | nil => exact List.not_mem_nil
  | cons call calls ih =>
      intro h
      rcases List.mem_cons.1 h with h | h
      · cases call <;> cases h
      · exact ih _ h

end TileCourse.Repository
