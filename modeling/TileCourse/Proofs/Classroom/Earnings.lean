import TileCourse.Classroom.Roster
import TileCourse.Proofs.Progress.Totals

/-!
# What students have earned

Stars, statuses, badges and outfits are kept by different rules: a record takes the best of all
completions, outfits are gathered one by one, and everything else is made anew from the records.
`Profile.Improves` is what all of them rest on. It goes from one profile to the next along
`Profile.Advances`, and what is shown then follows it: `Profile.Improves.retains`.
-/

namespace TileCourse

/-! ### Records -/

/-- A sum of hints is no smaller than what it starts with. -/
theorem add_hints_ge (a b : UInt32) : a ≤ addHints a b := by
  have ha := a.toNat_lt
  have hfits : min (a.toNat + b.toNat) (1 <<< 32 - 1) < 2 ^ 32 := by omega
  rw [UInt32.le_iff_toNat_le, addHints, UInt32.toNat_ofNat_of_lt' hfits]
  omega

/-- A sum of seconds is no smaller than what it starts with. -/
theorem add_seconds_ge (a b : UInt64) : a ≤ addSeconds a b := by
  have ha := a.toNat_lt
  have hfits : min (a.toNat + b.toNat) (1 <<< 64 - 1) < 2 ^ 64 := by omega
  rw [UInt64.le_iff_toNat_le, addSeconds, UInt64.toNat_ofNat_of_lt' hfits]
  omega

namespace LevelRecord

/-- A record is no worse than one that was there before it. -/
structure Retains (after before : LevelRecord) : Prop where
  stars : before.stars ≤ after.stars
  hints : before.hints ≤ after.hints
  seconds : before.seconds ≤ after.seconds
  steps : 0 < before.stars → after.steps ≤ before.steps

/-- A record is no worse than itself. -/
theorem Retains.refl (record : LevelRecord) : record.Retains record :=
  ⟨UInt8.le_refl _, UInt32.le_refl _, UInt64.le_refl _, fun _ => UInt32.le_refl _⟩

/-- A record is no worse than any that the one before it is no worse than. -/
theorem Retains.trans {before middle after : LevelRecord} (hlast : after.Retains middle)
    (hfirst : middle.Retains before) : after.Retains before where
  stars := UInt8.le_trans hfirst.stars hlast.stars
  hints := UInt32.le_trans hfirst.hints hlast.hints
  seconds := UInt64.le_trans hfirst.seconds hlast.seconds
  steps hstars := UInt32.le_trans (hlast.steps (UInt8.lt_of_lt_of_le hstars hfirst.stars))
    (hfirst.steps hstars)

end LevelRecord

namespace Completion

variable (completion : Completion) (level : Level) (now : UInt64) (record : LevelRecord)

/-- A completion raises the stars of a record to its own, or leaves them. -/
theorem update_record_stars : (completion.updateRecord level now record).stars =
    if record.stars ≤ completion.stars then completion.stars else record.stars := rfl

/-- A run that takes the place of the best one has fewer steps, if that one had a star. -/
theorem update_record_steps (h : 0 < record.stars) :
    (completion.updateRecord level now record).steps ≤ record.steps := by
  show (if completion.improves record then completion.steps else record.steps) ≤ record.steps
  split
  · rename_i himproves
    have hzero : record.stars ≠ 0 := (UInt8.ne_of_lt h).symm
    obtain ⟨_, hfewer⟩ : 0 < completion.stars ∧ completion.steps < record.steps := by
      simpa [improves, hzero] using himproves
    exact UInt32.le_of_lt hfewer
  · exact UInt32.le_refl _

/-- One more completion makes no record worse. -/
theorem update_record_retains : (completion.updateRecord level now record).Retains record where
  stars := by
    rw [update_record_stars]
    split
    · assumption
    · exact UInt8.le_refl _
  hints := add_hints_ge _ _
  seconds := add_seconds_ge _ _
  steps := completion.update_record_steps level now record

/-- A completion has at most three stars, so it does not go beyond a record that has three. -/
theorem update_record_perfect (hstars : completion.stars ≤ 3) (h : record.stars = 3) :
    (completion.updateRecord level now record).stars = 3 := by
  rw [update_record_stars, h]
  split
  · exact UInt8.le_antisymm hstars ‹_›
  · rfl

end Completion

/-! ### Statuses -/

/-- How far a status is. -/
def LevelStatus.rank : LevelStatus → Nat
  | .locked => 0
  | .unlocked => 1
  | .completed => 2

namespace Profile

/-- A level has a star exactly if its record has one. -/
theorem stars_for_pos_iff {profile : Profile} {id : String} :
    0 < profile.starsFor id ↔ ∃ record ∈ profile.progress.get? id, 0 < record.stars := by
  rw [starsFor]
  cases profile.progress.get? id with
  | none => simp
  | some record => simp

/-- A star completes a level, whether the level is open or not. -/
theorem status_completed_iff {profile : Profile} {catalog : Catalog} {unlockAll : Bool}
    {id : String} :
    profile.status catalog unlockAll id = .completed ↔ 0 < profile.starsFor id := by
  have hcleared : profile.hasCleared id = true ↔ 0 < profile.starsFor id := decide_eq_true_iff
  rw [status, ← hcleared]
  split_ifs <;> simp [*]

/-- A level that opens when another has a star does so for good. -/
theorem is_unlocked_mono {before after : Profile} {catalog : Catalog} {level : String}
    (hcleared : ∀ level, before.hasCleared level = true → after.hasCleared level = true)
    (h : before.isUnlocked catalog level = true) : after.isUnlocked catalog level = true := by
  unfold isUnlocked at h ⊢
  split
  · rename_i previous hprevious
    rw [hprevious] at h
    exact hcleared previous h
  · rename_i hnone
    rwa [hnone] at h

/-- A level is no further from being completed once more levels are cleared. -/
theorem status_rank_mono {before after : Profile} {catalog : Catalog}
    (hcleared : ∀ level, before.hasCleared level = true → after.hasCleared level = true)
    (unlockAll : Bool) (level : String) :
    (before.status catalog unlockAll level).rank ≤ (after.status catalog unlockAll level).rank := by
  unfold status
  by_cases hafter : after.hasCleared level = true
  · -- completed is as far as a level can be
    rw [if_pos hafter]
    split_ifs <;> decide
  · rw [if_neg (fun hbefore => hafter (hcleared level hbefore)), if_neg hafter]
    by_cases hopen : (unlockAll || before.isUnlocked catalog level) = true
    · have hstill : (unlockAll || after.isUnlocked catalog level) = true := by
        rw [Bool.or_eq_true] at hopen ⊢
        exact hopen.imp_right (is_unlocked_mono hcleared)
      rw [if_pos hopen, if_pos hstill]
    · rw [if_neg hopen]
      exact Nat.zero_le _

/-! ### Better profiles -/

/-- A reward takes no outfit away. -/
theorem reward_unlocked {profile : Profile} {outfit : String} (level : Level)
    (record : LevelRecord) (h : outfit ∈ profile.avatar.unlocked) :
    outfit ∈ (profile.reward level record).avatar.unlocked := by
  unfold reward
  split
  · split
    · exact TextSet.mem_insert.2 (.inr h)
    · exact h
  · exact h

/-- A profile has records that are no worse than those of another, and its outfits. Three stars
stay three: badges and the compendium ask for exactly that many, and a profile that was put on the
roster may have more. -/
structure Improves (after before : Profile) : Prop where
  records : ∀ level record, before.progress.get? level = some record →
    ∃ later, after.progress.get? level = some later ∧ later.Retains record ∧
      (record.stars = 3 → later.stars = 3)
  outfits : ∀ outfit ∈ before.avatar.unlocked, outfit ∈ after.avatar.unlocked

namespace Improves

variable {before middle after : Profile}

/-- A profile with the same records and outfits is no worse. -/
theorem of_same (hprogress : after.progress = before.progress)
    (hunlocked : after.avatar.unlocked = before.avatar.unlocked) : after.Improves before where
  records level record h := ⟨record, by rw [hprogress, h], .refl record, fun hthree => hthree⟩
  outfits outfit h := by rwa [hunlocked]

/-- A profile is better than all that a worse one is better than. -/
theorem trans (hlast : after.Improves middle) (hfirst : middle.Improves before) :
    after.Improves before where
  records level record h := by
    obtain ⟨next, hnext, hretains, hperfect⟩ := hfirst.records level record h
    obtain ⟨last, hlast, hlater, hthree⟩ := hlast.records level next hnext
    exact ⟨last, hlast, hlater.trans hretains, hthree ∘ hperfect⟩
  outfits outfit h := hlast.outfits outfit (hfirst.outfits outfit h)

/-- Settling changes neither records nor outfits. -/
theorem settle (h : after.Improves before) (catalog : Catalog) :
    (after.settle catalog).Improves before := ⟨h.records, h.outfits⟩

/-- No level has fewer stars in a better profile. -/
theorem stars_le (h : after.Improves before) (level : String) :
    before.starsFor level ≤ after.starsFor level := by
  unfold starsFor
  cases hrecord : before.progress.get? level with
  | none => exact UInt8.zero_le
  | some record =>
      obtain ⟨later, hlater, hretains, _⟩ := h.records level record hrecord
      rw [hlater]
      exact hretains.stars

/-- A level with three stars has three in a better profile. -/
theorem perfect (h : after.Improves before) (level : String) (hthree : before.starsFor level = 3) :
    after.starsFor level = 3 := by
  unfold starsFor at hthree ⊢
  cases hrecord : before.progress.get? level with
  | none =>
      rw [hrecord] at hthree
      exact absurd hthree (by decide)
  | some record =>
      obtain ⟨later, hlater, _, hkept⟩ := h.records level record hrecord
      rw [hrecord] at hthree
      rw [hlater]
      exact hkept hthree

/-- A level that is cleared is cleared in a better profile. -/
theorem has_cleared (h : after.Improves before) (level : String)
    (hcleared : before.hasCleared level = true) : after.hasCleared level = true := by
  rw [hasCleared, decide_eq_true_eq] at hcleared ⊢
  exact UInt8.lt_of_lt_of_le hcleared (h.stars_le level)

end Improves

/-- A profile shows nothing less than another: no record is worse, and nothing that was won is
gone. The badge for the stars of all levels together is kept as long as 32 bits hold their sum. -/
structure Retains (after : Profile) (levels : List Level) (before : Profile) : Prop where
  records : ∀ level record, before.progress.get? level = some record →
    ∃ later, after.progress.get? level = some later ∧ later.Retains record
  badges : ∀ badge ∈ before.achievements.badges,
    (badge = "star-collector" → after.starSum levels < 2 ^ 32) →
      badge ∈ after.achievements.badges
  compendium : ∀ entry ∈ before.achievements.compendium, entry ∈ after.achievements.compendium
  outfits : ∀ outfit ∈ before.avatar.unlocked, outfit ∈ after.avatar.unlocked
  sandbox : before.sandboxUnlocked = true → after.sandboxUnlocked = true

/-- A better profile shows nothing less, if both show what their stars have earned. -/
theorem Improves.retains {before after : Profile} {levels : List Level}
    (h : after.Improves before) (hbefore : before.Current levels)
    (hafter : after.Current levels) : after.Retains levels before where
  records level record hrecord := by
    obtain ⟨later, hlater, hretains, _⟩ := h.records level record hrecord
    exact ⟨later, hlater, hretains⟩
  badges badge hbadge hfits := by
    -- the sum has only grown, so it was one that 32 bits hold all along
    have hfitted (hcollector : badge = "star-collector") : before.starSum levels < 2 ^ 32 :=
      (star_sum_mono levels h.stars_le).trans_lt (hfits hcollector)
    have hearned := (hbefore.badges badge hfitted).1 hbadge
    exact (hafter.badges badge hfits).2 (hearned.mono h.stars_le h.perfect)
  compendium entry hentry := by
    obtain ⟨level, hlevel, hthree, hname⟩ := (hbefore.compendium entry).1 hentry
    exact (hafter.compendium entry).2 ⟨level, hlevel, h.perfect level.id hthree, hname⟩
  outfits := h.outfits
  sandbox hsandbox := by
    obtain ⟨level, hlevel, hstar⟩ := hbefore.sandbox.1 hsandbox
    exact hafter.sandbox.2 ⟨level, hlevel, UInt8.lt_of_lt_of_le hstar (h.stars_le level.id)⟩

/-! ### Changes -/

/-- What becomes of a profile in whose place no other is put. -/
inductive Advances (catalog : Catalog) (before : Profile) : (after : Profile) → Prop where
  | unchanged : Advances catalog before before
  | completed (id : String) (level : Level) (completion : Completion) (now : UInt64) :
      catalog.level? id = some level → completion.stars ≤ 3 →
      Advances catalog before ((before.complete id level completion now).2.settle catalog)
  | equipped (outfit : String) : outfit ∈ before.avatar.unlocked →
      Advances catalog before
        ({ before with avatar := { before.avatar with equipped := outfit } }.settle catalog)
  | updated (patch : SettingsPatch) :
      Advances catalog before
        ({ before with settings := before.settings.apply patch }.settle catalog)

/-- A completion of a level makes a profile better. -/
theorem complete_improves (profile : Profile) (id : String) (level : Level)
    (completion : Completion) (now : UInt64) (hstars : completion.stars ≤ 3) :
    (profile.complete id level completion now).2.Improves profile where
  records other record hrecord := by
    show ∃ later, (profile.progress.insert id _).get? other = some later ∧ _
    rw [Table.get?_insert]
    split
    · -- the record of this very level is merged with the completion; all others stay
      rename_i hsame
      rw [← hsame, hrecord]
      exact ⟨_, rfl, completion.update_record_retains level now record,
        completion.update_record_perfect level now record hstars⟩
    · exact ⟨record, hrecord, .refl record, fun hthree => hthree⟩
  outfits outfit h := reward_unlocked level _ h

/-- Whatever becomes of a profile in whose place no other is put is better than it. -/
theorem Advances.improves {catalog : Catalog} {before after : Profile}
    (h : before.Advances catalog after) : after.Improves before := by
  cases h with
  | unchanged => exact .of_same rfl rfl
  | completed id level completion now _ hstars =>
      exact (before.complete_improves id level completion now hstars).settle catalog
  | equipped => exact .of_same rfl rfl
  | updated => exact .of_same rfl rfl

end Profile

end TileCourse
