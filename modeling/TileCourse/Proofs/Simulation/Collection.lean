import Mathlib.Data.Finset.Card
import Mathlib.Data.Finset.Dedup
import Mathlib.Data.Set.Function
import TileCourse.Proofs.Simulation.Budget
import TileCourse.Proofs.Text.Digits

/-!
# Things collected once

A thing is known by its key, which names its point and its kind. Keys tell all things apart,
whatever the kinds are called, so a key stands for one thing. At every moment of a run the keys are
those of the points on which something has been collected by then, one for each. Together with what
is left they make up the number of tiles on which something lies, as long as 32 bits can hold that
number. `collected_once` says so of the moment after any number of steps.
-/

namespace TileCourse

/-! ### Keys -/

/-- The coordinates of a key end at the first colon that follows them. -/
theorem Pickup.key_to_list (pickup : Pickup) : pickup.key.toList =
    pickup.point.x.toInt.repr.toList ++
      ':' :: (pickup.point.y.toInt.repr.toList ++ ':' :: pickup.kind.toList) := by
  have hcolon : (":" : String).toList = [':'] := rfl
  show (toString pickup.point.x.toInt ++ ":" ++ toString pickup.point.y.toInt ++ ":" ++
    pickup.kind).toList = _
  simp only [String.toList_append, hcolon, Int.toString_eq_repr, List.append_assoc,
    List.cons_append, List.nil_append]

/-- Things with the same key are the same, for no coordinate has a colon in it. -/
theorem Pickup.key_injective : Function.Injective Pickup.key := by
  rintro ⟨⟨x, y⟩, kind⟩ ⟨⟨x', y'⟩, kind'⟩ h
  have hcolon (n : Int) : ':' ∉ n.repr.toList := fun hmem =>
    (Text.digit_or_sign_of_mem hmem).elim (by decide) (by decide)
  have hlist := congrArg String.toList h
  rw [key_to_list, key_to_list] at hlist
  obtain ⟨hx, hlist⟩ := Text.parts_eq (hcolon _) (hcolon _) hlist
  obtain ⟨hy, hkind⟩ := Text.parts_eq (hcolon _) (hcolon _) hlist
  obtain rfl := Int32.toInt_inj.1 (Text.repr_inj.1 (String.toList_inj.1 hx))
  obtain rfl := Int32.toInt_inj.1 (Text.repr_inj.1 (String.toList_inj.1 hy))
  obtain rfl := String.toList_inj.1 hkind
  rfl

namespace World

variable {world : World}

/-- The keys of what has been collected. -/
def keys (world : World) : Finset String := (world.visited.map Pickup.key).toFinset

/-- The keys are those of what has been collected. -/
theorem mem_keys_iff {key : String} :
    key ∈ world.keys ↔ ∃ pickup ∈ world.visited, pickup.key = key := by
  rw [keys, List.mem_toFinset, List.mem_map]

/-- A thing has been collected exactly if its key is there. -/
theorem key_mem_keys_iff {pickup : Pickup} : pickup.key ∈ world.keys ↔ pickup ∈ world.visited := by
  rw [mem_keys_iff]
  constructor
  · rintro ⟨other, hother, hkey⟩
    exact Pickup.key_injective hkey ▸ hother
  · exact fun h => ⟨pickup, h, rfl⟩

/-- A thing is new exactly if its key is. -/
theorem collect_new_iff {point : Point} {kind : String} :
    (world.collect point kind).1 = true ↔ (Pickup.mk point kind).key ∉ world.keys := by
  rw [key_mem_keys_iff, collect]
  split <;> simp [*]

/-- There are as many keys as things that have been collected. -/
theorem card_keys (h : world.visited.Nodup) : world.keys.card = world.visited.length := by
  rw [keys, List.toFinset_card_of_nodup (h.map Pickup.key_injective), List.length_map]

end World

/-! ### Accounts -/

namespace Level

/-- The points on which something lies that has been collected in the course of some steps. -/
def collectedIn (level : Level) (log : List Step) : Set Point :=
  {point | ((Grid.ofLevel level).collectibleAt? point).isSome ∧
    ∃ step ∈ log, step.instruction = .collect ∧ step.position.point = point}

/-- Collecting on a point once more does not add a point. -/
theorem collected_in_again {level : Level} {log : List Step} {n : Nat} (h : n < log.length)
    (hagain : ∃ step ∈ log.take n, step.instruction = .collect ∧
      step.position.point = log[n].position.point) :
    level.collectedIn (log.take (n + 1)) = level.collectedIn (log.take n) := by
  rw [← List.take_append_getElem h]
  refine Set.ext fun point => and_congr_right fun _ => ⟨?_, ?_⟩
  · rintro ⟨step, hstep, hcollect, rfl⟩
    rcases List.mem_append.1 hstep with hstep | hstep
    · exact ⟨step, hstep, hcollect, rfl⟩
    · rwa [List.mem_singleton.1 hstep]
  · rintro ⟨step, hstep, hcollect⟩
    exact ⟨step, List.mem_append_left _ hstep, hcollect⟩

/-- The key of what lies on a point. -/
def keyAt (level : Level) (point : Point) : String :=
  (Pickup.mk point (((Grid.ofLevel level).collectibleAt? point).getD "")).key

/-- Different points have different keys, whatever lies on them. -/
theorem key_at_injective (level : Level) : Function.Injective level.keyAt := fun _ _ h =>
  congrArg Pickup.point (Pickup.key_injective h)

/-- The count of a level is the number of its things, as long as 32 bits can hold it. -/
theorem collectible_count_to_nat {level : Level} (hfits : level.collectibleTiles < 2 ^ 32) :
    level.collectibleCount.toNat = level.collectibleTiles := by
  rw [collectibleCount, UInt32.toNat_ofNat']
  exact Nat.mod_eq_of_lt hfits

end Level

namespace World

variable {world : World} {level : Level} {log : List Step}

/-- What has been collected and what is left are accounted for by the steps of a log. -/
structure Accounts (world : World) (level : Level) (log : List Step) : Prop where
  /-- Everything that has been collected is taken off what was there at the start. -/
  left : world.remaining.toNat = level.collectibleCount.toNat - world.keys.card
  /-- No more is collected than lies on tiles. -/
  few : world.keys.card ≤ level.collectibleTiles
  /-- Nothing gets lost, as long as 32 bits can hold the number of all things. -/
  balance : level.collectibleTiles < 2 ^ 32 →
    world.remaining.toNat + world.keys.card = level.collectibleCount.toNat
  /-- Whenever something new is found there is something left. -/
  suffices_new : level.collectibleTiles < 2 ^ 32 → ∀ point kind,
    (Grid.ofLevel level).collectibleAt? point = some kind →
      (world.collect point kind).1 = true → 0 < world.remaining
  /-- The keys are those of the points on which something has been collected, one for each. -/
  keys : Set.BijOn level.keyAt (level.collectedIn log) world.keys

/-- The point of a thing that has been collected has the key of the thing. -/
theorem Tallied.key_at (h : world.Tallied level) {pickup : Pickup}
    (hpickup : pickup ∈ world.visited) : level.keyAt pickup.point = pickup.key := by
  rw [Level.keyAt, h.lies pickup hpickup]
  rfl

/-- A state is accounted for by a log that traces it. -/
theorem Tallied.accounts (h : world.Tallied level) {collided : Prop}
    (htraced : Traced level collided log world)
    (hleft : world.remaining.toNat = level.collectibleCount.toNat - world.visited.length) :
    world.Accounts level log where
  left := by rw [card_keys h.nodup, hleft]
  few := by
    rw [card_keys h.nodup]
    exact visited_length_le h.nodup h.lies
  balance hfits := by
    rw [card_keys h.nodup, Level.collectible_count_to_nat hfits]
    exact h.count hfits
  suffices_new hfits point kind hkind hnew := by
    have hmem : (⟨point, kind⟩ : Pickup) ∉ world.visited := fun hmem =>
      collect_new_iff.1 hnew (key_mem_keys_iff.2 hmem)
    exact UInt32.lt_iff_toNat_lt.2 (h.remaining_pos hfits hkind hmem)
  keys := by
    refine ⟨fun point hpoint => ?_, level.key_at_injective.injOn, fun key hkey => ?_⟩
    · obtain ⟨pickup, hpickup, rfl⟩ := (htraced.visited point).2 hpoint
      exact mem_keys_iff.2 ⟨pickup, hpickup, (h.key_at hpickup).symm⟩
    · obtain ⟨pickup, hpickup, rfl⟩ := mem_keys_iff.1 hkey
      exact ⟨pickup.point, (htraced.visited _).1 ⟨pickup, hpickup, rfl⟩, h.key_at hpickup⟩

end World

namespace Setting

variable {setting : Setting} {level : Level}

/-- What every step preserves holds of whatever a run leads to. -/
theorem Leads.preserves {p : Instruction → Prop} (invariant : World → Prop)
    (hstep : ∀ instruction run, invariant run.world →
      invariant (setting.advance instruction run).world) {run : Run} {outcome : Outcome}
    (hleads : Leads setting p run outcome) (h : invariant run.world) :
    invariant outcome.run.world := by
  induction hleads with
  | rest | exhausted | tooDeep => exact h
  | blocked run instruction => exact hstep instruction run h
  | step run instruction _ _ _ _ _ ih => exact ih (hstep instruction run h)

/-- A step takes off what is left what it collects, as far as that goes. -/
theorem left_advance (hgrid : setting.grid = .ofLevel level) {total : Nat}
    (instruction : Instruction) (run : Run)
    (h : run.world.remaining.toNat = total - run.world.visited.length) :
    (setting.advance instruction run).world.remaining.toNat =
      total - (setting.advance instruction run).world.visited.length := by
  obtain ⟨-, kind, hgains⟩ | ⟨-, hvisited, hremaining⟩ := advance_cases hgrid instruction run
  · rw [hgains.remaining, hgains.visited, List.length_cons, h]
    omega
  · rw [hremaining, hvisited, h]

end Setting

/-! ### Moments of a run -/

namespace Options

/-- The world in which a run ends. -/
def finalWorld (options : Options) (level : Level) (program : Program) : World :=
  ((options.setting level).execute 0 program (.start level)).run.world

/-- The same choices with a budget of so many steps, if there is not a smaller one. -/
def allowing (options : Options) (level : Level) (n : Nat) : Options :=
  { options with stepLimit := some (.ofNat (min n (options.budget level).toNat)) }

/-- The world after so many steps of a run, or at its end if it takes fewer: it is where the run
would stop if it were not allowed another step. -/
def worldAfter (options : Options) (level : Level) (program : Program) (n : Nat) : World :=
  (options.allowing level n).finalWorld level program

/-- A world does not depend on whether there is a log. -/
theorem final_world_logged (options : Options) (level : Level) (program : Program) :
    ({ options with captureLog := true } : Options).finalWorld level program =
      options.finalWorld level program := by
  obtain ⟨stepLimit, _ | _, defaultStepLimit, maxDepth⟩ := options
  · -- the run without a log is the other one, of which the log has been forgotten
    let setting := (⟨stepLimit, true, defaultStepLimit, maxDepth⟩ : Options).setting level
    have hquiet : setting.unlogged.execute 0 program (Run.start level).forget =
        (setting.execute 0 program (.start level)).forget :=
      setting.execute_forget program (.start level)
    exact (congrArg (·.run.world) hquiet).symm
  · rfl

/-- The world in which a logged run ends is accounted for by its log. -/
theorem final_world_accounts (options : Options) (level : Level) (program : Program)
    (hcapture : options.captureLog = true) :
    (options.finalWorld level program).Accounts level (simulate level options program).log :=
  have hleads := options.leads level program
  have htally : (options.finalWorld level program).Tallied level :=
    hleads.preserves (·.Tallied level)
      (fun instruction _ => Setting.tallied_advance rfl instruction) (World.tallied_start level)
  have hleft : (options.finalWorld level program).remaining.toNat =
      level.collectibleCount.toNat - (options.finalWorld level program).visited.length :=
    hleads.preserves
      (fun world => world.remaining.toNat = level.collectibleCount.toNat - world.visited.length)
      (Setting.left_advance rfl) rfl
  htally.accounts (simulate_traced level options program hcapture) hleft

/-- A run that is allowed only so many steps has the log of the first of them, and ends where the
longer run stands before the next one. -/
theorem allowing_results (options : Options) (level : Level) (program : Program) (n : Nat)
    (hcapture : options.captureLog = true) :
    let short := simulate level (options.allowing level n) program
    let long := simulate level options program
    short.log = long.log.take n ∧ short.snapshot = momentAt long.log long.snapshot n := by
  intro short long
  let allowed := UInt32.ofNat (min n (options.budget level).toNat)
  have hbudget := (options.budget level).toNat_lt
  have hallowed : allowed.toNat = min n (options.budget level).toNat :=
    UInt32.toNat_ofNat_of_lt' (show _ < 2 ^ 32 by omega)
  have hle : allowed ≤ options.budget level :=
    UInt32.le_iff_toNat_le.2 (hallowed ▸ Nat.min_le_right _ _)
  have htruncates : Setting.Truncates (options.setting level) allowed options.maxDepth
      (((options.allowing level n).setting level).execute 0 program (.start level))
      ((options.setting level).execute 0 program (.start level)) :=
    Setting.execute_truncates hle (UInt64.le_refl _) 0 program _
  have hfew : short.steps ≤ allowed :=
    Setting.execute_steps_le level (options.allowing level n) program
  obtain ⟨-, -, hdepth⟩ := htruncates.results level hcapture hfew
    (simulate_traced level (options.allowing level n) program hcapture).length
  obtain ⟨hcut, hsame⟩ := hdepth rfl
  have hlength : long.log.length = long.steps.toNat :=
    (simulate_traced level options program hcapture).length
  have hmany : long.steps.toNat ≤ (options.budget level).toNat :=
    UInt32.le_iff_toNat_le.1 (Setting.execute_steps_le level options program)
  -- either the run goes on after `n` steps and is cut there, or nothing of it is cut
  by_cases hn : n < long.steps.toNat
  · have hn' : allowed.toNat = n := by omega
    obtain ⟨-, -, hlog, hlt, hposition, hremaining⟩ :=
      hcut (UInt32.lt_iff_toNat_lt.2 (hn' ▸ hn))
    simp only [hn'] at hlog hlt hposition hremaining
    exact ⟨hlog, (congrArg₂ Snapshot.mk hposition hremaining).trans (moment_at_lt hlt).symm⟩
  · have henough : long.steps.toNat ≤ allowed.toNat := by omega
    have hall : short = long := hsame (UInt32.le_iff_toNat_le.2 henough)
    have hlong : long.log.length ≤ n := by omega
    rw [hall, List.take_of_length_le hlong, momentAt, List.getElem?_eq_none hlong]
    exact ⟨rfl, rfl⟩

/-- The state after so many steps of a run, with the log as it stands then. -/
theorem world_after_accounts (options : Options) (level : Level) (program : Program) (n : Nat) :
    let result := simulate level { options with captureLog := true } program
    let world := options.worldAfter level program n
    world.steps.toNat = min n result.log.length ∧
      world.snapshot = momentAt result.log result.snapshot n ∧
      world.Accounts level (result.log.take n) := by
  intro result world
  let logged : Options := { options with captureLog := true }
  have hworld : (logged.allowing level n).finalWorld level program = world :=
    final_world_logged (options.allowing level n) level program
  obtain ⟨hlog, hsnapshot⟩ := logged.allowing_results level program n rfl
  have haccounts := (logged.allowing level n).final_world_accounts level program rfl
  rw [hlog, hworld] at haccounts
  have hlength := (simulate_traced level (logged.allowing level n) program rfl).length
  refine ⟨?_, ?_, haccounts⟩
  · rw [← hworld, ← List.length_take, ← hlog]
    exact hlength.symm
  · rw [← hworld]
    exact hsnapshot

end Options

/-- At every moment of a run, logged or not, the keys of what has been collected are those of the
points on which something has been collected by then, one for each point however often and in
whatever loops it has been collected there. As long as 32 bits can hold the number of all things,
what is left makes up for the rest of it, so there is always something left to take a new thing off.
Collecting on a point again changes neither. -/
theorem collected_once (level : Level) (options : Options) (program : Program) (n : Nat) :
    let result := simulate level { options with captureLog := true } program
    let world := options.worldAfter level program
    (world n).steps.toNat = min n result.log.length ∧
    (world n).snapshot = momentAt result.log result.snapshot n ∧
    (world n).Accounts level (result.log.take n) ∧
    ∀ h : n < result.log.length, result.log[n].instruction = .collect →
      (∃ step ∈ result.log.take n, step.instruction = .collect ∧
        step.position.point = result.log[n].position.point) →
      (world (n + 1)).remaining = (world n).remaining ∧ (world (n + 1)).keys = (world n).keys := by
  intro result world
  obtain ⟨hsteps, hsnapshot, haccounts⟩ := options.world_after_accounts level program n
  refine ⟨hsteps, hsnapshot, haccounts, fun h hcollect hagain => ?_⟩
  obtain ⟨-, hnext, haccountsNext⟩ := options.world_after_accounts level program (n + 1)
  have heffect := (simulate_traced level { options with captureLog := true } program rfl).effect n h
  have hold : ¬ result.log[n].FindsNew (.ofLevel level) (result.log.take n) := by
    rintro ⟨-, hnew⟩
    obtain ⟨step, hstep, hcollect, hpoint⟩ := hagain
    exact hnew step hstep hcollect hpoint
  have hbefore : (world n).snapshot = result.log[n].snapshot := hsnapshot.trans (moment_at_lt h)
  refine ⟨?_, Finset.coe_injective ?_⟩
  · have hsame := (heffect.collect hcollect).2.2 hold
    calc (world (n + 1)).remaining
      _ = result.log[n].collectibles := (congrArg Snapshot.remaining hnext).trans hsame
      _ = (world n).remaining := (congrArg Snapshot.remaining hbefore).symm
  · rw [← haccounts.keys.image_eq, ← haccountsNext.keys.image_eq,
      Level.collected_in_again h hagain]

/-- The third step of this run collects where the second one has, and two of the three things are
still left after it. -/
theorem collected_once_heaped :
    let options := Options.ofDefaults 100 8
    let world := options.worldAfter .heaped [.loop 2 [.collect]]
    (world 2).remaining.toNat + (world 2).keys.card = 3 ∧ (world 2).remaining = 2 ∧
      (world 3).remaining = 2 ∧ (world 3).keys = (world 2).keys := by
  intro options world
  obtain ⟨-, -, haccounts, hagain⟩ := collected_once .heaped options [.loop 2 [.collect]] 2
  have hleft : (world 2).remaining = 2 := by decide
  obtain ⟨hremaining, hkeys⟩ := hagain (by decide) (by decide) (by decide)
  exact ⟨haccounts.balance (by decide), hleft, hremaining.trans hleft, hkeys⟩

/-- If 32 bits hold nothing of the number of things, what is left does not make up for a key. -/
theorem hoard_out_of_balance {n : Nat} (hpos : 0 < n) (hzero : UInt32.ofNat n = 0) :
    let world := (Options.ofDefaults 100 8).worldAfter (.hoard n) [.collect] 1
    world.remaining.toNat + world.keys.card ≠ (Level.hoard n).collectibleCount.toNat := by
  intro world
  obtain ⟨-, -, haccounts⟩ :=
    (Options.ofDefaults 100 8).world_after_accounts (.hoard n) [.collect] 1
  have hlog : (simulate (.hoard n) (.ofDefaults 100 8) [.collect]).log.take 1 =
      [⟨1, .collect, ⟨0, 0, .east⟩, .ofNat n⟩] := by
    rw [hoard_log, List.take_succ_cons, List.take_nil]
  have hcollected : (⟨0, 0⟩ : Point) ∈ (Level.hoard n).collectedIn
      ((simulate (.hoard n) (.ofDefaults 100 8) [.collect]).log.take 1) := by
    rw [hlog]
    exact ⟨by rw [Level.hoard_collectible_at hpos]; rfl, _, List.mem_cons_self, rfl, rfl⟩
  have hcard : 0 < world.keys.card := Finset.card_pos.2 ⟨_, haccounts.keys.mapsTo hcollected⟩
  rw [Level.hoard_count, hzero, UInt32.toNat_zero]
  omega

/-- Of 4294967296 things none is counted, so a key that is gained is one too many. -/
theorem balance_at_limit :
    let level := Level.hoard (2 ^ 32)
    let world := (Options.ofDefaults 100 8).worldAfter level [.collect] 1
    world.remaining.toNat + world.keys.card ≠ level.collectibleCount.toNat :=
  hoard_out_of_balance (by decide) (by decide)

end TileCourse
