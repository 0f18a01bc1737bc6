import Mathlib.Algebra.Group.Int.Defs
import Mathlib.Algebra.Group.Nat.Defs
import Mathlib.Data.List.Forall2
import TileCourse.Json.Wire
import TileCourse.Proofs.Json.Reading
import TileCourse.Proofs.Outcome
import TileCourse.Proofs.Text.Collections

/-!
# Decoding what has been written

A decoder restores a value from its JSON form if every tree that states the form is decoded as the
value. Whether it does depends on the room alone, and `Decoder.Restores` says for which rooms it
does. The lemmas follow the ways in which decoders are built, so the room that a record needs comes
out of the room that its fields need.
-/

namespace TileCourse

/-- The text of a number in single precision is read as a number whose nearest value is the same
number again. -/
def Single.Survives (x : Single) : Prop :=
  ∃ m, (JsonNumber.single x).ReadAs m ∧ Json.Decoder.singleOf m = x

end TileCourse

namespace TileCourse.Json

/-- The form of a value can be written and read, and every tree that states it is decoded as the
value exactly when the room fits. -/
structure Decoder.Restores {α : Type} (decode : Decoder α) (value : Json) (a : α)
    (fits : Nat → Prop) : Prop where
  legible : value.Legible
  decode_iff : ∀ form room node, States value node → (decode form room node = .ok a ↔ fits room)

/-- Giving a trouble its place makes no difference to a success. -/
@[simp] theorem settled_eq_ok_iff {α : Type} {offset : Nat} {outcome : Except Trouble α} {a : α} :
    settled offset outcome = .ok a ↔ outcome = .ok a :=
  map_error_eq_ok_iff

/-! ### Scalars -/

/-- The text of a number is read as one number only. -/
theorem read_as_unique {n m m' : JsonNumber} (h : n.ReadAs m) (h' : n.ReadAs m') : m = m' := by
  unfold JsonNumber.ReadAs at h h'
  split at h <;> rename_i heq
  all_goals
    simp only [heq] at h'
    obtain ⟨remainder, htaken, -⟩ := h
    obtain ⟨remainder', htaken', -⟩ := h'
    rw [htaken] at htaken'
    cases htaken'
    rfl

/-- An integer of at most 64 bits is read as itself. -/
theorem read_as_int {n : Int} (hlow : -2 ^ 63 ≤ n) (hhigh : n < 2 ^ 64) :
    (JsonNumber.integer n).ReadAs (.integer n) := by
  unfold JsonNumber.ReadAs
  rw [renderNumber, renderInt]
  by_cases hneg : n < 0
  · rw [if_pos hneg]
    refine take_unsigned_to_digits (by omega) ?_
    rw [finishInteger]
    simp only [Bool.not_true, Bool.false_eq_true, if_false]
    rw [if_pos (by omega)]
    congr 2
    omega
  · rw [if_neg hneg]
    split
    · rename_i digits heq
      have hminus := Text.is_digit_of_mem (n := n.natAbs) (c := '-') (by simp [heq])
      exact absurd hminus (by decide)
    · refine take_unsigned_to_digits (by omega) ?_
      simp only [finishInteger, Bool.not_true, Bool.false_eq_true, if_false, Bool.not_false,
        if_true]
      congr 2
      omega

/-- Items are no deeper than the deepest of them. -/
theorem items_depth_le_iff {items : List Json} {n : Nat} :
    Json.itemsDepth items ≤ n ↔ ∀ item ∈ items, item.depth ≤ n := by
  induction items with
  | nil => simp [Json.itemsDepth]
  | cons item rest ih => rw [Json.itemsDepth, Nat.max_le, ih, List.forall_mem_cons]

namespace Decoder

section Scalars

/-- What restores a value where some room fits does so where the same room is said to fit. -/
theorem Restores.congr {α : Type} {decode : Decoder α} {value : Json} {a : α}
    {fits fits' : Nat → Prop} (h : decode.Restores value a fits)
    (hfits : ∀ room, fits room ↔ fits' room) : decode.Restores value a fits' where
  legible := h.legible
  decode_iff := fun form room node hnode => (h.decode_iff form room node hnode).trans (hfits room)

/-- A value that is restored in any room is the outcome. -/
theorem Restores.exists_iff {α : Type} {decode : Decoder α} {value : Json} {a : α}
    {P : α → Prop} {form : Form} {room : Nat} {node : Node}
    (h : decode.Restores value a fun _ => True) (hnode : States value node) :
    (∃ b, decode form room node = .ok b ∧ P b) ↔ P a := by
  simp [(h.decode_iff form room node hnode).2 trivial]

/-- A text is restored. -/
theorem text_restores (s : String) : text.Restores (.text s) s fun _ => True where
  legible := trivial
  decode_iff := by
    rintro form room _ ⟨⟩
    exact iff_of_true rfl trivial

/-- A truth value is restored. -/
theorem bool_restores (b : Bool) : bool.Restores (.bool b) b fun _ => True where
  legible := trivial
  decode_iff := by
    rintro form room _ ⟨⟩
    exact iff_of_true rfl trivial

/-- An integer within the bounds is restored. -/
theorem int_restores (low high : Int) (wanted : String) {n : Int} (hlow : low ≤ n)
    (hhigh : n ≤ high) (hleast : -2 ^ 63 ≤ low) (hgreatest : high < 2 ^ 64) :
    (int low high wanted).Restores (.int n) n fun _ => True where
  legible := ⟨_, read_as_int (by omega) (by omega)⟩
  decode_iff := by
    rintro form room _ (_ | _ | ⟨start, stop, hread⟩)
    rw [← read_as_unique (read_as_int (by omega) (by omega)) hread]
    refine iff_of_true ?_ trivial
    simp [int, scalar, hlow, hhigh]

/-- The value that a decoder restores in any room may be given another form. -/
theorem Restores.map {α β : Type} {decode : Decoder α} {value : Json} {a : α} (f : α → β)
    (h : decode.Restores value a fun _ => True) :
    (Decoder.map f decode).Restores value (f a) fun _ => True where
  legible := h.legible
  decode_iff := fun form room node hnode => by
    refine iff_of_true ?_ trivial
    rw [Decoder.map, (h.decode_iff form room node hnode).2 trivial]
    rfl

/-- A number in single precision is restored if it survives being written. -/
theorem single_restores {x : Single} (h : x.Survives) :
    single.Restores (.number (.single x)) x fun _ => True where
  legible := h.imp fun _ hm => hm.1
  decode_iff := by
    rintro form room _ (_ | _ | ⟨start, stop, hread⟩)
    obtain ⟨m, hm, hnear⟩ := h
    rw [← read_as_unique hm hread]
    refine iff_of_true ?_ trivial
    simp [single, scalar, hnear]

/-- A natural up to the greatest one is restored. -/
theorem nat_restores {α : Type} (high : Nat) (wanted : String) (f : Nat → α) {n : Nat}
    (h : n ≤ high) (hgreatest : high < 2 ^ 64) :
    (map (fun k => f k.toNat) (int 0 high wanted)).Restores (.nat n) (f n) fun _ => True :=
  (int_restores 0 high wanted (n := n) (Int.natCast_nonneg n) (by omega) (by decide)
    (by omega)).map fun k => f k.toNat

/-- A number of 8 bits is restored. -/
theorem u8_restores (n : UInt8) : (Wire.decode (α := UInt8)).Restores (Wire.encode n) n
    fun _ => True := by
  have h := nat_restores (2 ^ 8 - 1) "u8" UInt8.ofNat (n := n.toNat)
    (Nat.le_pred_of_lt n.toNat_lt) (by decide)
  rwa [UInt8.ofNat_toNat] at h

/-- A number of 32 bits is restored. -/
theorem u32_restores (n : UInt32) : (Wire.decode (α := UInt32)).Restores (Wire.encode n) n
    fun _ => True := by
  have h := nat_restores (2 ^ 32 - 1) "u32" UInt32.ofNat (n := n.toNat)
    (Nat.le_pred_of_lt n.toNat_lt) (by decide)
  rwa [UInt32.ofNat_toNat] at h

/-- A number of 64 bits is restored, whatever it is called. -/
theorem word_restores (wanted : String) (n : UInt64) :
    (word wanted).Restores (.nat n.toNat) n fun _ => True := by
  have h := nat_restores (2 ^ 64 - 1) wanted UInt64.ofNat (n := n.toNat)
    (Nat.le_pred_of_lt n.toNat_lt) (by decide)
  rwa [UInt64.ofNat_toNat] at h

/-- A number of 32 bits with a sign is restored. -/
theorem i32_restores (n : Int32) : (Wire.decode (α := Int32)).Restores (Wire.encode n) n
    fun _ => True := by
  have h := (int_restores _ _ "i32" n.le_toInt n.toInt_le (by decide) (by decide)).map Int32.ofInt
  rwa [Int32.ofInt_toInt] at h

/-- A number of 64 bits with a sign is restored. -/
theorem i64_restores (n : Int64) : (Wire.decode (α := Int64)).Restores (Wire.encode n) n
    fun _ => True := by
  have h := (int_restores _ _ "i64" n.le_toInt n.toInt_le (by decide) (by decide)).map Int64.ofInt
  rwa [Int64.ofInt_toInt] at h

/-- A choice is restored from its name. -/
theorem choice_restores {α : Type} {variants : List (String × α)} {name : String} {a : α}
    (h : variants.lookup name = some a) :
    (choice variants).Restores (.text name) a fun _ => True where
  legible := trivial
  decode_iff := by
    rintro form room _ ⟨⟩
    refine iff_of_true ?_ trivial
    cases form <;> simp [choice, variantAt, variant, h]

end Scalars

/-! ### Combinations -/

section Combinations

variable {α : Type} {decode : Decoder α}

/-- What is absent is restored as such. -/
theorem absent_restores (decode : Decoder α) :
    (optional decode).Restores .null none fun _ => True where
  legible := trivial
  decode_iff := by
    rintro form room _ ⟨⟩
    exact iff_of_true rfl trivial

/-- A value that is present is decoded by its own decoder, unless it is written as the absent
value. -/
theorem optional_eq {value : Json} {node : Node} (hnode : States value node)
    (hne : value ≠ .null) (form : Form) (room : Nat) :
    optional decode form room node = (decode form room node).map some := by
  cases hnode <;> first | rfl | exact absurd rfl hne

/-- What is there is decoded as something exactly if it is decoded so without being optional. -/
theorem optional_exists_iff {value : Json} {node : Node} {form : Form} {room : Nat}
    {P : Option α → Prop} (hnode : States value node) (hne : value ≠ .null) :
    (∃ a, optional decode form room node = .ok a ∧ P a) ↔
      ∃ a, decode form room node = .ok a ∧ P (some a) := by
  simp only [optional_eq hnode hne, map_eq_ok_iff]
  constructor
  · rintro ⟨_, ⟨a, ha, rfl⟩, h⟩
    exact ⟨a, ha, h⟩
  · rintro ⟨a, ha, h⟩
    exact ⟨some a, ⟨a, ha, rfl⟩, h⟩

/-- What is there is restored also where it might be absent. -/
theorem Restores.optional {value : Json} {a : α} {fits : Nat → Prop}
    (h : decode.Restores value a fits) (hne : value ≠ .null) :
    (optional decode).Restores value (some a) fits where
  legible := h.legible
  decode_iff := fun form room node hnode => by
    rw [optional_eq hnode hne, ← h.decode_iff form room node hnode]
    simp [map_eq_ok_iff]

/-- A value that is present has been decoded by its own decoder. -/
theorem decode_of_optional {form : Form} {room : Nat} {node : Node} {a : α}
    (h : optional decode form room node = .ok (some a)) : decode form room node = .ok a := by
  unfold optional at h
  split at h
  · cases h
  · cases h
  · obtain ⟨b, hb, ⟨⟩⟩ := map_eq_ok_iff.1 h
    exact hb

/-- The items of a list have been decoded one by one. -/
theorem decode_of_items {decode : Node → Except Trouble α} :
    ∀ {found : Items} {as : List α}, items decode found = .ok as →
      ∀ a ∈ as, ∃ node, decode node = .ok a
  | .close _, _, h => by
      cases h
      simp
  | .broken _ _, _, h => nomatch h
  | .item value resume rest, as, h => by
      rw [items] at h
      split at h
      · cases h
      · rename_i a ha
        split at h
        · cases h
        · rename_i others hothers
          cases h
          exact List.forall_mem_cons.2 ⟨⟨value, settled_eq_ok_iff.1 ha⟩, decode_of_items hothers⟩

/-- A list is decoded only where there is room for it, and each element from an item. -/
theorem decode_of_list {form : Form} {room : Nat} {node : Node} {as : List α}
    (h : list decode form room node = .ok as) :
    0 < room ∧ ∀ a ∈ as, ∃ item, decode form (room - 1) item = .ok a := by
  unfold list array at h
  split at h
  · split at h
    · cases h
    · rename_i hroom
      exact ⟨Nat.pos_of_ne_zero hroom, decode_of_items h⟩
  all_goals cases h

/-- The items of an array are restored when each of them is. -/
theorem items_eq_ok_iff {fits : α → Nat → Prop} {form : Form} {room : Nat} {values : List Json}
    {as : List α} {found : Items}
    (h : List.Forall₂ (fun value a => decode.Restores value a (fits a)) values as)
    (hfound : ItemsState values found) :
    items (decode form room) found = .ok as ↔ ∀ a ∈ as, fits a room := by
  induction h generalizing found with
  | nil =>
      cases hfound
      simp [items]
  | @cons value a values as ha _ ih =>
      cases hfound with
      | cons resume hitem hrest =>
          have hfirst := ha.decode_iff form room _ hitem
          rw [List.forall_mem_cons, ← hfirst, ← ih hrest, items]
          cases decode form room _ with
          | error trouble => simp [settled]
          | ok b =>
              simp only [settled, map_error_ok]
              cases items (decode form room) _ <;> simp

/-- A list is restored from an array of values from which its members are restored. -/
theorem array_restores {fits : α → Nat → Prop} {values : List Json} {as : List α}
    (h : List.Forall₂ (fun value a => decode.Restores value a (fits a)) values as) :
    (list decode).Restores (.array values) as
      fun room => 0 < room ∧ ∀ a ∈ as, fits a (room - 1) where
  legible := by
    show LegibleItems values
    induction h with
    | nil => trivial
    | cons ha _ ih => exact ⟨ha.legible, ih⟩
  decode_iff := by
    rintro form room _ (_ | _ | _ | _ | ⟨start, hitems⟩)
    rw [list, array]
    split
    · rename_i hroom
      simp [failed, hroom]
    · rename_i hroom
      rw [items_eq_ok_iff h hitems]
      exact ⟨fun hfits => ⟨Nat.pos_of_ne_zero hroom, hfits⟩, And.right⟩

/-- A list is restored if its elements are, one bracket deeper. -/
theorem list_restores {encode : α → Json} {fits : α → Nat → Prop} {as : List α}
    (h : ∀ a ∈ as, decode.Restores (encode a) a (fits a)) :
    (list decode).Restores (.array (as.map encode)) as
      fun room => 0 < room ∧ ∀ a ∈ as, fits a (room - 1) :=
  array_restores (List.forall₂_map_left_iff.2 (List.forall₂_same.2 h))

/-- A set of texts is restored where there is room for a bracket. -/
theorem text_set_restores (set : TextSet) :
    textSet.Restores (.array (set.toList.map .text)) set fun room => 0 < room := by
  have hlist : (list text).Restores (.array (set.toList.map .text)) set.toList
      fun room => 0 < room ∧ ∀ s ∈ set.toList, True := list_restores fun s _ => text_restores s
  refine ⟨hlist.legible, fun form room node hnode => ?_⟩
  have hiff := hlist.decode_iff form room node hnode
  simp only [implies_true, and_true] at hiff
  by_cases hroom : 0 < room
  · refine iff_of_true ?_ hroom
    rw [textSet, Decoder.map, hiff.2 hroom, Except.map, TextSet.of_list_to_list]
  · refine iff_of_false ?_ hroom
    obtain ⟨start, hitems⟩ := hnode
    simp [textSet, Decoder.map, list, array, Nat.eq_zero_of_not_pos hroom, failed, Except.map]

/-- The members of an object are restored when the value of each of them is. -/
theorem entries_eq_ok_iff {encode : α → Json} {fits : α → Nat → Prop} {form : Form} {room : Nat}
    {as : List (String × α)} {found : Members}
    (h : ∀ a ∈ as, decode.Restores (encode a.2) a.2 (fits a.2))
    (hfound : MembersState (as.map fun a => (a.1, encode a.2)) found) :
    entries (decode form room) found = .ok as ↔ ∀ a ∈ as, fits a.2 room := by
  induction as generalizing found with
  | nil =>
      cases hfound
      simp [entries]
  | cons a as ih =>
      obtain ⟨ha, has⟩ := List.forall_mem_cons.1 h
      cases hfound with
      | cons stop resume after hvalue hrest =>
          have hfirst := ha.decode_iff form room _ hvalue
          rw [List.forall_mem_cons, ← hfirst, ← ih has hrest, entries]
          simp [Name.get, bind_eq_ok_iff, Prod.ext_iff]

/-- The names of members are kept. -/
theorem entries_names {form : Form} {room : Nat} {members : List (String × Json)}
    {found : Members} {as : List (String × α)} (hfound : MembersState members found)
    (h : entries (decode form room) found = .ok as) : as.map (·.1) = members.map (·.1) := by
  induction members generalizing found as with
  | nil =>
      cases hfound
      cases h
      rfl
  | cons member members ih =>
      cases hfound with
      | cons stop resume after hvalue hrest =>
          rw [entries] at h
          simp only [Name.get, map_error_ok, bind_eq_ok_iff, settled_eq_ok_iff, Except.ok.injEq,
            exists_eq_left'] at h
          obtain ⟨a, -, as, has, rfl⟩ := h
          rw [List.map_cons, List.map_cons, ih hrest has]

/-- A table is restored if its values are, one bracket deeper. -/
theorem table_restores {encode : α → Json} {fits : α → Nat → Prop} {filled : Table α}
    (h : ∀ entry ∈ filled.entries, decode.Restores (encode entry.2) entry.2 (fits entry.2)) :
    (table decode).Restores (.object (filled.entries.map fun entry => (entry.1, encode entry.2)))
      filled fun room => 0 < room ∧ ∀ entry ∈ filled.entries, fits entry.2 (room - 1) where
  legible := by
    show LegibleMembers (filled.entries.map fun entry => (entry.1, encode entry.2))
    generalize filled.entries = entries at h
    induction entries with
    | nil => trivial
    | cons entry entries ih =>
        obtain ⟨hentry, hentries⟩ := List.forall_mem_cons.1 h
        exact ⟨hentry.legible, ih hentries⟩
  decode_iff := by
    rintro form room _ (_ | _ | _ | _ | _ | ⟨start, hmembers⟩)
    rw [table]
    split
    · rename_i hroom
      simp [failed, hroom]
    · rename_i hroom
      rw [← entries_eq_ok_iff h hmembers, map_eq_ok_iff]
      constructor
      · rintro ⟨as, has, hfilled⟩
        have hnames : as.map (·.1) = filled.entries.map (·.1) := by
          rw [entries_names hmembers has, List.map_map]
          rfl
        have has' := Table.entries_of_list (hnames ▸ filled.ascending_keys)
        rw [hfilled] at has'
        exact ⟨Nat.pos_of_ne_zero hroom, has'.symm ▸ has⟩
      · rintro ⟨-, hentries⟩
        exact ⟨_, hentries, Table.ext (Table.entries_of_list filled.ascending_keys)⟩

/-- A tagged choice is restored from an object with its tag. -/
theorem tagged_restores {title name : String} {variants : List (String × α)} {a : α}
    (h : variants.lookup name = some a) :
    (tagged title variants).Restores (.object [("type", .text name)]) a (0 < ·) where
  legible := ⟨trivial, trivial⟩
  decode_iff := by
    rintro form room _ (_ | _ | _ | _ | _ | ⟨start, ⟨⟩ | ⟨_, _, _, ⟨⟩, ⟨⟩⟩⟩)
    rw [tagged]
    split
    · rename_i hroom
      simp [failed, hroom]
    · rename_i hroom
      refine iff_of_true ?_ (Nat.pos_of_ne_zero hroom)
      simp [taggedMembers, taggedMembers.tagValue, Name.get, textNamed, scalar, variantAt, variant,
        h, bind_eq_ok_iff]

/-- A refined decoder succeeds if the decoder does and its value passes the check. -/
theorem refine_eq_ok_iff {β : Type} {check : α → Except String β} {form : Form} {room : Nat}
    {node : Node} {b : β} : refine check decode form room node = .ok b ↔
      ∃ a, decode form room node = .ok a ∧ check a = .ok b := by
  rw [refine]
  cases decode form room node with
  | error trouble => simp
  | ok a => cases hcheck : check a <;> simp [hcheck, unfit]

end Combinations

end Decoder

/-! ### Texts -/

/-- A value is decoded from the text of its form exactly when the room for a text fits. -/
theorem decode_text_render_iff {α : Type} {decode : Decoder α} {value : Json} {a : α}
    {fits : Nat → Prop} {style : Style} (hstyle : style.Blank)
    (h : decode.Restores value a fits) :
    decodeText decode (value.render style) = .ok a ↔ fits textRoom := by
  obtain ⟨hroot, hexcess⟩ := read_render hstyle h.legible
  rw [← h.decode_iff .text textRoom _ hroot]
  simp only [decodeText, hexcess]
  cases decode .text textRoom (Document.read (value.render style).toList).root <;> simp

/-- Whatever a text is decoded as has been decoded from its root. -/
theorem decode_of_decode_text {α : Type} {decode : Decoder α} {source : String} {a : α}
    (h : decodeText decode source = .ok a) :
    decode .text textRoom (Document.read source.toList).root = .ok a := by
  unfold decodeText at h
  simp only at h
  split at h
  · cases h
  · rename_i b hdecode
    split at h
    · rw [hdecode, Except.ok.inj h]
    · cases h

end TileCourse.Json
