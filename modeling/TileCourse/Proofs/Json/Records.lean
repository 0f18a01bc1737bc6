import TileCourse.Proofs.Json.Decoding

/-!
# Records in JSON

What the decoder of a record makes of an object. Each member gives its value to the field that
answers to its name; a field without a member has its default. `Plan.Stated.object_restores` says
when a record is decoded from members that state it, as those of its own form do, and
`Plan.reaches_of_decode` what is known of a record that was decoded from anything at all.
-/

namespace TileCourse.Json

/-- A field answers to the name under which it is written. -/
@[simp] theorem Field.answers_to_name {R α : Type} (field : Field R α) :
    field.answersTo field.name = true := by
  simp [answersTo]

namespace Plan

variable {R : Type}

/-- The names under which the fields are written. -/
def names {κ : Type} : Plan R κ → List String
  | .nil => []
  | .cons field rest => field.name :: rest.names

/-- A record has the values of another one in the fields that are restored in a room. -/
def Retains (record : R) (room : Nat) (found : R) {κ : Type} : Plan R κ → Prop
  | .nil => True
  | .cons field rest =>
      (∀ {value fits}, field.encode (field.get record) = some value →
        field.decode.Restores value (field.get record) fits → fits room →
          field.get found = field.get record) ∧ rest.Retains record room found

/-- A property holds of every record that is made of values for the fields. -/
def Always {κ : Type} : Plan R κ → κ → (R → Prop) → Prop
  | .nil, made, P => P made
  | .cons _ rest, make, P => ∀ a, rest.Always (make a) P

/-- No field takes the name of a later one, and every record that is made has the values of which
it is made. -/
def Sound {κ : Type} : Plan R κ → κ → Prop
  | .nil, _ => True
  | .cons field rest, make =>
      (∀ name ∈ rest.names, field.answersTo name = false) ∧
        ∀ a, rest.Always (make a) (fun record => field.get record = a) ∧ rest.Sound (make a)

/-- A value that a field may have in a record that is decoded: one that is decoded from a node, or a
default. -/
def Offers {α : Type} (field : Field R α) (form : Form) (room : Nat) (a : α) : Prop :=
  (∃ node, field.decode form room node = .ok a) ∨ field.whenMissing = some a ∨
    field.whenShort = some a

/-- A record is made of values that its fields may have. -/
def Reaches (form : Form) (room : Nat) {κ : Type} : Plan R κ → κ → R → Prop
  | .nil, made, record => made = record
  | .cons field rest, make, record =>
      ∃ a, Offers field form room a ∧ rest.Reaches form room (make a) record

/-- The values that have been met are values that the fields may have. -/
def Held (form : Form) (room : Nat) {κ : Type} : (plan : Plan R κ) → plan.Slots → Prop
  | .nil, _ => True
  | .cons (α := α) field rest, slots =>
      let (slot, others) : Option α × rest.Slots := slots
      (∀ a, slot = some a → Offers field form room a) ∧ rest.Held form room others

section Reaching

variable {form : Form} {room : Nat} {κ : Type} {plan : Plan R κ} {make : κ} {record : R}

/-- What always holds of records that are made holds of one that is reached. -/
theorem Reaches.always {P : R → Prop} (h : plan.Reaches form room make record)
    (hP : plan.Always make P) : P record := by
  induction plan with
  | nil => exact h ▸ hP
  | cons field rest ih =>
      obtain ⟨a, -, h⟩ := h
      exact ih h (hP a)

/-- Before any member has been met nothing is held. -/
theorem held_no_slots : ∀ {κ : Type} {plan : Plan R κ}, plan.Held form room plan.noSlots
  | _, .nil => trivial
  | _, .cons _ _ => ⟨by simp, held_no_slots⟩

/-- A value that is met for a field is one that the field may have. -/
theorem held_put {name : String} {value : Node} {slots slots' : plan.Slots}
    (hslots : plan.Held form room slots)
    (h : plan.put form room name value slots = .ok slots') : plan.Held form room slots' := by
  induction plan with
  | nil => trivial
  | cons field rest ih =>
      obtain ⟨slot, others⟩ := slots
      obtain ⟨hslot, hothers⟩ := hslots
      simp only [put] at h
      split at h
      · split at h
        · rename_i a hdecode
          cases h
          exact ⟨fun _ hsome => .inl ⟨value, Option.some.inj hsome ▸ hdecode⟩, hothers⟩
        · cases h
      · split at h
        · rename_i hput
          cases h
          exact ⟨hslot, ih hothers hput⟩
        · cases h

/-- A record that is finished is made of values that its fields may have. -/
theorem reaches_of_finish {slots : plan.Slots} (hslots : plan.Held form room slots)
    (h : plan.finish slots make = .ok record) : plan.Reaches form room make record := by
  induction plan with
  | nil => exact Except.ok.inj h
  | cons field rest ih =>
      obtain ⟨slot, others⟩ := slots
      obtain ⟨hslot, hothers⟩ := hslots
      simp only [finish] at h
      split at h
      · exact ⟨_, hslot _ rfl, ih hothers h⟩
      · split at h
        · rename_i hmissing
          exact ⟨_, .inr (.inl hmissing), ih hothers h⟩
        · cases h

/-- A record that members make is made of values that its fields may have. -/
theorem reaches_of_members :
    ∀ {found : Members} {slots : plan.Slots}, plan.Held form room slots →
      plan.ofMembers make form room found slots = .ok record →
        plan.Reaches form room make record
  | .close _, _, hslots, h => reaches_of_finish hslots (map_error_eq_ok_iff.1 h)
  | .broken _ _, _, _, h | .noName _, _, _, h | .brokenName _ _, _, _, h => nomatch h
  | .noColon name fault, slots, _, h => by
      rw [ofMembers] at h
      obtain ⟨key, -, h⟩ := bind_eq_ok_iff.1 h
      split at h <;> cases h
  | .member name value after rest, slots, hslots, h => by
      rw [ofMembers] at h
      obtain ⟨key, -, h⟩ := bind_eq_ok_iff.1 h
      split at h
      · cases h
      · obtain ⟨-, -, h⟩ := bind_eq_ok_iff.1 h
        exact reaches_of_members hslots h
      · obtain ⟨slots', hput, h⟩ := bind_eq_ok_iff.1 h
        exact reaches_of_members (held_put hslots (settled_eq_ok_iff.1 hput)) h

/-- A record of which all further fields have defaults is made of values they may have. -/
theorem reaches_of_finish_short {wanted : String} {position : Nat}
    (h : plan.finishShort wanted position make = .ok record) :
    plan.Reaches form room make record := by
  induction plan generalizing position with
  | nil => exact Except.ok.inj h
  | cons field rest ih =>
      rw [finishShort] at h
      split at h
      · rename_i hshort
        exact ⟨_, .inr (.inr hshort), ih h⟩
      · cases h

/-- A record that items make is made of values that its fields may have. -/
theorem reaches_of_items {wanted : String} {position : Nat} {found : Items}
    (h : plan.ofItems form room wanted position make found = .ok record) :
    plan.Reaches form room make record := by
  induction plan generalizing position found with
  | nil =>
      simp only [ofItems, endItems.eq_def] at h
      split at h
      · exact Except.ok.inj h
      · cases h
      · split at h <;> cases h
  | cons field rest ih =>
      simp only [ofItems] at h
      split at h
      · exact reaches_of_finish_short (map_error_eq_ok_iff.1 h)
      · cases h
      · obtain ⟨a, ha, h⟩ := bind_eq_ok_iff.1 h
        exact ⟨a, .inl ⟨_, settled_eq_ok_iff.1 ha⟩, ih h⟩

/-- A record that is decoded is made of what its fields decode, inside its brackets, and of
defaults. -/
theorem reaches_of_decode {title : String} {node : Node}
    (h : plan.decoder title make form room node = .ok record) :
    plan.Reaches form (room - 1) make record := by
  unfold decoder at h
  split at h
  · split at h
    · cases h
    · exact reaches_of_members held_no_slots h
  · split at h
    · cases h
    · exact reaches_of_items h
  all_goals cases h

/-- A record that is decoded stands in brackets of its own. -/
theorem room_of_decode {title : String} {node : Node}
    (h : plan.decoder title make form room node = .ok record) : 0 < room := by
  unfold decoder at h
  split at h
  · split at h
    · cases h
    · omega
  · split at h
    · cases h
    · omega
  all_goals cases h

end Reaching

section Steps

variable {α κ : Type} {field : Field R α} {rest : Plan R κ} {make : α → κ} {form : Form}
  {room : Nat} {members : List (String × Json)} {found : Members}

/-- The state of a name that the first field does not answer to is the one among the others. -/
theorem state_skip {slot : Option α} {others : rest.Slots} {name : String}
    (h : field.answersTo name = false) :
    (Plan.cons field rest).state (slot, others) name = rest.state others name := by
  simp [state, h]

/-- A value under a name that the first field does not answer to is put among the others. -/
theorem put_skip {slot : Option α} {others : rest.Slots} {name : String} {value : Node}
    (h : field.answersTo name = false) :
    (Plan.cons field rest).put form room name value (slot, others) =
      (rest.put form room name value others).map fun others => (slot, others) := by
  simp only [put, h, Bool.false_eq_true, if_false]
  cases rest.put form room name value others <;> rfl

/-- Whether the members of a complete object have names for which a field does not stand. -/
def avoids (field : Field R α) : Members → Bool
  | .close _ => true
  | .member ⟨.ok key, _, _⟩ _ _ rest => !field.answersTo key && avoids field rest
  | _ => false

/-- Members that state others avoid a field if none of the names is its own. -/
theorem avoids_of_states (hfound : MembersState members found)
    (h : ∀ member ∈ members, field.answersTo member.1 = false) : avoids field found = true := by
  induction members generalizing found with
  | nil =>
      cases hfound
      rfl
  | cons member members ih =>
      obtain ⟨hmember, hmembers⟩ := List.forall_mem_cons.1 h
      cases hfound with
      | cons stop resume after hvalue hrest =>
          rw [avoids, hmember, ih hrest hmembers]
          rfl

/-- Members that do not belong to a field leave its value as it is. -/
theorem of_members_skip {slot : Option α} {a : α} (hslot : slot.or field.whenMissing = some a) :
    ∀ {found : Members} {others : rest.Slots}, avoids field found = true →
      (Plan.cons field rest).ofMembers make form room found (slot, others) =
        rest.ofMembers (make a) form room found others
  | .close stop, others, _ => by
      cases slot with
      | some b =>
          cases hslot
          rfl
      | none =>
          rw [Option.none_or] at hslot
          simp only [ofMembers, finish, hslot]
  | .member ⟨.ok key, stop, resume⟩ node after more, others, h => by
      rw [avoids, Bool.and_eq_true, Bool.not_eq_true'] at h
      obtain ⟨hkey, hmore⟩ := h
      simp only [ofMembers, Name.get, map_error_ok, bind, Except.bind, state_skip hkey,
        put_skip hkey]
      split
      · rfl
      · rw [of_members_skip hslot hmore]
      · cases rest.put form room key node others with
        | error trouble => rfl
        | ok others => exact of_members_skip hslot hmore

variable {P : R → Prop}

/-- A record whose first member states the first field, which no other member does. -/
theorem written_iff {key : String} {stop resume after : Nat} {node : Node} {others : Members}
    {Q : α → Prop} (hkey : field.answersTo key = true) (hothers : avoids field others = true)
    (hrest : ∀ a, (∃ record, rest.ofMembers (make a) form room others rest.noSlots = .ok record ∧
      P record) ↔ Q a) :
    (∃ record, (Plan.cons field rest).ofMembers make form room
        (.member ⟨.ok key, stop, resume⟩ node after others) (Plan.cons field rest).noSlots =
          .ok record ∧ P record) ↔
      ∃ a, field.decode form room node = .ok a ∧ Q a := by
  simp only [ofMembers, Name.get, map_error_ok, bind_eq_ok_iff, Except.ok.injEq,
    exists_eq_left', noSlots, state, put, hkey, if_true, Option.isSome_none,
    Bool.false_eq_true, if_false, settled_eq_ok_iff, ← hrest]
  cases field.decode form room node with
  | error trouble => simp
  | ok a =>
      have hskip : (Plan.cons field rest).ofMembers make form room others (some a, rest.noSlots) =
          rest.ofMembers (make a) form room others rest.noSlots := of_members_skip rfl hothers
      constructor
      · rintro ⟨record, ⟨_, ⟨⟩, h⟩, hrecord⟩
        exact ⟨a, rfl, record, hskip.symm.trans h, hrecord⟩
      · rintro ⟨_, ⟨⟩, record, h, hrecord⟩
        exact ⟨record, ⟨_, rfl, hskip.trans h⟩, hrecord⟩

/-- A record whose first field is stated by no member. -/
theorem absent_iff {a : α} {Q : Prop} (hmissing : field.whenMissing = some a)
    (hfound : avoids field found = true)
    (hrest : (∃ record, rest.ofMembers (make a) form room found rest.noSlots = .ok record ∧
      P record) ↔ Q) :
    (∃ record, (Plan.cons field rest).ofMembers make form room found
      (Plan.cons field rest).noSlots = .ok record ∧ P record) ↔ Q := by
  have hskip : (Plan.cons field rest).ofMembers make form room found (none, rest.noSlots) =
      rest.ofMembers (make a) form room found rest.noSlots :=
    of_members_skip (Option.none_or.trans hmissing) hfound
  exact hskip ▸ hrest

/-- A record of which no field is left. -/
theorem done_iff {made : R} {stop : Nat} :
    (∃ record, (Plan.nil : Plan R R).ofMembers made form room (.close stop) Plan.nil.noSlots =
      .ok record ∧ P record) ↔ P made := by
  simp [ofMembers, finish]

end Steps

/-- Each field of a record is restored from its value, or is not written and has its value as the
default. -/
inductive Restored (record : R) : {κ : Type} → Plan R κ → (Nat → Prop) → Prop where
  | nil : Restored record .nil fun _ => True
  | written {α κ : Type} {field : Field R α} {rest : Plan R κ} {value : Json}
      {fits others : Nat → Prop} (hvalue : field.encode (field.get record) = some value)
      (hfield : field.decode.Restores value (field.get record) fits)
      (hrest : Restored record rest others) :
      Restored record (.cons field rest) fun room => fits room ∧ others room
  | absent {α κ : Type} {field : Field R α} {rest : Plan R κ} {others : Nat → Prop}
      (hvalue : field.encode (field.get record) = none)
      (hmissing : field.whenMissing = some (field.get record))
      (hrest : Restored record rest others) : Restored record (.cons field rest) others

/-- Some members state a record: in the order of the fields, each field is restored from the one
member whose name stands for it, or no name does and the field has its value as the default. -/
inductive Stated (record : R) :
    {κ : Type} → Plan R κ → List (String × Json) → (Nat → Prop) → Prop where
  | nil : Stated record .nil [] fun _ => True
  | written {α κ : Type} {field : Field R α} {rest : Plan R κ} {name : String} {value : Json}
      {stated : List (String × Json)} {fits others : Nat → Prop}
      (hname : field.answersTo name = true)
      (hothers : ∀ member ∈ stated, field.answersTo member.1 = false)
      (hfield : field.decode.Restores value (field.get record) fits)
      (hrest : Stated record rest stated others) :
      Stated record (.cons field rest) ((name, value) :: stated) fun room =>
        fits room ∧ others room
  | absent {α κ : Type} {field : Field R α} {rest : Plan R κ} {stated : List (String × Json)}
      {others : Nat → Prop} (hothers : ∀ member ∈ stated, field.answersTo member.1 = false)
      (hmissing : field.whenMissing = some (field.get record))
      (hrest : Stated record rest stated others) :
      Stated record (.cons field rest) stated others

variable {κ : Type} {plan : Plan R κ} {make : κ} {record : R} {fits : Nat → Prop}

/-- The members of a record have names of fields. -/
theorem mem_names {member : String × Json} (h : member ∈ plan.members record) :
    member.1 ∈ plan.names := by
  induction plan with
  | nil => simp [members] at h
  | cons field rest ih =>
      rw [members] at h
      rw [names]
      split at h
      · rcases List.mem_cons.1 h with rfl | h
        · exact List.mem_cons_self
        · exact List.mem_cons_of_mem _ (ih h)
      · exact List.mem_cons_of_mem _ (ih h)

/-- The form of a record states its fields under the names under which they are written. -/
theorem Restored.stated (h : plan.Restored record fits) (hsound : plan.Sound make) :
    plan.Stated record (plan.members record) fits := by
  induction h with
  | nil => exact .nil
  | @written α κ field rest value fits others hvalue hfield hrest ih =>
      obtain ⟨hnames, hsound⟩ := hsound
      rw [members, hvalue]
      exact .written field.answers_to_name (fun _ hmember => hnames _ (mem_names hmember))
        hfield (ih (hsound (field.get record)).2)
  | @absent α κ field rest others hvalue hmissing hrest ih =>
      obtain ⟨hnames, hsound⟩ := hsound
      rw [members, hvalue]
      exact .absent (fun _ hmember => hnames _ (mem_names hmember)) hmissing
        (ih (hsound (field.get record)).2)

/-- Members that state a record are legible. -/
theorem Stated.legible {stated : List (String × Json)} (h : plan.Stated record stated fits) :
    LegibleMembers stated := by
  induction h with
  | nil => trivial
  | written _ _ hfield _ ih => exact ⟨hfield.legible, ih⟩
  | absent _ _ _ ih => exact ih

/-- Members that state a record make the record exactly if there is room. -/
theorem Stated.of_members_iff {stated : List (String × Json)}
    (h : plan.Stated record stated fits) (form : Form) (room : Nat) {found : Members}
    (hsound : plan.Sound make) (hmake : plan.rebuild record make = record)
    (hfound : MembersState stated found) :
    (∃ r, plan.ofMembers make form room found plan.noSlots = .ok r ∧ r = record) ↔
      fits room := by
  induction h generalizing found with
  | nil =>
      cases hfound
      exact done_iff.trans (iff_of_true hmake trivial)
  | @written α κ field rest name value stated fits others hname hothers hfield hrest ih =>
      obtain ⟨-, hsound⟩ := hsound
      cases hfound with
      | cons stop resume after hnode hmore =>
          refine (written_iff hname (avoids_of_states hmore hothers) fun a => Iff.rfl).trans
            (Iff.trans ?_ (and_congr (hfield.decode_iff form room _ hnode)
              (ih (hsound _).2 hmake hmore)))
          constructor
          · rintro ⟨a, ha, _, hrecord, rfl⟩
            obtain rfl := (reaches_of_members held_no_slots hrecord).always (hsound a).1
            exact ⟨ha, _, hrecord, rfl⟩
          · rintro ⟨ha, hrecord⟩
            exact ⟨_, ha, hrecord⟩
  | absent hothers hmissing hrest ih =>
      obtain ⟨-, hsound⟩ := hsound
      exact absent_iff hmissing (avoids_of_states hfound hothers) (ih (hsound _).2 hmake hfound)

/-- A record that is decoded from the members of another one retains what is restored. -/
theorem Restored.retains_of_members (h : plan.Restored record fits) (form : Form) (room : Nat)
    {found : Members} {r : R} (hsound : plan.Sound make)
    (hfound : MembersState (plan.members record) found)
    (hr : plan.ofMembers make form room found plan.noSlots = .ok r) :
    plan.Retains record room r := by
  induction h generalizing found with
  | nil => trivial
  | @written α κ field rest value fits others hvalue hfield hrest ih =>
      obtain ⟨hnames, hsound⟩ := hsound
      rw [members, hvalue] at hfound
      cases hfound with
      | cons stop resume after hnode hmore =>
          have hothers := avoids_of_states hmore fun member hmember =>
            hnames _ (mem_names hmember)
          obtain ⟨a, ha, _, hrecord, rfl⟩ := (written_iff (P := (· = r))
            field.answers_to_name hothers fun a => Iff.rfl).1 ⟨r, hr, rfl⟩
          refine ⟨fun hencode hrestores hroom => ?_, ih (hsound a).2 hmore hrecord⟩
          rw [hvalue] at hencode
          cases hencode
          have hget := (reaches_of_members held_no_slots hrecord).always (hsound a).1
          have hrestored := (hrestores.decode_iff form room _ hnode).2 hroom
          rw [hget]
          exact Except.ok.inj (ha.symm.trans hrestored)
  | @absent α κ field rest others hvalue hmissing hrest ih =>
      obtain ⟨hnames, hsound⟩ := hsound
      rw [members, hvalue] at hfound
      obtain ⟨_, hrecord, rfl⟩ := (absent_iff (P := (· = r)) hmissing
        (avoids_of_states hfound fun member hmember => hnames _ (mem_names hmember))
        Iff.rfl).1 ⟨r, hr, rfl⟩
      refine ⟨fun hencode => ?_, ih (hsound _).2 hfound hrecord⟩
      rw [hvalue] at hencode
      cases hencode

/-- An object is decoded as a record by way of its members, inside its braces. -/
theorem decoder_object_iff {title : String} {form : Form} {room start : Nat} {found : Members} :
    plan.decoder title make form room (.object start found) = .ok record ↔
      0 < room ∧ plan.ofMembers make form (room - 1) found plan.noSlots = .ok record := by
  rw [decoder]
  by_cases hroom : room = 0
  · simp [hroom, failed]
  · simp [hroom, Nat.pos_of_ne_zero hroom]

/-- A record is restored from members that state it, with room for the braces around them. -/
theorem Stated.object_restores (title : String) {stated : List (String × Json)}
    (h : plan.Stated record stated fits) (hsound : plan.Sound make)
    (hmake : plan.rebuild record make = record) :
    (plan.decoder title make).Restores (.object stated) record
      fun room => 0 < room ∧ fits (room - 1) where
  legible := h.legible
  decode_iff := by
    rintro form room _ (_ | _ | _ | _ | _ | ⟨start, hmembers⟩)
    have hiff := h.of_members_iff form (room - 1) hsound hmake hmembers
    rw [decoder_object_iff, ← hiff]
    simp

/-- A record is restored from its own form when its fields are. -/
theorem record_restores (title : String) (h : plan.Restored record fits) (hsound : plan.Sound make)
    (hmake : plan.rebuild record make = record) :
    (plan.decoder title make).Restores (plan.encoder record) record
      fun room => 0 < room ∧ fits (room - 1) :=
  (h.stated hsound).object_restores title hsound hmake

/-- A record that is decoded from the form of another one retains what is restored. -/
theorem retains_of_decode (title : String) (h : plan.Restored record fits)
    (hsound : plan.Sound make) {form : Form} {room : Nat} {node : Node} {r : R}
    (hnode : States (plan.encoder record) node)
    (hr : plan.decoder title make form room node = .ok r) :
    plan.Retains record (room - 1) r := by
  obtain _ | _ | _ | _ | _ | ⟨start, hmembers⟩ := hnode
  exact h.retains_of_members form (room - 1) hsound hmembers (decoder_object_iff.1 hr).2

end Plan

end TileCourse.Json
