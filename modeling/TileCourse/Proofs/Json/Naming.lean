import TileCourse.Proofs.Json.Brackets
import TileCourse.Proofs.Json.Records

/-!
# Fields under other names

A field may be stated under any of its names, but only once. `Naming` says which names of a value
stand for which fields, in all records inside it; `Respelt` is a value with other names for some of
its fields, and `Doubles` one that states a field twice. A decoder keeps a value if it decodes every
spelling of its form as the value, and it shuns what states a field twice. The lemmas follow the
plans of records, so both come out of what the decoders of the fields do: `Plan.Kept.keeps` and
`Plan.shuns`.
-/

namespace TileCourse.Json

/-- The names in a value that stand for fields. -/
inductive Naming where
  /-- No name in the value stands for a field of interest. -/
  | plain
  /-- The names are those in the items of an array. -/
  | each (item : Naming)
  /-- The value is a record. A name may stand for a field, which is called by the name under which
  it is written, and there may be names inside its value. -/
  | record (field? : String → Option String) (inside : String → Naming)

mutual

/-- A value in which some fields have other names. -/
inductive Respelt : Naming → Json → Json → Prop where
  | same (naming : Naming) (value : Json) : Respelt naming value value
  | array {item : Naming} {values respelt : List Json} (h : ItemsRespelt item values respelt) :
      Respelt (.each item) (.array values) (.array respelt)
  | object {field? : String → Option String} {inside : String → Naming}
      {members respelt : List (String × Json)} (h : MembersRespelt field? inside members respelt) :
      Respelt (.record field? inside) (.object members) (.object respelt)

/-- Items in which some fields have other names. -/
inductive ItemsRespelt : Naming → List Json → List Json → Prop where
  | nil (item : Naming) : ItemsRespelt item [] []
  | cons {item : Naming} {value other : Json} {values others : List Json}
      (hvalue : Respelt item value other) (hrest : ItemsRespelt item values others) :
      ItemsRespelt item (value :: values) (other :: others)

/-- Members of which some have other names that stand for the same fields. -/
inductive MembersRespelt : (String → Option String) → (String → Naming) →
    List (String × Json) → List (String × Json) → Prop where
  | nil (field? : String → Option String) (inside : String → Naming) :
      MembersRespelt field? inside [] []
  | cons {field? : String → Option String} {inside : String → Naming} {field name other : String}
      {value respelt : Json} {members others : List (String × Json)}
      (hname : field? name = some field) (hother : field? other = some field)
      (hvalue : Respelt (inside field) value respelt)
      (hrest : MembersRespelt field? inside members others) :
      MembersRespelt field? inside ((name, value) :: members) ((other, respelt) :: others)

end

/-- Somewhere in a value a record states a field twice, be it under two names or under one. -/
inductive Doubles : Naming → Json → Prop where
  | item {item : Naming} {values : List Json} {value : Json} (hmem : value ∈ values)
      (h : Doubles item value) : Doubles (.each item) (.array values)
  | inside {field? : String → Option String} {inside : String → Naming}
      {members : List (String × Json)} {name field : String} {value : Json}
      (hmem : (name, value) ∈ members) (hname : field? name = some field)
      (h : Doubles (inside field) value) : Doubles (.record field? inside) (.object members)
  | here {field? : String → Option String} {inside : String → Naming}
      (before between after : List (String × Json)) {name other field : String} (value more : Json)
      (hname : field? name = some field) (hother : field? other = some field) :
      Doubles (.record field? inside)
        (.object (before ++ (name, value) :: (between ++ (other, more) :: after)))

namespace Decoder

variable {α : Type} {decode : Decoder α} {value : Json} {a : α} {P : Prop}

/-- Every spelling of a value is decoded as the same thing, if a property holds, exactly where there
is room for the value. -/
def Keeps (decode : Decoder α) (naming : Naming) (value : Json) (a : α) (P : Prop) : Prop :=
  ∀ respelt, Respelt naming value respelt →
    decode.Restores respelt a fun room => value.depth ≤ room ∧ P

/-- Nothing that states a field twice is decoded. -/
def Shuns (decode : Decoder α) (naming : Naming) : Prop :=
  ∀ value, Doubles naming value → ∀ form room node, States value node →
    ∀ a, decode form room node ≠ .ok a

/-- What keeps a value under a property keeps it under the same property in other words. -/
theorem Keeps.congr {naming : Naming} {Q : Prop} (h : decode.Keeps naming value a P) (hPQ : P ↔ Q) :
    decode.Keeps naming value a Q := fun respelt hrespelt =>
  (h respelt hrespelt).congr fun _ => and_congr_right fun _ => hPQ

/-- A value without names of interest has one spelling only. -/
theorem Restores.keeps {fits : Nat → Prop} (h : decode.Restores value a fits)
    (hfits : ∀ room, fits room ↔ value.depth ≤ room ∧ P) : decode.Keeps .plain value a P := by
  rintro _ ⟨⟩
  exact h.congr hfits

/-- A value that is restored in any room is a scalar. -/
theorem Restores.keeps_scalar (h : decode.Restores value a fun _ => True)
    (hdepth : value.depth = 0) : decode.Keeps .plain value a True :=
  h.keeps fun room => by simp [hdepth]

/-- What keeps a value under any names keeps it under its own. -/
theorem Keeps.plain {naming : Naming} (h : decode.Keeps naming value a P) :
    decode.Keeps .plain value a P := by
  rintro _ ⟨⟩
  exact h value (.same naming value)

/-- Nothing is stated twice where no names stand for fields. -/
theorem shuns_plain (decode : Decoder α) : decode.Shuns .plain := fun _ h => nomatch h

/-- What is there is kept also where it might be absent. -/
theorem Keeps.optional (h : decode.Keeps .plain value a P) (hne : value ≠ .null) :
    (optional decode).Keeps .plain value (some a) P := by
  rintro _ ⟨⟩
  exact (h value (.same .plain value)).optional hne

/-- The spellings of the items of an array are those of each of them. -/
theorem restores_of_items_respelt {item : Naming} {encode : α → Json} {P : α → Prop} {as : List α}
    {respelt : List Json} (h : ∀ a ∈ as, decode.Keeps item (encode a) a (P a))
    (hrespelt : ItemsRespelt item (as.map encode) respelt) :
    List.Forall₂ (fun value a => decode.Restores value a fun room =>
      (encode a).depth ≤ room ∧ P a) respelt as := by
  induction as generalizing respelt with
  | nil =>
      cases hrespelt
      exact .nil
  | cons a as ih =>
      obtain ⟨ha, has⟩ := List.forall_mem_cons.1 h
      cases hrespelt with
      | cons hvalue hrest => exact .cons (ha _ hvalue) (ih has hrest)

/-- Items are a spelling of themselves. -/
theorem items_respelt_same (item : Naming) : ∀ values : List Json, ItemsRespelt item values values
  | [] => .nil item
  | value :: rest => .cons (.same item value) (items_respelt_same item rest)

/-- A list is kept if its elements are. -/
theorem list_keeps {item : Naming} {encode : α → Json} {P : α → Prop} {as : List α}
    (h : ∀ a ∈ as, decode.Keeps item (encode a) a (P a)) :
    (list decode).Keeps (.each item) (.array (as.map encode)) as (∀ a ∈ as, P a) := by
  intro value hvalue
  obtain ⟨values, rfl, hvalues⟩ : ∃ values, value = .array values ∧
      ItemsRespelt item (as.map encode) values := by
    cases hvalue with
    | same => exact ⟨_, rfl, items_respelt_same item _⟩
    | array h => exact ⟨_, rfl, h⟩
  refine (array_restores (restores_of_items_respelt h hvalues)).congr fun room => ?_
  rw [Json.depth]
  constructor
  · rintro ⟨hroom, hitems⟩
    refine ⟨Nat.add_le_of_le_sub hroom (items_depth_le_iff.2 ?_), fun a ha => (hitems a ha).2⟩
    exact List.forall_mem_map.2 fun a ha => (hitems a ha).1
  · rintro ⟨hdepth, hP⟩
    have hitems := List.forall_mem_map.1 (items_depth_le_iff.1 (Nat.le_sub_of_add_le hdepth))
    exact ⟨by omega, fun a ha => ⟨hitems a ha, hP a ha⟩⟩

/-- A set of texts is kept. -/
theorem text_set_keeps (set : TextSet) :
    textSet.Keeps .plain (.array (set.toList.map .text)) set True :=
  (text_set_restores set).keeps fun room => by
    have hitems : Json.itemsDepth (set.toList.map .text) = 0 := by
      refine Nat.le_zero.1 (items_depth_le_iff.2 (List.forall_mem_map.2 fun s _ => ?_))
      exact Nat.le_refl 0
    rw [Json.depth, hitems, and_true]
    exact Iff.rfl

/-- Every item of an array that is decoded has been decoded. -/
theorem decode_of_items_state {decode : Node → Except Trouble α} {values : List Json}
    {found : Items} {as : List α} (hfound : ItemsState values found)
    (h : items decode found = .ok as) :
    ∀ value ∈ values, ∃ node a, States value node ∧ decode node = .ok a := by
  induction values generalizing found as with
  | nil => exact fun _ hmem => nomatch hmem
  | cons value values ih =>
      cases hfound with
      | @cons resume _ _ node others hnode hrest =>
          rw [items] at h
          split at h
          · cases h
          · rename_i a ha
            split at h
            · cases h
            · rename_i others hothers
              exact List.forall_mem_cons.2
                ⟨⟨node, a, hnode, settled_eq_ok_iff.1 ha⟩, ih hrest hothers⟩

/-- A list with an element that states a field twice is refused. -/
theorem list_shuns {item : Naming} (h : decode.Shuns item) :
    (list decode).Shuns (.each item) := by
  rintro _ ⟨hmem, hdoubles⟩ form room _ (_ | _ | _ | _ | ⟨start, hitems⟩) as has
  rw [list, array] at has
  split at has
  · cases has
  · obtain ⟨node, a, hnode, ha⟩ := decode_of_items_state hitems has _ hmem
    exact h _ hdoubles form _ node hnode a ha

end Decoder

namespace Plan

variable {R : Type}

/-- The field that a name stands for. -/
def fieldOf? {κ : Type} : Plan R κ → String → Option String
  | .nil, _ => none
  | .cons field rest, name =>
    if field.answersTo name then some field.name else rest.fieldOf? name

/-- Fields are stated under other names as well, which are listed with their fields. -/
def Knows {κ : Type} (plan : Plan R κ) (others : List (String × String)) : Prop :=
  ∀ other ∈ others, plan.fieldOf? other.1 = some other.2

instance {κ : Type} (plan : Plan R κ) (others : List (String × String)) :
    Decidable (plan.Knows others) :=
  inferInstanceAs (Decidable (∀ other ∈ others, _))

/-- No field takes the name of a later one. -/
def Distinct {κ : Type} : Plan R κ → Prop
  | .nil => True
  | .cons field rest => (∀ name ∈ rest.names, field.answersTo name = false) ∧ rest.Distinct

section Fields

variable {α κ : Type} {field : Field R α} {rest : Plan R κ} {plan : Plan R κ} {name f : String}

/-- A name that the first field answers to stands for the first field. -/
theorem field_of_first (h : field.answersTo name = true) :
    (Plan.cons field rest).fieldOf? name = some field.name := if_pos h

/-- Any other name stands for the field it stands for among the others. -/
theorem field_of_rest (h : field.answersTo name = false) :
    (Plan.cons field rest).fieldOf? name = rest.fieldOf? name := if_neg (by simp [h])

/-- A field for which a name stands is a field of the plan. -/
theorem mem_names_of_field (h : plan.fieldOf? name = some f) : f ∈ plan.names := by
  induction plan with
  | nil => cases h
  | cons field rest ih =>
      rw [fieldOf?] at h
      split at h
      · cases h
        exact List.mem_cons_self
      · exact List.mem_cons_of_mem _ (ih h)

/-- A name that stands for a later field does not stand for the first one. -/
theorem field_of_later (hdistinct : (Plan.cons field rest).Distinct) (hf : f ∈ rest.names)
    (h : (Plan.cons field rest).fieldOf? name = some f) :
    field.answersTo name = false ∧ rest.fieldOf? name = some f := by
  by_cases hname : field.answersTo name = true
  · rw [field_of_first hname] at h
    cases h
    exact absurd field.answers_to_name (by simp [hdistinct.1 _ hf])
  · have hname := Bool.eq_false_iff.2 hname
    exact ⟨hname, (field_of_rest hname).symm.trans h⟩

/-- A name stands for the first field exactly if the field answers to it. -/
theorem answers_of_first (hdistinct : (Plan.cons field rest).Distinct)
    (h : (Plan.cons field rest).fieldOf? name = some field.name) :
    field.answersTo name = true := by
  by_contra hname
  rw [field_of_rest (Bool.eq_false_iff.2 hname)] at h
  exact absurd (hdistinct.1 _ (mem_names_of_field h)) (by simp)

/-- The name under which a field is written stands for the field. -/
theorem field_of_mem_names (hdistinct : plan.Distinct) (hname : name ∈ plan.names) :
    plan.fieldOf? name = some name := by
  induction plan with
  | nil => cases hname
  | cons field rest ih =>
      rcases List.mem_cons.1 hname with rfl | hlater
      · exact field_of_first field.answers_to_name
      · rw [field_of_rest (hdistinct.1 _ hlater), ih hdistinct.2 hlater]

/-- In a sound plan no field takes the name of a later one. -/
theorem Sound.distinct {make : κ} (h : plan.Sound make) (record : R) : plan.Distinct := by
  induction plan with
  | nil => trivial
  | cons field rest ih => exact ⟨h.1, ih (h.2 (field.get record)).2⟩

end Fields

/-! ### Other names -/

/-- The fields of a record are kept, under names as in a record, if a property holds. -/
inductive Kept (record : R) (inside : String → Naming) : {κ : Type} → Plan R κ → Prop → Prop where
  | nil : Kept record inside .nil True
  | written {α κ : Type} {field : Field R α} {rest : Plan R κ} {value : Json} {P Q : Prop}
      (hvalue : field.encode (field.get record) = some value)
      (hfield : field.decode.Keeps (inside field.name) value (field.get record) P)
      (hrest : Kept record inside rest Q) : Kept record inside (.cons field rest) (P ∧ Q)
  | absent {α κ : Type} {field : Field R α} {rest : Plan R κ} {Q : Prop}
      (hvalue : field.encode (field.get record) = none)
      (hmissing : field.whenMissing = some (field.get record))
      (hrest : Kept record inside rest Q) : Kept record inside (.cons field rest) Q

section Respelling

variable {κ : Type} {plan : Plan R κ} {record : R} {inside : String → Naming} {P : Prop}

/-- Members that are named after later fields have other names that stand for these. -/
theorem members_respelt_later {α : Type} {field : Field R α} {rest : Plan R κ}
    {members respelt : List (String × Json)} (hdistinct : (Plan.cons field rest).Distinct)
    (hnames : ∀ member ∈ members, member.1 ∈ rest.names)
    (h : MembersRespelt (Plan.cons field rest).fieldOf? inside members respelt) :
    (∀ member ∈ respelt, field.answersTo member.1 = false) ∧
      MembersRespelt rest.fieldOf? inside members respelt := by
  induction members generalizing respelt with
  | nil =>
      cases h
      exact ⟨by simp, .nil _ _⟩
  | cons member members ih =>
      obtain ⟨hmember, hmembers⟩ := List.forall_mem_cons.1 hnames
      cases h with
      | @cons _ _ f name other value respelt _ others hname hother hvalue hrest =>
          have hlater : rest.fieldOf? name = some f := by
            rwa [field_of_rest (hdistinct.1 _ hmember)] at hname
          -- the other name stands for the same field, so the first field does not answer to it
          obtain ⟨havoids, hother⟩ :=
            field_of_later hdistinct (mem_names_of_field hlater) hother
          obtain ⟨hothers, hrest⟩ := ih hmembers hrest
          exact ⟨List.forall_mem_cons.2 ⟨havoids, hothers⟩, .cons hlater hother hvalue hrest⟩

/-- Members under other names state the record, with room for its own form. -/
theorem Kept.stated (h : plan.Kept record inside P) (hdistinct : plan.Distinct)
    {respelt : List (String × Json)}
    (hrespelt : MembersRespelt plan.fieldOf? inside (plan.members record) respelt) :
    ∃ fits, plan.Stated record respelt fits ∧
      ∀ room, fits room ↔ Json.membersDepth (plan.members record) ≤ room ∧ P := by
  -- on the fields: each takes its member off the front, under whichever of its names
  induction h generalizing respelt with
  | nil =>
      cases hrespelt
      exact ⟨_, .nil, fun room => by simp [members, Json.membersDepth]⟩
  | @written α κ field rest value P Q hvalue hfield hrest ih =>
      have hnames : ∀ member ∈ rest.members record, member.1 ∈ rest.names :=
        fun _ hmember => mem_names hmember
      rw [members, hvalue] at hrespelt ⊢
      cases hrespelt with
      | @cons _ _ f _ other _ value' _ others hname hother hspelt hmore =>
          rw [field_of_first field.answers_to_name] at hname
          obtain rfl := Option.some.inj hname
          obtain ⟨havoids, hmore⟩ := members_respelt_later hdistinct hnames hmore
          obtain ⟨fits, hstated, hfits⟩ := ih hdistinct.2 hmore
          refine ⟨_, .written (answers_of_first hdistinct hother) havoids (hfield _ hspelt) hstated,
            fun room => ?_⟩
          rw [hfits, Json.membersDepth, Nat.max_le]
          tauto
  | @absent α κ field rest Q hvalue hmissing hrest ih =>
      have hnames : ∀ member ∈ rest.members record, member.1 ∈ rest.names :=
        fun _ hmember => mem_names hmember
      rw [members, hvalue] at hrespelt ⊢
      obtain ⟨havoids, hmore⟩ := members_respelt_later hdistinct hnames hrespelt
      obtain ⟨fits, hstated, hfits⟩ := ih hdistinct.2 hmore
      exact ⟨fits, .absent havoids hmissing hstated, hfits⟩

/-- A field that is left out if it is absent. -/
theorem Kept.optional {α : Type} {field : Field R (Option α)} {rest : Plan R κ}
    {encode : α → Json} {P : α → Prop} {Q : Prop} (hencode : ∀ a, field.encode a = a.map encode)
    (hmissing : field.whenMissing = some none)
    (hfield : ∀ a, field.decode.Keeps (inside field.name) (encode a) (some a) (P a))
    (hrest : Kept record inside rest Q) :
    Kept record inside (.cons field rest) ((∀ a ∈ field.get record, P a) ∧ Q) := by
  cases hget : field.get record with
  | none =>
      have hvalue : field.encode (field.get record) = none := by rw [hencode, hget]; rfl
      have hQ : ((∀ a ∈ (none : Option α), P a) ∧ Q) = Q := by simp
      rw [hQ]
      exact .absent hvalue (hmissing.trans (congrArg some hget.symm)) hrest
  | some a =>
      have hvalue : field.encode (field.get record) = some (encode a) := by
        rw [hencode, hget]
        rfl
      have hP : (∀ b ∈ some a, P b) = P a := by simp
      rw [hP]
      exact .written hvalue (hget ▸ hfield a) hrest

/-- Members under the names of their fields are a spelling of themselves. -/
theorem members_respelt_same {field? : String → Option String} (inside : String → Naming)
    {members : List (String × Json)}
    (h : ∀ member ∈ members, field? member.1 = some member.1) :
    MembersRespelt field? inside members members := by
  induction members with
  | nil => exact .nil _ _
  | cons member members ih =>
      obtain ⟨hmember, hmembers⟩ := List.forall_mem_cons.1 h
      exact .cons hmember hmember (.same _ _) (ih hmembers)

/-- A record is kept if its fields are. -/
theorem Kept.keeps (title : String) {make : κ} (h : plan.Kept record inside P)
    (hsound : plan.Sound make) (hmake : plan.rebuild record make = record) :
    (plan.decoder title make).Keeps (.record plan.fieldOf? inside) (plan.encoder record) record
      P := by
  intro value hvalue
  have hdistinct := hsound.distinct record
  obtain ⟨respelt, rfl, hrespelt⟩ : ∃ respelt, value = .object respelt ∧
      MembersRespelt plan.fieldOf? inside (plan.members record) respelt := by
    cases hvalue with
    | same =>
        refine ⟨_, rfl, members_respelt_same inside fun member hmember => ?_⟩
        exact field_of_mem_names hdistinct (mem_names hmember)
    | object h => exact ⟨_, rfl, h⟩
  obtain ⟨fits, hstated, hfits⟩ := h.stated hdistinct hrespelt
  refine (hstated.object_restores title hsound hmake).congr fun room => ?_
  rw [hfits, encoder, Json.depth]
  constructor
  · rintro ⟨hroom, hdepth, hP⟩
    exact ⟨Nat.add_le_of_le_sub hroom hdepth, hP⟩
  · rintro ⟨hdepth, hP⟩
    exact ⟨by omega, Nat.le_sub_of_add_le hdepth, hP⟩

end Respelling

/-! ### Fields stated twice -/

/-- The decoders of the fields shun what states a field twice, under names as in a record. -/
def Shuns (inside : String → Naming) {κ : Type} : Plan R κ → Prop
  | .nil => True
  | .cons field rest => field.decode.Shuns (inside field.name) ∧ rest.Shuns inside

/-- Inside the fields there may be no names of interest. -/
theorem shuns_of_plain {κ : Type} (plan : Plan R κ) : plan.Shuns fun _ => .plain := by
  induction plan with
  | nil => trivial
  | cons field rest ih => exact ⟨Decoder.shuns_plain _, ih⟩

section Doubling

variable {κ : Type} {plan : Plan R κ} {make : κ} {form : Form} {room : Nat} {record : R}
  {name other f g : String} {node : Node} {slots slots' : plan.Slots}

/-- A member of a record that is decoded is passed over, or its value is decoded and kept. -/
theorem of_members_member {stop resume after : Nat} {others : Members}
    (h : plan.ofMembers make form room (.member ⟨.ok name, stop, resume⟩ node after others) slots =
      .ok record) :
    (plan.state slots name = .unknown ∧
        plan.ofMembers make form room others slots = .ok record) ∨
      plan.state slots name = .free ∧ ∃ slots', plan.put form room name node slots = .ok slots' ∧
        plan.ofMembers make form room others slots' = .ok record := by
  rw [ofMembers] at h
  simp only [Name.get, map_error_ok, bind_eq_ok_iff, Except.ok.injEq, exists_eq_left'] at h
  split at h
  · cases h
  · rename_i hstate
    obtain ⟨-, -, h⟩ := bind_eq_ok_iff.1 h
    exact .inl ⟨hstate, h⟩
  · rename_i hstate
    obtain ⟨slots', hput, h⟩ := bind_eq_ok_iff.1 h
    exact .inr ⟨hstate, slots', settled_eq_ok_iff.1 hput, h⟩

/-- The value of the first field that answers to a name is decoded, and no other changes. -/
theorem put_cons_cases {α : Type} {field : Field R α} {rest : Plan R κ} {slot : Option α}
    {others : rest.Slots} {slots' : (Plan.cons field rest).Slots}
    (h : (Plan.cons field rest).put form room name node (slot, others) = .ok slots') :
    (field.answersTo name = true ∧ ∃ a, field.decode form room node = .ok a ∧
        slots' = (some a, others)) ∨
      field.answersTo name = false ∧ ∃ others', rest.put form room name node others = .ok others' ∧
        slots' = (slot, others') := by
  by_cases hname : field.answersTo name = true
  · simp only [put, hname, if_true] at h
    split at h
    · rename_i a ha
      exact .inl ⟨hname, a, ha, (Except.ok.inj h).symm⟩
    · cases h
  · have hname := Bool.eq_false_iff.2 hname
    rw [put_skip hname] at h
    obtain ⟨others', hput, hslots⟩ := map_eq_ok_iff.1 h
    exact .inr ⟨hname, others', hput, hslots.symm⟩

/-- The state of a name of the first field is that of the slot of the field. -/
theorem state_first {α : Type} {field : Field R α} {rest : Plan R κ} {slot : Option α}
    {others : rest.Slots} (h : field.answersTo name = true) :
    (Plan.cons field rest).state (slot, others) name =
      if slot.isSome then .taken field.name else .free := by
  simp [state, h]

/-- A name that stands for a field is not unknown. -/
theorem state_ne_unknown (hname : plan.fieldOf? name = some f) :
    plan.state slots name ≠ .unknown := by
  induction plan with
  | nil => cases hname
  | cons field rest ih =>
      obtain ⟨slot, others⟩ := slots
      by_cases hanswers : field.answersTo name = true
      · rw [state_first hanswers]
        split <;> simp
      · have hlater := Bool.eq_false_iff.2 hanswers
        rw [field_of_rest hlater] at hname
        rw [state_skip hlater]
        exact ih hname

/-- A field that has been met stays met. -/
theorem state_put (hstate : plan.state slots other = .taken g)
    (h : plan.put form room name node slots = .ok slots') :
    plan.state slots' other = .taken g := by
  induction plan with
  | nil => cases hstate
  | cons field rest ih =>
      obtain ⟨slot, others⟩ := slots
      by_cases hanswers : field.answersTo other = true
      · rw [state_first hanswers] at hstate
        split at hstate
        · rename_i hslot
          rcases put_cons_cases h with ⟨-, a, -, rfl⟩ | ⟨-, others', -, rfl⟩
          · rw [state_first hanswers]
            exact hstate
          · rwa [state_first hanswers, if_pos hslot]
        · cases hstate
      · have hlater := Bool.eq_false_iff.2 hanswers
        rw [state_skip hlater] at hstate
        rcases put_cons_cases h with ⟨-, a, -, rfl⟩ | ⟨-, others', hput, rfl⟩
        · rwa [state_skip hlater]
        · rw [state_skip hlater]
          exact ih hstate hput

/-- A field whose value has been decoded has been met, under whatever name. -/
theorem state_of_put (hdistinct : plan.Distinct) (hname : plan.fieldOf? name = some f)
    (hother : plan.fieldOf? other = some f)
    (h : plan.put form room name node slots = .ok slots') : plan.state slots' other = .taken f := by
  induction plan with
  | nil => cases hname
  | cons field rest ih =>
      obtain ⟨slot, others⟩ := slots
      rcases put_cons_cases h with ⟨hanswers, a, -, rfl⟩ | ⟨hanswers, others', hput, rfl⟩
      · rw [field_of_first hanswers] at hname
        obtain rfl := Option.some.inj hname
        rw [state_first (answers_of_first hdistinct hother)]
        rfl
      · rw [field_of_rest hanswers] at hname
        obtain ⟨hlater, hother⟩ := field_of_later hdistinct (mem_names_of_field hname) hother
        rw [state_skip hlater]
        exact ih hdistinct.2 hname hother hput

/-- The value of a field is not decoded if the decoder of the field shuns it. -/
theorem put_ne_ok {inside : String → Naming} (hshuns : plan.Shuns inside)
    (hname : plan.fieldOf? name = some f) {value : Json} (hvalue : Doubles (inside f) value)
    (hnode : States value node) : plan.put form room name node slots ≠ .ok slots' := by
  intro h
  induction plan with
  | nil => cases hname
  | cons field rest ih =>
      obtain ⟨slot, others⟩ := slots
      rcases put_cons_cases h with ⟨hanswers, a, ha, -⟩ | ⟨hanswers, others', hput, -⟩
      · rw [field_of_first hanswers] at hname
        obtain rfl := Option.some.inj hname
        exact hshuns.1 value hvalue form room node hnode a ha
      · rw [field_of_rest hanswers] at hname
        exact ih hshuns.2 hname hput

variable {members : List (String × Json)} {found : Members}

/-- A field that has been met is not stated again. -/
theorem not_stated_again (hfound : MembersState members found)
    (h : plan.ofMembers make form room found slots = .ok record)
    (hmet : ∀ name, plan.fieldOf? name = some f → ∃ g, plan.state slots name = .taken g) :
    ∀ member ∈ members, plan.fieldOf? member.1 ≠ some f := by
  -- on the members that are left: none of them finds the field free, and none frees it
  induction members generalizing found slots with
  | nil => simp
  | cons member members ih =>
      cases hfound with
      | @cons stop resume after name value _ node others hnode hmore =>
          have hfirst : plan.fieldOf? name ≠ some f := by
            intro hname
            obtain ⟨g, hg⟩ := hmet name hname
            rcases of_members_member h with ⟨hstate, -⟩ | ⟨hstate, -⟩ <;> simp [hg] at hstate
          refine List.forall_mem_cons.2 ⟨hfirst, ?_⟩
          rcases of_members_member h with ⟨-, h⟩ | ⟨-, slots', hput, h⟩
          · exact ih hmore h hmet
          · refine ih hmore h fun other hother => ?_
            obtain ⟨g, hg⟩ := hmet other hother
            exact ⟨g, state_put hg hput⟩

/-- A field is stated once at most. -/
theorem stated_once (hdistinct : plan.Distinct) (hfound : MembersState members found)
    (h : plan.ofMembers make form room found slots = .ok record) :
    members.Pairwise fun first second => ∀ f, plan.fieldOf? first.1 = some f →
      plan.fieldOf? second.1 ≠ some f := by
  induction members generalizing found slots with
  | nil => exact .nil
  | cons member members ih =>
      cases hfound with
      | @cons stop resume after name value _ node others hnode hmore =>
          rcases of_members_member h with ⟨hstate, h⟩ | ⟨-, slots', hput, h⟩
          · refine List.pairwise_cons.2 ⟨fun second _ f hname => ?_, ih hmore h⟩
            exact absurd hstate (state_ne_unknown hname)
          · -- its field has been met now, under all of its names
            refine List.pairwise_cons.2 ⟨fun second hsecond f hname => ?_, ih hmore h⟩
            exact not_stated_again hmore h
              (fun other hother => ⟨f, state_of_put hdistinct hname hother hput⟩) second hsecond

/-- No field has a value that its decoder shuns. -/
theorem not_doubled_inside {inside : String → Naming} (hshuns : plan.Shuns inside)
    (hfound : MembersState members found)
    (h : plan.ofMembers make form room found slots = .ok record) :
    ∀ member ∈ members, ∀ f, plan.fieldOf? member.1 = some f → ¬ Doubles (inside f) member.2 := by
  induction members generalizing found slots with
  | nil => simp
  | cons member members ih =>
      cases hfound with
      | @cons stop resume after name value _ node others hnode hmore =>
          rcases of_members_member h with ⟨hstate, h⟩ | ⟨-, slots', hput, h⟩
          · refine List.forall_mem_cons.2 ⟨fun f hname => ?_, ih hmore h⟩
            exact absurd hstate (state_ne_unknown hname)
          · refine List.forall_mem_cons.2 ⟨fun f hname hdoubles => ?_, ih hmore h⟩
            exact put_ne_ok hshuns hname hdoubles hnode hput

/-- The decoder of a record shuns what states a field twice if those of its fields do. -/
theorem shuns (title : String) {inside : String → Naming} (hshuns : plan.Shuns inside)
    (hsound : plan.Sound make) :
    (plan.decoder title make).Shuns (.record plan.fieldOf? inside) := by
  rintro value hdoubles form room _ hnode record h
  cases hdoubles with
  | inside hmem hname hdoubles =>
      obtain _ | _ | _ | _ | _ | ⟨start, hmembers⟩ := hnode
      obtain ⟨-, h⟩ := decoder_object_iff.1 h
      exact not_doubled_inside hshuns hmembers h _ hmem _ hname hdoubles
  | @here _ _ before between after name other f value more hname hother =>
      obtain _ | _ | _ | _ | _ | ⟨start, hmembers⟩ := hnode
      obtain ⟨-, h⟩ := decoder_object_iff.1 h
      have honce := stated_once (hsound.distinct record) hmembers h
      have hlast := (List.pairwise_append.1 honce).2.1
      exact (List.pairwise_cons.1 hlast).1 (other, more) (by simp) f hname hother

end Doubling

end Plan

/-! ### Texts -/

/-- Values of a type round trip. The text of a value, compact or spread over lines and with any
names of its fields, is decoded as the value exactly if the value is faithful and its own text opens
no more brackets at once than there is room for. No text that states a field twice is decoded. -/
structure RoundTrips (α : Type) [Wire α] (naming : Naming) (Faithful : α → Prop) : Prop where
  restored : ∀ (a : α) (value : Json), Respelt naming (Wire.encode a) value →
    ∀ style ∈ [Style.compact, Style.spread],
      (decodeText Wire.decode (value.render style) = .ok a ↔
        Faithful a ∧ brackets ((Wire.encode a).render style) ≤ 127)
  refused : ∀ value : Json, value.Legible → Doubles naming value →
    ∀ style ∈ [Style.compact, Style.spread], ∀ a : α,
      decodeText Wire.decode (value.render style) ≠ .ok a

/-- The two styles put nothing but white space into their gaps. -/
theorem blank_of_mem {style : Style} (h : style ∈ [Style.compact, Style.spread]) :
    style.Blank := by
  rcases List.mem_cons.1 h with rfl | h
  · exact blank_compact
  · rw [List.mem_singleton.1 h]
    exact blank_spread

/-- Values round trip if their decoder keeps their forms and shuns what states a field twice. -/
theorem round_trips_of {α : Type} [Wire α] {naming : Naming} {Faithful : α → Prop}
    (hkeeps : ∀ a : α, Wire.decode.Keeps naming (Wire.encode a) a (Faithful a))
    (hshuns : (Wire.decode (α := α)).Shuns naming) : RoundTrips α naming Faithful where
  restored a value hvalue style hstyle := by
    have hblank := blank_of_mem hstyle
    rw [brackets_render hblank, and_comm]
    exact decode_text_render_iff hblank (hkeeps a value hvalue)
  refused value hlegible hdoubles style hstyle a h := by
    obtain ⟨hroot, -⟩ := read_render (blank_of_mem hstyle) hlegible
    exact hshuns value hdoubles _ _ _ hroot a (decode_of_decode_text h)

end TileCourse.Json
