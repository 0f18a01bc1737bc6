import TileCourse.Json.Decoder

/-!
# Records

One plan describes both how a record is written as an object and how it is decoded. A plan lists
the fields in the order in which they are written. A record may be stated as an object, whose
members may stand in any order and under any of a field's names, or as an array of its fields in
their order. A field that is not stated has its default or is reported as missing.
-/

namespace TileCourse.Json

/-- A type whose values are stated in JSON. -/
class Wire (α : Type) where
  /-- The decoder of the type. -/
  decode : Decoder α
  /-- How a value is written. -/
  encode : α → Json

/-- A field of the record `R` with values in `α`. -/
structure Field (R α : Type) where
  /-- The name under which the field is written. -/
  name : String
  /-- Other names under which it may be stated. -/
  aliases : List String := []
  /-- The decoder of its value. -/
  decode : Decoder α
  /-- Its value if an object does not state it. -/
  whenMissing : Option α := none
  /-- Its value if an array ends before it. -/
  whenShort : Option α := whenMissing
  /-- Its value in a record. -/
  get : R → α
  /-- How its value is written, if it is. -/
  encode : α → Option Json

namespace Field

variable {R α : Type} [Wire α]

/-- A field that is always stated. -/
def required (name : String) (get : R → α) : Field R α :=
  { name, decode := Wire.decode, get, encode := fun a => some (Wire.encode a) }

/-- A field with a default that is always written. -/
def defaulted (name : String) (default : α) (get : R → α) : Field R α :=
  { required name get with whenMissing := some default, whenShort := some default }

/-- A field that may be absent, and is then not written. -/
def optional (name : String) (get : R → Option α) : Field R (Option α) :=
  { name, decode := Decoder.optional Wire.decode, whenMissing := some none, get,
    encode := fun a => a.map Wire.encode }

/-- A field that may be absent, and is then written as `null`. An array must state it. -/
def nullable (name : String) (get : R → Option α) : Field R (Option α) :=
  { name, decode := Decoder.optional Wire.decode, whenMissing := some none, whenShort := none, get,
    encode := fun a => some ((a.map Wire.encode).getD .null) }

/-- The same field with one more name. -/
def orNamed {R α : Type} (field : Field R α) (name : String) : Field R α :=
  { field with aliases := field.aliases ++ [name] }

/-- The same field, which an array need not state. -/
def orShort {R α : Type} (field : Field R α) (value : α) : Field R α :=
  { field with whenShort := some value }

/-- Whether a name stands for the field. -/
def answersTo {R α : Type} (field : Field R α) (name : String) : Bool :=
  name == field.name || field.aliases.contains name

end Field

/-- The fields of the record `R`, from which a function of type `κ` makes a record. -/
inductive Plan (R : Type) : Type → Type 1 where
  | nil : Plan R R
  | cons {α κ : Type} (field : Field R α) (rest : Plan R κ) : Plan R (α → κ)

/-- Whether a name is free in a record that is half decoded. -/
inductive NameState where
  /-- No field has the name. -/
  | unknown
  /-- The field with the name has been met before. -/
  | taken (field : String)
  /-- The field with the name is still to be met. -/
  | free
  deriving DecidableEq, Repr

namespace Plan

variable {R : Type}

/-- The number of fields. -/
def size {κ : Type} : Plan R κ → Nat
  | .nil => 0
  | .cons _ rest => rest.size + 1

/-- For each field, the value that has been met. -/
def Slots {κ : Type} : Plan R κ → Type
  | .nil => Unit
  | .cons (α := α) _ rest => Option α × rest.Slots

/-- No field has been met. -/
def noSlots {κ : Type} : (plan : Plan R κ) → plan.Slots
  | .nil => ()
  | .cons _ rest => (none, rest.noSlots)

/-- What a name stands for. -/
def state {κ : Type} : (plan : Plan R κ) → plan.Slots → String → NameState
  | .nil, _, _ => .unknown
  | .cons (α := α) field rest, slots, name =>
    let (slot, others) : Option α × rest.Slots := slots
    if field.answersTo name then
      if slot.isSome then .taken field.name else .free
    else rest.state others name

/-- Decode the value of the field with a name. -/
def put {κ : Type} (form : Form) (room : Nat) (name : String) (value : Node) :
    (plan : Plan R κ) → plan.Slots → Except Trouble plan.Slots
  | .nil, slots => .ok slots
  | .cons (α := α) field rest, slots =>
    let (slot, others) : Option α × rest.Slots := slots
    if field.answersTo name then
      match field.decode form room value with
      | .ok a => .ok (some a, others)
      | .error trouble => .error trouble
    else
      match rest.put form room name value others with
      | .ok others => .ok (slot, others)
      | .error trouble => .error trouble

/-- Make a record of the fields that an object states. -/
def finish {κ : Type} : (plan : Plan R κ) → plan.Slots → κ → Except Misfit R
  | .nil, _, record => .ok record
  | .cons (α := α) field rest, slots, make =>
    let (slot, others) : Option α × rest.Slots := slots
    match slot with
    | some a => rest.finish others (make a)
    | none =>
      match field.whenMissing with
      | some a => rest.finish others (make a)
      | none => .error (.missingField field.name)

/-- Decode the members of an object. -/
def ofMembers {κ : Type} (plan : Plan R κ) (make : κ) (form : Form) (room : Nat) :
    Members → plan.Slots → Except Trouble R
  | .close stop, slots =>
    (plan.finish slots make).mapError fun misfit => .misfit misfit (some stop)
  | .broken why offset, _ => failed why.use offset
  | .noName offset, _ => failed .keyNotText (offset + 1)
  | .brokenName use _, _ => .error (.fault use)
  | .noColon name found, slots => do
    match plan.state slots (← name.get) with
    | .taken field => unfitAt (.duplicateField field) name.resume
    | _ => .error (.fault found)
  | .member name value resume rest, slots => do
    let key ← name.get
    match plan.state slots key with
    | .taken field => unfitAt (.duplicateField field) name.resume
    | .unknown =>
      passOver value
      plan.ofMembers make form room rest slots
    | .free =>
      let slots ← settled resume (plan.put form room key value slots)
      plan.ofMembers make form room rest slots

/-- Make a record of the fields that an array has not stated. -/
def finishShort {κ : Type} (wanted : String) :
    (plan : Plan R κ) → (position : Nat) → κ → Except Misfit R
  | .nil, _, record => .ok record
  | .cons field rest, position, make =>
    match field.whenShort with
    | some a => rest.finishShort wanted (position + 1) (make a)
    | none => .error (.wrongLength position wanted)

/-- The number of items. -/
def itemCount : Items → Nat
  | .item _ _ rest => itemCount rest + 1
  | _ => 0

/-- End an array after the last field of a record. -/
def endItems (form : Form) (position : Nat) (record : R) : Items → Except Trouble R
  | .close _ => .ok record
  | .broken why offset => failed why.finish offset
  | .item value resume rest =>
    match form with
    | .text => failed .trailingCharacters (value.start + 1)
    | .value =>
      unfit (.wrongLength (position + itemCount (.item value resume rest))
        "fewer elements in array")

/-- Decode the items of an array. -/
def ofItems {κ : Type} (form : Form) (room : Nat) (wanted : String) :
    (plan : Plan R κ) → (position : Nat) → κ → Items → Except Trouble R
  | .nil, position, record, items => endItems form position record items
  | .cons field rest, position, make, items =>
    match items with
    | .close stop =>
      ((Plan.cons field rest).finishShort wanted position make).mapError fun misfit =>
        .misfit misfit (some stop)
    | .broken why offset => failed why.use offset
    | .item value resume others => do
      let a ← settled resume (field.decode form room value)
      rest.ofItems form room wanted (position + 1) (make a) others

/-- The members of the object that a record is written as. -/
def members {κ : Type} (record : R) : Plan R κ → List (String × Json)
  | .nil => []
  | .cons field rest =>
    match field.encode (field.get record) with
    | some value => (field.name, value) :: rest.members record
    | none => rest.members record

/-- The record that a function makes of the fields of a record. -/
def rebuild {κ : Type} (record : R) : Plan R κ → κ → R
  | .nil, made => made
  | .cons field rest, make => rest.rebuild record (make (field.get record))

/-- What an array of the fields is called in a message. -/
def wantedLength {κ : Type} (plan : Plan R κ) (title : String) : String :=
  s!"struct {title} with {plan.size} element" ++ (if plan.size = 1 then "" else "s")

/-- The decoder of a record. -/
def decoder {κ : Type} (plan : Plan R κ) (title : String) (make : κ) : Decoder R :=
  fun form room node =>
    match node with
    | .object start found =>
      if room = 0 then failed .tooDeep (start + 1)
      else plan.ofMembers make form (room - 1) found plan.noSlots
    | .array start found =>
      if room = 0 then failed .tooDeep (start + 1)
      else plan.ofItems form (room - 1) (plan.wantedLength title) 0 make found
    | .scalar _ _ (.error found) => .error (.fault found)
    | .scalar _ stop (.ok value) =>
      unfitAt (.wrongType (.scalar value) ("struct " ++ title)) stop
    | .broken _ _ use _ => .error (.fault use)

/-- The object that a record is written as. -/
def encoder {κ : Type} (plan : Plan R κ) (record : R) : Json :=
  .object (plan.members record)

end Plan

end TileCourse.Json
