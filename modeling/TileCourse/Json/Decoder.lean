import TileCourse.Json.Trouble
import TileCourse.Text.Table
import TileCourse.Text.TextSet

/-!
# Decoding trees

A decoder turns a tree into a value of a type, or says why it cannot. It goes through the tree in
the order of the text, so the first problem of any kind is the one reported. It is given the form
in which the tree was stated, and the room that is left: the number of brackets that may still be
opened around what is decoded. A part that nobody asks for is passed over, however deep it is.
-/

namespace TileCourse.Json

/-- The form in which a tree was stated: as text to be read, or as a value held in memory. The
two differ in how a surplus item and a choice of the wrong kind are reported. -/
inductive Form where
  | text
  | value
  deriving DecidableEq, Repr

/-- A decoder of a type. -/
abbrev Decoder (α : Type) : Type := Form → (room : Nat) → Node → Except Trouble α

/-- The outcome of a part, with a trouble put at an offset unless it has a place. -/
def settled {α : Type} (offset : Nat) (outcome : Except Trouble α) : Except Trouble α :=
  outcome.mapError (Trouble.settle offset)

/-- Stop with a fault. -/
def failed {α : Type} (cause : Cause) (offset : Nat) : Except Trouble α :=
  .error (.fault ⟨cause, offset⟩)

/-- Stop with a misfit that has no place yet. -/
def unfit {α : Type} (misfit : Misfit) : Except Trouble α := .error (.misfit misfit none)

/-- Stop with a misfit at an offset. -/
def unfitAt {α : Type} (misfit : Misfit) (offset : Nat) : Except Trouble α :=
  .error (.misfit misfit (some offset))

/-- The offset at which a node starts. -/
def Node.start : Node → Nat
  | .scalar start _ _ => start
  | .broken start _ _ _ => start
  | .array start _ => start
  | .object start _ => start

/-- The fault for one who wants the next item. -/
def ItemBreak.use : ItemBreak → Cause
  | .ended => .endInArray
  | .endedAfterComma => .endInValue
  | .commaBeforeClose => .trailingComma
  | .noComma => .expectedItemEnd

/-- The fault for one who passes over the items. -/
def ItemBreak.skip : ItemBreak → Cause
  | .ended => .endInArray
  | .endedAfterComma => .endInValue
  | .commaBeforeClose => .expectedValue
  | .noComma => .expectedItemEnd

/-- The fault for one who wants no further item. -/
def ItemBreak.finish : ItemBreak → Cause
  | .ended => .endInArray
  | .endedAfterComma => .trailingCharacters
  | .commaBeforeClose => .trailingComma
  | .noComma => .trailingCharacters

/-- The fault for one who wants the next member. -/
def MemberBreak.use : MemberBreak → Cause
  | .ended => .endInObject
  | .endedAfterComma => .endInValue
  | .commaBeforeClose => .trailingComma
  | .noComma => .expectedMemberEnd

/-- The fault for one who passes over the members. -/
def MemberBreak.skip : MemberBreak → Cause
  | .ended => .endInObject
  | .endedAfterComma => .endInObject
  | .commaBeforeClose => .keyNotText
  | .noComma => .expectedMemberEnd

/-! ### Parts of no interest -/

mutual

/-- Pass over a value: only its form as text counts. -/
def passOver : Node → Except Trouble Unit
  | .scalar _ _ _ => .ok ()
  | .broken _ _ _ skip => .error (.fault skip)
  | .array _ items => passOverItems items
  | .object _ members => passOverMembers members

/-- Pass over the items of an array. -/
def passOverItems : Items → Except Trouble Unit
  | .close _ => .ok ()
  | .broken why offset => failed why.skip offset
  | .item value _ rest => do
    passOver value
    passOverItems rest

/-- Pass over the members of an object. -/
def passOverMembers : Members → Except Trouble Unit
  | .close _ => .ok ()
  | .broken why offset => failed why.skip offset
  | .noName offset => failed .keyNotText (offset + 1)
  | .brokenName _ skip => .error (.fault skip)
  | .noColon _ found => .error (.fault found)
  | .member _ value _ rest => do
    passOver value
    passOverMembers rest

end

/-- The text of a name that is wanted. -/
def Name.get (name : Name) : Except Trouble String := name.text.mapError .fault

mutual

/-- Take up a value of any kind: it must have a value, and room enough. -/
def takeUp (room : Nat) : Node → Except Trouble Unit
  | .scalar _ _ value => do
    let _ ← value.mapError Trouble.fault
  | .broken _ _ use _ => .error (.fault use)
  | .array start items =>
    if room = 0 then failed .tooDeep (start + 1) else takeUpItems (room - 1) items
  | .object start members =>
    if room = 0 then failed .tooDeep (start + 1) else takeUpMembers (room - 1) members

/-- Take up the items of an array. -/
def takeUpItems (room : Nat) : Items → Except Trouble Unit
  | .close _ => .ok ()
  | .broken why offset => failed why.use offset
  | .item value _ rest => do
    takeUp room value
    takeUpItems room rest

/-- Take up the members of an object. -/
def takeUpMembers (room : Nat) : Members → Except Trouble Unit
  | .close _ => .ok ()
  | .broken why offset => failed why.use offset
  | .noName offset => failed .keyNotText (offset + 1)
  | .brokenName use _ => .error (.fault use)
  | .noColon name found => do
    let _ ← name.get
    .error (.fault found)
  | .member name value _ rest => do
    let _ ← name.get
    takeUp room value
    takeUpMembers room rest

end

namespace Decoder

variable {α β : Type}

/-! ### Scalars -/

/-- Decode a scalar. An array or object is refused at its bracket, a scalar of the wrong kind just
after it. -/
def scalar (wanted : String) (pick : Scalar → Option (Except Misfit α)) : Decoder α :=
  fun _ _ node =>
    match node with
    | .scalar _ _ (.error found) => .error (.fault found)
    | .scalar _ stop (.ok value) =>
      match pick value with
      | some (.ok a) => .ok a
      | some (.error misfit) => unfitAt misfit stop
      | none => unfitAt (.wrongType (.scalar value) wanted) stop
    | .broken _ _ use _ => .error (.fault use)
    | .array start _ => unfitAt (.wrongType .sequence wanted) start
    | .object start _ => unfitAt (.wrongType .map wanted) start

/-- A text; `wanted` is what a message calls it. -/
def textNamed (wanted : String) : Decoder String :=
  scalar wanted fun
    | .text s => some (.ok s)
    | _ => none

/-- A text. -/
def text : Decoder String := textNamed "a string"

/-- A truth value. -/
def bool : Decoder Bool :=
  scalar "a boolean" fun
    | .bool b => some (.ok b)
    | _ => none

/-- An integer between two bounds. -/
def int (low high : Int) (wanted : String) : Decoder Int :=
  scalar wanted fun
    | .number (.integer n) =>
      some (if low ≤ n ∧ n ≤ high then .ok n else .error (.outOfRange n wanted))
    | _ => none

/-- The number of a scalar in single precision. -/
def singleOf : JsonNumber → Single
  | .integer n => .ofInt n
  | .double x => .ofDouble x
  | .single x => x

/-- A number in single precision. -/
def single : Decoder Single :=
  scalar "f32" fun
    | .number n => some (.ok (singleOf n))
    | _ => none

/-- The absent value. -/
def unit : Decoder Unit :=
  scalar "unit" fun
    | .null => some (.ok ())
    | _ => none

/-! ### Combinations -/

/-- The same value in another form. -/
def map (f : α → β) (decode : Decoder α) : Decoder β :=
  fun form room node => (decode form room node).map f

/-- A value that must pass a check, which may change its form. A value that fails has a misfit
without a place. -/
def refine (check : α → Except String β) (decode : Decoder α) : Decoder β :=
  fun form room node =>
    match decode form room node with
    | .error trouble => .error trouble
    | .ok a =>
      match check a with
      | .ok b => .ok b
      | .error message => unfit (.refused message)

/-- A value that may be absent. What starts like the absent value can be nothing else. -/
def optional (decode : Decoder α) : Decoder (Option α) :=
  fun form room node =>
    match node with
    | .scalar _ _ (.ok .null) => .ok none
    | .broken _ .absence use _ => .error (.fault use)
    | node => (decode form room node).map some

/-- Decode the items of an array. -/
def items (decode : Node → Except Trouble α) : Items → Except Trouble (List α)
  | .close _ => .ok []
  | .broken why offset => failed why.use offset
  | .item value resume rest =>
    match settled resume (decode value) with
    | .error trouble => .error trouble
    | .ok a =>
      match items decode rest with
      | .error trouble => .error trouble
      | .ok others => .ok (a :: others)

/-- Decode an array by its items, given the decoder of an item inside the array. -/
def array (decode : (room : Nat) → Node → Except Trouble α) (room : Nat) (node : Node) :
    Except Trouble (List α) :=
  match node with
  | .array start found =>
    if room = 0 then failed .tooDeep (start + 1) else items (decode (room - 1)) found
  | .object start _ => unfitAt (.wrongType .map "a sequence") start
  | .scalar _ _ (.error found) => .error (.fault found)
  | .scalar _ stop (.ok value) => unfitAt (.wrongType (.scalar value) "a sequence") stop
  | .broken _ _ use _ => .error (.fault use)

/-- A list. -/
def list (decode : Decoder α) : Decoder (List α) :=
  fun form => array (decode form)

/-- Decode the members of an object into a table; the last member of a name decides. -/
def entries (decode : Node → Except Trouble α) :
    Members → Except Trouble (List (String × α))
  | .close _ => .ok []
  | .broken why offset => failed why.use offset
  | .noName offset => failed .keyNotText (offset + 1)
  | .brokenName use _ => .error (.fault use)
  | .noColon name found => do
    let _ ← name.get
    .error (.fault found)
  | .member name value resume rest => do
    let key ← name.get
    let a ← settled resume (decode value)
    let others ← entries decode rest
    .ok ((key, a) :: others)

/-- A table. -/
def table (decode : Decoder α) : Decoder (Table α) :=
  fun form room node =>
    match node with
    | .object start members =>
      if room = 0 then failed .tooDeep (start + 1)
      else (entries (decode form (room - 1)) members).map Table.ofList
    | .array start _ => unfitAt (.wrongType .sequence "a map") start
    | .scalar _ _ (.error found) => .error (.fault found)
    | .scalar _ stop (.ok value) => unfitAt (.wrongType (.scalar value) "a map") stop
    | .broken _ _ use _ => .error (.fault use)

/-- A set of texts. -/
def textSet : Decoder TextSet := map TextSet.ofList (list text)

/-! ### Choices -/

/-- The variant with a name. -/
def variant (variants : List (String × α)) (name : String) : Except Misfit α :=
  match variants.lookup name with
  | some a => .ok a
  | none => .error (.unknownVariant name (variants.map (·.1)))

/-- The variant with a name that ends at an offset. -/
def variantAt (variants : List (String × α)) (name : String) (stop : Nat) :
    Except Trouble α :=
  (variant variants name).mapError fun misfit => .misfit misfit (some stop)

/-- A choice that is stated as an object in a text: one member, whose name is the variant and
whose value is absent. -/
def choiceOfMembers (variants : List (String × α)) (form : Form) (room : Nat) :
    Members → Except Trouble α
  | .close stop => failed .expectedValue stop
  | .broken why offset => failed why.use offset
  | .noName offset => failed .keyNotText (offset + 1)
  | .brokenName use _ => .error (.fault use)
  | .noColon name found => do
    let _ ← variantAt variants (← name.get) name.stop
    .error (.fault found)
  | .member name value resume rest => do
    let a ← variantAt variants (← name.get) name.stop
    let _ ← unit form room value
    match rest with
    | .close _ => .ok a
    | .broken .ended offset => failed .endInObject offset
    | _ => failed .expectedValue resume

/-- A choice that is stated as an object in memory. -/
def choiceOfValues (variants : List (String × α)) (room : Nat) : Members → Except Trouble α
  | .member name value _ (.close _) => do
    let a ← variantAt variants (← name.get) name.stop
    let _ ← unit .value room value
    .ok a
  | _ => unfit .notSingle

/-- A choice among named variants. -/
def choice (variants : List (String × α)) : Decoder α :=
  fun form room node =>
    match form, node with
    | _, .scalar _ stop (.ok (.text name)) => variantAt variants name stop
    | .text, .object start members =>
      if room = 0 then failed .tooDeep (start + 1)
      else choiceOfMembers variants .text (room - 1) members
    | .value, .object _ members => choiceOfValues variants room members
    | _, .broken start lead use _ =>
      match lead with
      | .nothing | .quote => .error (.fault use)
      | .absence | .other => failed .expectedValue (start + 1)
    | .text, .scalar start _ (.error found) =>
      if found.cause = .numberOutOfRange then failed .expectedValue (start + 1)
      else .error (.fault found)
    | .text, .scalar start _ _ => failed .expectedValue (start + 1)
    | .text, .array start _ => failed .expectedValue (start + 1)
    | .value, .scalar _ stop (.ok value) =>
      unfitAt (.wrongType (.scalar value) "string or map") stop
    | .value, .scalar _ _ (.error found) => .error (.fault found)
    | .value, .array start _ => unfitAt (.wrongType .sequence "string or map") start

/-- The members of an object that names its variant in the member `type`. -/
def taggedMembers (variants : List (String × α)) (form : Form) (room : Nat) :
    Option α → Members → Except Trouble α
  | tag, .close stop =>
    match tag with
    | some a => .ok a
    | none => unfitAt (.missingField "type") stop
  | _, .broken why offset => failed why.use offset
  | _, .noName offset => failed .keyNotText (offset + 1)
  | _, .brokenName use _ => .error (.fault use)
  | tag, .noColon name found => do
    let key ← name.get
    if key = "type" ∧ tag.isSome then unfitAt (.duplicateField "type") name.resume
    else .error (.fault found)
  | tag, .member name value resume rest => do
    let key ← name.get
    if key = "type" then
      if tag.isSome then unfitAt (.duplicateField "type") name.resume
      else
        let a ← settled resume (tagValue value)
        taggedMembers variants form room (some a) rest
    else
      takeUp room value
      taggedMembers variants form room tag rest
where
  /-- The variant that the value of a tag names. -/
  tagValue (value : Node) : Except Trouble α :=
    match textNamed "variant identifier" form room value with
    | .error trouble => .error trouble
    | .ok name =>
      match value with
      | .scalar _ stop _ => variantAt variants name stop
      | _ => variantAt variants name value.start

/-- The number of items that follow the tag of an array. -/
def countItems (room : Nat) : Items → Except Trouble Nat
  | .close _ => .ok 0
  | .broken why offset => failed why.use offset
  | .item value _ rest => do
    takeUp room value
    let others ← countItems room rest
    .ok (others + 1)

/-- A choice that is stated as an object with the member `type`, or as an array of the tag alone.
Other members are of no interest. -/
def tagged (title : String) (variants : List (String × α)) : Decoder α :=
  fun form room node =>
    let wanted := "internally tagged enum " ++ title
    match node with
    | .object start members =>
      if room = 0 then failed .tooDeep (start + 1)
      else taggedMembers variants form (room - 1) none members
    | .array start found =>
      if room = 0 then failed .tooDeep (start + 1)
      else
        match found with
        | .close stop => unfitAt (.missingField "type") stop
        | .broken why offset => failed why.use offset
        | .item value resume rest => do
          let a ← settled resume (taggedMembers.tagValue variants form (room - 1) value)
          let others ← countItems (room - 1) rest
          if others = 0 then .ok a
          else unfit (.wrongLength others "0 elements in sequence")
    | .scalar _ _ (.error found) => .error (.fault found)
    | .scalar _ stop (.ok value) => unfitAt (.wrongType (.scalar value) wanted) stop
    | .broken _ _ use _ => .error (.fault use)

end Decoder

end TileCourse.Json
