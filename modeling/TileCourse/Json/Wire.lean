import TileCourse.Json.Reader
import TileCourse.Json.Printer
import TileCourse.Json.Record

/-!
# Types stated in JSON

The types out of which records are made, and the two ways in which a value of such a type comes
in: as a text that is read, or as a value that is already held in memory. Decoding a text allows
127 brackets around each other; a value in memory may be of any depth.
-/

namespace TileCourse.Json

instance : Wire String := ⟨Decoder.text, .text⟩

instance : Wire Bool := ⟨Decoder.bool, .bool⟩

instance : Wire UInt8 :=
  ⟨Decoder.map (fun n => UInt8.ofNat n.toNat) (Decoder.int 0 0xFF "u8"),
    fun n => .nat n.toNat⟩

instance : Wire UInt32 :=
  ⟨Decoder.map (fun n => UInt32.ofNat n.toNat) (Decoder.int 0 0xFFFFFFFF "u32"),
    fun n => .nat n.toNat⟩

/-- A 64-bit number under the name that messages use for it. -/
def Decoder.word (wanted : String) : Decoder UInt64 :=
  Decoder.map (fun n => UInt64.ofNat n.toNat) (Decoder.int 0 0xFFFFFFFFFFFFFFFF wanted)

instance : Wire UInt64 := ⟨Decoder.word "u64", fun n => .nat n.toNat⟩

instance : Wire Int32 :=
  ⟨Decoder.map Int32.ofInt (Decoder.int (-0x80000000) 0x7FFFFFFF "i32"), fun n => .int n.toInt⟩

instance : Wire Int64 :=
  ⟨Decoder.map Int64.ofInt (Decoder.int (-0x8000000000000000) 0x7FFFFFFFFFFFFFFF "i64"), fun n => .int n.toInt⟩

instance : Wire Single := ⟨Decoder.single, fun x => .number (.single x)⟩

instance : Wire TextSet := ⟨Decoder.textSet, fun set => .array (set.toList.map .text)⟩

instance {α : Type} [Wire α] : Wire (List α) :=
  ⟨Decoder.list Wire.decode, fun items => .array (items.map Wire.encode)⟩

instance {α : Type} [Wire α] : Wire (Table α) :=
  ⟨Decoder.table Wire.decode,
    fun table => .object (table.entries.map fun entry => (entry.1, Wire.encode entry.2))⟩

/-! ### Values in memory -/

mutual

/-- The tree of a value in memory; its places have no meaning. -/
def Node.ofJson : Json → Node
  | .null => .scalar 0 0 (.ok .null)
  | .bool b => .scalar 0 0 (.ok (.bool b))
  | .number n => .scalar 0 0 (.ok (.number n))
  | .text s => .scalar 0 0 (.ok (.text s))
  | .array items => .array 0 (Items.ofJson items)
  | .object members => .object 0 (Members.ofJson members)

/-- The items of an array in memory. -/
def Items.ofJson : List Json → Items
  | [] => .close 0
  | item :: rest => .item (Node.ofJson item) 0 (Items.ofJson rest)

/-- The members of an object in memory. -/
def Members.ofJson : List (String × Json) → Members
  | [] => .close 0
  | (name, value) :: rest =>
    .member ⟨.ok name, 0, 0⟩ (Node.ofJson value) 0 (Members.ofJson rest)

end

mutual

/-- The value of a tree, unless it has a fault. In an object the last member of a name decides,
and the members are put into the order of their names. -/
def Node.value? : Node → Option Json
  | .scalar _ _ (.ok .null) => some .null
  | .scalar _ _ (.ok (.bool b)) => some (.bool b)
  | .scalar _ _ (.ok (.number n)) => some (.number n)
  | .scalar _ _ (.ok (.text s)) => some (.text s)
  | .scalar _ _ (.error _) => none
  | .broken _ _ _ _ => none
  | .array _ items => (Items.values? items).map .array
  | .object _ members =>
    (Members.values? members).map fun found => .object (Table.ofList found).entries

/-- The values of the items of an array. -/
def Items.values? : Items → Option (List Json)
  | .close _ => some []
  | .broken _ _ => none
  | .item value _ rest => do
    let first ← value.value?
    let others ← Items.values? rest
    some (first :: others)

/-- The names and values of the members of an object. -/
def Members.values? : Members → Option (List (String × Json))
  | .close _ => some []
  | .member name value _ rest => do
    let key ← name.text.toOption
    let first ← value.value?
    let others ← Members.values? rest
    some ((key, first) :: others)
  | _ => none

end

/-- Read a text as a value in memory. -/
def parse? (source : String) : Option Json :=
  let document := Document.read source.toList
  match document.excess with
  | none => document.root.value?
  | some _ => none

/-! ### Decoding -/

/-- The number of brackets that a text may open around each other where its values are decoded. -/
def textRoom : Nat := 127

/-- Decode a text. -/
def decodeText {α : Type} (decode : Decoder α) (source : String) : Except Trouble α :=
  let document := Document.read source.toList
  match decode .text textRoom document.root with
  | .error trouble => .error trouble
  | .ok a =>
    match document.excess with
    | none => .ok a
    | some found => .error (.fault found)

/-- Decode a value in memory. -/
def decodeValue {α : Type} (decode : Decoder α) (value : Json) : Except Trouble α :=
  decode .value value.depth (Node.ofJson value)

end TileCourse.Json
