import TileCourse.Json.Wire
import TileCourse.Program.Basic

/-!
# Programs in JSON

An instruction is stated as an object with its kind in the member `type`. All kinds share one set
of members; those that a kind does not use must still be of the right type. A list of instructions
inside another is decoded with the room that its brackets leave, so decoding is a recursion on the
room.
-/

namespace TileCourse

open Json

instance : Wire Side :=
  ⟨Decoder.choice [("left", .left), ("right", .right)], fun side => .text side.name⟩

instance : Wire Condition :=
  ⟨Decoder.tagged "Condition"
      [("tile-ahead-walkable", .tileAheadWalkable),
        ("collectibles-remaining", .collectiblesRemaining)],
    fun condition => .object [("type", .text condition.name)]⟩

namespace Instruction

/-- The members that an instruction may state. -/
structure Parts where
  kind : String
  side : Option Side
  times : Option UInt32
  body : Option Program
  condition : Option Condition
  whenTrue : Option Program
  whenFalse : Option Program

/-- The instruction that its members state. -/
def ofParts (parts : Parts) : Except String Instruction :=
  match parts.kind with
  | "move" => .ok .move
  | "collect" => .ok .collect
  | "turn" =>
    match parts.side with
    | some side => .ok (.turn side)
    | none => .error "turn instruction requires a direction"
  | "repeat" =>
    match parts.times with
    | some times => .ok (.loop times (parts.body.getD []))
    | none => .error "repeat instruction requires times"
  | "conditional" =>
    .ok (.branch parts.condition (parts.whenTrue.getD []) (parts.whenFalse.getD []))
  | "" => .error "instruction type must not be empty"
  | kind => .ok (.other kind)

/-- The field of a list of instructions, given the decoder of the lists inside. -/
def bodyField (name : String) (body : Node → Except Trouble Program)
    (get : Parts → Option Program) : Field Parts (Option Program) :=
  { name, decode := Decoder.optional fun _ _ node => body node, whenMissing := some none, get,
    encode := fun _ => none }

/-- The fields of an instruction, given the decoder of the lists inside. -/
def plan (body : Node → Except Trouble Program) :
    Plan Parts (String → Option Side → Option UInt32 → Option Program → Option Condition →
      Option Program → Option Program → Parts) :=
  .cons (.required "type" (·.kind)) <|
  .cons (.optional "direction" (·.side)) <|
  .cons (.optional "times" (·.times)) <|
  .cons (bodyField "body" body (·.body)) <|
  .cons (.optional "condition" (·.condition)) <|
  .cons (bodyField "truthy" body (·.whenTrue)) <|
  .cons (bodyField "falsy" body (·.whenFalse)) .nil

/-- Decode an instruction, given the decoder of the lists inside. -/
def decoderWith (body : Node → Except Trouble Program) : Decoder Instruction :=
  Decoder.refine ofParts ((plan body).decoder "InstructionRepr" Parts.mk)

/-- Decode a list of instructions. -/
def decodeList (form : Form) : (room : Nat) → Node → Except Trouble Program
  | room + 2 => Decoder.array (decoderWith (decodeList form room) form) (room + 2)
  | room => Decoder.array (decoderWith (fun _ => .ok []) form) room

/-- The decoder of an instruction. -/
def decoder : Decoder Instruction :=
  fun form room => decoderWith (decodeList form (room - 1)) form room

mutual

/-- The object that an instruction is written as. -/
def encode : Instruction → Json
  | .move => .object [("type", .text "move")]
  | .collect => .object [("type", .text "collect")]
  | .turn side => .object [("type", .text "turn"), ("direction", .text side.name)]
  | .loop times body =>
    .object
      [("type", .text "repeat"), ("times", .nat times.toNat), ("body", .array (encodeList body))]
  | .branch none whenTrue whenFalse =>
    .object [("type", .text "conditional"), ("truthy", .array (encodeList whenTrue)),
      ("falsy", .array (encodeList whenFalse))]
  | .branch (some condition) whenTrue whenFalse =>
    .object [("type", .text "conditional"), ("condition", Wire.encode condition),
      ("truthy", .array (encodeList whenTrue)), ("falsy", .array (encodeList whenFalse))]
  | .other kind => .object [("type", .text kind)]

/-- The objects that a list of instructions is written as. -/
def encodeList : List Instruction → List Json
  | [] => []
  | instruction :: rest => instruction.encode :: encodeList rest

end

instance : Wire Instruction := ⟨decoder, encode⟩

end Instruction

namespace Program

/-- Read a program from its JSON text. -/
def parseJson (source : String) : Except Trouble Program :=
  decodeText (Wire.decode (α := Program)) source

end Program

end TileCourse
