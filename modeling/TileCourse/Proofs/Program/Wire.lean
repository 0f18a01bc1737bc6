import TileCourse.Program.Wire
import TileCourse.Proofs.Json.Records
import TileCourse.Proofs.Program.Tree

/-!
# Instructions restored from JSON

An instruction is decoded from its own JSON form exactly if the form leaves no more brackets open
than there is room for, and no unknown kind in it is the name of a known one.
-/

namespace TileCourse

open Json

/-- A side is restored from its name. -/
theorem Side.restores (side : Side) : (Wire.decode (α := Side)).Restores (Wire.encode side) side
    fun _ => True := by
  cases side <;> exact Decoder.choice_restores rfl

/-- A condition is restored from an object with its name. -/
theorem Condition.restores (condition : Condition) :
    (Wire.decode (α := Condition)).Restores (Wire.encode condition) condition (0 < ·) := by
  cases condition <;> exact Decoder.tagged_restores rfl

namespace Instruction

/-- A kind that is unknown to programs in JSON. -/
def UnknownKind (kind : String) : Prop :=
  kind ∉ ["move", "turn", "collect", "repeat", "conditional", ""]

/-- The kind of the instruction is unknown if the instruction says so. -/
def Candid : Instruction → Prop
  | .other kind => UnknownKind kind
  | _ => True

/-- Without room no list inside an instruction is decoded. -/
theorem decoder_with_zero (body body' : Node → Except Trouble Program) (form : Form)
    (node : Node) : decoderWith body form 0 node = decoderWith body' form 0 node := by
  unfold decoderWith Decoder.refine
  rcases node with ⟨start, stop, _ | value⟩ | _ | _ | _ <;> simp [Plan.decoder]

/-- An array is decoded with one bracket less for its items. -/
theorem array_congr {α : Type} {decode decode' : Nat → Node → Except Trouble α} {room : Nat}
    (h : decode (room - 1) = decode' (room - 1)) :
    Decoder.array decode room = Decoder.array decode' room := by
  funext node
  unfold Decoder.array
  rw [h]

/-- The lists inside an instruction are decoded like any other list. -/
theorem decode_list_eq (form : Form) (room : Nat) :
    decodeList form room = Decoder.list decoder form room := by
  unfold decodeList
  split
  · exact array_congr rfl
  · rename_i hroom
    refine array_congr ?_
    obtain hzero : room - 1 = 0 := by
      match room, hroom with
      | 0, _ | 1, _ => rfl
      | n + 2, hroom => exact absurd rfl (hroom n)
    rw [hzero]
    exact funext (decoder_with_zero _ _ form)

/-- An object is decoded as an instruction by way of its members. -/
theorem decoder_object_iff {form : Form} {room start : Nat} {found : Members}
    {instruction : Instruction} :
    decoder form room (.object start found) = .ok instruction ↔ 0 < room ∧ ∃ parts,
      (plan (Decoder.list decoder form (room - 1))).ofMembers Parts.mk form (room - 1) found
        (plan (Decoder.list decoder form (room - 1))).noSlots = .ok parts ∧
      ofParts parts = .ok instruction := by
  rw [← decode_list_eq, decoder, decoderWith, Decoder.refine_eq_ok_iff]
  simp only [Plan.decoder_object_iff, and_assoc, exists_and_left]

section Members

variable {body : Node → Except Trouble Program} {form : Form} {room stop : Nat}
  {kind first second third : Node} {P : Parts → Prop}

/-- The parts of an instruction of which only the kind is stated. -/
theorem parts_of_kind_iff {a b c : Nat} :
    (∃ parts, (plan body).ofMembers Parts.mk form room (.member ⟨.ok "type", a, b⟩ kind c
        (.close stop)) (plan body).noSlots = .ok parts ∧ P parts) ↔
      ∃ word, Decoder.text form room kind = .ok word ∧
        P ⟨word, none, none, none, none, none, none⟩ :=
  Plan.written_iff rfl rfl fun _ => Plan.absent_iff rfl rfl <| Plan.absent_iff rfl rfl <|
    Plan.absent_iff rfl rfl <| Plan.absent_iff rfl rfl <| Plan.absent_iff rfl rfl <|
      Plan.absent_iff rfl rfl Plan.done_iff

/-- The parts of an instruction that states a side. -/
theorem parts_of_side_iff {a b c a' b' c' : Nat} :
    (∃ parts, (plan body).ofMembers Parts.mk form room (.member ⟨.ok "type", a, b⟩ kind c
        (.member ⟨.ok "direction", a', b'⟩ first c' (.close stop))) (plan body).noSlots =
          .ok parts ∧ P parts) ↔
      ∃ word, Decoder.text form room kind = .ok word ∧
        ∃ side, Decoder.optional Wire.decode form room first = .ok side ∧
          P ⟨word, side, none, none, none, none, none⟩ :=
  Plan.written_iff rfl rfl fun _ => Plan.written_iff rfl rfl fun _ => Plan.absent_iff rfl rfl <|
    Plan.absent_iff rfl rfl <| Plan.absent_iff rfl rfl <| Plan.absent_iff rfl rfl <|
      Plan.absent_iff rfl rfl Plan.done_iff

/-- The parts of an instruction that states how often a body is carried out. -/
theorem parts_of_body_iff {a b c a' b' c' a'' b'' c'' : Nat} :
    (∃ parts, (plan body).ofMembers Parts.mk form room (.member ⟨.ok "type", a, b⟩ kind c
        (.member ⟨.ok "times", a', b'⟩ first c' (.member ⟨.ok "body", a'', b''⟩ second c''
          (.close stop)))) (plan body).noSlots = .ok parts ∧ P parts) ↔
      ∃ word, Decoder.text form room kind = .ok word ∧
        ∃ times, Decoder.optional Wire.decode form room first = .ok times ∧
          ∃ inside, Decoder.optional (fun _ _ => body) form room second = .ok inside ∧
            P ⟨word, none, times, inside, none, none, none⟩ :=
  Plan.written_iff rfl rfl fun _ => Plan.absent_iff rfl rfl <| Plan.written_iff rfl rfl fun _ =>
    Plan.written_iff rfl rfl fun _ => Plan.absent_iff rfl rfl <| Plan.absent_iff rfl rfl <|
      Plan.absent_iff rfl rfl Plan.done_iff

/-- The parts of an instruction that states two bodies. -/
theorem parts_of_bodies_iff {a b c a' b' c' a'' b'' c'' : Nat} :
    (∃ parts, (plan body).ofMembers Parts.mk form room (.member ⟨.ok "type", a, b⟩ kind c
        (.member ⟨.ok "truthy", a', b'⟩ first c' (.member ⟨.ok "falsy", a'', b''⟩ second c''
          (.close stop)))) (plan body).noSlots = .ok parts ∧ P parts) ↔
      ∃ word, Decoder.text form room kind = .ok word ∧
        ∃ whenTrue, Decoder.optional (fun _ _ => body) form room first = .ok whenTrue ∧
          ∃ whenFalse, Decoder.optional (fun _ _ => body) form room second = .ok whenFalse ∧
            P ⟨word, none, none, none, none, whenTrue, whenFalse⟩ :=
  Plan.written_iff rfl rfl fun _ => Plan.absent_iff rfl rfl <| Plan.absent_iff rfl rfl <|
    Plan.absent_iff rfl rfl <| Plan.absent_iff rfl rfl <| Plan.written_iff rfl rfl fun _ =>
      Plan.written_iff rfl rfl fun _ => Plan.done_iff

/-- The parts of an instruction that states a condition and two bodies. -/
theorem parts_of_condition_iff {a b c a' b' c' a'' b'' c'' a₃ b₃ c₃ : Nat} :
    (∃ parts, (plan body).ofMembers Parts.mk form room (.member ⟨.ok "type", a, b⟩ kind c
        (.member ⟨.ok "condition", a', b'⟩ first c' (.member ⟨.ok "truthy", a'', b''⟩ second c''
          (.member ⟨.ok "falsy", a₃, b₃⟩ third c₃ (.close stop))))) (plan body).noSlots =
            .ok parts ∧ P parts) ↔
      ∃ word, Decoder.text form room kind = .ok word ∧
        ∃ condition, Decoder.optional Wire.decode form room first = .ok condition ∧
          ∃ whenTrue, Decoder.optional (fun _ _ => body) form room second = .ok whenTrue ∧
            ∃ whenFalse, Decoder.optional (fun _ _ => body) form room third = .ok whenFalse ∧
              P ⟨word, none, none, none, condition, whenTrue, whenFalse⟩ :=
  Plan.written_iff rfl rfl fun _ => Plan.absent_iff rfl rfl <| Plan.absent_iff rfl rfl <|
    Plan.absent_iff rfl rfl <| Plan.written_iff rfl rfl fun _ => Plan.written_iff rfl rfl fun _ =>
      Plan.written_iff rfl rfl fun _ => Plan.done_iff

end Members

/-! ### Instructions of each form -/

section Forms

variable {fits fits' : Nat → Prop}

/-- An instruction that has nothing but a kind is restored from the kind. -/
theorem kind_restores (word : String) {instruction : Instruction} {P : Prop}
    (h : ofParts ⟨word, none, none, none, none, none, none⟩ = .ok instruction ↔ P) :
    decoder.Restores (.object [("type", .text word)]) instruction
      fun room => 0 < room ∧ P where
  legible := ⟨trivial, trivial⟩
  decode_iff := by
    rintro form room _ (_ | _ | _ | _ | _ | ⟨start, _ | ⟨_, _, _, hkind, ⟨⟩⟩⟩)
    rw [decoder_object_iff, parts_of_kind_iff, (Decoder.text_restores word).exists_iff hkind, h]

/-- A turn is restored with its side. -/
theorem turn_restores (side : Side) :
    decoder.Restores (encode (.turn side)) (.turn side) (0 < ·) where
  legible := ⟨trivial, side.restores.legible, trivial⟩
  decode_iff := by
    rintro form room _ (_ | _ | _ | _ | _ | ⟨start, _ | ⟨_, _, _, hkind, _ | ⟨_, _, _, hside, ⟨⟩⟩⟩⟩)
    rw [decoder_object_iff, parts_of_side_iff, (Decoder.text_restores "turn").exists_iff hkind,
      (side.restores.optional (by simp [Wire.encode])).exists_iff hside]
    simp [ofParts]

/-- A loop is restored if its body is. -/
theorem loop_restores {times : UInt32} {body : Program}
    (hbody : (Decoder.list decoder).Restores (.array (encodeList body)) body fits) :
    decoder.Restores (encode (.loop times body)) (.loop times body)
      fun room => 0 < room ∧ fits (room - 1) where
  legible := ⟨trivial, (Decoder.u32_restores times).legible, hbody.legible, trivial⟩
  decode_iff := by
    rintro form room _ (_ | _ | _ | _ | _ | ⟨start, _ | ⟨_, _, _, hkind, _ | ⟨_, _, _, htimes, _ |
      ⟨_, _, _, hinside, ⟨⟩⟩⟩⟩⟩)
    rw [decoder_object_iff, parts_of_body_iff, (Decoder.text_restores "repeat").exists_iff hkind,
      ((Decoder.u32_restores times).optional (by simp [Wire.encode, nat])).exists_iff htimes,
      Decoder.optional_exists_iff hinside (by simp), ← hbody.decode_iff form (room - 1) _ hinside]
    simp [ofParts]

/-- A branch without a condition states two bodies only. -/
theorem branch_restores {whenTrue whenFalse : Program}
    (htrue : (Decoder.list decoder).Restores (.array (encodeList whenTrue)) whenTrue fits)
    (hfalse : (Decoder.list decoder).Restores (.array (encodeList whenFalse)) whenFalse fits') :
    decoder.Restores (encode (.branch none whenTrue whenFalse)) (.branch none whenTrue whenFalse)
      fun room => 0 < room ∧ fits (room - 1) ∧ fits' (room - 1) where
  legible := ⟨trivial, htrue.legible, hfalse.legible, trivial⟩
  decode_iff := by
    rintro form room _ (_ | _ | _ | _ | _ | ⟨start, _ | ⟨_, _, _, hkind, _ | ⟨_, _, _, hfirst, _ |
      ⟨_, _, _, hsecond, ⟨⟩⟩⟩⟩⟩)
    rw [decoder_object_iff, parts_of_bodies_iff,
      (Decoder.text_restores "conditional").exists_iff hkind,
      Decoder.optional_exists_iff hfirst (by simp), ← htrue.decode_iff form (room - 1) _ hfirst,
      ← hfalse.decode_iff form (room - 1) _ hsecond]
    simp only [Decoder.optional_exists_iff hsecond (by simp : Json.array _ ≠ .null)]
    simp [ofParts]

/-- A branch with a condition is restored if its bodies are. -/
theorem branch_condition_restores (condition : Condition) {whenTrue whenFalse : Program}
    (htrue : (Decoder.list decoder).Restores (.array (encodeList whenTrue)) whenTrue fits)
    (hfalse : (Decoder.list decoder).Restores (.array (encodeList whenFalse)) whenFalse fits') :
    decoder.Restores (encode (.branch (some condition) whenTrue whenFalse))
      (.branch (some condition) whenTrue whenFalse)
      fun room => 1 < room ∧ fits (room - 1) ∧ fits' (room - 1) where
  legible := ⟨trivial, condition.restores.legible, htrue.legible, hfalse.legible, trivial⟩
  decode_iff := by
    rintro form room _ (_ | _ | _ | _ | _ | ⟨start, _ | ⟨_, _, _, hkind, _ | ⟨_, _, _, hasked, _ |
      ⟨_, _, _, hfirst, _ | ⟨_, _, _, hsecond, ⟨⟩⟩⟩⟩⟩⟩)
    rw [decoder_object_iff, parts_of_condition_iff,
      (Decoder.text_restores "conditional").exists_iff hkind]
    simp only [Decoder.optional_exists_iff hfirst (by simp : Json.array _ ≠ .null),
      Decoder.optional_exists_iff hsecond (by simp : Json.array _ ≠ .null), ofParts]
    rw [← htrue.decode_iff form (room - 1) _ hfirst, ← hfalse.decode_iff form (room - 1) _ hsecond]
    have hcondition := (condition.restores.optional (by simp [Wire.encode])).decode_iff form
      (room - 1) _ hasked
    have hroom : 1 < room ↔ 0 < room ∧ 0 < room - 1 := by omega
    rw [hroom, ← hcondition]
    simp only [Except.ok.injEq, branch.injEq, Option.getD_some]
    constructor
    · rintro ⟨hpos, _, hc, _, ht, _, hf, rfl, rfl, rfl⟩
      exact ⟨⟨hpos, hc⟩, ht, hf⟩
    · rintro ⟨⟨hpos, hc⟩, ht, hf⟩
      exact ⟨hpos, _, hc, _, ht, _, hf, rfl, rfl, rfl⟩

end Forms

/-! ### Brackets -/

/-- The form of a list of instructions has the forms of the instructions. -/
theorem encode_list_eq_map (program : List Instruction) :
    encodeList program = program.map encode := by
  induction program with
  | nil => rfl
  | cons instruction rest ih => rw [encodeList, ih, List.map_cons]

/-- An instruction fits into a room and says of no known kind that it is unknown. -/
def Fits (instruction : Instruction) (room : Nat) : Prop :=
  instruction.encode.depth ≤ room ∧ instruction.Everywhere Candid

/-- A list of instructions fits into a room, and its instructions are candid. -/
def FitsIn (program : List Instruction) (room : Nat) : Prop :=
  (Json.array (encodeList program)).depth ≤ room ∧ EverywhereIn Candid program

/-- A list of instructions is restored if each of them is. -/
theorem list_restores {program : List Instruction}
    (h : ∀ instruction ∈ program, decoder.Restores instruction.encode instruction
      instruction.Fits) :
    (Decoder.list decoder).Restores (.array (encodeList program)) program (FitsIn program) := by
  rw [encode_list_eq_map]
  refine (Decoder.list_restores h).congr fun room => ?_
  rw [FitsIn, encode_list_eq_map, Json.depth, everywhere_in_iff]
  constructor
  · rintro ⟨hroom, hfits⟩
    refine ⟨Nat.add_le_of_le_sub hroom (items_depth_le_iff.2 ?_), fun i hi => (hfits i hi).2⟩
    exact List.forall_mem_map.2 fun i hi => (hfits i hi).1
  · rintro ⟨hdepth, hcandid⟩
    have hitems := List.forall_mem_map.1 (items_depth_le_iff.1 (Nat.le_sub_of_add_le hdepth))
    exact ⟨by omega, fun i hi => ⟨hitems i hi, hcandid i hi⟩⟩

/-- A kind by itself is an unknown one exactly if it is none of the known kinds. -/
theorem other_of_parts_iff {kind : String} :
    ofParts ⟨kind, none, none, none, none, none, none⟩ = .ok (.other kind) ↔
      UnknownKind kind := by
  unfold ofParts UnknownKind
  split <;> simp_all

section Fits

variable {times : UInt32} {condition : Condition} {body whenTrue whenFalse : Program} {room : Nat}

/-- A loop fits into a room if its body fits into what one bracket leaves of it. -/
theorem fits_loop_iff : (loop times body).Fits room ↔ 0 < room ∧ FitsIn body (room - 1) := by
  have hdepth : (encode (.loop times body)).depth = (Json.array (encodeList body)).depth + 1 := by
    simp [encode, Json.depth, Json.membersDepth, nat]
  rw [Fits, FitsIn, hdepth]
  show _ ∧ True ∧ _ ↔ _
  rw [true_and, ← and_assoc]
  exact and_congr (by omega) Iff.rfl

/-- A branch without a condition fits if its bodies fit into what one bracket leaves. -/
theorem fits_branch_iff : (branch none whenTrue whenFalse).Fits room ↔
    0 < room ∧ FitsIn whenTrue (room - 1) ∧ FitsIn whenFalse (room - 1) := by
  have hdepth : (encode (.branch none whenTrue whenFalse)).depth =
      max (Json.array (encodeList whenTrue)).depth (Json.array (encodeList whenFalse)).depth +
        1 := by
    simp [encode, Json.depth, Json.membersDepth]
  rw [Fits, FitsIn, FitsIn, hdepth]
  show _ ∧ True ∧ _ ∧ _ ↔ _
  constructor
  · rintro ⟨hroom, -, htrue, hfalse⟩
    exact ⟨by omega, ⟨by omega, htrue⟩, by omega, hfalse⟩
  · rintro ⟨hroom, ⟨hfirst, htrue⟩, hsecond, hfalse⟩
    exact ⟨by omega, trivial, htrue, hfalse⟩

/-- A branch with a condition needs room for one bracket more. -/
theorem fits_branch_condition_iff : (branch (some condition) whenTrue whenFalse).Fits room ↔
    1 < room ∧ FitsIn whenTrue (room - 1) ∧ FitsIn whenFalse (room - 1) := by
  have hdepth : (encode (.branch (some condition) whenTrue whenFalse)).depth =
      max 1 (max (Json.array (encodeList whenTrue)).depth
        (Json.array (encodeList whenFalse)).depth) + 1 := by
    simp [encode, Json.depth, Json.membersDepth, Wire.encode]
  rw [Fits, FitsIn, FitsIn, hdepth]
  show _ ∧ True ∧ _ ∧ _ ↔ _
  constructor
  · rintro ⟨hroom, -, htrue, hfalse⟩
    exact ⟨by omega, ⟨by omega, htrue⟩, by omega, hfalse⟩
  · rintro ⟨hroom, ⟨hfirst, htrue⟩, hsecond, hfalse⟩
    exact ⟨by omega, trivial, htrue, hfalse⟩

end Fits

mutual

/-- An instruction is restored from its own form when the form fits into the room. -/
theorem decoder_restores :
    ∀ instruction : Instruction, decoder.Restores instruction.encode instruction instruction.Fits
  | .move => (kind_restores "move" (iff_of_true rfl trivial)).congr fun _ => Iff.rfl
  | .collect => (kind_restores "collect" (iff_of_true rfl trivial)).congr fun _ => Iff.rfl
  | .turn side => (turn_restores side).congr fun _ => (and_iff_left trivial).symm
  | .other kind => (kind_restores kind other_of_parts_iff).congr fun _ => Iff.rfl
  | .loop _ body =>
      (loop_restores (list_restores (all_decoder_restores body))).congr fun _ => fits_loop_iff.symm
  | .branch none whenTrue whenFalse =>
      (branch_restores (list_restores (all_decoder_restores whenTrue))
        (list_restores (all_decoder_restores whenFalse))).congr fun _ => fits_branch_iff.symm
  | .branch (some condition) whenTrue whenFalse =>
      (branch_condition_restores condition (list_restores (all_decoder_restores whenTrue))
        (list_restores (all_decoder_restores whenFalse))).congr fun _ =>
          fits_branch_condition_iff.symm

/-- Every instruction of a list is restored. -/
theorem all_decoder_restores :
    ∀ program : List Instruction, ∀ instruction ∈ program,
      decoder.Restores instruction.encode instruction instruction.Fits
  | [] => by simp
  | instruction :: rest =>
      List.forall_mem_cons.2 ⟨decoder_restores instruction, all_decoder_restores rest⟩

end

/-! ### What is decoded -/

/-- A body that a record holds has been decoded as one. -/
theorem decode_of_offers {name : String} {body : Node → Except Trouble Program}
    {get : Parts → Option Program} {form : Form} {room : Nat} {program : Program}
    (h : Plan.Offers (bodyField name body get) form room (some program)) :
    ∃ node, body node = .ok program := by
  rcases h with ⟨node, hnode⟩ | ⟨⟨⟩⟩ | ⟨⟨⟩⟩
  have hoptional : Decoder.optional (fun _ _ => body) form room node = .ok (some program) := hnode
  exact ⟨node, Decoder.decode_of_optional hoptional⟩

/-- Whatever is decoded as an instruction stands in brackets and is candid about its own kind, and a
list inside it has two brackets less for its own instructions. -/
theorem inside_of_decode {form : Form} {room : Nat} {node : Node} {instruction : Instruction}
    (h : decoder form room node = .ok instruction) :
    0 < room ∧ instruction.Candid ∧ ∀ body ∈ instruction.bodies, ∀ i ∈ body,
      1 < room ∧ ∃ item, decoder form (room - 2) item = .ok i := by
  have hbody {name : String} {get : Parts → Option Program} {inside : Option Program}
      (hoffers : Plan.Offers (bodyField name (Decoder.list decoder form (room - 1)) get) form
        (room - 1) inside) :
      ∀ i ∈ inside.getD [], 1 < room ∧ ∃ item, decoder form (room - 2) item = .ok i := by
    cases inside with
    | none => simp
    | some program =>
        obtain ⟨node, hnode⟩ := decode_of_offers hoffers
        obtain ⟨hroom, hitems⟩ := Decoder.decode_of_list hnode
        exact fun i hi => ⟨by omega, hitems i hi⟩
  rw [decoder, decode_list_eq, decoderWith, Decoder.refine_eq_ok_iff] at h
  obtain ⟨_, hparts, h⟩ := h
  refine ⟨Plan.room_of_decode hparts, ?_⟩
  obtain ⟨kind, -, side, -, times, -, inside, hinside, condition, -, whenTrue, htrue, whenFalse,
    hfalse, rfl⟩ := Plan.reaches_of_decode hparts
  unfold ofParts at h
  simp only at h
  split at h
  · cases h
    exact ⟨trivial, by simp [bodies]⟩
  · cases h
    exact ⟨trivial, by simp [bodies]⟩
  · split at h <;> cases h
    exact ⟨trivial, by simp [bodies]⟩
  · split at h <;> cases h
    exact ⟨trivial, by simpa [bodies] using hbody hinside⟩
  · cases h
    exact ⟨trivial, by simpa [bodies] using ⟨hbody htrue, hbody hfalse⟩⟩
  · cases h
  · cases h
    refine ⟨?_, by simp [bodies]⟩
    show UnknownKind kind
    simp_all [UnknownKind]

/-- Whatever is decoded as an instruction says of no known kind that it is unknown. -/
theorem candid_of_decode {form : Form} {room : Nat} :
    ∀ {node : Node} {instruction : Instruction}, decoder form room node = .ok instruction →
      instruction.Everywhere Candid := by
  induction room using Nat.strongRecOn with
  | ind room ih =>
      intro node instruction h
      obtain ⟨-, hcandid, hinside⟩ := inside_of_decode h
      refine everywhere_iff.2 ⟨hcandid, fun body hbody i hi => ?_⟩
      obtain ⟨hroom, item, hitem⟩ := hinside body hbody i hi
      exact ih _ (by omega) hitem

/-- Whatever is decoded as an instruction has had room for two brackets around each of its bodies,
written or left out. -/
theorem nesting_of_decode {form : Form} {room : Nat} :
    ∀ {node : Node} {instruction : Instruction}, decoder form room node = .ok instruction →
      2 * instruction.nesting + 1 ≤ room := by
  induction room using Nat.strongRecOn with
  | ind room ih =>
      intro node instruction h
      obtain ⟨hpos, -, hinside⟩ := inside_of_decode h
      have hle : instruction.nesting ≤ (room - 1) / 2 := by
        refine nesting_le_iff.2 fun body hbody i hi => ?_
        obtain ⟨hroom, item, hitem⟩ := hinside body hbody i hi
        have hnesting := ih _ (by omega) hitem
        omega
      omega

/-! ### Brackets and bodies -/

mutual

/-- The form of an instruction opens two brackets for each body around an instruction inside it. -/
theorem depth_bounds : ∀ instruction : Instruction,
    2 * instruction.nesting + 1 ≤ instruction.encode.depth ∧
      instruction.encode.depth ≤ 2 * instruction.nesting + 2
  | .move | .collect | .turn _ | .other _ => by
      simp [encode, nesting, Json.depth, Json.membersDepth]
  | .loop times body => by
      have h := list_depth_bounds body
      simp only [encode, nesting, Json.depth, Json.membersDepth, nat]
      omega
  | .branch none whenTrue whenFalse => by
      have htrue := list_depth_bounds whenTrue
      have hfalse := list_depth_bounds whenFalse
      simp only [encode, nesting, Json.depth, Json.membersDepth]
      omega
  | .branch (some condition) whenTrue whenFalse => by
      have htrue := list_depth_bounds whenTrue
      have hfalse := list_depth_bounds whenFalse
      simp only [encode, nesting, Json.depth, Json.membersDepth, Wire.encode]
      omega

/-- The form of a body is about twice as deep as the body. -/
theorem list_depth_bounds : ∀ body : List Instruction,
    2 * bodyNesting body ≤ Json.itemsDepth (encodeList body) + 1 ∧
      Json.itemsDepth (encodeList body) ≤ 2 * bodyNesting body
  | [] => by simp [encodeList, bodyNesting, Json.itemsDepth]
  | instruction :: rest => by
      have hfirst := depth_bounds instruction
      have hrest := list_depth_bounds rest
      simp only [encodeList, bodyNesting, Json.itemsDepth]
      omega

end

/-- An even room is as large as the form of an instruction when half of it, less one, is as large
as the nesting of the instruction. -/
theorem depth_le_iff {instruction : Instruction} {n : Nat} :
    instruction.encode.depth ≤ 2 * n + 2 ↔ instruction.nesting ≤ n := by
  have h := depth_bounds instruction
  omega

end Instruction

/-- Whatever is read as a program in JSON is candid about its kinds. -/
theorem Program.candid_of_parse_json {source : String} {program : Program}
    (h : Program.parseJson source = .ok program) :
    Instruction.EverywhereIn Instruction.Candid program := by
  obtain ⟨-, hitems⟩ := Decoder.decode_of_list (decode_of_decode_text h)
  refine Instruction.everywhere_in_iff.2 fun i hi => ?_
  obtain ⟨node, hnode⟩ := hitems i hi
  exact Instruction.candid_of_decode hnode

end TileCourse
