import TileCourse.Json.Lexeme

/-!
# Reading JSON text

`Document.read` turns any text into a tree. It is defined by recursion on what is left of the
text, and it stops at the first place where the text breaks off or goes wrong; that place is then
the last node of the tree.
-/

namespace TileCourse.Json

/-- What is left after white space. -/
def Remainder.skipSpace {bound : Nat} (rest : Remainder bound) : Remainder bound :=
  let skipped := Json.skipSpace rest.chars rest.offset
  ⟨skipped.1, skipped.2, Nat.lt_of_le_of_lt (skip_space_length _ _) rest.shorter⟩

/-- What is left after one more character. -/
def Remainder.next {bound : Nat} (rest : Remainder bound) {c : Char} {cs : List Char}
    (h : rest.chars = c :: cs) : Remainder bound :=
  ⟨cs, rest.offset + 1, by
    have := rest.shorter
    rw [h, List.length_cons] at this
    omega⟩

/-- A part of the tree, with what follows it unless the text breaks off or goes wrong there. -/
structure Reading (α : Type) (bound : Nat) where
  /-- The part of the tree. -/
  node : α
  /-- What follows. -/
  rest? : Option (Remainder bound)

/-- The same part as the beginning of a longer input. -/
def Reading.widen {α : Type} {m n : Nat} (reading : Reading α m) (h : m ≤ n) : Reading α n :=
  ⟨reading.node, reading.rest?.map fun rest => rest.widen h⟩

/-- The node of a scalar that starts at an offset. -/
def Reading.ofTaken {bound : Nat} (start : Nat) (lead : Lead) (taken : Taken Scalar bound) :
    Reading Node bound :=
  match taken with
  | .complete value rest => ⟨.scalar start rest.offset value, some rest⟩
  | .broken use skip => ⟨.broken start lead use skip, none⟩

/-- Read a scalar with the given first character. -/
def readScalar (c : Char) (rest : List Char) (offset : Nat) :
    Reading Node (c :: rest).length :=
  if c = '"' then
    .ofTaken offset .quote
      ((takeText rest (offset + 1) (.ok []) (Nat.le_succ _)).map Scalar.text)
  else if c = '-' then
    .ofTaken offset .other
      (((takeUnsigned true rest (offset + 1)).map Scalar.number).widen (Nat.le_succ _))
  else if c.isDigit then
    .ofTaken offset .other ((takeUnsigned false (c :: rest) offset).map Scalar.number)
  else if c = 'n' then
    .ofTaken offset .absence (takeLiteral .null ['u', 'l', 'l'] rest offset)
  else if c = 't' then
    .ofTaken offset .other (takeLiteral (.bool true) ['r', 'u', 'e'] rest offset)
  else if c = 'f' then
    .ofTaken offset .other (takeLiteral (.bool false) ['a', 'l', 's', 'e'] rest offset)
  else
    ⟨.broken offset .other ⟨.expectedValue, offset + 1⟩ ⟨.expectedValue, offset + 1⟩, none⟩

/-- Read the name of a member and the colon after it. The name is given together with what follows
the colon, or together with the fault of a missing colon. -/
def readName (cs : List Char) (offset : Nat) :
    Except Members (Name × Remainder cs.length) :=
  match takeText cs offset (.ok []) (Nat.le_refl _) with
  | .broken use skip => .error (.brokenName use skip)
  | .complete chars rest =>
    let after := rest.skipSpace
    let name : Name := ⟨chars, rest.offset, after.offset⟩
    match hafter : after.chars with
    | [] => .error (.noColon name ⟨.endInObject, after.offset⟩)
    | ':' :: _ => .ok (name, (after.next hafter).skipSpace)
    | _ :: _ => .error (.noColon name ⟨.expectedColon, after.offset + 1⟩)

mutual

/-- Read a value at the front of an input, which starts with no white space. -/
def readValue (cs : List Char) (offset : Nat) : Reading Node cs.length :=
  match cs with
  | [] => ⟨.broken offset .nothing ⟨.endInValue, offset⟩ ⟨.endInValue, offset⟩, none⟩
  | '[' :: rest =>
    let inside : Remainder (rest.length + 1) := ⟨rest, offset + 1, Nat.lt_succ_self _⟩
    let inside := inside.skipSpace
    match hinside : inside.chars with
    | [] => ⟨.array offset (.broken .ended inside.offset), none⟩
    | ']' :: _ => ⟨.array offset (.close (inside.offset + 1)), some (inside.next hinside)⟩
    | c :: others =>
      have hshorter : (c :: others).length < rest.length + 1 := hinside ▸ inside.shorter
      let items := readItems (c :: others) inside.offset
      ⟨.array offset items.node, (items.widen (Nat.le_of_lt hshorter)).rest?⟩
  | '\x7b' :: rest =>
    let inside : Remainder (rest.length + 1) := ⟨rest, offset + 1, Nat.lt_succ_self _⟩
    let inside := inside.skipSpace
    match hinside : inside.chars with
    | [] => ⟨.object offset (.broken .ended inside.offset), none⟩
    | '\x7d' :: _ => ⟨.object offset (.close (inside.offset + 1)), some (inside.next hinside)⟩
    | c :: others =>
      have hshorter : (c :: others).length < rest.length + 1 := hinside ▸ inside.shorter
      let members := readMembers (c :: others) inside.offset
      ⟨.object offset members.node, (members.widen (Nat.le_of_lt hshorter)).rest?⟩
  | c :: rest => readScalar c rest offset
termination_by (cs.length, 0)

/-- Read the items of an array from the front of an input that starts with an item. -/
def readItems (cs : List Char) (offset : Nat) : Reading Items cs.length :=
  let value := readValue cs offset
  match value.rest? with
  | none => ⟨.item value.node 0 (.close 0), none⟩
  | some rest =>
    let after := rest.skipSpace
    match hafter : after.chars with
    | [] => ⟨.item value.node after.offset (.broken .ended after.offset), none⟩
    | ']' :: _ =>
      ⟨.item value.node (after.offset + 1) (.close (after.offset + 1)), some (after.next hafter)⟩
    | ',' :: _ =>
      let next := (after.next hafter).skipSpace
      match hnext : next.chars with
      | [] => ⟨.item value.node next.offset (.broken .endedAfterComma next.offset), none⟩
      | ']' :: _ =>
        ⟨.item value.node next.offset (.broken .commaBeforeClose (next.offset + 1)), none⟩
      | c :: others =>
        have hshorter : (c :: others).length < cs.length := hnext ▸ next.shorter
        let items := readItems (c :: others) next.offset
        ⟨.item value.node next.offset items.node,
          (items.widen (Nat.le_of_lt hshorter)).rest?⟩
    | _ :: _ => ⟨.item value.node after.offset (.broken .noComma (after.offset + 1)), none⟩
termination_by (cs.length, 1)

/-- Read the members of an object from the front of an input that starts with a name. -/
def readMembers (cs : List Char) (offset : Nat) : Reading Members cs.length :=
  match cs with
  | '"' :: inside =>
    match readName inside (offset + 1) with
    | .error broken => ⟨broken, none⟩
    | .ok (name, colon) =>
      have _hcolon : colon.chars.length < inside.length := colon.shorter
      let value := readValue colon.chars colon.offset
      match value.rest? with
      | none => ⟨.member name value.node 0 (.close 0), none⟩
      | some rest =>
        let after := (rest.widen (Nat.le_succ_of_le (Nat.le_of_lt colon.shorter))).skipSpace
        match hafter : after.chars with
        | [] => ⟨.member name value.node after.offset (.broken .ended after.offset), none⟩
        | '\x7d' :: _ =>
          ⟨.member name value.node (after.offset + 1) (.close (after.offset + 1)),
            some (after.next hafter)⟩
        | ',' :: _ =>
          let next := (after.next hafter).skipSpace
          match hnext : next.chars with
          | [] =>
            ⟨.member name value.node after.offset (.broken .endedAfterComma next.offset), none⟩
          | '\x7d' :: _ =>
            ⟨.member name value.node after.offset (.broken .commaBeforeClose (next.offset + 1)),
              none⟩
          | c :: others =>
            have hshorter : (c :: others).length < inside.length + 1 := hnext ▸ next.shorter
            let members := readMembers (c :: others) next.offset
            ⟨.member name value.node after.offset members.node,
              (members.widen (Nat.le_of_lt hshorter)).rest?⟩
        | _ :: _ =>
          ⟨.member name value.node after.offset (.broken .noComma (after.offset + 1)), none⟩
  | _ => ⟨.noName offset, none⟩
termination_by (cs.length, 1)

end

/-- A JSON text as a tree, with what stands after its value. -/
structure Document where
  /-- The value. -/
  root : Node
  /-- The fault of characters after the value. -/
  excess : Option Fault

/-- Read a text. -/
def Document.read (source : List Char) : Document :=
  let (chars, offset) := skipSpace source 0
  let value := readValue chars offset
  match value.rest? with
  | none => ⟨value.node, none⟩
  | some rest =>
    let after := rest.skipSpace
    match after.chars with
    | [] => ⟨value.node, none⟩
    | _ :: _ => ⟨value.node, some ⟨.trailingCharacters, after.offset + 1⟩⟩

end TileCourse.Json
