import TileCourse.Json.Basic
import TileCourse.Json.Fault

/-!
# The tree of a JSON text

Reading a text never fails: it gives a tree in which every value knows where it stands, and in
which a fault is a node like any other. Whoever decodes the tree meets its faults in the order of
the text, between the values that come before and after them, and so reports the first problem of
any kind. A text or a number may be well formed and still have no value; such a node can be passed
over but not used, which is why some nodes carry one fault for either purpose.
-/

namespace TileCourse.Json

/-- A value without parts. -/
inductive Scalar where
  | null
  | bool (value : Bool)
  | number (value : JsonNumber)
  | text (value : String)
  deriving DecidableEq, Repr

/-- How the place of a value begins. -/
inductive Lead where
  /-- The text has ended. -/
  | nothing
  /-- A quote. -/
  | quote
  /-- The first letter of `null`. -/
  | absence
  /-- Any other character but an opening bracket. -/
  | other
  deriving DecidableEq, Repr

/-- What stands where an item has ended and the array goes on. -/
inductive ItemBreak where
  /-- The text has ended. -/
  | ended
  /-- A comma, and then the text has ended. -/
  | endedAfterComma
  /-- A comma, and then the closing bracket. -/
  | commaBeforeClose
  /-- Neither a comma nor the closing bracket. -/
  | noComma
  deriving DecidableEq, Repr

/-- What stands where a member has ended and the object goes on. -/
inductive MemberBreak where
  /-- The text has ended. -/
  | ended
  /-- A comma, and then the text has ended. -/
  | endedAfterComma
  /-- A comma, and then the closing brace. -/
  | commaBeforeClose
  /-- Neither a comma nor the closing brace. -/
  | noComma
  deriving DecidableEq, Repr

/-- The name of a member. -/
structure Name where
  /-- The text of the name, unless it has a fault that does not hide its end. -/
  text : Except Fault String
  /-- The offset just after the closing quote. -/
  stop : Nat
  /-- Where one stands who gives up on the object after the name. -/
  resume : Nat

mutual

/-- A value in a text, from the offset `start` on. -/
inductive Node where
  /-- A complete scalar that ends at `stop`; its value may be missing. -/
  | scalar (start stop : Nat) (value : Except Fault Scalar)
  /-- The text breaks off or goes wrong here: the fault for one who wants the value, and the fault
  for one who passes over it. -/
  | broken (start : Nat) (lead : Lead) (use skip : Fault)
  /-- An array. -/
  | array (start : Nat) (items : Items)
  /-- An object. -/
  | object (start : Nat) (members : Members)

/-- The rest of an array. -/
inductive Items where
  /-- The closing bracket, which ends at `stop`. -/
  | close (stop : Nat)
  /-- The array breaks off at an offset. -/
  | broken (why : ItemBreak) (offset : Nat)
  /-- An item. One who gives up on the array after the item stands at `resume`. -/
  | item (value : Node) (resume : Nat) (rest : Items)

/-- The rest of an object. -/
inductive Members where
  /-- The closing brace, which ends at `stop`. -/
  | close (stop : Nat)
  /-- The object breaks off at an offset. -/
  | broken (why : MemberBreak) (offset : Nat)
  /-- Something else stands at an offset in the place of a name. -/
  | noName (offset : Nat)
  /-- The text breaks off or goes wrong inside a name. -/
  | brokenName (use skip : Fault)
  /-- A name without a colon after it. -/
  | noColon (name : Name) (fault : Fault)
  /-- A member. One who gives up on the object after its value stands at `resume`. -/
  | member (name : Name) (value : Node) (resume : Nat) (rest : Members)

end

end TileCourse.Json
