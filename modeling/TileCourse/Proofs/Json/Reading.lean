import TileCourse.Json.Reader
import TileCourse.Proofs.Json.Lexemes

/-!
# Reading what has been written

A tree states a value if it has the shape of the value, wherever its parts stand. `read_render`
says that the text of a value, in either style, is read as a tree that states the value; what is
decoded from the text then depends on the value alone.
-/

namespace TileCourse

/-- The text of a number is read as another number, which may have another form. -/
def JsonNumber.ReadAs (n m : JsonNumber) : Prop :=
  match Json.renderNumber n with
  | '-' :: digits => (Json.takeUnsigned true digits 0).Yields m []
  | digits => (Json.takeUnsigned false digits 0).Yields m []

namespace Json

mutual

/-- A tree states a value. -/
inductive States : Json → Node → Prop where
  | null (start stop : Nat) : States .null (.scalar start stop (.ok .null))
  | bool (b : Bool) (start stop : Nat) : States (.bool b) (.scalar start stop (.ok (.bool b)))
  | number (start stop : Nat) {n m : JsonNumber} (h : n.ReadAs m) :
      States (.number n) (.scalar start stop (.ok (.number m)))
  | text (s : String) (start stop : Nat) : States (.text s) (.scalar start stop (.ok (.text s)))
  | array (start : Nat) {items : List Json} {found : Items} (h : ItemsState items found) :
      States (.array items) (.array start found)
  | object (start : Nat) {members : List (String × Json)} {found : Members}
      (h : MembersState members found) : States (.object members) (.object start found)

/-- The items of a tree state those of an array. -/
inductive ItemsState : List Json → Items → Prop where
  | nil (stop : Nat) : ItemsState [] (.close stop)
  | cons (resume : Nat) {item : Json} {rest : List Json} {node : Node} {others : Items}
      (hitem : States item node) (hrest : ItemsState rest others) :
      ItemsState (item :: rest) (.item node resume others)

/-- The members of a tree state those of an object. -/
inductive MembersState : List (String × Json) → Members → Prop where
  | nil (stop : Nat) : MembersState [] (.close stop)
  | cons (stop resume after : Nat) {name : String} {value : Json} {rest : List (String × Json)}
      {node : Node} {others : Members} (hvalue : States value node)
      (hrest : MembersState rest others) :
      MembersState ((name, value) :: rest) (.member ⟨.ok name, stop, resume⟩ node after others)

end

mutual

/-- Every number in a value has a text that is read as a number. -/
def Legible : Json → Prop
  | .number n => ∃ m, n.ReadAs m
  | .array items => LegibleItems items
  | .object members => LegibleMembers members
  | _ => True

/-- Every number in the items of an array is legible. -/
def LegibleItems : List Json → Prop
  | [] => True
  | item :: rest => item.Legible ∧ LegibleItems rest

/-- Every number in the values of an object is legible. -/
def LegibleMembers : List (String × Json) → Prop
  | [] => True
  | (_, value) :: rest => value.Legible ∧ LegibleMembers rest

end

/-- A style puts nothing but white space into its gaps. -/
structure Style.Blank (style : Style) : Prop where
  gap : ∀ depth, ∀ c ∈ style.gap depth, isSpace c = true
  afterColon : ∀ c ∈ style.afterColon, isSpace c = true

/-- The style that spreads a value over lines puts nothing but white space into its gaps. -/
theorem blank_spread : Style.spread.Blank := by
  constructor
  · intro depth c hc
    rcases List.mem_cons.1 hc with rfl | hc
    · rfl
    · rw [List.eq_of_mem_replicate hc]
      rfl
  · intro c hc
    obtain rfl := List.mem_singleton.1 hc
    rfl

/-- The compact style puts nothing into its gaps. -/
theorem blank_compact : Style.compact.Blank where
  gap := fun _ _ hc => absurd hc List.not_mem_nil
  afterColon := fun _ hc => absurd hc List.not_mem_nil

/-! ### Single steps of the reader -/

/-- A part of the tree has been read, and this is what follows it. -/
def Reading.Leaves {α : Type} {bound : Nat} (reading : Reading α bound) (rest : List Char) : Prop :=
  ∃ remainder, reading.rest? = some remainder ∧ remainder.chars = rest

/-- White space is skipped up to the first character that is none. -/
theorem skip_space_append {gap cs : List Char} (hgap : ∀ c ∈ gap, isSpace c = true)
    (hcs : ∀ c ∈ cs.head?, isSpace c = false) (offset : Nat) :
    (skipSpace (gap ++ cs) offset).1 = cs := by
  induction gap generalizing offset with
  | nil =>
      cases cs with
      | nil => rfl
      | cons c cs => simp [skipSpace, hcs c rfl]
  | cons c gap ih =>
      obtain ⟨hc, hgap⟩ := List.forall_mem_cons.1 hgap
      rw [List.cons_append, skipSpace, if_pos hc]
      exact ih hgap _

section Steps

variable {cs others rest : List Char} {c : Char} {offset : Nat}

/-- A wider bound makes no difference to what is left. -/
theorem widen_leaves {α : Type} {m n : Nat} {reading : Reading α m} (h : m ≤ n)
    (hleaves : reading.Leaves rest) : (reading.widen h).Leaves rest := by
  obtain ⟨remainder, hrest, rfl⟩ := hleaves
  exact ⟨remainder.widen h, by rw [Reading.widen, hrest]; rfl, rfl⟩

/-- An empty array is read, and what follows it is left. -/
theorem read_empty_array (rest : List Char) (offset : Nat) :
    States (.array []) (readValue ('[' :: ']' :: rest) offset).node ∧
      (readValue ('[' :: ']' :: rest) offset).Leaves rest := by
  rw [readValue]
  simp only
  split
  · rename_i h
    cases h
  · rename_i h
    cases h
    exact ⟨.array offset (.nil _), _, rfl, rfl⟩
  · rename_i hne h
    cases h
    exact absurd rfl hne

/-- An array is read as its items are, from the first that is not white space. -/
theorem read_array (rest : List Char) (hskip : (skipSpace cs (offset + 1)).1 = c :: others)
    (hc : c ≠ ']') :
    ∃ inside, (readValue ('[' :: cs) offset).node =
        .array offset (readItems (c :: others) inside).node ∧
      ((readItems (c :: others) inside).Leaves rest →
        (readValue ('[' :: cs) offset).Leaves rest) := by
  rw [readValue]
  simp only
  split
  · rename_i h
    simp [Remainder.skipSpace, hskip] at h
  · rename_i h
    simp [Remainder.skipSpace, hskip, hc] at h
  · rename_i hne h
    simp only [Remainder.skipSpace, hskip, List.cons.injEq] at h
    obtain ⟨rfl, rfl⟩ := h
    exact ⟨_, rfl, widen_leaves _⟩

/-- An empty object is read, and what follows it is left. -/
theorem read_empty_object (rest : List Char) (offset : Nat) :
    States (.object []) (readValue ('\x7b' :: '\x7d' :: rest) offset).node ∧
      (readValue ('\x7b' :: '\x7d' :: rest) offset).Leaves rest := by
  rw [readValue]
  simp only
  split
  · rename_i h
    cases h
  · rename_i h
    cases h
    exact ⟨.object offset (.nil _), _, rfl, rfl⟩
  · rename_i hne h
    cases h
    exact absurd rfl hne

/-- An object is read as its members are, from the first that is not white space. -/
theorem read_object (rest : List Char) (hskip : (skipSpace cs (offset + 1)).1 = c :: others)
    (hc : c ≠ '\x7d') :
    ∃ inside, (readValue ('\x7b' :: cs) offset).node =
        .object offset (readMembers (c :: others) inside).node ∧
      ((readMembers (c :: others) inside).Leaves rest →
        (readValue ('\x7b' :: cs) offset).Leaves rest) := by
  rw [readValue]
  simp only
  split
  · rename_i h
    simp [Remainder.skipSpace, hskip] at h
  · rename_i h
    simp [Remainder.skipSpace, hskip, hc] at h
  · rename_i hne h
    simp only [Remainder.skipSpace, hskip, List.cons.injEq] at h
    obtain ⟨rfl, rfl⟩ := h
    exact ⟨_, rfl, widen_leaves _⟩

/-- The last item of an array. -/
theorem read_last_item {after : List Char} (hvalue : (readValue cs offset).Leaves after)
    (hskip : ∀ start, (skipSpace after start).1 = ']' :: rest) :
    (∃ resume stop, (readItems cs offset).node =
      .item (readValue cs offset).node resume (.close stop)) ∧
      (readItems cs offset).Leaves rest := by
  obtain ⟨remainder, hrest, rfl⟩ := hvalue
  rw [readItems]
  simp only [hrest]
  split
  · rename_i h
    simp [Remainder.skipSpace, hskip] at h
  · rename_i h
    simp only [Remainder.skipSpace, hskip, List.cons.injEq, true_and] at h
    exact ⟨⟨_, _, rfl⟩, _, rfl, h.symm⟩
  · rename_i h
    simp [Remainder.skipSpace, hskip] at h
  · rename_i hclose hcomma h
    simp only [Remainder.skipSpace, hskip, List.cons.injEq] at h
    exact absurd h.1.symm hclose

/-- An item of an array that another one follows. -/
theorem read_item (rest : List Char) {after next : List Char}
    (hvalue : (readValue cs offset).Leaves after)
    (hskip : ∀ start, (skipSpace after start).1 = ',' :: next)
    (hnext : ∀ start, (skipSpace next start).1 = c :: others) (hc : c ≠ ']') :
    ∃ resume start, (readItems cs offset).node =
        .item (readValue cs offset).node resume (readItems (c :: others) start).node ∧
      ((readItems (c :: others) start).Leaves rest → (readItems cs offset).Leaves rest) := by
  obtain ⟨remainder, hrest, rfl⟩ := hvalue
  rw [readItems]
  simp only [hrest]
  split
  · rename_i h
    simp [Remainder.skipSpace, hskip] at h
  · rename_i h
    simp [Remainder.skipSpace, hskip] at h
  · rename_i more h
    simp only [Remainder.skipSpace, hskip, List.cons.injEq, true_and] at h
    subst h
    split
    · rename_i h
      simp [Remainder.skipSpace, Remainder.next, hnext] at h
    · rename_i h
      simp [Remainder.skipSpace, Remainder.next, hnext, hc] at h
    · rename_i hne h
      simp only [Remainder.skipSpace, Remainder.next, hnext, List.cons.injEq] at h
      obtain ⟨rfl, rfl⟩ := h
      exact ⟨_, _, rfl, widen_leaves _⟩
  · rename_i hclose hcomma h
    simp only [Remainder.skipSpace, hskip, List.cons.injEq] at h
    exact absurd h.1.symm hcomma

/-- The name of a member, up to where its value starts. -/
theorem read_name {name : String} {after colon value : List Char}
    (hname : (takeText cs offset (.ok []) (Nat.le_refl _)).Yields name after)
    (hskip : ∀ start, (skipSpace after start).1 = ':' :: colon)
    (hvalue : ∀ start, (skipSpace colon start).1 = value) :
    ∃ stop resume inside,
      readName cs offset = .ok (⟨.ok name, stop, resume⟩, inside) ∧ inside.chars = value := by
  obtain ⟨remainder, htext, rfl⟩ := hname
  unfold readName
  simp only [htext]
  split
  · rename_i h
    simp [Remainder.skipSpace, hskip] at h
  · rename_i more h
    have hmore : more = colon := by
      simpa [Remainder.skipSpace, hskip, eq_comm] using h
    subst hmore
    exact ⟨_, _, _, rfl, hvalue _⟩
  · rename_i hcolon h
    simp only [Remainder.skipSpace, hskip, List.cons.injEq] at h
    exact absurd h.1.symm hcolon

/-- The last member of an object, after the quote of its name. -/
theorem read_last_member {name : Name} {inside : Remainder cs.length} {after : List Char}
    (hname : readName cs (offset + 1) = .ok (name, inside))
    (hvalue : (readValue inside.chars inside.offset).Leaves after)
    (hskip : ∀ start, (skipSpace after start).1 = '\x7d' :: rest) :
    (∃ resume stop, (readMembers ('"' :: cs) offset).node =
      .member name (readValue inside.chars inside.offset).node resume (.close stop)) ∧
      (readMembers ('"' :: cs) offset).Leaves rest := by
  obtain ⟨remainder, hrest, rfl⟩ := hvalue
  rw [readMembers]
  simp only [hname, hrest]
  split
  · rename_i h
    simp [Remainder.skipSpace, Remainder.widen, hskip] at h
  · rename_i h
    simp only [Remainder.skipSpace, Remainder.widen, hskip, List.cons.injEq, true_and] at h
    exact ⟨⟨_, _, rfl⟩, _, rfl, h.symm⟩
  · rename_i h
    simp [Remainder.skipSpace, Remainder.widen, hskip] at h
  · rename_i hclose hcomma h
    simp only [Remainder.skipSpace, Remainder.widen, hskip, List.cons.injEq] at h
    exact absurd h.1.symm hclose

/-- A member of an object that another one follows. -/
theorem read_member (rest : List Char) {name : Name} {inside : Remainder cs.length}
    {after next : List Char}
    (hname : readName cs (offset + 1) = .ok (name, inside))
    (hvalue : (readValue inside.chars inside.offset).Leaves after)
    (hskip : ∀ start, (skipSpace after start).1 = ',' :: next)
    (hnext : ∀ start, (skipSpace next start).1 = c :: others) (hc : c ≠ '\x7d') :
    ∃ resume start, (readMembers ('"' :: cs) offset).node =
        .member name (readValue inside.chars inside.offset).node resume
          (readMembers (c :: others) start).node ∧
      ((readMembers (c :: others) start).Leaves rest →
        (readMembers ('"' :: cs) offset).Leaves rest) := by
  obtain ⟨remainder, hrest, rfl⟩ := hvalue
  rw [readMembers]
  simp only [hname, hrest]
  split
  · rename_i h
    simp [Remainder.skipSpace, Remainder.widen, hskip] at h
  · rename_i h
    simp [Remainder.skipSpace, Remainder.widen, hskip] at h
  · rename_i more h
    simp only [Remainder.skipSpace, Remainder.widen, hskip, List.cons.injEq, true_and] at h
    subst h
    split
    · rename_i h
      simp [Remainder.skipSpace, Remainder.next, hnext] at h
    · rename_i h
      simp [Remainder.skipSpace, Remainder.next, hnext, hc] at h
    · rename_i hne h
      simp only [Remainder.skipSpace, Remainder.next, hnext, List.cons.injEq] at h
      obtain ⟨rfl, rfl⟩ := h
      exact ⟨_, _, rfl, widen_leaves _⟩
  · rename_i hclose hcomma h
    simp only [Remainder.skipSpace, Remainder.widen, hskip, List.cons.injEq] at h
    exact absurd h.1.symm hcomma

end Steps

/-! ### Scalars -/

section Scalars

variable {rest : List Char}

/-- A scalar that has been taken is a tree that states its value. -/
theorem of_taken_states {bound start : Nat} {lead : Lead} {taken : Taken Scalar bound}
    {scalar : Scalar} {value : Json} (h : taken.Yields scalar rest)
    (hstates : ∀ stop, States value (.scalar start stop (.ok scalar))) :
    States value (Reading.ofTaken start lead taken).node ∧
      (Reading.ofTaken start lead taken).Leaves rest := by
  obtain ⟨remainder, rfl, rfl⟩ := h
  exact ⟨hstates _, _, rfl, rfl⟩

/-- Mapping what is taken maps what is yielded. -/
theorem map_yields {α β : Type} {bound : Nat} {taken : Taken α bound} {a : α} (f : α → β)
    (h : taken.Yields a rest) : (taken.map f).Yields (f a) rest := by
  obtain ⟨remainder, rfl, rfl⟩ := h
  exact ⟨remainder, rfl, rfl⟩

/-- The three words are read as the values they name. -/
theorem read_literal (rest : List Char) (offset : Nat) :
    (States .null (readValue (['n', 'u', 'l', 'l'] ++ rest) offset).node ∧
      (readValue (['n', 'u', 'l', 'l'] ++ rest) offset).Leaves rest) ∧
    (States (.bool true) (readValue (['t', 'r', 'u', 'e'] ++ rest) offset).node ∧
      (readValue (['t', 'r', 'u', 'e'] ++ rest) offset).Leaves rest) ∧
    States (.bool false) (readValue (['f', 'a', 'l', 's', 'e'] ++ rest) offset).node ∧
      (readValue (['f', 'a', 'l', 's', 'e'] ++ rest) offset).Leaves rest := by
  refine ⟨?_, ?_, ?_⟩
  · rw [List.cons_append, readValue]
    · exact ⟨.null _ _, _, rfl, rfl⟩
    all_goals simp
  · rw [List.cons_append, readValue]
    · exact ⟨.bool _ _ _, _, rfl, rfl⟩
    all_goals simp
  · rw [List.cons_append, readValue]
    · exact ⟨.bool _ _ _, _, rfl, rfl⟩
    all_goals simp

/-- The text of a text is read as the text. -/
theorem read_text (s : String) (rest : List Char) (offset : Nat) :
    States (.text s) (readValue (renderText s ++ rest) offset).node ∧
      (readValue (renderText s ++ rest) offset).Leaves rest := by
  have htext : renderText s ++ rest = '"' :: (s.toList.flatMap escapeChar ++ '"' :: rest) := by
    simp [renderText]
  rw [htext, readValue]
  · rw [readScalar, if_pos rfl]
    have h := take_text_escaped s.toList [] rest (offset + 1) (Nat.le_succ _)
    rw [List.reverse_nil, List.nil_append, String.ofList_toList] at h
    exact of_taken_states (map_yields Scalar.text h) fun stop => .text s offset stop
  all_goals simp

/-- The characters of a number without a sign start with a digit. -/
theorem exists_head_digit {negative : Bool} {cs : List Char} {offset : Nat} {m : JsonNumber}
    (h : (takeUnsigned negative cs offset).Yields m []) :
    ∃ c others, cs = c :: others ∧ c.isDigit = true := by
  obtain ⟨first, others, left, hdigits, -⟩ := take_unsigned_parts h
  cases cs with
  | nil => cases hdigits
  | cons c cs =>
      refine ⟨c, cs, rfl, ?_⟩
      cases hc : c.isDigit with
      | true => rfl
      | false => simp [takeDigits, hc] at hdigits

/-- The text of a number is read as the number that it is read as by itself. -/
theorem read_number_text {cs : List Char} {n m : JsonNumber} (hrest : Delimited rest)
    (hn : n.ReadAs m) (offset : Nat)
    (h : cs = renderNumber n) :
    States (.number n) (readValue (cs ++ rest) offset).node ∧
      (readValue (cs ++ rest) offset).Leaves rest := by
  have hstates (stop : Nat) : States (.number n) (.scalar offset stop (.ok (.number m))) :=
    .number offset stop hn
  unfold JsonNumber.ReadAs at hn
  rw [← h] at hn
  split at hn
  · rename_i digits
    rw [List.cons_append, readValue]
    · rw [readScalar, if_neg (by decide), if_pos rfl]
      have h := map_yields Scalar.number (take_unsigned_append hn hrest (offset + 1))
      exact of_taken_states (widen_yields_iff.2 h) hstates
    all_goals simp
  · obtain ⟨c, others, rfl, hc⟩ := exists_head_digit hn
    have hne {d : Char} (hd : d.isDigit = false) : c ≠ d := by
      rintro rfl
      rw [hc] at hd
      cases hd
    rw [List.cons_append, readValue]
    · rw [readScalar, if_neg (hne (by decide)), if_neg (hne (by decide)), if_pos hc]
      exact of_taken_states (map_yields Scalar.number (take_unsigned_append hn hrest offset))
        hstates
    · exact hne (by decide)
    · exact hne (by decide)

end Scalars

/-! ### Whole values -/

section Whole

variable {style : Style} {depth : Nat}

/-- A text that a value can start with. -/
def Opens (cs : List Char) : Prop :=
  ∃ c others, cs = c :: others ∧ isSpace c = false ∧ c ≠ ']' ∧ c ≠ '\x7d'

/-- More characters do not change what a text starts with. -/
theorem Opens.append {cs : List Char} (h : Opens cs) (rest : List Char) : Opens (cs ++ rest) := by
  obtain ⟨c, others, rfl, hc⟩ := h
  exact ⟨c, others ++ rest, rfl, hc⟩

/-- The text of a value starts as a value can. -/
theorem opens_render {value : Json} (h : value.Legible) (style : Style) (depth : Nat) :
    Opens (renderAt style depth value) := by
  have hnumber {n m : JsonNumber} (h : n.ReadAs m) : Opens (renderNumber n) := by
    unfold JsonNumber.ReadAs at h
    split at h
    · rename_i digits heq
      exact ⟨'-', digits, heq, by decide, by decide, by decide⟩
    · obtain ⟨c, others, heq, hc⟩ := exists_head_digit h
      have hne : ∀ d, d.isDigit = false → c ≠ d := by
        rintro d hd rfl
        rw [hc] at hd
        cases hd
      refine ⟨c, others, heq, ?_, hne _ (by decide), hne _ (by decide)⟩
      simp [isSpace, hne ' ' (by decide), hne '\n' (by decide), hne '\t' (by decide),
        hne '\r' (by decide)]
  match value, h with
  | .null, _ => exact ⟨_, _, rfl, by decide, by decide, by decide⟩
  | .bool true, _ => exact ⟨_, _, rfl, by decide, by decide, by decide⟩
  | .bool false, _ => exact ⟨_, _, rfl, by decide, by decide, by decide⟩
  | .number n, ⟨m, h⟩ => exact hnumber h
  | .text s, _ => exact ⟨_, _, rfl, by decide, by decide, by decide⟩
  | .array [], _ | .array (_ :: _), _ => exact ⟨_, _, rfl, by decide, by decide, by decide⟩
  | .object [], _ | .object (_ :: _), _ => exact ⟨_, _, rfl, by decide, by decide, by decide⟩

/-- White space cannot belong to a number before it. -/
theorem delimited_gap {gap cs : List Char} (hgap : ∀ c ∈ gap, isSpace c = true)
    (hcs : Delimited cs) : Delimited (gap ++ cs) := by
  cases gap with
  | nil => exact hcs
  | cons c gap =>
      rintro _ ⟨⟩
      have hc := hgap c (by simp)
      simp only [isSpace, Bool.or_eq_true, beq_iff_eq] at hc
      rcases hc with ((rfl | rfl) | rfl) | rfl <;> decide

section Parts

variable {gap cs rest : List Char} {offset : Nat}

/-- An array is its bracket, a gap and its items. -/
theorem read_array_of_items (hgap : ∀ c ∈ gap, isSpace c = true) (hopens : Opens cs)
    {items : List Json} (h : ∀ inside, ItemsState items (readItems cs inside).node ∧
      (readItems cs inside).Leaves rest) (offset : Nat) :
    States (.array items) (readValue ('[' :: (gap ++ cs)) offset).node ∧
      (readValue ('[' :: (gap ++ cs)) offset).Leaves rest := by
  obtain ⟨c, others, rfl, hspace, hclose, -⟩ := hopens
  obtain ⟨inside, hnode, hleaves⟩ := read_array rest
    (skip_space_append hgap (by simpa using hspace) (offset + 1)) hclose
  rw [hnode]
  exact ⟨.array offset (h inside).1, hleaves (h inside).2⟩

/-- An object is its brace, a gap and its members. -/
theorem read_object_of_members (hgap : ∀ c ∈ gap, isSpace c = true) (hopens : Opens cs)
    {members : List (String × Json)} (h : ∀ inside,
      MembersState members (readMembers cs inside).node ∧ (readMembers cs inside).Leaves rest)
    (offset : Nat) :
    States (.object members) (readValue ('\x7b' :: (gap ++ cs)) offset).node ∧
      (readValue ('\x7b' :: (gap ++ cs)) offset).Leaves rest := by
  obtain ⟨c, others, rfl, hspace, -, hclose⟩ := hopens
  obtain ⟨inside, hnode, hleaves⟩ := read_object rest
    (skip_space_append hgap (by simpa using hspace) (offset + 1)) hclose
  rw [hnode]
  exact ⟨.object offset (h inside).1, hleaves (h inside).2⟩

/-- The last item of an array comes before a gap and the closing bracket. -/
theorem read_items_one (hgap : ∀ c ∈ gap, isSpace c = true) {item : Json}
    (hitem : States item (readValue cs offset).node)
    (hleaves : (readValue cs offset).Leaves (gap ++ ']' :: rest)) :
    ItemsState [item] (readItems cs offset).node ∧ (readItems cs offset).Leaves rest := by
  obtain ⟨⟨resume, stop, hnode⟩, hrest⟩ := read_last_item hleaves
    (skip_space_append hgap (by rintro _ ⟨⟩; decide))
  rw [hnode]
  exact ⟨.cons resume hitem (.nil stop), hrest⟩

/-- Another item comes before a comma, a gap and the items that follow it. -/
theorem read_items_more (hgap : ∀ c ∈ gap, isSpace c = true) {item : Json} {others : List Json}
    {next : List Char} (hitem : States item (readValue cs offset).node)
    (hleaves : (readValue cs offset).Leaves (',' :: (gap ++ next))) (hopens : Opens next)
    (h : ∀ start, ItemsState others (readItems next start).node ∧
      (readItems next start).Leaves rest) :
    ItemsState (item :: others) (readItems cs offset).node ∧ (readItems cs offset).Leaves rest := by
  obtain ⟨c, more, rfl, hspace, hclose, -⟩ := hopens
  obtain ⟨resume, start, hnode, hrest⟩ := read_item rest hleaves (fun _ => rfl)
    (skip_space_append hgap (by simpa using hspace)) hclose
  rw [hnode]
  exact ⟨.cons resume hitem (h start).1, hrest (h start).2⟩

/-- The text of the name of a member, after its quote, and the colon after it. -/
theorem read_name_escaped (hgap : ∀ c ∈ gap, isSpace c = true) (name : String)
    (hopens : Opens cs) (offset : Nat) :
    ∃ stop resume inside,
      readName (name.toList.flatMap escapeChar ++ '"' :: ':' :: (gap ++ cs)) offset =
        .ok (⟨.ok name, stop, resume⟩, inside) ∧ inside.chars = cs := by
  have htext := take_text_escaped name.toList [] (':' :: (gap ++ cs)) offset (Nat.le_refl _)
  rw [List.reverse_nil, List.nil_append, String.ofList_toList] at htext
  obtain ⟨c, others, rfl, hspace, -⟩ := hopens
  exact read_name htext (fun _ => rfl) (skip_space_append hgap (by simpa using hspace))

/-- After a quote comes a name, and then a value with a text after it. -/
def ReadsMember (cs : List Char) (offset : Nat) (key : String) (value : Json) (after : List Char) :
    Prop :=
  ∃ stop resume inside, readName cs offset = .ok (⟨.ok key, stop, resume⟩, inside) ∧
    States value (readValue inside.chars inside.offset).node ∧
    (readValue inside.chars inside.offset).Leaves after

/-- The last member of an object comes before a gap and the closing brace. -/
theorem read_members_one (hgap : ∀ c ∈ gap, isSpace c = true) {key : String} {value : Json}
    (h : ReadsMember cs (offset + 1) key value (gap ++ '\x7d' :: rest)) :
    MembersState [(key, value)] (readMembers ('"' :: cs) offset).node ∧
      (readMembers ('"' :: cs) offset).Leaves rest := by
  obtain ⟨nameStop, nameResume, inside, hname, hvalue, hleaves⟩ := h
  obtain ⟨⟨resume, stop, hnode⟩, hrest⟩ := read_last_member hname hleaves
    (skip_space_append hgap (by rintro _ ⟨⟩; decide))
  rw [hnode]
  exact ⟨.cons nameStop nameResume resume hvalue (.nil stop), hrest⟩

/-- Another member comes before a comma, a gap and the members that follow it. -/
theorem read_members_more (hgap : ∀ c ∈ gap, isSpace c = true) {key : String} {value : Json}
    {others : List (String × Json)} {next : List Char}
    (hmember : ReadsMember cs (offset + 1) key value (',' :: (gap ++ next))) (hopens : Opens next)
    (h : ∀ start, MembersState others (readMembers next start).node ∧
      (readMembers next start).Leaves rest) :
    MembersState ((key, value) :: others) (readMembers ('"' :: cs) offset).node ∧
      (readMembers ('"' :: cs) offset).Leaves rest := by
  obtain ⟨nameStop, nameResume, inside, hname, hvalue, hleaves⟩ := hmember
  obtain ⟨c, more, rfl, hspace, -, hclose⟩ := hopens
  obtain ⟨resume, start, hnode, hrest⟩ := read_member rest hname hleaves (fun _ => rfl)
    (skip_space_append hgap (by simpa using hspace)) hclose
  rw [hnode]
  exact ⟨.cons nameStop nameResume resume hvalue (h start).1, hrest (h start).2⟩

end Parts

/-- The items of an array, without the bracket and the gap before the first. -/
def renderInside (style : Style) (depth : Nat) : List Json → List Char
  | [] => []
  | item :: rest => renderAt style (depth + 1) item ++ renderItems style depth rest

/-- The members of an object, without the brace and the gap before the first. -/
def renderMembersInside (style : Style) (depth : Nat) : List (String × Json) → List Char
  | [] => []
  | (name, value) :: rest =>
      '"' :: (name.toList.flatMap escapeChar ++ '"' :: ':' ::
        (style.afterColon ++ (renderAt style (depth + 1) value ++ renderMembers style depth rest)))

/-- What follows an item cannot belong to a number. -/
theorem delimited_items (hstyle : style.Blank) (depth : Nat) (items : List Json)
    (rest : List Char) :
    Delimited (renderItems style depth items ++ rest) := by
  cases items with
  | nil =>
      rw [renderItems, List.append_assoc]
      exact delimited_gap (hstyle.gap depth) (by rintro _ ⟨⟩; decide)
  | cons item items =>
      rintro _ ⟨⟩
      decide

/-- What follows a member cannot belong to a number. -/
theorem delimited_members (hstyle : style.Blank) (depth : Nat) (members : List (String × Json))
    (rest : List Char) : Delimited (renderMembers style depth members ++ rest) := by
  cases members with
  | nil =>
      rw [renderMembers, List.append_assoc]
      exact delimited_gap (hstyle.gap depth) (by rintro _ ⟨⟩; decide)
  | cons member members =>
      rintro _ ⟨⟩
      decide

/-- The items of an array start as a value can. -/
theorem opens_inside {item : Json} {others : List Json} (h : LegibleItems (item :: others))
    (rest : List Char) : Opens (renderInside style depth (item :: others) ++ rest) :=
  ((opens_render h.1 style (depth + 1)).append _).append rest

/-- The members of an object start with a quote, as a value can. -/
theorem opens_members_inside (member : String × Json) (others : List (String × Json))
    (rest : List Char) : Opens (renderMembersInside style depth (member :: others) ++ rest) :=
  ⟨_, _, rfl, by decide, by decide, by decide⟩

/-- The text of an array is a bracket, a gap and its items. -/
theorem render_array_eq (item : Json) (others : List Json) (rest : List Char) :
    renderAt style depth (.array (item :: others)) ++ rest =
      '[' :: (style.gap (depth + 1) ++ (renderInside style depth (item :: others) ++ rest)) := by
  simp [renderAt, renderInside]

/-- The text of an object is a brace, a gap and its members. -/
theorem render_object_eq (member : String × Json) (others : List (String × Json))
    (rest : List Char) :
    renderAt style depth (.object (member :: others)) ++ rest =
      '\x7b' :: (style.gap (depth + 1) ++
        (renderMembersInside style depth (member :: others) ++ rest)) := by
  simp [renderAt, renderMembersInside, renderText]

/-- The text of further items is a comma, a gap and the items. -/
theorem render_items_eq (item : Json) (others : List Json) (rest : List Char) :
    renderItems style depth (item :: others) ++ rest =
      ',' :: (style.gap (depth + 1) ++ (renderInside style depth (item :: others) ++ rest)) := by
  simp [renderItems, renderInside]

/-- The text of further members is a comma, a gap and the members. -/
theorem render_members_eq (member : String × Json) (others : List (String × Json))
    (rest : List Char) :
    renderMembers style depth (member :: others) ++ rest =
      ',' :: (style.gap (depth + 1) ++
        (renderMembersInside style depth (member :: others) ++ rest)) := by
  simp [renderMembers, renderMembersInside, renderText]

mutual

/-- The text of a value is read as a tree that states it. -/
theorem read_value_render (hstyle : style.Blank) :
    ∀ {value : Json}, value.Legible → ∀ (depth : Nat) {rest : List Char}, Delimited rest →
      ∀ offset, States value (readValue (renderAt style depth value ++ rest) offset).node ∧
        (readValue (renderAt style depth value ++ rest) offset).Leaves rest
  | .null, _, depth, rest, hrest, offset => (read_literal rest offset).1
  | .bool true, _, depth, rest, hrest, offset => (read_literal rest offset).2.1
  | .bool false, _, depth, rest, hrest, offset => (read_literal rest offset).2.2
  | .number n, ⟨m, h⟩, depth, rest, hrest, offset => read_number_text hrest h offset rfl
  | .text s, _, depth, rest, hrest, offset => read_text s rest offset
  | .array [], _, depth, rest, hrest, offset => read_empty_array rest offset
  | .array (item :: others), h, depth, rest, hrest, offset => by
      rw [render_array_eq]
      exact read_array_of_items (hstyle.gap _) (opens_inside h rest)
        (fun inside => read_items_render hstyle h depth rest inside (by simp)) offset
  | .object [], _, depth, rest, hrest, offset => read_empty_object rest offset
  | .object (member :: others), h, depth, rest, hrest, offset => by
      rw [render_object_eq]
      exact read_object_of_members (hstyle.gap _) (opens_members_inside member others rest)
        (fun inside => read_members_render hstyle h depth rest inside (by simp)) offset

/-- The texts of items are read as trees that state them. -/
theorem read_items_render (hstyle : style.Blank) :
    ∀ {items : List Json}, LegibleItems items → ∀ (depth : Nat) (rest : List Char) (offset : Nat),
      items ≠ [] →
        ItemsState items (readItems (renderInside style depth items ++ rest) offset).node ∧
          (readItems (renderInside style depth items ++ rest) offset).Leaves rest
  | [], _, _, _, _, hne => absurd rfl hne
  | item :: others, h, depth, rest, offset, _ => by
      have hitem := read_value_render hstyle h.1 (depth + 1)
        (delimited_items hstyle depth others rest) offset
      rw [renderInside, List.append_assoc]
      match others, h, hitem with
      | [], h, hitem =>
          rw [renderItems, List.append_assoc] at hitem ⊢
          exact read_items_one (hstyle.gap depth) hitem.1 hitem.2
      | next :: others, h, hitem =>
          rw [render_items_eq] at hitem ⊢
          exact read_items_more (hstyle.gap _) hitem.1 hitem.2 (opens_inside h.2 rest)
            fun start => read_items_render hstyle h.2 depth rest start (by simp)

/-- The texts of members are read as trees that state them. -/
theorem read_members_render (hstyle : style.Blank) :
    ∀ {members : List (String × Json)}, LegibleMembers members →
      ∀ (depth : Nat) (rest : List Char) (offset : Nat), members ≠ [] →
        MembersState members
            (readMembers (renderMembersInside style depth members ++ rest) offset).node ∧
          (readMembers (renderMembersInside style depth members ++ rest) offset).Leaves rest
  | [], _, _, _, _, hne => absurd rfl hne
  | (name, value) :: others, h, depth, rest, offset, _ => by
      have hmember : ReadsMember (name.toList.flatMap escapeChar ++ '"' :: ':' ::
          (style.afterColon ++ (renderAt style (depth + 1) value ++
            (renderMembers style depth others ++ rest)))) (offset + 1) name value
          (renderMembers style depth others ++ rest) := by
        obtain ⟨stop, resume, inside, hname, hinside⟩ := read_name_escaped hstyle.afterColon name
          ((opens_render h.1 style (depth + 1)).append _) (offset + 1)
        refine ⟨stop, resume, inside, hname, ?_⟩
        rw [hinside]
        exact read_value_render hstyle h.1 (depth + 1)
          (delimited_members hstyle depth others rest) inside.offset
      rw [renderMembersInside, List.cons_append, List.append_assoc, List.cons_append,
        List.cons_append, List.append_assoc, List.append_assoc]
      match others, h, hmember with
      | [], h, hmember =>
          rw [renderMembers, List.append_assoc] at hmember ⊢
          exact read_members_one (hstyle.gap depth) hmember
      | next :: others, h, hmember =>
          rw [render_members_eq] at hmember ⊢
          exact read_members_more (hstyle.gap _) hmember (opens_members_inside next others rest)
            fun start => read_members_render hstyle h.2 depth rest start (by simp)

end

/-- A text is one value if nothing is left after the value at its start. -/
theorem document_read_eq {source : List Char} {start : Nat}
    (hskip : skipSpace source 0 = (source, start)) (h : (readValue source start).Leaves []) :
    Document.read source = ⟨(readValue source start).node, none⟩ := by
  obtain ⟨remainder, hrest, hchars⟩ := h
  unfold Document.read
  rw [hskip]
  simp only [hrest, Remainder.skipSpace, hchars, skipSpace]

/-- The text of a value is read as a document that states the value. -/
theorem read_render (hstyle : style.Blank) {value : Json} (h : value.Legible) :
    States value (Document.read (value.render style).toList).root ∧
      (Document.read (value.render style).toList).excess = none := by
  obtain ⟨c, others, heq, hspace, -⟩ := opens_render h style 0
  obtain ⟨start, hskip⟩ : ∃ start, skipSpace (renderAt style 0 value) 0 =
      (renderAt style 0 value, start) := by
    refine ⟨_, Prod.ext ?_ rfl⟩
    rw [heq]
    have hgap : ∀ c ∈ ([] : List Char), isSpace c = true := by simp
    exact skip_space_append hgap (by simpa using hspace) 0
  have hend : Delimited [] := by simp [Delimited]
  have hread := read_value_render hstyle h 0 hend start
  rw [List.append_nil] at hread
  rw [render, String.toList_ofList, document_read_eq hskip hread.2]
  exact ⟨hread.1, rfl⟩

end Whole

end Json

end TileCourse
