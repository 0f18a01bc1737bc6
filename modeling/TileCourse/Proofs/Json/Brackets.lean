import TileCourse.Proofs.Json.Reading
import TileCourse.Proofs.Text.Digits

/-!
# Brackets in a text

A reader of JSON counts the brackets that are open, and gives up when they are too many. How many
are open at once can be seen from the characters alone. `brackets_render` says that the text of a
value opens as many as the value is deep, in either style and whatever its texts say.
-/

namespace TileCourse.Json

/-- Where in a text a character stands. -/
inductive Place where
  | outside
  /-- Between the quotes of a text or a name. -/
  | quoted
  /-- After a backslash between quotes. -/
  | escaped

/-- The greatest number of brackets open at once while the characters are read, from a place where
some are open already. What stands between quotes opens and closes nothing. -/
def deepest : Place → List Char → (opened : Nat) → Nat
  | _, [], opened => opened
  | .escaped, _ :: cs, opened => deepest .quoted cs opened
  | .quoted, c :: cs, opened =>
      if c = '"' then deepest .outside cs opened
      else if c = '\\' then deepest .escaped cs opened
      else deepest .quoted cs opened
  | .outside, c :: cs, opened =>
      if c = '"' then deepest .quoted cs opened
      else if c ∈ ['[', '\x7b'] then deepest .outside cs (opened + 1)
      else if c ∈ [']', '\x7d'] then max opened (deepest .outside cs (opened - 1))
      else deepest .outside cs opened

/-- The greatest number of arrays and objects that are open at once in a text. -/
def brackets (source : String) : Nat :=
  deepest .outside source.toList 0

/-! ### Characters without brackets -/

/-- A character that is neither a quote nor a bracket. -/
def isPlain (c : Char) : Bool := !(['"', '[', '\x7b', ']', '\x7d'].contains c)

/-- Characters that are neither quotes nor brackets. -/
def Plain (cs : List Char) : Prop := cs.all isPlain = true

instance (cs : List Char) : Decidable (Plain cs) := inferInstanceAs (Decidable (_ = true))

namespace Plain

variable {cs more : List Char} {c : Char}

/-- Characters each of which is plain are plain. -/
theorem of_forall (h : ∀ c ∈ cs, isPlain c = true) : Plain cs := List.all_eq_true.2 h

/-- Some of plain characters are plain. -/
theorem subset (h : Plain cs) (hsubset : more ⊆ cs) : Plain more :=
  of_forall fun c hc => List.all_eq_true.1 h c (hsubset hc)

/-- A plain character before plain ones makes plain ones. -/
theorem cons (hc : isPlain c = true) (h : Plain cs) : Plain (c :: cs) := by
  rw [Plain, List.all_cons, hc]
  exact h

/-- Plain characters after plain ones are plain. -/
theorem append (h : Plain cs) (hmore : Plain more) : Plain (cs ++ more) := by
  rw [Plain, List.all_append, Bool.and_eq_true]
  exact ⟨h, hmore⟩

/-- Zeros are plain. -/
theorem zeros (n : Nat) : Plain (List.replicate n '0') := by
  refine of_forall fun c hc => ?_
  rw [List.eq_of_mem_replicate hc]
  rfl

end Plain

variable {style : Style} {cs : List Char}

/-- What is open already stays counted. -/
theorem le_deepest (place : Place) (cs : List Char) (opened : Nat) :
    opened ≤ deepest place cs opened := by
  fun_induction deepest place cs opened <;> omega

/-- Plain characters open nothing. -/
theorem deepest_plain (h : Plain cs) (rest : List Char) (opened : Nat) :
    deepest .outside (cs ++ rest) opened = deepest .outside rest opened := by
  induction cs with
  | nil => rfl
  | cons c cs ih =>
      rw [Plain, List.all_cons, Bool.and_eq_true] at h
      obtain ⟨hc, hcs⟩ := h
      simp only [isPlain, List.contains_eq_mem, List.mem_cons, List.not_mem_nil, or_false,
        Bool.not_eq_true', decide_eq_false_iff_not, not_or] at hc
      simp [deepest, hc, ih hcs]

/-- What holds of no quote and no bracket holds of plain characters only. -/
theorem is_plain_of {p : Char → Bool} {c : Char}
    (hp : (['"', '[', '\x7b', ']', '\x7d'].any p) = false) (h : p c = true) :
    isPlain c = true := by
  rw [isPlain, Bool.not_eq_true', List.contains_eq_mem, decide_eq_false_iff_not]
  intro hc
  exact absurd h (by simp [List.any_eq_false.1 hp c hc])

/-- The digits of a natural are plain. -/
theorem plain_digits (n : Nat) : Plain (Nat.toDigits 10 n) :=
  .of_forall fun _ hc => is_plain_of (p := Char.isDigit) rfl (Text.is_digit_of_mem hc)

/-- White space is plain. -/
theorem plain_space (h : ∀ c ∈ cs, isSpace c = true) : Plain cs :=
  .of_forall fun c hc => is_plain_of (p := isSpace) rfl (h c hc)

/-- A decimal is laid out in plain characters. -/
theorem plain_layout (layout : Decimal.Layout) (x : Decimal.Scaled) : Plain (layout.render x) := by
  have hdigits := plain_digits x.digits
  have hpoint : Plain ['.'] := rfl
  have hpower (power : Int) : Plain ((if power < 0 then ['e', '-'] else ['e', '+']) ++
      Nat.toDigits 10 power.natAbs) := by
    refine Plain.append ?_ (plain_digits _)
    split <;> rfl
  unfold Decimal.Layout.render
  simp only
  split
  · split
    · exact (hdigits.append (.zeros _)).append rfl
    · split
      · -- the digits before the point and after it are some of all digits
        exact ((hdigits.subset (List.take_subset _ _)).append hpoint).append
          (hdigits.subset (List.drop_subset _ _))
      · have hstart : Plain ['0', '.'] := rfl
        exact (hstart.append (.zeros _)).append hdigits
  · split
    · rename_i d hd
      rw [hd] at hdigits
      exact hdigits.append (hpower _)
    · rename_i d rest _ hd
      rw [hd] at hdigits
      have hfirst : Plain [d] := hdigits.subset (by simp)
      have hrest : Plain rest := hdigits.subset (by simp)
      exact ((hfirst.append hpoint).append hrest).append (hpower _)
    · exact hpower _

/-- The text of a number in binary precision is plain. -/
theorem plain_pattern (format : Decimal.Format) (layout : Decimal.Layout) (negative : Bool)
    (pattern : Nat) : Plain (Decimal.renderPattern format layout negative pattern) := by
  have hbody : Plain (if pattern = 0 then ['0', '.', '0']
      else layout.render (Decimal.shortest format pattern)) := by
    split
    · rfl
    · exact plain_layout _ _
  unfold Decimal.renderPattern
  simp only
  split
  · exact hbody.cons rfl
  · exact hbody

/-- A number opens nothing. -/
theorem plain_number (n : JsonNumber) : Plain (renderNumber n) := by
  have hnull : Plain ['n', 'u', 'l', 'l'] := rfl
  cases n with
  | integer n =>
      rw [renderNumber, renderInt]
      split
      · exact (plain_digits _).cons rfl
      · exact plain_digits _
  | double x =>
      rw [renderNumber]
      split
      · exact plain_pattern _ _ _ _
      · exact hnull
  | single x =>
      rw [renderNumber]
      split
      · exact plain_pattern _ _ _ _
      · exact hnull

/-! ### Texts -/

/-- The form of a character inside quotes does not end the quote. -/
theorem deepest_escaped_char (c : Char) (rest : List Char) (opened : Nat) :
    deepest .quoted (escapeChar c ++ rest) opened = deepest .quoted rest opened := by
  unfold escapeChar
  split
  case h_8 hquote hslash _ _ _ _ _ =>
      split
      · rename_i hcontrol
        have hdigits : ∀ n < 0x20, (n / 16).digitChar ≠ '"' ∧ (n / 16).digitChar ≠ '\\' ∧
            (n % 16).digitChar ≠ '"' ∧ (n % 16).digitChar ≠ '\\' := by decide
        obtain ⟨hfirst, hfirst', hsecond, hsecond'⟩ := hdigits c.toNat hcontrol
        simp [controlEscape, deepest, hfirst, hfirst', hsecond, hsecond']
      · rw [List.singleton_append, deepest, if_neg hquote, if_neg hslash]
  all_goals simp [deepest]

/-- A text opens nothing, whatever it says. -/
theorem deepest_text (s : String) (rest : List Char) (opened : Nat) :
    deepest .outside (renderText s ++ rest) opened = deepest .outside rest opened := by
  have hinside (cs : List Char) : deepest .quoted (cs.flatMap escapeChar ++ '"' :: rest) opened =
      deepest .outside rest opened := by
    induction cs with
    | nil => simp [deepest]
    | cons c cs ih => rw [List.flatMap_cons, List.append_assoc, deepest_escaped_char, ih]
  simp only [renderText, List.cons_append, List.nil_append, List.append_assoc]
  rw [deepest, if_pos rfl]
  exact hinside s.toList

/-! ### Values -/

/-- A bracket that opens is open from there on. -/
theorem deepest_open {c : Char} (h : c ∈ ['[', '\x7b']) (rest : List Char) (opened : Nat) :
    deepest .outside (c :: rest) opened = deepest .outside rest (opened + 1) := by
  have hquote : c ≠ '"' := by
    intro hc
    exact absurd (hc ▸ h) (by decide)
  rw [deepest, if_neg hquote, if_pos h]

/-- A comma opens nothing. -/
theorem deepest_comma (rest : List Char) (opened : Nat) :
    deepest .outside (',' :: rest) opened = deepest .outside rest opened := by
  have hcomma : Plain [','] := rfl
  exact deepest_plain hcomma rest opened

/-- A name and the gap after it open nothing. -/
theorem deepest_name (hstyle : style.Blank) (name : String) (rest : List Char) (opened : Nat) :
    deepest .outside (renderText name ++ [':'] ++ style.afterColon ++ rest) opened =
      deepest .outside rest opened := by
  have hcolon : Plain (':' :: style.afterColon) := (plain_space hstyle.afterColon).cons rfl
  rw [List.append_assoc, List.append_assoc, deepest_text]
  exact deepest_plain hcolon rest opened

/-- The gap of a blank style opens nothing. -/
theorem deepest_gap (hstyle : style.Blank) (depth : Nat) (rest : List Char) (opened : Nat) :
    deepest .outside (style.gap depth ++ rest) opened = deepest .outside rest opened :=
  deepest_plain (plain_space (hstyle.gap depth)) rest opened

mutual

/-- The text of a value opens as many brackets as the value is deep, and closes them again. -/
theorem deepest_render (hstyle : style.Blank) : ∀ (value : Json) (depth : Nat) (rest : List Char)
    (opened : Nat), deepest .outside (renderAt style depth value ++ rest) opened =
      max (opened + value.depth) (deepest .outside rest opened)
  | .null, _, rest, opened | .bool true, _, rest, opened | .bool false, _, rest, opened => by
      simp [renderAt, Json.depth, deepest, le_deepest]
  | .number n, _, rest, opened => by
      simp [renderAt, Json.depth, deepest_plain (plain_number n), le_deepest]
  | .text s, _, rest, opened => by
      simp [renderAt, Json.depth, deepest_text, le_deepest]
  | .array [], _, rest, opened => by
      simp [renderAt, deepest, Json.depth, itemsDepth]
  | .array (item :: others), depth, rest, opened => by
      have hitem := deepest_render hstyle item (depth + 1) (renderItems style depth others ++ rest)
        (opened + 1)
      rw [deepest_items hstyle others] at hitem
      simp only [renderAt, List.append_assoc, List.cons_append, List.nil_append, Json.depth,
        itemsDepth]
      rw [deepest_open (by decide), deepest_gap hstyle, hitem]
      omega
  | .object [], _, rest, opened => by
      simp [renderAt, deepest, Json.depth, membersDepth]
  | .object ((name, value) :: others), depth, rest, opened => by
      have hvalue := deepest_render hstyle value (depth + 1)
        (renderMembers style depth others ++ rest) (opened + 1)
      rw [deepest_members hstyle others, ← deepest_name hstyle name] at hvalue
      simp only [renderAt, List.append_assoc, List.cons_append, List.nil_append, Json.depth,
        membersDepth] at hvalue ⊢
      rw [deepest_open (by decide), deepest_gap hstyle, hvalue]
      omega

/-- The items after the first, up to the bracket that closes the array. -/
theorem deepest_items (hstyle : style.Blank) : ∀ (items : List Json) (depth : Nat)
    (rest : List Char) (opened : Nat),
    deepest .outside (renderItems style depth items ++ rest) (opened + 1) =
      max (opened + 1 + itemsDepth items) (deepest .outside rest opened)
  | [], depth, rest, opened => by
      rw [renderItems, List.append_assoc, deepest_gap hstyle]
      simp [deepest, itemsDepth]
  | item :: others, depth, rest, opened => by
      have hitem := deepest_render hstyle item (depth + 1) (renderItems style depth others ++ rest)
        (opened + 1)
      rw [deepest_items hstyle others] at hitem
      simp only [renderItems, List.append_assoc, List.cons_append, List.nil_append, itemsDepth]
      rw [deepest_comma, deepest_gap hstyle, hitem]
      omega

/-- The members after the first, up to the brace that closes the object. -/
theorem deepest_members (hstyle : style.Blank) : ∀ (members : List (String × Json)) (depth : Nat)
    (rest : List Char) (opened : Nat),
    deepest .outside (renderMembers style depth members ++ rest) (opened + 1) =
      max (opened + 1 + membersDepth members) (deepest .outside rest opened)
  | [], depth, rest, opened => by
      rw [renderMembers, List.append_assoc, deepest_gap hstyle]
      simp [deepest, membersDepth]
  | (name, value) :: others, depth, rest, opened => by
      have hvalue := deepest_render hstyle value (depth + 1)
        (renderMembers style depth others ++ rest) (opened + 1)
      rw [deepest_members hstyle others, ← deepest_name hstyle name] at hvalue
      simp only [renderMembers, List.append_assoc, List.cons_append, List.nil_append,
        membersDepth] at hvalue ⊢
      rw [deepest_comma, deepest_gap hstyle, hvalue]
      omega

end

/-- The text of a value opens as many brackets at once as the value is deep. -/
theorem brackets_render (hstyle : style.Blank) (value : Json) :
    brackets (value.render style) = value.depth := by
  have h := deepest_render hstyle value 0 [] 0
  rw [List.append_nil] at h
  rw [brackets, render, String.toList_ofList, h]
  simp [deepest]

end TileCourse.Json
