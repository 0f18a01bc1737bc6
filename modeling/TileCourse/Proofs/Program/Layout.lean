import Mathlib.Data.List.DropRight
import Mathlib.Data.List.TakeWhile
import TileCourse.Program.Line

/-!
# How a line is laid out

A line is an indentation, a text, and what does not count: blanks, and after them a comment if one
likes. `Line.exists_layout` takes a line apart in this way, and `Line.of_content_eq` says what is
read from it, with what the indentation amounts to (`Line.level?`) kept apart from where it stands.
When a line is read and when it is refused follows from that (`Line.of_content_eq_some_iff`,
`Line.of_content_eq_error_iff`).
-/

namespace TileCourse

namespace Text

/-- A text has nothing but blanks before its first `#`. -/
def Idle (cs : List Char) : Prop := ∀ c ∈ cs.takeWhile (· != '#'), isBlank c = true

instance (cs : List Char) : Decidable (Idle cs) :=
  List.decidableBAll _ _

/-- Blanks at the end do not count when the end is trimmed. -/
theorem trim_end_append {blanks : List Char} (cs : List Char)
    (h : ∀ c ∈ blanks, isBlank c = true) : trimEnd (cs ++ blanks) = trimEnd cs := by
  rw [trimEnd, List.reverse_append, List.dropWhile_append_of_pos (by simpa using h), trimEnd]

end Text

namespace Line

variable {raw stem pad : List Char} {offset : Nat} {unit : Option Nat}

/-! ### What does not count -/

/-- Trimming the end only leaves out characters. -/
theorem trim_end_sublist (cs : List Char) : (Text.trimEnd cs).Sublist cs := by
  have h := (List.dropWhile_sublist (p := Text.isBlank) (l := cs.reverse)).reverse
  rwa [List.reverse_reverse] at h

/-- What counts of a line has no hash sign in it. -/
theorem not_mem_content (raw : List Char) : '#' ∉ Line.content raw := by
  intro h
  have htake := (trim_end_sublist _).subset h
  simpa using List.mem_takeWhile_imp htake

/-- The content of a line does not end with a blank. -/
theorem last_content {raw : List Char} (hne : Line.content raw ≠ []) :
    Text.isBlank ((Line.content raw).getLast hne) = false := by
  unfold Line.content Text.trimEnd at hne ⊢
  rw [List.getLast_reverse]
  exact List.head_dropWhile_not _ _

/-- What comes after the text of a line does not change its content. -/
theorem content_append_idle (stem : List Char) (h : Text.Idle pad) :
    content (stem ++ pad) = content stem := by
  rw [content, List.takeWhile_append]
  split
  · rename_i hlength
    have hstem : stem.takeWhile (· != '#') = stem :=
      (List.takeWhile_prefix _).eq_of_length hlength
    rw [Text.trim_end_append stem h, content, hstem]
  · rfl

/-- Nothing counts of a line exactly if it has nothing but blanks before its comment. -/
theorem content_eq_nil_iff : content raw = [] ↔ Text.Idle raw :=
  List.rdropWhile_eq_nil_iff

/-- After its content a line has only what does not count. -/
theorem exists_idle_tail (raw : List Char) : ∃ tail, raw = content raw ++ tail ∧ Text.Idle tail := by
  let text := raw.takeWhile (· != '#')
  let comment := raw.dropWhile (· != '#')
  refine ⟨text.rtakeWhile Text.isBlank ++ comment, ?_, ?_⟩
  · calc raw = text ++ comment := List.takeWhile_append_dropWhile.symm
      _ = (content raw ++ text.rtakeWhile Text.isBlank) ++ comment := by
        rw [show content raw = text.rdropWhile Text.isBlank from rfl,
          List.rdropWhile_append_rtakeWhile]
      _ = content raw ++ (text.rtakeWhile Text.isBlank ++ comment) := List.append_assoc ..
  · have hcomment : comment.takeWhile (· != '#') = [] := by
      cases hcases : comment with
      | nil => rfl
      | cons first rest =>
          have hfirst : ¬ (first != '#') = true := by
            have hhead := List.head?_dropWhile_not (· != '#') raw
            rw [show raw.dropWhile (· != '#') = first :: rest from hcases] at hhead
            simpa using hhead
          exact List.takeWhile_cons_of_neg hfirst
    intro c hc
    rw [List.takeWhile_append] at hc
    have hblank : c ∈ text.rtakeWhile Text.isBlank := by
      split at hc
      · simpa [hcomment] using hc
      · exact (List.takeWhile_sublist _).subset hc
    exact List.mem_rtakeWhile_imp hblank

/-- What counts of a line counts as a whole. -/
theorem content_content (raw : List Char) : content (content raw) = content raw := by
  obtain ⟨tail, hraw, htail⟩ := exists_idle_tail raw
  conv_rhs => rw [hraw, content_append_idle _ htail]

/-! ### Indentation and text -/

/-- The indentation of a line. -/
def margin (raw : List Char) : List Char := (content raw).takeWhile isIndent

/-- The text of a line. -/
def body (raw : List Char) : List Char := (content raw).dropWhile isIndent

/-- A line is taken apart into an indentation of tabs and spaces, a text, and what does not
count. -/
structure Layout (raw margin body tail : List Char) : Prop where
  whole : raw = margin ++ body ++ tail
  margin : ∀ c ∈ margin, c = ' ' ∨ c = '\t'
  starts : ∀ c ∈ body.head?, c ≠ ' ' ∧ c ≠ '\t'
  ends : ∀ c ∈ body.getLast?, Text.isBlank c = false
  noComment : '#' ∉ body
  tail : Text.Idle tail

/-- What counts of a line is its indentation and its text. -/
theorem margin_append_body (raw : List Char) : margin raw ++ body raw = content raw :=
  List.takeWhile_append_dropWhile

/-- A line is indented by spaces and tabs. -/
theorem is_indent_iff {c : Char} : isIndent c = true ↔ c = ' ' ∨ c = '\t' := by
  simp [isIndent]

/-- The indentation of a line is made of spaces and tabs. -/
theorem is_indent_of_mem_margin : ∀ c ∈ margin raw, isIndent c = true :=
  fun _ hc => List.mem_takeWhile_imp hc

/-- The text of a line has the end of its content. -/
theorem last_body (hbody : body raw ≠ []) :
    Text.isBlank ((body raw).getLast hbody) = false := by
  have hsuffix : body raw <:+ content raw := List.dropWhile_suffix _
  rw [hsuffix.getLast hbody]
  exact last_content _

/-- The text of a line has no hash sign in it. -/
theorem not_mem_body (raw : List Char) : '#' ∉ body raw := fun hhash =>
  not_mem_content raw ((List.dropWhile_sublist _).subset hhash)

/-- Every line is taken apart into its indentation, its text and the rest. -/
theorem exists_layout (raw : List Char) : ∃ tail, Layout raw (margin raw) (body raw) tail := by
  obtain ⟨tail, hraw, htail⟩ := exists_idle_tail raw
  refine ⟨tail, by rw [margin_append_body, ← hraw], fun c hc => ?_, fun c hc => ?_, fun c hc => ?_,
    not_mem_body raw, htail⟩
  · exact is_indent_iff.1 (is_indent_of_mem_margin c hc)
  · have hhead := List.head?_dropWhile_not isIndent (content raw)
    rw [show ((content raw).dropWhile isIndent).head? = some c from hc] at hhead
    rw [← not_or, ← is_indent_iff]
    simpa using hhead
  · obtain ⟨hbody, rfl⟩ := List.mem_getLast?_eq_getLast hc
    exact last_body hbody

/-- A line without a text has nothing that counts. -/
theorem body_eq_nil_iff : body raw = [] ↔ Text.Idle raw := by
  rw [← content_eq_nil_iff]
  constructor
  · intro hbody
    by_contra hcontent
    -- the last character of the content is no blank, so it is not one of the indentation
    have hmem : (content raw).getLast hcontent ∈ margin raw := by
      have hwhole := margin_append_body raw
      rw [hbody, List.append_nil] at hwhole
      rw [hwhole]
      exact List.getLast_mem hcontent
    have hsolid := last_content hcontent
    obtain hspace | htab := is_indent_iff.1 (is_indent_of_mem_margin _ hmem)
    · rw [hspace] at hsolid
      exact absurd hsolid (by decide)
    · rw [htab] at hsolid
      exact absurd hsolid (by decide)
  · intro hcontent
    rw [body, hcontent]
    rfl

namespace Layout

variable {margin body tail : List Char}

/-- What counts of a line that is taken apart is its indentation and its text, if it has one. -/
theorem content_eq (h : Layout raw margin body tail) (hbody : body ≠ []) :
    content raw = margin ++ body := by
  have hmargin : '#' ∉ margin := fun hhash => by
    have hindent := h.margin _ hhash
    revert hindent
    decide
  have hhash : ∀ c ∈ margin ++ body, (c != '#') = true := by
    intro c hc
    rw [bne_iff_ne]
    rintro rfl
    exact (List.mem_append.1 hc).elim hmargin h.noComment
  have hlast : Text.isBlank ((margin ++ body).getLast (by simp [hbody])) = false := by
    rw [List.getLast_append_of_ne_nil _ hbody]
    exact h.ends _ (List.getLast_mem_getLast? hbody)
  rw [h.whole, content_append_idle _ h.tail, content, List.takeWhile_eq_self_iff.2 hhash]
  exact List.rdropWhile_eq_self_iff.2 fun _ => by simp [hlast]

/-- A line with a text is indented by its indentation only. -/
theorem indent_eq (h : Layout raw margin body tail) (hbody : body ≠ []) :
    raw.takeWhile isIndent = margin ∧ raw.dropWhile isIndent = body ++ tail := by
  obtain ⟨first, rest, rfl⟩ := List.exists_cons_of_ne_nil hbody
  have hmargin : ∀ c ∈ margin, isIndent c = true := fun c hc => is_indent_iff.2 (h.margin c hc)
  have hfirst : ¬ isIndent first = true := by
    rw [is_indent_iff, not_or]
    exact h.starts first rfl
  rw [h.whole, List.append_assoc, List.takeWhile_append_of_pos hmargin,
    List.dropWhile_append_of_pos hmargin, List.cons_append, List.takeWhile_cons_of_neg hfirst,
    List.dropWhile_cons_of_neg hfirst, List.append_nil]
  exact ⟨rfl, rfl⟩

/-- A line with a text is laid out in one way only. -/
theorem parts_eq (h : Layout raw margin body tail) (hbody : body ≠ []) :
    Line.margin raw = margin ∧ Line.body raw = body := by
  have hcontent : Layout (margin ++ body) margin body [] :=
    ⟨(List.append_nil _).symm, h.margin, h.starts, h.ends, h.noComment, by simp [Text.Idle]⟩
  obtain ⟨hmargin, hrest⟩ := hcontent.indent_eq hbody
  rw [Line.margin, Line.body, h.content_eq hbody]
  exact ⟨hmargin, hrest.trans (List.append_nil _)⟩

end Layout

/-! ### What is read -/

/-- What an indentation amounts to, given the unit, with the unit from then on. An indentation with
a tab after a space, or with less than a unit left over, amounts to nothing. -/
def level? (margin : List Char) (unit : Option Nat) : Option (Nat × Option Nat) :=
  let tabs := (margin.takeWhile (· == '\t')).length
  let spaces := margin.length - tabs
  let size := unit.getD (unitOf spaces)
  if (margin.drop tabs).contains '\t' then none
  else if spaces = 0 then some (tabs, unit)
  else if spaces % size ≠ 0 then none
  else some (tabs + spaces / size, some size)

/-- Where the indentation of a line stands, if the line starts at an offset. -/
def marginSpan (raw : List Char) (offset : Nat) : Span :=
  ⟨offset, offset + Text.byteSize (margin raw)⟩

/-- Where the text of a line stands, if the line starts at an offset. -/
def bodySpan (raw : List Char) (offset : Nat) : Span :=
  ⟨offset + Text.byteSize (margin raw),
    offset + Text.byteSize (margin raw) + Text.byteSize (body raw)⟩

/-- The characters of an indentation have one byte each. -/
theorem byte_size_of_indent {cs : List Char} (h : ∀ c ∈ cs, isIndent c = true) :
    Text.byteSize cs = cs.length := by
  induction cs with
  | nil => rfl
  | cons c cs ih =>
      obtain ⟨hc, hcs⟩ := List.forall_mem_cons.1 h
      have hone : c.utf8Size = 1 := by
        obtain rfl | rfl := is_indent_iff.1 hc <;> rfl
      rw [Text.byte_size_cons, hone, ih hcs, List.length_cons, Nat.add_comm]

/-- The indentation of a line has one byte for each character. -/
theorem byte_size_margin (raw : List Char) : Text.byteSize (margin raw) = (margin raw).length :=
  byte_size_of_indent is_indent_of_mem_margin

/-- Without an indentation there is nothing to refuse. -/
theorem level_nil (unit : Option Nat) : level? [] unit = some (0, unit) := rfl

/-- Tabs amount to a level each. -/
theorem level_tabs (depth : Nat) (unit : Option Nat) :
    level? (List.replicate depth '\t') unit = some (depth, unit) := by
  have htabs : (List.replicate depth '\t').takeWhile (· == '\t') = List.replicate depth '\t' := by
    simp
  rw [level?, htabs, List.drop_length, List.length_replicate, Nat.sub_self]
  rfl

/-- Spaces amount to as many levels as they make up. -/
theorem level_spaces {spaces : Nat} (hpos : 0 < spaces) (unit : Option Nat) :
    level? (List.replicate spaces ' ') unit =
      if spaces % unit.getD (unitOf spaces) ≠ 0 then none
      else some (spaces / unit.getD (unitOf spaces), some (unit.getD (unitOf spaces))) := by
  have htabs : (List.replicate spaces ' ').takeWhile (· == '\t') = [] := by
    simp
  have hmixed : (List.replicate spaces ' ').contains '\t' = false := by
    simp
  rw [level?, htabs, List.length_nil, List.drop_zero, hmixed, List.length_replicate, Nat.sub_zero,
    Nat.zero_add, if_neg (by decide), if_neg (Nat.ne_of_gt hpos)]

/-- Spaces amount to a level for each unit of them. Where the unit is still open, they decide it. -/
theorem level_of_spaces {width depth : Nat} (hwidth : 0 < width)
    (hunit : 0 < depth → unit.getD (unitOf (width * depth)) = width) :
    level? (List.replicate (width * depth) ' ') unit =
      some (depth, if depth = 0 then unit else some width) := by
  cases depth with
  | zero => exact level_nil unit
  | succ depth =>
      have hpos : 0 < depth + 1 := Nat.succ_pos depth
      rw [level_spaces (Nat.mul_pos hwidth hpos), hunit hpos, Nat.mul_mod_right, if_neg (by simp),
        Nat.mul_div_cancel_left _ hwidth, if_neg (by simp)]

/-- What is read from a line that starts at an offset. -/
theorem of_content_eq (raw : List Char) (offset : Nat) (unit : Option Nat) :
    ofContent (content raw) offset unit =
      if body raw = [] then .ok (none, unit)
      else
        match level? (margin raw) unit with
        | none => .error (.invalidIndentation (marginSpan raw offset))
        | some (indent, next) =>
          if maxNesting < indent then .error (.nestingTooDeep indent (marginSpan raw offset))
          else .ok (some ⟨indent, bodySpan raw offset,
            wordsFrom (body raw) (bodySpan raw offset).start []⟩, next) := by
  unfold ofContent
  rw [show (content raw).takeWhile isIndent = margin raw from rfl,
    show (content raw).dropWhile isIndent = body raw from rfl]
  by_cases hbody : body raw = []
  · simp only [hbody, List.isEmpty_nil, if_true]
  simp only [List.isEmpty_iff, hbody, if_false, marginSpan, bodySpan, byte_size_margin]
  by_cases hmargin : margin raw = []
  · -- without an indentation nothing is refused, so it does not matter where it would stand
    have hflat : ¬ maxNesting < 0 := Nat.not_lt_zero _
    simp [hmargin, level_nil, hflat]
  · have hlength : max (margin raw).length 1 = (margin raw).length :=
      Nat.max_eq_left (List.length_pos_iff.2 hmargin)
    rw [hlength, level?]
    split_ifs <;> rfl

/-- A line is read if it has a text and its indentation amounts to a depth that is allowed. -/
theorem of_content_eq_some_iff {line : Line} {next : Option Nat} :
    ofContent (content raw) offset unit = .ok (some line, next) ↔
      body raw ≠ [] ∧ ∃ indent, level? (margin raw) unit = some (indent, next) ∧
        indent ≤ maxNesting ∧ line = ⟨indent, bodySpan raw offset,
          wordsFrom (body raw) (bodySpan raw offset).start []⟩ := by
  rw [of_content_eq]
  by_cases hbody : body raw = []
  · rw [if_pos hbody]
    exact iff_of_false (by simp) fun h => h.1 hbody
  rw [if_neg hbody]
  cases level? (margin raw) unit with
  | none => exact iff_of_false (by simp) (by simp)
  | some level =>
      dsimp only
      by_cases hdeep : maxNesting < level.1
      · rw [if_pos hdeep]
        refine iff_of_false (by simp) fun h => ?_
        obtain ⟨-, indent, hlevel, hle, -⟩ := h
        cases hlevel
        exact Nat.not_lt.2 hle hdeep
      · rw [if_neg hdeep]
        constructor
        · intro h
          cases h
          exact ⟨hbody, level.1, rfl, Nat.not_lt.1 hdeep, rfl⟩
        · intro h
          obtain ⟨-, indent, hlevel, -, rfl⟩ := h
          cases hlevel
          rfl

/-- A line is refused if it has a text and its indentation amounts to nothing or to too much. -/
theorem of_content_eq_error_iff {error : ParseError} :
    ofContent (content raw) offset unit = .error error ↔
      body raw ≠ [] ∧ ((level? (margin raw) unit = none ∧
          error = .invalidIndentation (marginSpan raw offset)) ∨
        ∃ indent next, level? (margin raw) unit = some (indent, next) ∧ maxNesting < indent ∧
          error = .nestingTooDeep indent (marginSpan raw offset)) := by
  rw [of_content_eq]
  by_cases hbody : body raw = []
  · rw [if_pos hbody]
    exact iff_of_false (by simp) fun h => h.1 hbody
  rw [if_neg hbody]
  cases level? (margin raw) unit with
  | none =>
      dsimp only
      constructor
      · intro h
        cases h
        exact ⟨hbody, .inl ⟨rfl, rfl⟩⟩
      · intro h
        obtain ⟨-, ⟨-, rfl⟩ | ⟨indent, next, hlevel, -⟩⟩ := h
        · rfl
        · cases hlevel
  | some level =>
      dsimp only
      by_cases hdeep : maxNesting < level.1
      · rw [if_pos hdeep]
        constructor
        · intro h
          cases h
          exact ⟨hbody, .inr ⟨level.1, level.2, rfl, hdeep, rfl⟩⟩
        · intro h
          obtain ⟨-, ⟨hlevel, -⟩ | ⟨indent, next, hlevel, -, rfl⟩⟩ := h
          · cases hlevel
          · cases hlevel
            rfl
      · rw [if_neg hdeep]
        refine iff_of_false (by simp) fun h => ?_
        obtain ⟨-, ⟨hlevel, -⟩ | ⟨indent, next, hlevel, hmore, -⟩⟩ := h
        · cases hlevel
        · cases hlevel
          exact hdeep hmore

end Line

end TileCourse
