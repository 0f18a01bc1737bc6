import TileCourse.Text.Span

/-!
# Cutting texts at byte offsets

A span names bytes, and a text is made of characters: it can be cut at an offset only where one
character ends and the next begins. `Text.slice?` cuts a text if both ends of a span are such
places, and `slice_eq_some_iff` says what is cut out. Cutting a text into lines loses nothing of it
(`flatten_lines`).
-/

namespace TileCourse.Text

/-- The two parts of a text before and after an offset, unless that lies inside a character or
after the text. -/
def cut? : List Char → (offset : Nat) → Option (List Char × List Char)
  | cs, 0 => some ([], cs)
  | [], _ + 1 => none
  | c :: cs, offset + 1 =>
    if c.utf8Size ≤ offset + 1 then
      (cut? cs (offset + 1 - c.utf8Size)).map fun parts => (c :: parts.1, parts.2)
    else none

/-- What a span covers of a text, unless an end of the span lies inside a character or after the
text, or the span ends before it starts. -/
def slice? (cs : List Char) (span : Span) : Option (List Char) :=
  if span.start ≤ span.stop then
    (cut? cs span.start).bind fun parts =>
      (cut? parts.2 (span.stop - span.start)).map (·.1)
  else none

variable {cs text before after : List Char} {offset : Nat} {span : Span}

/-- The lines of a text make up the text. -/
theorem flatten_lines (cs : List Char) : (lines cs).flatten = cs := by
  fun_induction lines cs with
  | case1 => rfl
  | case2 cs ih => simp [ih]
  | case3 c cs _ hlines ih => simpa [hlines] using ih
  | case4 c cs _ line rest hlines ih => simpa [hlines] using ih

/-- Only the empty text has no bytes. -/
theorem byte_size_pos_iff : 0 < byteSize cs ↔ cs ≠ [] := by
  cases cs with
  | nil => simp [byte_size_nil]
  | cons c cs =>
      have hc := c.utf8Size_pos
      rw [byte_size_cons]
      exact iff_of_true (by omega) (by simp)

/-- A text can be cut between any two of its parts. -/
theorem cut_append (before after : List Char) :
    cut? (before ++ after) (byteSize before) = some (before, after) := by
  induction before with
  | nil => simp [cut?, byte_size_nil]
  | cons c before ih =>
      obtain ⟨offset, hoffset⟩ : ∃ offset, byteSize (c :: before) = offset + 1 :=
        Nat.exists_eq_succ_of_ne_zero (Nat.ne_of_gt (byte_size_pos_iff.2 (by simp)))
      have hrest : offset + 1 - c.utf8Size = byteSize before := by
        rw [← hoffset, byte_size_cons, Nat.add_sub_cancel_left]
      have hfits : c.utf8Size ≤ offset + 1 := by
        rw [← hoffset, byte_size_cons]
        exact Nat.le_add_right _ _
      rw [hoffset, List.cons_append, cut?, if_pos hfits, hrest, ih]
      rfl

/-- A text is cut at an offset into the parts that it is made of, the first of which has that
size. -/
theorem cut_eq_some_iff :
    cut? cs offset = some (before, after) ↔ cs = before ++ after ∧ byteSize before = offset := by
  constructor
  · intro h
    fun_induction cut? cs offset generalizing before with
    | case1 cs =>
        cases h
        exact ⟨rfl, rfl⟩
    | case2 => cases h
    | case3 c cs offset hfits ih =>
        obtain ⟨⟨front, rest⟩, hcut, hparts⟩ := Option.map_eq_some_iff.1 h
        cases hparts
        obtain ⟨rfl, hsize⟩ := ih hcut
        refine ⟨rfl, ?_⟩
        rw [byte_size_cons, hsize]
        exact Nat.add_sub_cancel' hfits
    | case4 => cases h
  · intro h
    obtain ⟨rfl, rfl⟩ := h
    exact cut_append before after

/-- What is cut out stands in the text, with as many bytes before it as the span says. -/
theorem slice_eq_some_iff : slice? cs span = some text ↔
    ∃ before after, cs = before ++ text ++ after ∧ byteSize before = span.start ∧
      span.stop = span.start + byteSize text := by
  constructor
  · intro h
    unfold slice? at h
    split at h
    · rename_i hle
      obtain ⟨⟨before, rest⟩, hfirst, hinside⟩ := Option.bind_eq_some_iff.1 h
      obtain ⟨⟨front, after⟩, hsecond, hfront⟩ := Option.map_eq_some_iff.1 hinside
      obtain rfl : front = text := hfront
      obtain ⟨hcs, hbefore⟩ := cut_eq_some_iff.1 hfirst
      obtain ⟨hrest, hsize⟩ := cut_eq_some_iff.1 hsecond
      dsimp only at hrest
      exact ⟨before, after, by rw [hcs, hrest, List.append_assoc], hbefore, by omega⟩
    · cases h
  · intro h
    obtain ⟨before, after, hcs, hbefore, hstop⟩ := h
    have hsize : span.stop - span.start = byteSize text := by omega
    rw [slice?, if_pos (by omega), hsize, ← hbefore, hcs, List.append_assoc, cut_append]
    simp [cut_append]

/-- What is cut out has the size of the span. -/
theorem stop_of_slice (h : slice? cs span = some text) : span.stop = span.start + byteSize text := by
  obtain ⟨_, _, _, _, hstop⟩ := slice_eq_some_iff.1 h
  exact hstop

/-- A span that cuts a text ends inside it. -/
theorem stop_le_of_slice (h : slice? cs span = some text) : span.stop ≤ byteSize cs := by
  obtain ⟨before, after, hcs, hbefore, hstop⟩ := slice_eq_some_iff.1 h
  rw [hcs, byte_size_append, byte_size_append]
  omega

end TileCourse.Text
