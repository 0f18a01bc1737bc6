import TileCourse.Proofs.Program.Layout
import TileCourse.Proofs.Program.Refusal
import TileCourse.Proofs.Text.Slice

/-!
# Where errors point

Offsets are counted over raw lines, then over the indentation of a line and then over its words, so
that every word has a place in the whole source. What stands at these places is what was read there
(`Line.slice_words_of_mem`), and an error names what stands at the place that it gives:
`Program.parse_errors_located` says so of every error, and that no cut on the way is out of range.
-/

namespace TileCourse

/-! ### Parts of lines -/

namespace Text

/-- A text has as many bytes backwards. -/
theorem byte_size_reverse (cs : List Char) : byteSize cs.reverse = byteSize cs := by
  induction cs with
  | nil => rfl
  | cons c cs ih => simp [byte_size_append, byte_size_cons, byte_size_nil, ih, Nat.add_comm]

/-- A source has a line that starts at an offset. -/
def LineAt (source : List Char) (offset : Nat) (raw : List Char) : Prop :=
  ∃ earlier later, lines source = earlier ++ raw :: later ∧ byteSize earlier.flatten = offset

/-- A part of a line stands where it stands in the line, after what comes before the line. -/
theorem LineAt.slice {source raw front text rest : List Char} {offset : Nat}
    (h : LineAt source offset raw) (hraw : raw = front ++ text ++ rest) :
    slice? source ⟨offset + byteSize front, offset + byteSize front + byteSize text⟩ =
      some text := by
  obtain ⟨earlier, later, hlines, hoffset⟩ := h
  refine slice_eq_some_iff.2 ⟨earlier.flatten ++ front, rest ++ later.flatten, ?_, ?_, rfl⟩
  · rw [← flatten_lines source, hlines, hraw]
    simp
  · rw [byte_size_append, hoffset]

end Text

namespace Line

variable {source raw : List Char} {offset : Nat}

/-- The span of the indentation of a line cuts out the indentation. -/
theorem slice_margin (h : Text.LineAt source offset raw) :
    Text.slice? source (marginSpan raw offset) = some (margin raw) := by
  obtain ⟨tail, hlayout⟩ := exists_layout raw
  have hraw : raw = [] ++ margin raw ++ (body raw ++ tail) := by
    simpa using hlayout.whole
  exact h.slice hraw

/-- The span of the text of a line cuts out the text. -/
theorem slice_body (h : Text.LineAt source offset raw) :
    Text.slice? source (bodySpan raw offset) = some (body raw) := by
  obtain ⟨tail, hlayout⟩ := exists_layout raw
  exact h.slice hlayout.whole

/-- An indentation can be cut after any of its characters. -/
theorem cut_margin (raw : List Char) {tabs : Nat} (h : tabs ≤ (margin raw).length) :
    Text.cut? (margin raw) tabs = some ((margin raw).take tabs, (margin raw).drop tabs) := by
  have hindent : ∀ c ∈ (margin raw).take tabs, isIndent c = true := fun c hc =>
    is_indent_of_mem_margin c (List.mem_of_mem_take hc)
  refine Text.cut_eq_some_iff.2 ⟨(List.take_append_drop tabs _).symm, ?_⟩
  rw [byte_size_of_indent hindent, List.length_take, Nat.min_eq_left h]

/-- A word that ends somewhere stands just before that place. -/
theorem slice_finish_word {before begun rest : List Char} {stop : Nat}
    (hsource : source = before ++ begun.reverse ++ rest)
    (hstop : stop = Text.byteSize before + Text.byteSize begun) :
    Text.slice? source (finishWord begun stop).span =
      some (finishWord begun stop).text.toList := by
  refine Text.slice_eq_some_iff.2 ⟨before, rest, ?_, ?_, ?_⟩
  · rw [hsource, finishWord, String.toList_ofList]
  · show Text.byteSize before = stop - Text.byteSize begun
    omega
  · show stop = stop - Text.byteSize begun + Text.byteSize (finishWord begun stop).text.toList
    rw [finishWord, String.toList_ofList, Text.byte_size_reverse]
    omega

/-- Words stand where their spans say. The text of which they are words goes on after a word that
has begun. -/
theorem slice_words_from {before begun cs after : List Char}
    (hsource : source = before ++ begun.reverse ++ cs ++ after)
    (hoffset : offset = Text.byteSize before + Text.byteSize begun) :
    ∀ word ∈ wordsFrom cs offset begun, Text.slice? source word.span = some word.text.toList := by
  induction cs generalizing before begun offset with
  | nil =>
      intro word hword
      rw [wordsFrom] at hword
      split at hword
      · simp at hword
      · obtain rfl := List.mem_singleton.1 hword
        exact slice_finish_word (by rw [hsource, List.append_assoc]) hoffset
  | cons c cs ih =>
      intro word hword
      rw [wordsFrom] at hword
      split at hword
      · -- the next word begins after the blank
        have hrest : ∀ word ∈ wordsFrom cs (offset + c.utf8Size) [],
            Text.slice? source word.span = some word.text.toList := by
          have hnext : source = (before ++ begun.reverse ++ [c]) ++ [].reverse ++ cs ++ after := by
            simp [hsource]
          refine ih hnext ?_
          simp only [Text.byte_size_append, Text.byte_size_reverse, Text.byte_size_cons,
            Text.byte_size_nil]
          omega
        dsimp only at hword
        split at hword
        · exact hrest word hword
        · rcases List.mem_cons.1 hword with rfl | hword
          · have hafter : source = before ++ begun.reverse ++ (c :: cs ++ after) := by
              rw [hsource, List.append_assoc]
            exact slice_finish_word hafter hoffset
          · exact hrest word hword
      · have hnext : source = before ++ (c :: begun).reverse ++ cs ++ after := by
          simp [hsource]
        refine ih hnext ?_ word hword
        rw [Text.byte_size_cons]
        omega

/-! ### Lines that count -/

/-- What is cut out of a source for a line is there: its text, and its words, of which there is a
first one. -/
structure Cut (source : List Char) (line : Line) : Prop where
  body : ∃ offset raw, Text.LineAt source offset raw ∧ body raw ≠ [] ∧
    line.span = bodySpan raw offset
  words : ∀ word ∈ line.words, Text.slice? source word.span = some word.text.toList
  first : line.words ≠ []

variable {lines : List Line} {unit next : Option Nat} {error : ParseError}

/-- What is read of a line is what stands there. -/
theorem cut_of_content {line : Line} (h : Text.LineAt source offset raw)
    (hcontent : ofContent (content raw) offset unit = .ok (some line, next)) : line.Cut source := by
  have hwords := of_content_words hcontent
  obtain ⟨hbody, indent, -, -, rfl⟩ := of_content_eq_some_iff.1 hcontent
  obtain ⟨before, after, hsource, hbefore, -⟩ := Text.slice_eq_some_iff.1 (slice_body h)
  have hwhole : source = before ++ [].reverse ++ body raw ++ after := by
    simpa using hsource
  refine ⟨⟨offset, raw, h, hbody, rfl⟩, slice_words_from hwhole ?_, hwords⟩
  rw [hbefore, Text.byte_size_nil, Nat.add_zero]

/-- Every line of a text that is split is cut out of it. -/
theorem cut_of_split (h : split source = .ok lines) : ∀ line ∈ lines, line.Cut source := by
  intro line hline
  obtain ⟨earlier, raw, later, _, _, hlines, hcontent⟩ := exists_content_of_mem h line hline
  exact cut_of_content ⟨earlier, later, hlines, rfl⟩ (Nat.zero_add _ ▸ hcontent)

end Line

/-! ### Errors -/

/-- A span is where the indentation of a line with a text stands. -/
def AtMargin (source : List Char) (span : Span) : Prop :=
  ∃ offset raw margin body tail, Text.LineAt source offset raw ∧
    Line.Layout raw margin body tail ∧ body ≠ [] ∧ span = ⟨offset, offset + Text.byteSize margin⟩

/-- A span is where the text of a line stands. -/
def AtBody (source : List Char) (span : Span) : Prop :=
  ∃ offset raw margin body tail, Text.LineAt source offset raw ∧
    Line.Layout raw margin body tail ∧ body ≠ [] ∧
      span = ⟨offset + Text.byteSize margin,
        offset + Text.byteSize margin + Text.byteSize body⟩

namespace ParseError

/-- An error names what stands where it points: the word that it is about, or the indentation or the
text of one line. -/
def Names (source : List Char) : ParseError → Prop
  | missingArgument text span | unexpectedToken text span | invalidRepeatCount text span
  | invalidDirection text span | unknownCondition text span =>
      Text.slice? source span = some text.toList
  | unexpectedElse span => Text.slice? source span = some "else".toList
  | invalidIndentation span => AtMargin source span ∨ AtBody source span
  | nestingTooDeep depth span => maxNesting < depth ∧ (AtMargin source span ∨ AtBody source span)

/-- An error points at some text of a source, from one place between characters to another, and
names it. -/
structure Located (source : List Char) (error : ParseError) : Prop where
  nonempty : error.span.start < error.span.stop
  inside : error.span.stop ≤ Text.byteSize source
  cuts : (Text.slice? source error.span).isSome
  names : error.Names source

variable {source raw text : List Char} {offset : Nat} {unit : Option Nat} {error : ParseError}

/-- An error that points at some text and names it is located. -/
theorem located_of_slice (hslice : Text.slice? source error.span = some text) (hne : text ≠ [])
    (hnames : error.Names source) : error.Located source := by
  have hstop := Text.stop_of_slice hslice
  have hpos := Text.byte_size_pos_iff.2 hne
  exact ⟨by omega, Text.stop_le_of_slice hslice, by rw [hslice]; rfl, hnames⟩

/-- What is refused about an indentation is refused where it stands, and it is not empty. -/
theorem located_of_content (h : Text.LineAt source offset raw)
    (hcontent : Line.ofContent (Line.content raw) offset unit = .error error) :
    error.Located source := by
  obtain ⟨tail, hlayout⟩ := Line.exists_layout raw
  have hslice := Line.slice_margin h
  obtain ⟨hbody, hlevel⟩ := Line.of_content_eq_error_iff.1 hcontent
  have hmargin : AtMargin source (Line.marginSpan raw offset) :=
    ⟨offset, raw, _, _, tail, h, hlayout, hbody, rfl⟩
  obtain ⟨hlevel, rfl⟩ | ⟨indent, next, hlevel, hdeep, rfl⟩ := hlevel
  · refine located_of_slice hslice (fun hempty => ?_) (.inl hmargin)
    rw [hempty, Line.level_nil] at hlevel
    cases hlevel
  · refine located_of_slice hslice (fun hempty => ?_) ⟨hdeep, .inl hmargin⟩
    rw [hempty, Line.level_nil] at hlevel
    cases hlevel
    exact Nat.not_lt_zero _ hdeep

/-- A word that is to blame is named, where it stands. -/
theorem located_of_word {word : Word} (hword : word.Blamed error) (htext : IsWord word.text)
    (hslice : Text.slice? source word.span = some word.text.toList) : error.Located source := by
  cases hword with
  | loneElse helse =>
      exact located_of_slice hslice htext.nonempty (by rwa [helse] at hslice)
  | missing | unexpected | count | side | condition =>
      exact located_of_slice hslice htext.nonempty hslice

/-- A line that is to blame is named, or one of its words is. -/
theorem located_of_line {line : Line} (hline : line.Blamed error) (hcut : line.Cut source)
    (hsound : line.Sound) : error.Located source := by
  rcases hline with rfl | ⟨word, hword, hblamed⟩
  · obtain ⟨offset, raw, hraw, hbody, hspan⟩ := hcut.body
    obtain ⟨tail, hlayout⟩ := Line.exists_layout raw
    have hslice : Text.slice? source line.span = some (Line.body raw) := by
      rw [hspan]
      exact Line.slice_body hraw
    exact located_of_slice hslice hbody (.inr ⟨offset, raw, _, _, tail, hraw, hlayout, hbody, hspan⟩)
  · exact located_of_word hblamed (hsound.2 word hword) (hcut.words word hword)

end ParseError

namespace Program

/-- The text that is refused holds what the error points at. -/
theorem located_of_parse {source : String} {error : ParseError}
    (h : parse source = .error error) : error.Located source.toList := by
  unfold parse at h
  split at h
  · rename_i error' hsplit
    cases h
    obtain ⟨earlier, raw, later, _, hlines, hcontent⟩ := Line.exists_content_of_error hsplit
    exact ParseError.located_of_content ⟨earlier, later, hlines, rfl⟩ (Nat.zero_add _ ▸ hcontent)
  · rename_i lines hsplit
    obtain ⟨line, hline, hblamed⟩ := (of_lines_eq_error_iff.1 h).exists_blamed
    exact ParseError.located_of_line hblamed (Line.cut_of_split hsplit line hline)
      (Line.split_sound hsplit line hline)

/-- Every error points at some text of the source and names it: the word that it is about, or the
indentation or the text of one line. Nothing that is cut out of a source on the way is out of range:
the indentation and the text of a line, the indentation without its tabs, the words of a line, and
the first of these. -/
theorem parse_errors_located (source : String) :
    (∀ error, parse source = .error error → error.Located source.toList) ∧
    (∀ offset raw, Text.LineAt source.toList offset raw →
      Text.slice? source.toList (Line.marginSpan raw offset) = some (Line.margin raw) ∧
      Text.slice? source.toList (Line.bodySpan raw offset) = some (Line.body raw) ∧
      ∀ tabs ≤ (Line.margin raw).length, Text.cut? (Line.margin raw) tabs =
        some ((Line.margin raw).take tabs, (Line.margin raw).drop tabs)) ∧
    ∀ lines, Line.split source.toList = .ok lines → ∀ line ∈ lines, line.Cut source.toList := by
  refine ⟨fun error h => located_of_parse h, fun offset raw hraw => ?_, fun lines hlines =>
    Line.cut_of_split hlines⟩
  exact ⟨Line.slice_margin hraw, Line.slice_body hraw, fun tabs => Line.cut_margin raw⟩

/-- A comment with a letter of two bytes, lines that end in carriage return and line feed, and a
word for a side after a blank of two bytes. -/
def strayText : String := "move # früh\r\nturn\u00a0lïnks\r\n"

/-- The error in the stray text points at the word for a side and nothing else. -/
theorem stray_text_located :
    parse strayText = .error (.invalidDirection "lïnks" ⟨20, 26⟩) ∧
      (ParseError.invalidDirection "lïnks" ⟨20, 26⟩).Located strayText.toList := by
  have h : parse strayText = .error (.invalidDirection "lïnks" ⟨20, 26⟩) := by decide +kernel
  exact ⟨h, (parse_errors_located strayText).1 _ h⟩

end Program

end TileCourse
