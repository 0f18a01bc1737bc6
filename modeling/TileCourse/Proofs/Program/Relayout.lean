import TileCourse.Proofs.Program.Unplaced

/-!
# What the layout of a text leaves open

Blank lines, comments and blanks at the ends of lines can be added to a text without changing what
it says. A text that is indented by tabs can be indented by two or by four spaces a tab instead.
`Program.parse_relayout` says both of every text, whether it is read as a program or refused.
-/

namespace TileCourse

namespace Text

/-! ### Rows -/

/-- The lines of a text without the line feeds between them. -/
def rows (source : String) : List (List Char) := source.toList.splitOn '\n'

/-- The text with the given rows. -/
def ofRows (rows : List (List Char)) : String := String.ofList (['\n'].intercalate rows)

/-- A text is made of its rows. -/
theorem of_rows_rows (source : String) : ofRows (rows source) = source := by
  rw [ofRows, rows, List.intercalate_splitOn, String.ofList_toList]

/-- The parts of a list have none of the characters at which it is split. -/
theorem not_mem_of_mem_split_on {c : Char} (cs : List Char) : ∀ row ∈ cs.splitOn c, c ∉ row := by
  induction cs with
  | nil => simp
  | cons first cs ih =>
      rw [List.splitOn_cons_eq_if_modifyHead]
      obtain ⟨row, rest, hrows⟩ := List.exists_cons_of_ne_nil (List.splitOn_ne_nil c cs)
      rw [hrows] at ih ⊢
      obtain ⟨hrow, hrest⟩ := List.forall_mem_cons.1 ih
      split_ifs with hfirst
      · exact List.forall_mem_cons.2 ⟨by simp, ih⟩
      · have hne : c ≠ first := fun heq => hfirst (by simp [heq])
        exact List.forall_mem_cons.2 ⟨by simp [hne, hrow], hrest⟩

/-- Rows have no line feed in them. -/
theorem not_mem_rows (source : String) : ∀ row ∈ rows source, '\n' ∉ row :=
  not_mem_of_mem_split_on source.toList

/-- A text without a line feed is one line. -/
theorem lines_of_not_mem {cs : List Char} (h : '\n' ∉ cs) (hne : cs ≠ []) : lines cs = [cs] := by
  induction cs with
  | nil => exact absurd rfl hne
  | cons c cs ih =>
      rw [List.mem_cons, not_or] at h
      rw [lines]
      · cases cs with
        | nil => rfl
        | cons d cs => rw [ih h.2 (by simp)]
      · rintro rfl
        exact h.1 rfl

/-- Blanks before a text do not make it count. -/
theorem idle_append_iff {blanks : List Char} (cs : List Char)
    (h : ∀ c ∈ blanks, isBlank c = true) : Idle (blanks ++ cs) ↔ Idle cs := by
  have hhash : ∀ c ∈ blanks, (c != '#') = true := by
    intro c hc
    rw [bne_iff_ne]
    rintro rfl
    exact absurd (h _ hc) (by decide)
  rw [Idle, List.takeWhile_append_of_pos hhash]
  constructor
  · intro hidle c hc
    exact hidle c (List.mem_append_right _ hc)
  · intro hidle c hc
    exact (List.mem_append.1 hc).elim (h c) (hidle c)

/-! ### Edits -/

/-- An edit of the rows of a text. What does not count at the end of a row is written anew, so it is
added where there was nothing, or before a carriage return. Rows that do not count are put in. -/
inductive Relaid : List (List Char) → List (List Char) → Prop
  | done : Relaid [] []
  | row {rows rows' : List (List Char)} {stem old new : List Char} (hold : Idle old)
      (hnew : Idle new) (hfeed : '\n' ∉ new) (hrows : Relaid rows rows') :
      Relaid ((stem ++ old) :: rows) ((stem ++ new) :: rows')
  | insert {rows rows' : List (List Char)} {row : List Char} (hidle : Idle row)
      (hfeed : '\n' ∉ row) (hrows : Relaid rows rows') : Relaid rows (row :: rows')

/-- A row is indented by tabs only, if it counts. -/
def TabIndented (row : List Char) : Prop := Idle row ∨ ' ' ∉ row.takeWhile Line.isIndent

instance (row : List Char) : Decidable (TabIndented row) :=
  inferInstanceAs (Decidable (Idle row ∨ ' ' ∉ row.takeWhile Line.isIndent))

/-- A row with a number of spaces for each of the tabs with which it starts. -/
def retab (width : Nat) (row : List Char) : List Char :=
  List.replicate (width * (row.takeWhile (· == '\t')).length) ' ' ++ row.dropWhile (· == '\t')

variable {rows rows' : List (List Char)} {row : List Char} {width : Nat}

/-- An edit puts no line feeds into rows. -/
theorem Relaid.not_mem (h : Relaid rows rows') (hrows : ∀ row ∈ rows, '\n' ∉ row) :
    ∀ row ∈ rows', '\n' ∉ row := by
  induction h with
  | done => exact hrows
  | @row _ _ stem old new _ _ hfeed _ ih =>
      obtain ⟨hrow, hrest⟩ := List.forall_mem_cons.1 hrows
      have hstem : '\n' ∉ stem := fun hmem => hrow (List.mem_append_left _ hmem)
      refine List.forall_mem_cons.2 ⟨fun hmem => ?_, ih hrest⟩
      exact (List.mem_append.1 hmem).elim hstem hfeed
  | insert _ hfeed _ ih => exact List.forall_mem_cons.2 ⟨hfeed, ih hrows⟩

/-- A row has no line feed in it when it is indented by spaces. -/
theorem not_mem_retab (h : '\n' ∉ row) : '\n' ∉ retab width row := by
  intro hmem
  rcases List.mem_append.1 hmem with hspace | hrest
  · exact absurd (List.eq_of_mem_replicate hspace) (by decide)
  · exact h ((List.dropWhile_sublist _).subset hrest)

/-- A row that does not count does not count when it is indented by spaces. -/
theorem idle_retab (h : Idle row) : Idle (retab width row) := by
  rw [← List.takeWhile_append_dropWhile (p := (· == '\t')) (l := row), idle_append_iff] at h
  · rw [retab, idle_append_iff]
    · exact h
    · intro c hc
      rw [List.eq_of_mem_replicate hc]
      decide
  · intro c hc
    have htab : c = '\t' := by simpa using List.mem_takeWhile_imp hc
    rw [htab]
    decide

end Text

namespace Line

variable {rows rows' : List (List Char)} {raw raw' : List Char}

/-! ### What counts -/

/-- Rows of which the same counts, before rows of which the same counts, are alike. -/
theorem kept_cons_congr (hcontent : content raw = content raw') (h : kept rows = kept rows') :
    kept (raw :: rows) = kept (raw' :: rows') := by
  unfold kept at h ⊢
  rw [List.map_cons, List.map_cons, hcontent, List.filter_cons, List.filter_cons, h]

/-- An edit leaves what counts. -/
theorem kept_relaid (h : Text.Relaid rows rows') : kept rows = kept rows' := by
  induction h with
  | done => rfl
  | @row _ _ stem _ _ hold hnew _ _ ih =>
      refine kept_cons_congr ?_ ih
      rw [content_append_idle stem hold, content_append_idle stem hnew]
  | insert hidle _ _ ih => rw [kept_cons_of_nil (content_eq_nil_iff.2 hidle), ih]

/-- The line feeds between rows do not count. -/
theorem kept_lines (h : ∀ row ∈ rows, '\n' ∉ row) :
    kept (Text.lines (['\n'].intercalate rows)) = kept rows := by
  have hfeed : Text.Idle ['\n'] := by decide
  induction rows with
  | nil => rfl
  | cons row rows ih =>
      obtain ⟨hrow, hrows⟩ := List.forall_mem_cons.1 h
      cases rows with
      | nil =>
          rw [List.intercalate_singleton]
          by_cases hne : row = []
          · rw [hne]
            rfl
          · rw [Text.lines_of_not_mem hrow hne]
      | cons next rows =>
          rw [List.intercalate_cons_cons, List.append_assoc, List.singleton_append,
            lines_append hrow]
          exact kept_cons_congr (content_append_idle row hfeed) (ih hrows)

/-! ### Tabs and spaces -/

variable {unit : Option Nat} {width : Nat}

/-- A line with spaces for tabs is as deep as with the tabs, if as many spaces make up a level or,
where that is still open, it is at most one level deep. -/
theorem exists_level_spaces {depth : Nat} (hwidth : width = 2 ∨ width = 4)
    (hunit : unit = some width ∨ unit = none ∧ depth ≤ 1) :
    ∃ next, level? (List.replicate (width * depth) ' ') unit = some (depth, next) ∧
      (next = some width ∨ next = none ∧ unit = none ∧ depth = 0) := by
  have hsize : 0 < depth → unit.getD (unitOf (width * depth)) = width := by
    intro hpos
    obtain rfl | ⟨rfl, hone⟩ := hunit
    · rfl
    · -- the first spaces are those of one level, and they make up the unit
      obtain rfl : depth = 1 := by omega
      obtain rfl | rfl := hwidth <;> rfl
  refine ⟨_, level_of_spaces (by omega) hsize, ?_⟩
  split_ifs with hzero
  · exact hunit.imp_right fun hopen => ⟨hopen.1, hopen.1, hzero⟩
  · exact .inl rfl

/-- Every line is at most one level deeper than the one before, and the first is bounded. -/
def Climbs : (bound : Nat) → List Line → Prop
  | _, [] => True
  | bound, line :: rest => line.indent ≤ bound ∧ Climbs (line.indent + 1) rest

/-- Lines that climb within a bound climb within a greater one. -/
theorem Climbs.mono {lines : List Line} {bound bound' : Nat} (h : Climbs bound lines)
    (hle : bound ≤ bound') : Climbs bound' lines := by
  cases lines with
  | nil => trivial
  | cons line rest => exact ⟨Nat.le_trans h.1 hle, h.2⟩

/-- Whether lines climb does not depend on where they stand. -/
theorem climbs_unplaced {lines : List Line} {bound : Nat} (h : Climbs bound (lines.map unplaced)) :
    Climbs bound lines := by
  induction lines generalizing bound with
  | nil => trivial
  | cons line rest ih => exact ⟨h.1, ih h.2⟩

/-- A row that counts and is indented by tabs only starts with them and then with its text. -/
theorem margin_of_tab_indented (h : Text.TabIndented raw) (hcounts : ¬ Text.Idle raw) :
    margin raw = List.replicate (margin raw).length '\t' := by
  obtain ⟨tail, hlayout⟩ := exists_layout raw
  have hbody : body raw ≠ [] := fun hempty => hcounts (body_eq_nil_iff.1 hempty)
  have hspace : ' ' ∉ margin raw := by
    rw [← (hlayout.indent_eq hbody).1]
    exact h.resolve_left hcounts
  refine List.eq_replicate_of_mem fun c hc => ?_
  exact (hlayout.margin c hc).resolve_left fun heq => hspace (heq ▸ hc)

/-- A row that counts keeps its text when its tabs are replaced. -/
theorem parts_of_retab (h : Text.TabIndented raw) (hcounts : ¬ Text.Idle raw) (width : Nat) :
    margin (Text.retab width raw) = List.replicate (width * (margin raw).length) ' ' ∧
      body (Text.retab width raw) = body raw := by
  obtain ⟨tail, hlayout⟩ := exists_layout raw
  have hbody : body raw ≠ [] := fun hempty => hcounts (body_eq_nil_iff.1 hempty)
  have hmargin := margin_of_tab_indented h hcounts
  have htabs : ∀ c ∈ margin raw, (c == '\t') = true := by
    intro c hc
    rw [hmargin] at hc
    simpa using List.eq_of_mem_replicate hc
  -- the text does not start with a tab, so the tabs at the start are the indentation
  have hrest : (body raw ++ tail).takeWhile (· == '\t') = [] ∧
      (body raw ++ tail).dropWhile (· == '\t') = body raw ++ tail := by
    obtain ⟨first, rest, hfirst⟩ := List.exists_cons_of_ne_nil hbody
    have hstop : ¬ (first == '\t') = true := by
      simpa using (hlayout.starts first (by simp [hfirst])).2
    rw [hfirst]
    exact ⟨List.takeWhile_cons_of_neg hstop, List.dropWhile_cons_of_neg hstop⟩
  have hwhole : raw = margin raw ++ (body raw ++ tail) := by
    rw [← List.append_assoc]
    exact hlayout.whole
  have hretab : Text.retab width raw =
      List.replicate (width * (margin raw).length) ' ' ++ body raw ++ tail := by
    rw [Text.retab]
    conv_lhs => rw [hwhole]
    rw [List.takeWhile_append_of_pos htabs, List.dropWhile_append_of_pos htabs, hrest.1, hrest.2,
      List.append_nil, List.append_assoc]
  have hnew : Layout (Text.retab width raw) (List.replicate (width * (margin raw).length) ' ')
      (body raw) tail := by
    refine ⟨hretab, fun c hc => ?_, hlayout.starts, hlayout.ends, hlayout.noComment, hlayout.tail⟩
    exact .inl (List.eq_of_mem_replicate hc)
  exact hnew.parts_eq hbody

/-- An indentation by tabs only is as deep as it has tabs. -/
theorem level_tab_indented (h : Text.TabIndented raw) (hcounts : ¬ Text.Idle raw) :
    level? (margin raw) unit = some ((margin raw).length, unit) := by
  rw [margin_of_tab_indented h hcounts, List.length_replicate]
  exact level_tabs _ unit

/-- When rows are read, the first of them that counts gives a line, and tabs fix no unit. -/
theorem exists_of_tab_indented {offset : Nat} {lines : List Line} (h : Text.TabIndented raw)
    (hcounts : ¬ Text.Idle raw) (hread : ofRaw (raw :: rows) offset none = .ok lines) :
    ∃ line others, ofContent (content raw) offset none = .ok (some line, none) ∧
      ofRaw rows (offset + Text.byteSize raw) none = .ok others ∧ lines = line :: others := by
  have hbody : body raw ≠ [] := fun hempty => hcounts (body_eq_nil_iff.1 hempty)
  have hlevel : level? (margin raw) none = some ((margin raw).length, none) :=
    level_tab_indented h hcounts
  have hdeep : (margin raw).length ≤ maxNesting := by
    by_contra hdeep
    have herror : ofContent (content raw) offset none =
        .error (.nestingTooDeep (margin raw).length (marginSpan raw offset)) :=
      of_content_eq_error_iff.2 ⟨hbody, .inr ⟨_, none, hlevel, Nat.not_le.1 hdeep, rfl⟩⟩
    rw [of_raw_cons_error herror] at hread
    cases hread
  obtain ⟨line, hline⟩ : ∃ line, ofContent (content raw) offset none = .ok (some line, none) :=
    ⟨_, of_content_eq_some_iff.2 ⟨hbody, _, hlevel, hdeep, rfl⟩⟩
  rw [of_raw_cons hline] at hread
  obtain ⟨others, hothers, rfl⟩ := map_eq_ok_iff.1 hread
  exact ⟨line, others, hline, hothers, rfl⟩

/-- A row that counts is read to the same effect when its tabs are replaced. -/
theorem exists_of_content_retab {offset : Nat} {line : Line} (hwidth : width = 2 ∨ width = 4)
    (h : Text.TabIndented raw) (hcounts : ¬ Text.Idle raw)
    (hline : ofContent (content raw) offset none = .ok (some line, none))
    (hunit : unit = some width ∨ unit = none ∧ line.indent ≤ 1) (offset' : Nat) :
    ∃ line' next, ofContent (content (Text.retab width raw)) offset' unit =
        .ok (some line', next) ∧ line'.unplaced = line.unplaced ∧
      (next = some width ∨ next = none ∧ unit = none ∧ line.indent = 0) := by
  obtain ⟨hbody, indent, hlevel, hdeep, rfl⟩ := of_content_eq_some_iff.1 hline
  rw [level_tab_indented h hcounts] at hlevel
  cases hlevel
  obtain ⟨hmargin, htext⟩ := parts_of_retab h hcounts width
  obtain ⟨next, hnext, hfixed⟩ := exists_level_spaces hwidth hunit
  rw [← hmargin] at hnext
  refine ⟨_, next, of_content_eq_some_iff.2 ⟨htext ▸ hbody, _, hnext, hdeep, rfl⟩, ?_, hfixed⟩
  rw [unplaced, unplaced, htext, words_from_unplaced _ _ _ (bodySpan raw offset).start]

/-- Rows that are indented by tabs are read to the same effect when their tabs are replaced. As long
as no unit is fixed, no row has been indented by spaces, so the next one is at most one level
deep. -/
theorem of_raw_retab (hwidth : width = 2 ∨ width = 4) {offset offset' : Nat} {lines : List Line}
    (htabs : ∀ row ∈ rows, Text.TabIndented row) (h : ofRaw rows offset none = .ok lines)
    (hunit : unit = some width ∨ unit = none ∧ Climbs 1 lines) :
    unplacedAll (ofRaw (rows.map (Text.retab width)) offset' unit) = unplacedAll (.ok lines) := by
  induction rows generalizing offset offset' unit lines with
  | nil =>
      cases h
      rfl
  | cons row rows ih =>
      obtain ⟨hrow, hrows⟩ := List.forall_mem_cons.1 htabs
      rw [List.map_cons]
      by_cases hidle : Text.Idle row
      · have hnew : content (Text.retab width row) = [] :=
          content_eq_nil_iff.2 (Text.idle_retab hidle)
        rw [of_raw_cons_of_nil (content_eq_nil_iff.2 hidle)] at h
        rw [of_raw_cons_of_nil hnew]
        exact ih hrows h hunit
      obtain ⟨line, others, hline, hothers, rfl⟩ := exists_of_tab_indented hrow hidle h
      have hopen : unit = some width ∨ unit = none ∧ line.indent ≤ 1 :=
        hunit.imp_right fun hopen => ⟨hopen.1, hopen.2.1⟩
      obtain ⟨line', next, hline', hsame, hfixed⟩ :=
        exists_of_content_retab hwidth hrow hidle hline hopen offset'
      have hunit' : next = some width ∨ next = none ∧ Climbs 1 others := by
        refine hfixed.imp_right fun hflat => ⟨hflat.1, ?_⟩
        obtain hwide | hopen := hunit
        · exact absurd (hwide.symm.trans hflat.2.1) (by simp)
        · have hclimbs : Climbs (line.indent + 1) others := hopen.2.2
          rwa [hflat.2.2] at hclimbs
      rw [of_raw_cons hline', unplaced_all_map, ih hrows hothers hunit', Option.map_some, hsame]
      exact (unplaced_all_map (some line) (.ok others)).symm

end Line

namespace Program

variable {rows : List (List Char)}

/-- The lines of a block climb, if those after it do. -/
theorem Parses.climbs {indent : Nat} {lines rest : List Line} {program : Program}
    (h : Parses indent lines program rest) (hrest : Line.Climbs indent rest) :
    Line.Climbs indent lines := by
  induction h with
  | done => exact hrest
  | simple hindent _ _ ih =>
      subst hindent
      exact ⟨Nat.le_refl _, (ih hrest).mono (Nat.le_succ _)⟩
  | loop hindent _ _ _ ihbody ihrest =>
      subst hindent
      exact ⟨Nat.le_refl _, ihbody ((ihrest hrest).mono (Nat.le_succ _))⟩
  | branch hindent _ _ _ _ ihtrue ihrest =>
      subst hindent
      exact ⟨Nat.le_refl _, ihtrue ((ihrest hrest).mono (Nat.le_succ _))⟩
  | branchElse hindent _ _ hnext _ _ _ _ ihtrue ihfalse ihrest =>
      subst hindent
      have hfalse := ihfalse ((ihrest hrest).mono (Nat.le_succ _))
      rw [← hnext] at hfalse
      exact ⟨Nat.le_refl _, ihtrue ⟨hnext.le.trans (Nat.le_succ _), hfalse⟩⟩

/-- Parsing the text with some rows goes by what counts of the rows, apart from places. -/
theorem parse_of_rows (h : ∀ row ∈ rows, '\n' ∉ row) :
    (parse (Text.ofRows rows)).mapError ParseError.unplaced =
      (Line.unplacedAll (Line.ofRaw rows 0 none)).bind ofLines := by
  rw [parse_unplaced, Text.ofRows, String.toList_ofList, Line.kept_lines h,
    ← Line.of_raw_unplaced rows 0]

/-- A text whose rows are laid out otherwise is read alike. -/
theorem parse_relaid {source : String} (h : Text.Relaid (Text.rows source) rows) :
    (parse (Text.ofRows rows)).mapError ParseError.unplaced =
      (parse source).mapError ParseError.unplaced := by
  have hsource := Text.not_mem_rows source
  conv_rhs => rw [← Text.of_rows_rows source]
  rw [parse_of_rows (h.not_mem hsource), parse_of_rows hsource,
    Line.of_raw_unplaced rows 0 0, Line.of_raw_unplaced (Text.rows source) 0 0, Line.kept_relaid h]

/-- A text that is read when it is indented by tabs is read alike when it is indented by spaces. -/
theorem parse_retab {source : String} {program : Program} {width : Nat}
    (hwidth : width = 2 ∨ width = 4) (htabs : ∀ row ∈ Text.rows source, Text.TabIndented row)
    (h : parse source = .ok program) :
    parse (Text.ofRows ((Text.rows source).map (Text.retab width))) = .ok program := by
  have hsource := Text.not_mem_rows source
  have hretab : ∀ row ∈ (Text.rows source).map (Text.retab width), '\n' ∉ row := by
    intro row hrow
    obtain ⟨old, hold, rfl⟩ := List.mem_map.1 hrow
    exact Text.not_mem_retab (hsource old hold)
  have hparse := parse_of_rows hsource
  rw [Text.of_rows_rows, h] at hparse
  cases hraw : Line.ofRaw (Text.rows source) 0 none with
  | error error =>
      rw [hraw] at hparse
      cases hparse
  | ok lines =>
      rw [hraw] at hparse
      have hlines : ofLines (lines.map Line.unplaced) = .ok program := hparse.symm
      have hclimbs : Line.Climbs 0 (lines.map Line.unplaced) :=
        (of_lines_eq_ok_iff.1 hlines).climbs trivial
      have hunit : none = some width ∨ (none : Option Nat) = none ∧ Line.Climbs 1 lines :=
        .inr ⟨rfl, (Line.climbs_unplaced hclimbs).mono (Nat.zero_le 1)⟩
      rw [← map_error_eq_ok_iff (f := ParseError.unplaced), parse_of_rows hretab,
        Line.of_raw_retab hwidth htabs hraw hunit]
      exact hlines

/-- Layout does not change meaning. A text whose rows are laid out otherwise is read as the same
program, or it is refused for the same reason, though the place may be another one. A text that is
indented by tabs is read as the same program when each tab is replaced by two or by four spaces. -/
theorem parse_relayout (source : String) :
    (∀ rows, Text.Relaid (Text.rows source) rows →
      (parse (Text.ofRows rows)).mapError ParseError.unplaced =
        (parse source).mapError ParseError.unplaced) ∧
    ∀ program, (∀ row ∈ Text.rows source, Text.TabIndented row) → parse source = .ok program →
      ∀ width, width = 2 ∨ width = 4 →
        parse (Text.ofRows ((Text.rows source).map (Text.retab width))) = .ok program :=
  ⟨fun _ h => parse_relaid h, fun _ htabs h _ hwidth => parse_retab hwidth htabs h⟩

/-- A loop around a branch, indented by tabs. -/
def tabText : String := "repeat 2\r\n\tif  # either way\n\t\tmove\n"

/-- The rows of the same text, with comments, blank rows and blanks at the ends of rows. -/
def spreadRows : List (List Char) :=
  ["# früh", "repeat 2 # zweimal\r", "\tif", "\u3000", "\t\tmove\u00a0", "", "\t# spät"].map
    String.toList

/-- The spread rows are an edit of those of the text with tabs. -/
theorem tab_text_relaid : Text.Relaid (Text.rows tabText) spreadRows := by
  have hrows : Text.rows tabText =
      ["repeat 2".toList ++ "\r".toList, "\tif".toList ++ "  # either way".toList,
        "\t\tmove".toList ++ [], [] ++ []] := by decide +kernel
  have hspread : spreadRows =
      ["# früh".toList, "repeat 2".toList ++ " # zweimal\r".toList, "\tif".toList ++ [],
        "\u3000".toList, "\t\tmove".toList ++ "\u00a0".toList, [] ++ [], "\t# spät".toList] := by
    decide +kernel
  rw [hrows, hspread]
  refine .insert (by decide) (by decide) (.row (by decide) (by decide) (by decide) ?_)
  refine .row (by decide) (by decide) (by decide) (.insert (by decide) (by decide) ?_)
  refine .row (by decide) (by decide) (by decide) (.row (by decide) (by decide) (by decide) ?_)
  exact .insert (by decide) (by decide) .done

/-- The edited text, and the text with two or four spaces for each tab, have the same program. -/
theorem tab_text_relayout :
    parse (Text.ofRows spreadRows) = .ok [.loop 2 [.branch none [.move] []]] ∧
      parse (Text.ofRows ((Text.rows tabText).map (Text.retab 2))) =
        .ok [.loop 2 [.branch none [.move] []]] ∧
      parse (Text.ofRows ((Text.rows tabText).map (Text.retab 4))) =
        .ok [.loop 2 [.branch none [.move] []]] := by
  have h : parse tabText = .ok [.loop 2 [.branch none [.move] []]] := by decide +kernel
  have htabs : ∀ row ∈ Text.rows tabText, Text.TabIndented row := by decide +kernel
  obtain ⟨hrelaid, hretab⟩ := parse_relayout tabText
  have hspread := hrelaid spreadRows tab_text_relaid
  rw [h, map_error_ok] at hspread
  exact ⟨map_error_eq_ok_iff.1 hspread, hretab _ htabs h 2 (.inl rfl), hretab _ htabs h 4 (.inr rfl)⟩

end Program

end TileCourse
