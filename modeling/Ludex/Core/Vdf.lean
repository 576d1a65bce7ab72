import Ludex.Lib.Lines
import Ludex.Lib.Text

/-!
# The VDF reader

`vdf.rs` reads the quoted pairs of a Valve VDF document line by line, without following its nesting.

A document is a tree of objects and pairs (`Node`), and `render` writes it as Steam does: a pair on
a line of its own, the name of an object on a line of its own with the braces on lines of theirs.
How each line is indented, spaced and ended is free (`Layout`). A rendered line gives the reader the
value of its pair and nothing else (`valueOfLine_body`), so the values of a key in a document are
those of all its pairs with that key, in order, at any depth.
-/

namespace Ludex

namespace Vdf

open Lines

/-! ### The reader -/

/-- `"key"`, with its quotes. -/
def quoted (key : List Char) : List Char := '"' :: (key ++ ['"'])

/-- `str::trim_start`. -/
def trimStart (s : List Char) : List Char := s.dropWhile Text.isWhiteSpace

/-- The value on a `"key" "value"` line. -/
def valueOfLine (key line : List Char) : Option (List Char) := do
  let rest ← Text.stripPrefix (quoted key) (trimStart line)
  let afterOpen ← Text.stripPrefix ['"'] (trimStart rest)
  let (value, _) ← Text.splitOnce ['"'] afterOpen
  return value

/-- Every value on a `"key" "value"` line. -/
def valuesForKey (content key : List Char) : List (List Char) :=
  (textLines content).filterMap (valueOfLine key)

/-- The first value of the key. -/
def parseTopLevelString (content key : List Char) : Option (List Char) :=
  (valuesForKey content key).head?

/-- The first value of the key, as a `u64`. -/
def parseTopLevelU64 (content key : List Char) : Option ℕ :=
  (parseTopLevelString content key).bind (Text.parseUnsigned 64)

/-- Every value of the key, in document order. -/
def parseAllValues (content key : List Char) : List (List Char) := valuesForKey content key

/-! ### Documents -/

/-- Text that can stand between double quotes on a line. -/
structure Quotable where
  chars : List Char
  no_quote : '"' ∉ chars
  no_break : '\n' ∉ chars

/-- White space inside a line. -/
structure Blank where
  chars : List Char
  white : ∀ c ∈ chars, Text.isWhiteSpace c = true ∧ c ≠ '\n' ∧ c ≠ '\r'

/-- How a line is written. -/
structure Layout where
  indent : Blank
  /-- Between the key and the value of a pair. -/
  gap : Blank
  trail : Blank
  lineEnd : LineEnd

/-- A pair, or an object with its members. -/
inductive Node where
  | pair (key value : Quotable)
  | object (name : Quotable) (members : List Node)

/-- What stands on a line. -/
inductive Line where
  | pair (key value : Quotable)
  | header (name : Quotable)
  | opening
  | closing

mutual

/-- The lines of a node. -/
def Node.lines : Node → List Line
  | .pair key value => [.pair key value]
  | .object name members => .header name :: .opening :: (linesOf members ++ [.closing])

/-- The lines of a sequence of nodes. -/
def linesOf : List Node → List Line
  | [] => []
  | node :: rest => node.lines ++ linesOf rest

end

mutual

/-- The pairs of a node, at any depth. -/
def Node.pairs : Node → List (Quotable × Quotable)
  | .pair key value => [(key, value)]
  | .object _ members => pairsOf members

/-- The pairs of a sequence of nodes, at any depth. -/
def pairsOf : List Node → List (Quotable × Quotable)
  | [] => []
  | node :: rest => node.pairs ++ pairsOf rest

end

/-- A line without its end. -/
def Line.body (layout : Layout) : Line → List Char
  | .pair key value =>
    layout.indent.chars ++
      (quoted key.chars ++ (layout.gap.chars ++ (quoted value.chars ++ layout.trail.chars)))
  | .header name => layout.indent.chars ++ (quoted name.chars ++ layout.trail.chars)
  | .opening => layout.indent.chars ++ ('{' :: layout.trail.chars)
  | .closing => layout.indent.chars ++ ('}' :: layout.trail.chars)

/-- Write lines, of which the first is the `i`-th of the document. The last one may have no end. -/
def renderLines (layouts : ℕ → Layout) (ended : Bool) : ℕ → List Line → List Char
  | _, [] => []
  | i, [line] => line.body (layouts i) ++ (if ended then (layouts i).lineEnd.chars else [])
  | i, line :: line' :: rest =>
    line.body (layouts i) ++
      ((layouts i).lineEnd.chars ++ renderLines layouts ended (i + 1) (line' :: rest))

/-- The text of a document. -/
def render (layouts : ℕ → Layout) (ended : Bool) (doc : List Node) : List Char :=
  renderLines layouts ended 0 (linesOf doc)

/-- The values of the pairs that have the key. -/
def valuesOf (key : List Char) (pairs : List (Quotable × Quotable)) : List (List Char) :=
  pairs.filterMap fun (key', value) => if key'.chars = key then some value.chars else none

/-! ### One line -/

/-- The pair on a line. -/
def Line.asPair : Line → Option (Quotable × Quotable)
  | .pair key value => some (key, value)
  | _ => none

@[simp] theorem Line.asPair_pair (key value : Quotable) :
    (Line.pair key value).asPair = some (key, value) := rfl

@[simp] theorem Line.asPair_header (name : Quotable) : (Line.header name).asPair = none := rfl

@[simp] theorem Line.asPair_opening : Line.opening.asPair = none := rfl

@[simp] theorem Line.asPair_closing : Line.closing.asPair = none := rfl

theorem trimStart_blank (blank : Blank) {c : Char} (h : Text.isWhiteSpace c = false)
    (rest : List Char) :
    trimStart (blank.chars ++ c :: rest) = c :: rest := by
  unfold trimStart
  rw [List.dropWhile_append_of_pos fun d hd => (blank.white d hd).1, List.dropWhile_cons, h]
  rfl

theorem trimStart_blank_end (blank : Blank) : trimStart blank.chars = [] :=
  List.dropWhile_eq_nil_iff.mpr fun d hd => (blank.white d hd).1

/-- **A quoted key** is stripped where it is the one that stands there. -/
theorem stripPrefix_quoted {k key : List Char} (hk : '"' ∉ k) (h_key : '"' ∉ key)
    (rest : List Char) :
    Text.stripPrefix (quoted k) (quoted key ++ rest) = if key = k then some rest else none := by
  split
  next h_eq => rw [h_eq, Text.stripPrefix_append]
  next h_ne =>
    cases h_strip : Text.stripPrefix (quoted k) (quoted key ++ rest) with
    | none => rfl
    | some tail =>
      -- both keys are what stands before the next quote
      have h_eq := Text.eq_append_of_stripPrefix h_strip
      simp only [quoted, List.cons_append, List.append_assoc, List.nil_append] at h_eq
      injection h_eq with _ h_eq
      have h_split := Text.splitOnce_singleton h_key rest
      rw [h_eq, Text.splitOnce_singleton hk tail] at h_split
      exact absurd (Prod.mk.inj (Option.some.inj h_split)).1.symm h_ne

/-- A key whose line goes on with a blank and nothing else has no value. -/
theorem stripPrefix_quote_blank (blank : Blank) :
    Text.stripPrefix ['"'] (trimStart blank.chars) = none := by
  rw [trimStart_blank_end]
  rfl

theorem stripPrefix_quoted_brace (k : List Char) {c : Char} (h : c ≠ '"') (rest : List Char) :
    Text.stripPrefix (quoted k) (c :: rest) = none := by
  unfold Text.stripPrefix quoted
  refine if_neg fun h_quoted => ?_
  exact h (List.cons_prefix_cons.mp (List.isPrefixOf_iff_prefix.mp h_quoted)).1.symm

/-- **A rendered line** gives the value of its pair, if it is one with the key. -/
theorem valueOfLine_body {k : List Char} (hk : '"' ∉ k) (layout : Layout) (line : Line) :
    valueOfLine k (line.body layout) = (valuesOf k line.asPair.toList).head? := by
  unfold valueOfLine
  cases line with
  | pair key value =>
    have h_line : trimStart (Line.body layout (.pair key value)) = quoted key.chars ++
        (layout.gap.chars ++ (quoted value.chars ++ layout.trail.chars)) :=
      trimStart_blank layout.indent rfl _
    have h_value : trimStart (layout.gap.chars ++ (quoted value.chars ++ layout.trail.chars)) =
        quoted value.chars ++ layout.trail.chars :=
      trimStart_blank layout.gap rfl _
    have h_close : Text.splitOnce ['"'] (value.chars ++ '"' :: layout.trail.chars) =
        some (value.chars, layout.trail.chars) :=
      Text.splitOnce_singleton value.no_quote _
    have h_open : Text.stripPrefix ['"'] (quoted value.chars ++ layout.trail.chars) =
        some (value.chars ++ '"' :: layout.trail.chars) := by
      rw [quoted, List.cons_append, List.append_assoc]
      exact Text.stripPrefix_append ['"'] _
    rw [h_line, stripPrefix_quoted hk key.no_quote]
    simp only [valuesOf, Line.asPair, Option.toList_some, List.filterMap_cons, List.filterMap_nil]
    by_cases h_eq : key.chars = k
    · simp [h_eq, h_value, h_open, h_close]
    · simp [h_eq]
  | header name =>
    have h_line : trimStart (Line.body layout (.header name)) =
        quoted name.chars ++ layout.trail.chars := trimStart_blank layout.indent rfl _
    rw [h_line, stripPrefix_quoted hk name.no_quote]
    -- behind the name of an object nothing is left to read
    by_cases h_eq : name.chars = k
    · rw [if_pos h_eq, Option.bind_eq_bind, Option.bind_some, stripPrefix_quote_blank]
      rfl
    · rw [if_neg h_eq]
      rfl
  | opening =>
    have h_line : trimStart (Line.body layout .opening) = '{' :: layout.trail.chars :=
      trimStart_blank layout.indent rfl _
    rw [h_line, stripPrefix_quoted_brace k (by decide)]
    rfl
  | closing =>
    have h_line : trimStart (Line.body layout .closing) = '}' :: layout.trail.chars :=
      trimStart_blank layout.indent rfl _
    rw [h_line, stripPrefix_quoted_brace k (by decide)]
    rfl

/-! ### All lines -/

theorem Blank.lf_notMem (blank : Blank) : '\n' ∉ blank.chars :=
  fun h => (blank.white _ h).2.1 rfl

theorem lf_notMem_quoted (text : Quotable) : '\n' ∉ quoted text.chars := by
  unfold quoted
  simp [text.no_break]

/-- A line is some text without a line feed, a quote or a brace, and the blank behind it. -/
theorem Line.exists_body_eq (layout : Layout) (line : Line) :
    ∃ text c, line.body layout = text ++ c :: layout.trail.chars ∧
      '\n' ∉ text ∧ c ≠ '\n' ∧ c ≠ '\r' := by
  have h_indent := layout.indent.lf_notMem
  -- every line ends in a quote or a brace, behind which only the layout's own blanks come
  cases line with
  | pair key value =>
    refine ⟨layout.indent.chars ++ (quoted key.chars ++ (layout.gap.chars ++ '"' :: value.chars)),
      '"', ?_, ?_, by decide, by decide⟩
    · simp [Line.body, quoted]
    · simp [h_indent, lf_notMem_quoted key, layout.gap.lf_notMem, value.no_break]
  | header name =>
    refine ⟨layout.indent.chars ++ '"' :: name.chars, '"', ?_, ?_, by decide, by decide⟩
    · simp [Line.body, quoted]
    · simp [h_indent, name.no_break]
  | opening => exact ⟨layout.indent.chars, '{', rfl, h_indent, by decide, by decide⟩
  | closing => exact ⟨layout.indent.chars, '}', rfl, h_indent, by decide, by decide⟩

theorem Line.lf_notMem_body (layout : Layout) (line : Line) : '\n' ∉ line.body layout := by
  obtain ⟨text, c, h_eq, h_text, h_c, -⟩ := line.exists_body_eq layout
  rw [h_eq, List.mem_append, List.mem_cons, not_or, not_or]
  exact ⟨h_text, h_c.symm, layout.trail.lf_notMem⟩

theorem Line.body_getLast?_ne (layout : Layout) (line : Line) :
    (line.body layout).getLast? ≠ some '\r' := by
  obtain ⟨text, c, h_eq, -, -, h_c⟩ := line.exists_body_eq layout
  rw [h_eq, List.getLast?_append_cons]
  intro h_last
  -- the last character is the one before the blank, or one of the blank
  rcases List.mem_cons.mp (List.mem_of_getLast? h_last) with h_cr | h_mem
  · exact h_c h_cr.symm
  · exact (layout.trail.white _ h_mem).2.2 rfl

theorem Line.body_ne_nil (layout : Layout) (line : Line) : line.body layout ≠ [] := by
  obtain ⟨text, c, h_eq, -⟩ := line.exists_body_eq layout
  rw [h_eq]
  exact List.append_ne_nil_of_right_ne_nil text (List.cons_ne_nil c _)

/-- What a line gives the reader is at most one value. -/
theorem head?_valuesOf_asPair (k : List Char) (line : Line) :
    (valuesOf k line.asPair.toList).head?.toList = valuesOf k line.asPair.toList := by
  cases line.asPair with
  | none => rfl
  | some pair =>
    simp only [valuesOf, Option.toList_some, List.filterMap_cons, List.filterMap_nil]
    split
    · rfl
    · rfl

theorem valuesOf_append (k : List Char) (ps qs : List (Quotable × Quotable)) :
    valuesOf k (ps ++ qs) = valuesOf k ps ++ valuesOf k qs := List.filterMap_append

theorem filterMap_valueOfLine_cons {k : List Char} (hk : '"' ∉ k) (layout : Layout) (line : Line)
    (rest : List (List Char)) :
    (line.body layout :: rest).filterMap (valueOfLine k) =
      valuesOf k line.asPair.toList ++ rest.filterMap (valueOfLine k) := by
  rw [← head?_valuesOf_asPair, ← valueOfLine_body hk layout line, List.filterMap_cons]
  cases valueOfLine k (line.body layout) with
  | none => rfl
  | some value => rfl

/-- **Written lines** give the reader the values of their pairs, in order. -/
theorem valuesForKey_renderLines (layouts : ℕ → Layout) (ended : Bool) {k : List Char}
    (hk : '"' ∉ k) (lines : List Line) (i : ℕ) :
    valuesForKey (renderLines layouts ended i lines) k =
      valuesOf k (lines.flatMap fun line => line.asPair.toList) := by
  unfold valuesForKey
  -- on the lines, the last of which may have no end
  induction lines generalizing i with
  | nil => rfl
  | cons line rest ih =>
    have h_lf := line.lf_notMem_body (layouts i)
    have h_cr := line.body_getLast?_ne (layouts i)
    rw [List.flatMap_cons, valuesOf_append]
    cases rest with
    | nil =>
      have h_lines : textLines (renderLines layouts ended i [line]) = [line.body (layouts i)] := by
        rw [renderLines]
        cases ended with
        | true =>
          rw [if_pos rfl, ← List.append_nil (LineEnd.chars _), textLines_line h_lf h_cr]
          rfl
        | false =>
          rw [if_neg Bool.false_ne_true, List.append_nil,
            textLines_last h_lf (line.body_ne_nil (layouts i))]
      rw [h_lines, filterMap_valueOfLine_cons hk]
      rfl
    | cons line' rest =>
      rw [renderLines, textLines_line h_lf h_cr, filterMap_valueOfLine_cons hk, ih (i + 1)]

mutual

/-- The pairs on the lines of a node are its pairs. -/
theorem Node.pairs_lines (node : Node) :
    (node.lines.flatMap fun line => line.asPair.toList) = node.pairs := by
  cases node with
  | pair key value => simp [Node.lines, Node.pairs]
  | object name members => simp [Node.lines, Node.pairs, pairsOf_linesOf members]

theorem pairsOf_linesOf (nodes : List Node) :
    ((linesOf nodes).flatMap fun line => line.asPair.toList) = pairsOf nodes := by
  cases nodes with
  | nil => simp [linesOf, pairsOf]
  | cons node rest => simp [linesOf, pairsOf, node.pairs_lines, pairsOf_linesOf rest]

end

/-- **The reader recovers every pair** of a rendered document. -/
theorem parseAllValues_render (layouts : ℕ → Layout) (ended : Bool) (doc : List Node) {k : List Char}
    (hk : '"' ∉ k) :
    parseAllValues (render layouts ended doc) k = valuesOf k (pairsOf doc) ∧
      parseTopLevelString (render layouts ended doc) k = (valuesOf k (pairsOf doc)).head? ∧
      parseTopLevelU64 (render layouts ended doc) k =
        (valuesOf k (pairsOf doc)).head?.bind (Text.parseUnsigned 64) := by
  -- the values of a key are those of its pairs, in their order
  have h_values : valuesForKey (render layouts ended doc) k = valuesOf k (pairsOf doc) := by
    unfold render
    rw [valuesForKey_renderLines layouts ended hk, pairsOf_linesOf]
  refine ⟨h_values, ?_, ?_⟩
  · rw [parseTopLevelString, h_values]
  · rw [parseTopLevelU64, parseTopLevelString, h_values]

/-- The layout Steam writes: tabs, and line feeds. -/
def steamLayout : Layout where
  indent := ⟨['\t'], List.forall_mem_singleton.mpr (by decide)⟩
  gap := ⟨['\t', '\t'], List.forall_mem_cons.mpr ⟨by decide, List.forall_mem_singleton.mpr (by decide)⟩⟩
  trail := ⟨[], List.forall_mem_nil _⟩
  lineEnd := .lf

/-- An index of libraries, with an object that is called like the key of a pair in it. -/
def libraryIndex : List Node :=
  [.object ⟨"libraryfolders".toList, by decide, by decide⟩
    [.object ⟨"0".toList, by decide, by decide⟩
      [.pair ⟨"path".toList, by decide, by decide⟩ ⟨"/mnt/games".toList, by decide, by decide⟩,
        .pair ⟨"label".toList, by decide, by decide⟩ ⟨[], by decide, by decide⟩],
      .object ⟨"path".toList, by decide, by decide⟩
        [.pair ⟨"path".toList, by decide, by decide⟩ ⟨"path".toList, by decide, by decide⟩]]]

theorem parseAllValues_render_libraryIndex :
    '"' ∉ "path".toList ∧
      parseAllValues (render (fun _ => steamLayout) true libraryIndex) "path".toList =
        ["/mnt/games".toList, "path".toList] := by
  have h_key : '"' ∉ "path".toList := by decide
  exact ⟨h_key, (parseAllValues_render (fun _ => steamLayout) true libraryIndex h_key).1⟩

end Vdf

end Ludex
