import Mathlib.Data.Nat.Digits.Defs
import Ludex.Lib.Lines
import Ludex.Daemon.Proc.Tree

/-!
# The graphics libraries of a process

`maps.rs` reads which graphics stacks a process has loaded from the names of the files mapped into it.
The lines of `/proc/<pid>/maps` have five fields and then a name, padded with blanks, or nothing.

A `Mapping` is what the kernel writes a line about. What is parsed from a document is, for each stack,
whether a mapping has a name that counts for it (`parse_document`). Where the names are those of files,
a file counts by its own name without its directory, whatever its case and whatever is in the path
(`graphics_of_files`). Three things are done to a path before it is looked at: a line feed is written as
`\012`, blanks at the end are trimmed, and the kernel says behind the name of a deleted file that it is
deleted. The tests of how a name begins, or of what is in it, see none of this, since their words are
plain; but a deleted file is no longer one of the exact names of Direct3D.
-/

namespace Ludex

namespace Maps

open Lines

/-! ### Parsing -/

/-- The pathname column is everything past the fifth field. There is none for anonymous mappings. -/
def pathnameColumn (line : List Char) : Option (List Char) :=
  match (Text.splitN Text.isWhiteSpace 6 line).filter fun field => field ≠ [] with
  | _ :: _ :: _ :: _ :: _ :: tail :: _ =>
    let tail := Text.trimMatches Text.isWhiteSpace tail
    if tail = [] then none else some tail
  | _ => none

/-- `Path::file_name`. -/
def fileName (path : List Char) : Option (List Char) :=
  match ((path.splitOn '/').filter fun part => part ≠ [] ∧ part ≠ ['.']).getLast? with
  | some part => if part = ['.', '.'] then none else some part
  | none => none

/-- The name that is looked at. -/
def libraryName (path : List Char) : List Char := ((fileName path).getD path).map Char.toLower

def isOpengl (name : List Char) : Bool :=
  "libgl.so".toList.isPrefixOf name || "libglx.so".toList.isPrefixOf name ||
    "libegl.so".toList.isPrefixOf name

def isVulkan (name : List Char) : Bool := "libvulkan.so".toList.isPrefixOf name

def isSdl (name : List Char) : Bool := "libsdl".toList.isPrefixOf name

/-- DXVK, VKD3D and wined3d. -/
def isTranslation (name : List Char) : Bool :=
  decide ("dxvk".toList <:+: name) || decide ("vkd3d".toList <:+: name) ||
    decide ("wined3d".toList <:+: name)

/-- Wine's own libraries. -/
def builtins : List (List Char) :=
  ["d3d8.dll", "d3d9.dll", "d3d10.dll", "d3d11.dll", "d3d12.dll", "dxgi.dll"].map String.toList

def isDirectx (name : List Char) : Bool := isTranslation name || builtins.contains name

def classify (path : List Char) (g : GraphicsLibraries) : GraphicsLibraries :=
  let name := libraryName path
  { opengl := isOpengl name || g.opengl
    vulkan := isVulkan name || g.vulkan
    sdl := isSdl name || g.sdl
    directxViaProton := isDirectx name || g.directxViaProton }

/-- Parse a `/proc/<pid>/maps` document. -/
def parse (maps : List Char) : GraphicsLibraries :=
  (textLines maps).foldl (fun g line =>
    match pathnameColumn line with
    | none => g
    | some path => classify path g) {}

/-- Read the document of a process, if it can be read as text. -/
def read (content : Option (List UInt8)) : Option GraphicsLibraries :=
  (content.bind decode).map parse

example : parse "7f00-7f01 r-xp 00000000 fd:01 1                 /usr/lib/libGL.so.1\n".toList =
    { opengl := true } := by decide +kernel

/-! ### What the kernel writes -/

/-- A number in at least `width` hexadecimal digits. -/
def hex (width n : ℕ) : List Char :=
  ((Nat.digits 16 n).reverse.map Nat.digitChar).leftpad width '0'

/-- A mapping. -/
structure Mapping where
  start : UInt64
  stop : UInt64
  readable : Bool
  writable : Bool
  executable : Bool
  shared : Bool
  offset : UInt64
  major : ℕ
  minor : ℕ
  inode : UInt64
  /-- The blanks before the name. -/
  padding : ℕ
  /-- Empty for memory without a name. -/
  name : List Char

namespace Mapping

def perms (m : Mapping) : List Char :=
  [if m.readable then 'r' else '-', if m.writable then 'w' else '-',
    if m.executable then 'x' else '-', if m.shared then 's' else 'p']

/-- The five fields. -/
def fields (m : Mapping) : List (List Char) :=
  [hex 8 m.start.toNat ++ '-' :: hex 8 m.stop.toNat, m.perms, hex 8 m.offset.toNat,
    hex 2 m.major ++ ':' :: hex 2 m.minor, Nat.toDigits 10 m.inode.toNat]

/-- A line feed in a name is written `\012`. -/
def escape (name : List Char) : List Char :=
  name.flatMap fun c => if c = '\n' then ['\\', '0', '1', '2'] else [c]

/-- The line without its end. -/
def line (m : Mapping) : List Char :=
  m.fields.flatMap (fun field => field ++ [' ']) ++ (List.replicate m.padding ' ' ++ escape m.name)

end Mapping

/-- `/proc/<pid>/maps`. -/
def document (ms : List Mapping) : List Char := ms.flatMap fun m => m.line ++ ['\n']

/-! ### Reading it back -/

theorem isWhiteSpace_of_mem_hex {width n : ℕ} {c : Char} (h : c ∈ hex width n) :
    Text.isWhiteSpace c = false := by
  have h_digits : ∀ k < 16, Text.isWhiteSpace (Nat.digitChar k) = false := by decide
  unfold hex List.leftpad at h
  rcases List.mem_append.mp h with h | h
  · rw [List.eq_of_mem_replicate h]
    decide
  · obtain ⟨k, hk, rfl⟩ := List.mem_map.mp h
    exact h_digits k (Nat.digits_lt_base (by decide) (List.mem_reverse.mp hk))

theorem hex_ne_nil {width : ℕ} (h : 0 < width) (n : ℕ) : hex width n ≠ [] := by
  have h_length : 0 < (hex width n).length := by
    unfold hex
    rw [List.length_leftpad]
    exact lt_max_of_lt_left h
  exact List.ne_nil_of_length_pos h_length

namespace Mapping

variable (m : Mapping)

theorem isWhiteSpace_of_mem_perms {c : Char} (h : c ∈ m.perms) : Text.isWhiteSpace c = false := by
  have h_flag : ∀ (b : Bool) (x y : Char), Text.isWhiteSpace x = false → Text.isWhiteSpace y = false →
      Text.isWhiteSpace (if b then x else y) = false := by
    intro b x y hx hy
    cases b
    · exact hy
    · exact hx
  simp only [perms, List.mem_cons, List.not_mem_nil, or_false] at h
  rcases h with rfl | rfl | rfl | rfl <;> exact h_flag _ _ _ (by decide) (by decide)

/-- **A field** is a word. -/
theorem isWord_of_mem_fields {field : List Char} (h : field ∈ m.fields) :
    field ≠ [] ∧ ∀ c ∈ field, Text.isWhiteSpace c = false := by
  -- two numbers with a sign between them
  have h_pair : ∀ (width a b : ℕ) (sign : Char), Text.isWhiteSpace sign = false →
      ∀ c ∈ hex width a ++ sign :: hex width b, Text.isWhiteSpace c = false := by
    intro width a b sign h_sign c hc
    rcases List.mem_append.mp hc with hc | hc
    · exact isWhiteSpace_of_mem_hex hc
    · rcases List.mem_cons.mp hc with rfl | hc
      · exact h_sign
      · exact isWhiteSpace_of_mem_hex hc
  simp only [fields, List.mem_cons, List.not_mem_nil, or_false] at h
  rcases h with rfl | rfl | rfl | rfl | rfl
  · exact ⟨List.append_ne_nil_of_right_ne_nil _ (List.cons_ne_nil _ _), h_pair 8 _ _ '-' (by decide)⟩
  · exact ⟨List.cons_ne_nil _ _, fun c hc => m.isWhiteSpace_of_mem_perms hc⟩
  · exact ⟨hex_ne_nil (by decide) _, fun c hc => isWhiteSpace_of_mem_hex hc⟩
  · exact ⟨List.append_ne_nil_of_right_ne_nil _ (List.cons_ne_nil _ _), h_pair 2 _ _ ':' (by decide)⟩
  · exact ⟨Nat.toDigits_ne_nil, fun c hc =>
      ProcTree.isWhiteSpace_of_isDigit (Nat.isDigit_of_mem_toDigits (by decide) (by decide) hc)⟩

/-- What is read of the name. -/
def column : Option (List Char) :=
  let tail := Text.trimMatches Text.isWhiteSpace (escape m.name)
  if tail = [] then none else some tail

/-- **Behind the fields** there is the name, with blanks around it. -/
theorem pathnameColumn_fields (rest : List Char) :
    pathnameColumn (m.fields.flatMap (fun field => field ++ [' ']) ++ rest) =
      let tail := Text.trimMatches Text.isWhiteSpace rest
      if tail = [] then none else some tail := by
  -- the first five pieces are the fields, and the sixth is all that is left
  have h_split : Text.splitN Text.isWhiteSpace 6
      (m.fields.flatMap (fun field => field ++ [' ']) ++ rest) = m.fields ++ [rest] :=
    Text.splitN_fields (by decide) (fun field hf => (m.isWord_of_mem_fields hf).2) rest
  have h_filter : (m.fields ++ [rest]).filter (fun field => field ≠ []) =
      m.fields ++ [rest].filter fun field => field ≠ [] := by
    rw [List.filter_append, List.filter_eq_self.mpr fun field hf =>
      decide_eq_true (m.isWord_of_mem_fields hf).1]
  unfold pathnameColumn
  rw [h_split, h_filter]
  -- without a name there is no sixth field, and with one it is trimmed
  by_cases h_rest : rest = []
  · subst h_rest
    rfl
  · have h_one : [rest].filter (fun field => field ≠ []) = [rest] :=
      List.filter_eq_self.mpr (by simpa using h_rest)
    rw [h_one]
    rfl

theorem newline_notMem_line : '\n' ∉ m.line := by
  unfold line
  rw [List.mem_append, List.mem_append, not_or, not_or]
  refine ⟨fun h => ?_, fun h => absurd (List.eq_of_mem_replicate h) (by decide), fun h => ?_⟩
  · obtain ⟨field, h_field, h⟩ := List.mem_flatMap.mp h
    rcases List.mem_append.mp h with h | h
    · exact absurd ((m.isWord_of_mem_fields h_field).2 _ h) (by decide)
    · exact absurd (List.mem_singleton.mp h) (by decide)
  · unfold escape at h
    obtain ⟨c, -, h⟩ := List.mem_flatMap.mp h
    split at h
    · exact absurd h (by decide)
    next h_ne => exact h_ne (List.mem_singleton.mp h).symm

/-- **The name is read back**, trimmed, whether or not a carriage return at the end of the line has been
taken for a part of its end. -/
theorem pathnameColumn_withoutEnd : pathnameColumn (withoutEnd (m.line ++ ['\n'])) = m.column := by
  have h_blanks : ∀ c ∈ List.replicate m.padding ' ', Text.isWhiteSpace c = true := by
    intro c hc
    rw [List.eq_of_mem_replicate hc]
    decide
  -- the blanks before the name are trimmed with it
  have h_trim := Text.trimMatches_append_left h_blanks (escape m.name)
  have h_front : '\r' ∉ m.fields.flatMap fun field => field ++ [' '] := by
    intro h
    obtain ⟨field, h_field, h⟩ := List.mem_flatMap.mp h
    rcases List.mem_append.mp h with h | h
    · exact absurd ((m.isWord_of_mem_fields h_field).2 _ h) (by decide)
    · exact absurd (List.mem_singleton.mp h) (by decide)
  -- a carriage return at the end of the line can only be one of the name's, which is trimmed too
  unfold withoutEnd column
  rw [Text.stripSuffix_append, ← h_trim]
  simp only
  cases h_strip : Text.stripSuffix ['\r'] m.line with
  | none => exact m.pathnameColumn_fields _
  | some before =>
    have h_line : m.fields.flatMap (fun field => field ++ [' ']) ++
        (List.replicate m.padding ' ' ++ escape m.name) = before ++ ['\r'] :=
      Text.eq_append_of_stripSuffix h_strip
    generalize List.replicate m.padding ' ' ++ escape m.name = rest at h_line ⊢
    cases rest using List.reverseRecOn with
    | nil =>
      rw [List.append_nil] at h_line
      exact absurd (h_line ▸ List.mem_append_right _ List.mem_cons_self) h_front
    | append_singleton rest c =>
      rw [← List.append_assoc] at h_line
      obtain ⟨rfl, h_c⟩ := List.append_inj' h_line rfl
      obtain rfl := List.head_eq_of_cons_eq h_c
      rw [Text.trimMatches_concat (by decide)]
      exact m.pathnameColumn_fields rest

end Mapping

/-- **The names of a document** are those of its mappings. -/
theorem filterMap_document (ms : List Mapping) :
    (textLines (document ms)).filterMap pathnameColumn = ms.filterMap Mapping.column := by
  induction ms with
  | nil => rfl
  | cons m ms ih =>
    have h_pieces : splitInclusive '\n' (document (m :: ms)) =
        (m.line ++ ['\n']) :: splitInclusive '\n' (document ms) := by
      unfold document
      rw [List.flatMap_cons, List.append_assoc]
      exact splitInclusive_line m.newline_notMem_line _
    unfold textLines at ih ⊢
    rw [h_pieces, List.map_cons, List.filterMap_cons, List.filterMap_cons,
      m.pathnameColumn_withoutEnd, ih]

/-! ### What is found -/

/-- The name of a mapping counts. -/
def Mapping.Counts (counts : List Char → Bool) (m : Mapping) : Prop :=
  ∃ path, m.column = some path ∧ counts (libraryName path) = true

theorem foldl_classify (lines : List (List Char)) (g : GraphicsLibraries) :
    lines.foldl (fun g line =>
      match pathnameColumn line with
      | none => g
      | some path => classify path g) g =
      (lines.filterMap pathnameColumn).foldl (fun g path => classify path g) g := by
  induction lines generalizing g with
  | nil => rfl
  | cons line lines ih =>
    rw [List.foldl_cons, List.filterMap_cons]
    cases pathnameColumn line with
    | none => exact ih g
    | some path => exact ih (classify path g)

/-- A stack is found if it was, or if a name counts for it. -/
theorem found_iff {stack : GraphicsLibraries → Bool} {counts : List Char → Bool}
    (h : ∀ path g, stack (classify path g) = (counts (libraryName path) || stack g))
    (paths : List (List Char)) (g : GraphicsLibraries) :
    stack (paths.foldl (fun g path => classify path g) g) = true ↔
      stack g = true ∨ ∃ path ∈ paths, counts (libraryName path) = true := by
  induction paths generalizing g with
  | nil => simp
  | cons path paths ih =>
    rw [List.foldl_cons, ih, h, Bool.or_eq_true, List.exists_mem_cons_iff, or_assoc, or_left_comm]

theorem stack_document (stack : GraphicsLibraries → Bool) (counts : List Char → Bool)
    (h : ∀ path g, stack (classify path g) = (counts (libraryName path) || stack g))
    (h_none : stack {} = false) (ms : List Mapping) :
    stack (parse (document ms)) = true ↔ ∃ m ∈ ms, m.Counts counts := by
  unfold parse
  rw [foldl_classify, filterMap_document, found_iff h, h_none]
  simp only [Bool.false_eq_true, false_or, List.mem_filterMap, Mapping.Counts]
  refine ⟨?_, ?_⟩
  · rintro ⟨path, ⟨m, hm, h_path⟩, h_counts⟩
    exact ⟨m, hm, path, h_path, h_counts⟩
  · rintro ⟨m, hm, path, h_path, h_counts⟩
    exact ⟨path, ⟨m, hm, h_path⟩, h_counts⟩

/-- **A document** says which stacks have a mapping that counts for them. -/
theorem parse_document (ms : List Mapping) :
    ((parse (document ms)).opengl = true ↔ ∃ m ∈ ms, m.Counts isOpengl) ∧
    ((parse (document ms)).vulkan = true ↔ ∃ m ∈ ms, m.Counts isVulkan) ∧
    ((parse (document ms)).sdl = true ↔ ∃ m ∈ ms, m.Counts isSdl) ∧
    ((parse (document ms)).directxViaProton = true ↔ ∃ m ∈ ms, m.Counts isDirectx) :=
  ⟨stack_document GraphicsLibraries.opengl isOpengl (fun _ _ => rfl) rfl ms,
    stack_document GraphicsLibraries.vulkan isVulkan (fun _ _ => rfl) rfl ms,
    stack_document GraphicsLibraries.sdl isSdl (fun _ _ => rfl) rfl ms,
    stack_document GraphicsLibraries.directxViaProton isDirectx (fun _ _ => rfl) rfl ms⟩

/-! ### Files -/

/-- What is left of a file's name behind the directory. A line feed is not trimmed, being escaped. -/
def written (base : List Char) : List Char := (Mapping.escape base).rdropWhile Text.isWhiteSpace

/-- A file. -/
structure MappedFile where
  /-- Empty for the root. -/
  dir : List Char
  base : List Char
  absolute : ∀ c ∈ dir.head?, c = '/'
  isName : '/' ∉ base
  /-- There is more in the name than blanks behind nothing, a dot or two dots. -/
  isWritten : written base ≠ [] ∧ written base ≠ ['.'] ∧ written base ≠ ['.', '.']

/-- What is mapped. -/
inductive Backing where
  | unnamed
  /-- `[heap]`, `[stack]` and the like. -/
  | special (label : List Char) (h : '/' ∉ label ∧ '\n' ∉ label)
  | file (f : MappedFile)
  | deleted (f : MappedFile)

namespace Backing

/-- The name in the line. -/
def name : Backing → List Char
  | unnamed => []
  | special label _ => '[' :: (label ++ [']'])
  | file f => f.dir ++ '/' :: f.base
  | deleted f => f.dir ++ '/' :: (f.base ++ " (deleted)".toList)

/-- What is read of the name, without the directory. -/
def shown : Backing → Option (List Char)
  | unnamed => none
  | special label _ => some ('[' :: (label ++ [']']))
  | file f => some (written f.base)
  | deleted f => some (Mapping.escape f.base ++ " (deleted)".toList)

/-- The name without the directory and without what the kernel adds to it. -/
def label : Backing → Option (List Char)
  | unnamed => none
  | special label _ => some ('[' :: (label ++ [']']))
  | file f | deleted f => some f.base

/-- The file, deleted or not. -/
def file? : Backing → Option MappedFile
  | unnamed | special _ _ => none
  | file f | deleted f => some f

end Backing

theorem fileName_append {base : List Char}
    (h : base ≠ [] ∧ base ≠ ['.'] ∧ base ≠ ['.', '.'] ∧ '/' ∉ base) (dir : List Char) :
    fileName (dir ++ '/' :: base) = some base := by
  obtain ⟨h_nil, h_dot, h_dots, h_slash⟩ := h
  have h_base : base.splitOnP (· == '/') = [base] := by
    refine List.splitOnP_eq_singleton fun c hc => ?_
    rw [beq_eq_false_iff_ne]
    rintro rfl
    exact h_slash hc
  have h_parts : (dir ++ '/' :: base).splitOn '/' = dir.splitOnP (· == '/') ++ [base] := by
    have h_sep : ('/' == '/') = true := beq_self_eq_true '/'
    rw [List.splitOn_eq_splitOnP, List.splitOnP_append_cons (p := (· == '/')) dir base h_sep, h_base]
  have h_keep : [base].filter (fun part => part ≠ [] ∧ part ≠ ['.']) = [base] :=
    List.filter_eq_self.mpr (by simpa using ⟨h_nil, h_dot⟩)
  unfold fileName
  rw [h_parts, List.filter_append, h_keep, List.getLast?_concat]
  simp only
  rw [if_neg h_dots]

/-! The three things that are done to a name. -/

theorem escape_append (a b : List Char) :
    Mapping.escape (a ++ b) = Mapping.escape a ++ Mapping.escape b := List.flatMap_append

theorem escape_of_notMem {name : List Char} (h : '\n' ∉ name) : Mapping.escape name = name := by
  have h_same : ∀ c ∈ name, (if c = '\n' then ['\\', '0', '1', '2'] else [c]) = [c] := by
    intro c hc
    rw [if_neg]
    rintro rfl
    exact h hc
  unfold Mapping.escape
  rw [List.flatMap_congr h_same]
  exact List.flatMap_singleton' name

theorem mem_escape {c : Char} {name : List Char} (h : c ∈ Mapping.escape name) :
    c ∈ name ∨ c ∈ ['\\', '0', '1', '2'] := by
  obtain ⟨d, hd, h⟩ := List.mem_flatMap.mp h
  split at h
  · exact .inr h
  · obtain rfl := List.mem_singleton.mp h
    exact .inl hd

theorem toLower_eq_newline {c : Char} : c.toLower = '\n' ↔ c = '\n' := by
  rcases Text.toLower_cases c with h_same | ⟨h_upper, h_lower⟩
  · rw [h_same]
  · refine ⟨fun h => ?_, fun h => ?_⟩
    · rw [h] at h_lower
      have h_code : ('\n' : Char).toNat = 10 := rfl
      omega
    · rw [h] at h_upper
      exact absurd h_upper (by decide)

/-- Line feeds have no case. -/
theorem map_toLower_escape (name : List Char) :
    (Mapping.escape name).map Char.toLower = Mapping.escape (name.map Char.toLower) := by
  unfold Mapping.escape
  rw [List.map_flatMap, List.flatMap_map]
  refine List.flatMap_congr fun c _ => ?_
  by_cases hc : c = '\n'
  · rw [if_pos hc, if_pos (toLower_eq_newline.mpr hc)]
    decide
  · rw [if_neg hc, if_neg (mt toLower_eq_newline.mp hc)]
    rfl

/-- What is trimmed of a name. -/
theorem escape_eq_written (base : List Char) :
    ∃ blanks, (∀ c ∈ blanks, Text.isWhiteSpace c = true) ∧
      Mapping.escape base = written base ++ blanks :=
  ⟨_, fun _ hc => List.mem_rtakeWhile_imp hc, List.rdropWhile_append_rtakeWhile.symm⟩

/-- The path of a file begins with a slash. -/
theorem MappedFile.head?_escape (f : MappedFile) (base : List Char) :
    (Mapping.escape f.dir ++ '/' :: base).head? = some '/' := by
  have h_absolute := f.absolute
  cases h_dir : f.dir with
  | nil => rfl
  | cons c dir =>
    rw [h_dir] at h_absolute
    rw [h_absolute c rfl]
    rfl

/-- Without a slash, the name is the whole of it. -/
theorem libraryName_of_notMem {name : List Char} (h : '/' ∉ name) :
    libraryName name = name.map Char.toLower := by
  have h_parts : name.splitOn '/' = [name] := by
    rw [List.splitOn_eq_splitOnP]
    refine List.splitOnP_eq_singleton fun c hc => ?_
    rw [beq_eq_false_iff_ne]
    rintro rfl
    exact h hc
  have h_name : (fileName name).getD name = name := by
    unfold fileName
    rw [h_parts, List.filter_singleton]
    cases decide (name ≠ [] ∧ name ≠ ['.']) with
    | false => rfl
    | true =>
      show (if name = ['.', '.'] then none else some name : Option (List Char)).getD name = name
      split <;> rfl
  unfold libraryName
  rw [h_name]

/-- A mapping that has a name counts if the name does. -/
theorem counts_iff {m : Mapping} {name : List Char} (h : m.column = some name)
    (counts : List Char → Bool) : m.Counts counts ↔ counts (libraryName name) = true := by
  unfold Mapping.Counts
  rw [h]
  refine ⟨?_, fun h_counts => ⟨name, rfl, h_counts⟩⟩
  rintro ⟨path, h_path, h_counts⟩
  exact Option.some.inj h_path ▸ h_counts

/-- A mapping of a file counts by its name in the directory, as it is written. -/
theorem counts_file (f : MappedFile) {base seen blanks : List Char} {m : Mapping}
    (h_name : m.name = f.dir ++ '/' :: base) (h_seen : Mapping.escape base = seen ++ blanks)
    (h_blanks : ∀ c ∈ blanks, Text.isWhiteSpace c = true)
    (h_last : ∀ c ∈ seen.getLast?, Text.isWhiteSpace c = false)
    (h_base : seen ≠ [] ∧ seen ≠ ['.'] ∧ seen ≠ ['.', '.'] ∧ '/' ∉ seen)
    (counts : List Char → Bool) : m.Counts counts ↔ counts (seen.map Char.toLower) = true := by
  have h_escape : Mapping.escape m.name = Mapping.escape f.dir ++ '/' :: seen ++ blanks := by
    calc Mapping.escape m.name
        = Mapping.escape f.dir ++ ('/' :: Mapping.escape base) := by
          rw [h_name, escape_append]
          rfl
      _ = Mapping.escape f.dir ++ '/' :: seen ++ blanks := by
          rw [h_seen, ← List.cons_append, List.append_assoc]
  have h_column : m.column = some (Mapping.escape f.dir ++ '/' :: seen) := by
    have h_trim : Text.trimMatches Text.isWhiteSpace (Mapping.escape m.name) =
        Mapping.escape f.dir ++ '/' :: seen := by
      rw [h_escape, Text.trimMatches_append h_blanks]
      refine Text.trimMatches_eq_self (fun c hc => ?_) fun c hc => h_last c ?_
      · -- the path of a file begins with a slash
        rw [f.head?_escape] at hc
        rw [← Option.some.inj hc]
        decide
      · rw [List.getLast?_append_of_ne_nil _ (List.cons_ne_nil _ _)] at hc
        rwa [List.getLast?_cons_of_ne_nil h_base.1] at hc
    unfold Mapping.column
    rw [h_trim]
    exact if_neg (List.append_ne_nil_of_right_ne_nil _ (List.cons_ne_nil _ _))
  rw [counts_iff h_column]
  unfold libraryName
  rw [fileName_append h_base]
  rfl

/-- **The name that counts** is the one without the directory, in lower case. -/
theorem counts_backing (b : Backing) {m : Mapping} (h_name : m.name = b.name)
    (counts : List Char → Bool) :
    m.Counts counts ↔ ∃ name, b.shown = some name ∧ counts (name.map Char.toLower) = true := by
  have h_shown : ∀ name, b.shown = some name →
      (m.Counts counts ↔ counts (name.map Char.toLower) = true) →
      (m.Counts counts ↔ ∃ name, b.shown = some name ∧ counts (name.map Char.toLower) = true) := by
    intro name h_b h_iff
    rw [h_iff, h_b]
    simp
  cases b with
  | unnamed =>
    have h_column : m.column = none := by
      unfold Mapping.column
      rw [h_name]
      rfl
    unfold Mapping.Counts
    rw [h_column]
    simp [Backing.shown]
  | special label h =>
    refine h_shown _ rfl ?_
    have h_line : '\n' ∉ m.name := by
      rw [h_name]
      simpa [Backing.name] using h.2
    have h_column : m.column = some m.name := by
      have h_trim : Text.trimMatches Text.isWhiteSpace m.name = m.name := by
        rw [h_name]
        refine Text.trimMatches_eq_self (fun c hc => ?_) fun c hc => ?_
        · rw [← Option.some.inj hc]
          decide
        · simp only [Backing.name] at hc
          rw [← List.cons_append, List.getLast?_concat] at hc
          rw [← Option.some.inj hc]
          decide
      unfold Mapping.column
      rw [escape_of_notMem h_line, h_trim, h_name]
      exact if_neg (List.cons_ne_nil _ _)
    rw [counts_iff h_column, h_name, libraryName_of_notMem (by simpa [Backing.name] using h.1)]
    rfl
  | file f =>
    obtain ⟨blanks, h_blanks, h_base⟩ := escape_eq_written f.base
    obtain ⟨h_nil, h_dot, h_dots⟩ := f.isWritten
    refine h_shown _ rfl (counts_file f h_name h_base h_blanks ?_ ⟨h_nil, h_dot, h_dots, ?_⟩ counts)
    · intro c hc
      rw [List.getLast?_eq_some_getLast h_nil] at hc
      rw [← Option.some.inj hc]
      exact Bool.eq_false_iff.mpr (List.rdropWhile_last_not _ _ h_nil)
    · intro h
      rcases mem_escape (h_base ▸ List.mem_append_left _ h) with h | h
      · exact f.isName h
      · exact absurd h (by decide)
  | deleted f =>
    have h_base : Mapping.escape (f.base ++ " (deleted)".toList) =
        (Mapping.escape f.base ++ " (deleted)".toList) ++ [] := by
      rw [List.append_nil, escape_append]
      rfl
    -- there is a blank in it
    have h_blank : ' ' ∈ Mapping.escape f.base ++ " (deleted)".toList :=
      List.mem_append_right _ (by decide)
    refine h_shown _ rfl (counts_file f h_name h_base (fun _ h => absurd h List.not_mem_nil) ?_
      ⟨List.ne_nil_of_mem h_blank, fun h => ?_, fun h => ?_, fun h => ?_⟩ counts)
    · intro c hc
      rw [List.getLast?_append_of_ne_nil _ (by decide)] at hc
      rw [← Option.some.inj hc]
      decide
    · exact absurd (h ▸ h_blank) (by decide)
    · exact absurd (h ▸ h_blank) (by decide)
    · rcases List.mem_append.mp h with h | h
      · rcases mem_escape h with h | h
        · exact f.isName h
        · exact absurd h (by decide)
      · exact absurd h (by decide)

/-! ### What the tests see of a file -/

/-- A word in which there is nothing that is put into a name or trimmed of it. -/
def IsWord (word : List Char) : Prop :=
  word.all (fun c => !(['\\', '0', '1', '2'].contains c || Text.isWhiteSpace c)) = true

instance (word : List Char) : Decidable (IsWord word) :=
  inferInstanceAs (Decidable (word.all _ = true))

theorem IsWord.of_mem {word : List Char} (h : IsWord word) {c : Char} (hc : c ∈ word) :
    c ∉ ['\\', '0', '1', '2'] ∧ Text.isWhiteSpace c = false := by
  have h_c := List.all_eq_true.mp h c hc
  simpa using h_c

theorem IsWord.plain {word : List Char} (h : IsWord word) :
    Text.Plain (fun c => if c = '\n' then ['\\', '0', '1', '2'] else [c]) word := by
  intro c
  simp only
  split
  next hc =>
    refine .inr ⟨fun h_mem => ?_, List.cons_ne_nil _ _, fun d hd h_mem => (h.of_mem h_mem).1 hd⟩
    rw [hc] at h_mem
    exact absurd (h.of_mem h_mem).2 (by decide)
  next => exact .inl rfl

theorem IsWord.notMem {word : List Char} (h : IsWord word) {c : Char}
    (hc : Text.isWhiteSpace c = true) : c ∉ word :=
  fun h_mem => absurd ((h.of_mem h_mem).2.symm.trans hc) (by decide)

/-- What is read of the name of a file, in lower case: behind it blanks have been trimmed, or the kernel
has said that the file is deleted. -/
theorem map_toLower_shown {b : Backing} {f : MappedFile} {name : List Char}
    (h_file : b.file? = some f) (h_name : b.shown = some name) :
    (∃ blanks, (∀ c ∈ blanks, Text.isWhiteSpace c = true) ∧
      name.map Char.toLower ++ blanks = Mapping.escape (f.base.map Char.toLower)) ∨
    name.map Char.toLower =
      Mapping.escape (f.base.map Char.toLower) ++ ' ' :: "(deleted)".toList := by
  cases b with
  | unnamed => exact absurd h_file (by simp [Backing.file?])
  | special label h => exact absurd h_file (by simp [Backing.file?])
  | file f =>
    obtain rfl := Option.some.inj h_file
    obtain rfl := Option.some.inj h_name
    obtain ⟨blanks, h_blanks, h_base⟩ := escape_eq_written f.base
    refine .inl ⟨blanks.map Char.toLower, fun c hc => ?_, ?_⟩
    · obtain ⟨d, hd, rfl⟩ := List.mem_map.mp hc
      rw [Text.isWhiteSpace_toLower]
      exact h_blanks d hd
    · rw [← List.map_append, ← h_base, map_toLower_escape]
  | deleted f =>
    obtain rfl := Option.some.inj h_file
    obtain rfl := Option.some.inj h_name
    refine .inr ?_
    rw [List.map_append, map_toLower_escape]
    rfl

/-- **A word begins what is read** of the name of a file where it begins the name. -/
theorem IsWord.prefix_shown_iff {word : List Char} (h : IsWord word) {b : Backing} {f : MappedFile}
    {name : List Char} (h_file : b.file? = some f) (h_name : b.shown = some name) :
    word <+: name.map Char.toLower ↔ word <+: f.base.map Char.toLower := by
  rcases map_toLower_shown h_file h_name with ⟨blanks, h_blanks, h_eq⟩ | h_eq
  · calc word <+: name.map Char.toLower
        ↔ word <+: name.map Char.toLower ++ blanks :=
          (Text.prefix_append_iff fun c hc => h.notMem (h_blanks c hc)).symm
      _ ↔ word <+: f.base.map Char.toLower := by
          rw [h_eq]
          exact h.plain.prefix_flatMap_iff _
  · rw [h_eq, Text.prefix_append_cons_iff (h.notMem (by decide))]
    exact h.plain.prefix_flatMap_iff _

/-- **A word is in what is read** of the name of a file where it is in the name, unless it is in what
the kernel adds. -/
theorem IsWord.infix_shown_iff {word : List Char} (h : IsWord word)
    (h_mark : ¬ word <:+: "(deleted)".toList) {b : Backing} {f : MappedFile} {name : List Char}
    (h_file : b.file? = some f) (h_name : b.shown = some name) :
    word <:+: name.map Char.toLower ↔ word <:+: f.base.map Char.toLower := by
  rcases map_toLower_shown h_file h_name with ⟨blanks, h_blanks, h_eq⟩ | h_eq
  · calc word <:+: name.map Char.toLower
        ↔ word <:+: name.map Char.toLower ++ blanks :=
          (Text.infix_append_iff (fun c hc => h.notMem (h_blanks c hc)) _).symm
      _ ↔ word <:+: f.base.map Char.toLower := by
          rw [h_eq]
          exact h.plain.infix_flatMap_iff _
  · rw [h_eq, Text.infix_append_cons_iff (h.notMem (by decide)), or_iff_left h_mark]
    exact h.plain.infix_flatMap_iff _

/-- A test of how a name begins does not see what is done to it. -/
theorem counts_of_beginning {words : List (List Char)} (h_words : ∀ word ∈ words, IsWord word)
    (h_special : ∀ word ∈ words, word.head?.any (fun c => c ≠ '[') = true) (b : Backing) :
    (∃ name, b.shown = some name ∧
      words.any (fun word => word.isPrefixOf (name.map Char.toLower)) = true) ↔
      ∃ f, b.file? = some f ∧
        words.any (fun word => word.isPrefixOf (f.base.map Char.toLower)) = true := by
  -- which words begin the name does not change when it is written
  have h_file : ∀ f name, b.file? = some f → b.shown = some name →
      words.any (fun word => word.isPrefixOf (name.map Char.toLower)) =
        words.any fun word => word.isPrefixOf (f.base.map Char.toLower) := by
    intro f name h_f h_name
    rw [Bool.eq_iff_iff, List.any_eq_true, List.any_eq_true]
    refine exists_congr fun word => and_congr_right fun h_word => ?_
    rw [List.isPrefixOf_iff_prefix, List.isPrefixOf_iff_prefix]
    exact (h_words word h_word).prefix_shown_iff h_f h_name
  cases b with
  | unnamed => simp [Backing.shown, Backing.file?]
  -- a region begins with its bracket, and no word does
  | special label h =>
    refine ⟨?_, ?_⟩
    · rintro ⟨name, h_name, h_counts⟩
      obtain rfl := Option.some.inj h_name
      obtain ⟨word, h_word, h_prefix⟩ := List.any_eq_true.mp h_counts
      have h_head := h_special word h_word
      cases word with
      | nil => exact absurd h_head Bool.false_ne_true
      | cons c word =>
        obtain ⟨rfl, -⟩ := List.cons_prefix_cons.mp (List.isPrefixOf_iff_prefix.mp h_prefix)
        exact absurd h_head Bool.false_ne_true
    · rintro ⟨f, h_f, -⟩
      exact absurd h_f (by simp [Backing.file?])
  | file f =>
    have h_same := h_file f _ rfl rfl
    simp only [Backing.shown, Backing.file?, Option.some.injEq, exists_eq_left'] at h_same ⊢
    rw [h_same]
  | deleted f =>
    have h_same := h_file f _ rfl rfl
    simp only [Backing.shown, Backing.file?, Option.some.injEq, exists_eq_left'] at h_same ⊢
    rw [h_same]

/-- Nor does a test of what is in it. -/
theorem isTranslation_shown {b : Backing} {f : MappedFile} {name : List Char}
    (h_file : b.file? = some f) (h_name : b.shown = some name) :
    isTranslation (name.map Char.toLower) = isTranslation (f.base.map Char.toLower) := by
  have h_word : ∀ word ∈ ["dxvk".toList, "vkd3d".toList, "wined3d".toList],
      decide (word <:+: name.map Char.toLower) = decide (word <:+: f.base.map Char.toLower) := by
    intro word h_word
    have h_plain : ∀ word ∈ ["dxvk".toList, "vkd3d".toList, "wined3d".toList],
        IsWord word ∧ ¬ word <:+: "(deleted)".toList := by decide
    obtain ⟨h_isWord, h_mark⟩ := h_plain word h_word
    exact decide_eq_decide.mpr (h_isWord.infix_shown_iff h_mark h_file h_name)
  unfold isTranslation
  rw [h_word _ (by decide), h_word _ (by decide), h_word _ (by decide)]

/-- None of Wine's libraries has a blank or a bracket in its name. -/
theorem notMem_builtins {name : List Char} {c : Char} (hc : c = ' ' ∨ c = '[') (h : c ∈ name) :
    name ∉ builtins := by
  have h_plain : ∀ name ∈ builtins, ' ' ∉ name ∧ '[' ∉ name := by decide
  intro h_mem
  rcases hc with rfl | rfl
  · exact (h_plain name h_mem).1 h
  · exact (h_plain name h_mem).2 h

/-- One of Wine's names, whatever its case, with nothing behind it but blanks, and no line feed. -/
def IsBuiltin (base : List Char) : Prop :=
  ∃ dll ∈ builtins, ∃ blanks, (∀ c ∈ blanks, Text.isWhiteSpace c = true ∧ c ≠ '\n') ∧
    base.map Char.toLower = dll ++ blanks

/-- **An exact name** is found behind blanks, which are trimmed, but not behind a line feed, which is
not. -/
theorem written_mem_builtins_iff (base : List Char) :
    (written base).map Char.toLower ∈ builtins ↔ IsBuiltin base := by
  -- no name begins an escape, is blank at its end, or has a line feed
  have h_builtin : ∀ dll ∈ builtins, '\\' ∉ dll ∧ '\n' ∉ dll ∧
      dll.getLast?.all (fun c => !Text.isWhiteSpace c) = true := by decide
  refine ⟨fun h => ?_, ?_⟩
  · obtain ⟨blanks, h_blanks, h_base⟩ := escape_eq_written base
    have h_backslash : '\\' ∉ Mapping.escape base := by
      rw [h_base, List.mem_append, not_or]
      refine ⟨fun h_mem => (h_builtin _ h).1 (List.mem_map.mpr ⟨_, h_mem, by decide⟩), fun h_mem => ?_⟩
      exact absurd (h_blanks _ h_mem) (by decide)
    have h_newline : '\n' ∉ base := fun h_mem =>
      h_backslash (List.mem_flatMap.mpr ⟨_, h_mem, List.mem_cons_self⟩)
    rw [escape_of_notMem h_newline] at h_base
    refine ⟨_, h, blanks, fun c hc => ⟨h_blanks c hc, ?_⟩, ?_⟩
    · rintro rfl
      exact h_newline (h_base ▸ List.mem_append_right _ hc)
    · calc base.map Char.toLower
          = (written base).map Char.toLower ++ blanks.map Char.toLower := by
            rw [← List.map_append, ← h_base]
        _ = (written base).map Char.toLower ++ blanks := by
            rw [List.map_congr_left fun c hc => Text.toLower_of_isWhiteSpace (h_blanks c hc),
              List.map_id']
  · rintro ⟨dll, h_dll, blanks, h_blanks, h_eq⟩
    obtain ⟨-, h_line, h_last⟩ := h_builtin dll h_dll
    have h_newline : '\n' ∉ base := by
      intro h_mem
      have h_lower : '\n' ∈ dll ++ blanks :=
        h_eq ▸ List.mem_map.mpr ⟨_, h_mem, toLower_eq_newline.mpr rfl⟩
      rcases List.mem_append.mp h_lower with h_mem | h_mem
      · exact h_line h_mem
      · exact (h_blanks _ h_mem).2 rfl
    obtain ⟨name, rest, rfl, rfl, h_rest⟩ := List.map_eq_append_iff.mp h_eq
    have h_written : written (name ++ rest) = name := by
      unfold written
      rw [escape_of_notMem h_newline, Text.rdropWhile_append fun c hc => ?_]
      · refine List.rdropWhile_eq_self_iff.mpr fun h_ne => ?_
        rw [List.getLast?_map, List.getLast?_eq_some_getLast h_ne] at h_last
        simpa [Text.isWhiteSpace_toLower] using h_last
      · rw [← Text.isWhiteSpace_toLower]
        exact (h_blanks _ (h_rest ▸ List.mem_map_of_mem hc)).1
    rw [h_written]
    exact h_dll

/-- **Direct3D.** Only the exact names tell a file from a deleted one. -/
theorem counts_directx (b : Backing) :
    (∃ name, b.shown = some name ∧ isDirectx (name.map Char.toLower) = true) ↔
      (∃ name, b.label = some name ∧ isTranslation (name.map Char.toLower) = true) ∨
        ∃ f, b = .file f ∧ IsBuiltin f.base := by
  cases b with
  | unnamed => simp [Backing.shown, Backing.label]
  -- a bracket is in no exact name
  | special label h =>
    have h_not : ('[' :: (label ++ [']'])).map Char.toLower ∉ builtins :=
      notMem_builtins (.inr rfl) List.mem_cons_self
    simp only [Backing.shown, Backing.label, Option.some.injEq, exists_eq_left', isDirectx,
      List.contains_eq_mem, decide_eq_false h_not, Bool.or_false, reduceCtorEq, false_and,
      exists_false, or_false]
  | file f =>
    have h_same := isTranslation_shown (b := .file f) rfl rfl
    simp only [Backing.shown, Backing.label, Option.some.injEq, exists_eq_left', isDirectx,
      Bool.or_eq_true, List.contains_eq_mem, decide_eq_true_eq, written_mem_builtins_iff,
      Backing.file.injEq]
    rw [h_same]
  | deleted f =>
    have h_same := isTranslation_shown (b := .deleted f) rfl rfl
    -- nor is the blank before the mark
    have h_not : (Mapping.escape f.base ++ " (deleted)".toList).map Char.toLower ∉ builtins :=
      notMem_builtins (.inl rfl) (List.mem_map.mpr
        ⟨' ', List.mem_append_right _ (by decide), by decide⟩)
    simp only [Backing.shown, Backing.label, Option.some.injEq, exists_eq_left', isDirectx,
      List.contains_eq_mem, decide_eq_false h_not, Bool.or_false, reduceCtorEq, false_and,
      exists_false, or_false]
    rw [h_same]

/-- Mappings of what is mapped. -/
def mappings (ms : List (Mapping × Backing)) : List Mapping :=
  ms.map fun x => { x.1 with name := x.2.name }

theorem exists_mappings (ms : List (Mapping × Backing)) (counts : List Char → Bool) :
    (∃ m ∈ mappings ms, m.Counts counts) ↔
      ∃ x ∈ ms, ∃ name, x.2.shown = some name ∧ counts (name.map Char.toLower) = true := by
  unfold mappings
  simp only [List.mem_map]
  refine ⟨?_, ?_⟩
  · rintro ⟨_, ⟨x, hx, rfl⟩, h⟩
    exact ⟨x, hx, (counts_backing x.2 rfl counts).mp h⟩
  · rintro ⟨x, hx, h⟩
    exact ⟨_, ⟨x, hx, rfl⟩, (counts_backing x.2 rfl counts).mpr h⟩

theorem isOpengl_eq (name : List Char) :
    isOpengl name = ["libgl.so".toList, "libglx.so".toList, "libegl.so".toList].any fun word =>
      word.isPrefixOf name := by
  simp only [isOpengl, List.any_cons, List.any_nil, Bool.or_false, Bool.or_assoc]

theorem isVulkan_eq (name : List Char) :
    isVulkan name = ["libvulkan.so".toList].any fun word => word.isPrefixOf name := by
  simp only [isVulkan, List.any_cons, List.any_nil, Bool.or_false]

theorem isSdl_eq (name : List Char) :
    isSdl name = ["libsdl".toList].any fun word => word.isPrefixOf name := by
  simp only [isSdl, List.any_cons, List.any_nil, Bool.or_false]

/-- **The stacks of a process**, from the files it has mapped. -/
theorem graphics_of_files (ms : List (Mapping × Backing)) :
    let g := parse (document (mappings ms))
    (g.opengl = true ↔ ∃ x ∈ ms, ∃ f, x.2.file? = some f ∧ isOpengl (f.base.map Char.toLower) = true) ∧
    (g.vulkan = true ↔ ∃ x ∈ ms, ∃ f, x.2.file? = some f ∧ isVulkan (f.base.map Char.toLower) = true) ∧
    (g.sdl = true ↔ ∃ x ∈ ms, ∃ f, x.2.file? = some f ∧ isSdl (f.base.map Char.toLower) = true) ∧
    (g.directxViaProton = true ↔ ∃ x ∈ ms,
      (∃ name, x.2.label = some name ∧ isTranslation (name.map Char.toLower) = true) ∨
        ∃ f, x.2 = .file f ∧ IsBuiltin f.base) := by
  obtain ⟨h_opengl, h_vulkan, h_sdl, h_directx⟩ := parse_document (mappings ms)
  -- each test is one of those that do not see how a name is written
  refine ⟨h_opengl.trans ?_, h_vulkan.trans ?_, h_sdl.trans ?_, h_directx.trans ?_⟩
  · rw [exists_mappings]
    simp only [isOpengl_eq]
    exact exists_congr fun x => and_congr_right fun _ =>
      counts_of_beginning (by decide) (by decide) x.2
  · rw [exists_mappings]
    simp only [isVulkan_eq]
    exact exists_congr fun x => and_congr_right fun _ =>
      counts_of_beginning (by decide) (by decide) x.2
  · rw [exists_mappings]
    simp only [isSdl_eq]
    exact exists_congr fun x => and_congr_right fun _ =>
      counts_of_beginning (by decide) (by decide) x.2
  · rw [exists_mappings]
    exact exists_congr fun x => and_congr_right fun _ => counts_directx x.2

end Maps

end Ludex
