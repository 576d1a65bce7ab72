import Mathlib.Data.List.DropRight
import Mathlib.Algebra.Group.Nat.Defs

/-!
# Text as lists of characters

The operations of a string library that parsers are written with, on lists of characters: trimming,
splitting at the first occurrence of a separator or into a number of pieces, stripping a prefix or a
suffix, and decimal numbers of a given width.

`SplitsFirst` says what the first occurrence of a separator is, without a search; `splitOnce` finds it
(`splitOnce_eq_some_iff`).
-/

namespace Text

/-- Without the characters at both ends that satisfy `p`. -/
def trimMatches (p : Char → Bool) (s : List Char) : List Char := (s.dropWhile p).rdropWhile p

/-- The parts before and after the first occurrence of a separator. -/
def splitOnce (sep : List Char) : List Char → Option (List Char × List Char)
  | [] => if sep.isEmpty then some ([], []) else none
  | c :: s =>
    if sep.isPrefixOf (c :: s) then some ([], (c :: s).drop sep.length)
    else (splitOnce sep s).map fun (before, after) => (c :: before, after)

/-- What follows a prefix. -/
def stripPrefix (pre s : List Char) : Option (List Char) :=
  if pre.isPrefixOf s then some (s.drop pre.length) else none

/-- What precedes a suffix. -/
def stripSuffix (suf s : List Char) : Option (List Char) :=
  (stripPrefix suf.reverse s.reverse).map List.reverse

/-- What follows the last occurrence of a character. -/
def afterLast (c : Char) (s : List Char) : Option (List Char) :=
  if c ∈ s then some (s.rtakeWhile fun d => d ≠ c) else none

/-- The words between characters that satisfy `p`. -/
def words (p : Char → Bool) (s : List Char) : List (List Char) :=
  (s.splitOnP p).filter fun word => word ≠ []

/-- At most `n` pieces between the characters that satisfy `p`. The last is all that remains. -/
def splitN (p : Char → Bool) : ℕ → List Char → List (List Char)
  | 0, _ => []
  | 1, s => [s]
  | n + 2, s =>
    match s.dropWhile fun c => !p c with
    | [] => [s]
    | _ :: rest => s.takeWhile (fun c => !p c) :: splitN p (n + 1) rest

/-- The code points with the Unicode property `White_Space`. -/
def isWhiteSpace (c : Char) : Bool :=
  (9 ≤ c.toNat && c.toNat ≤ 13) || c.toNat = 32 || c.toNat = 133 || c.toNat = 160 ||
    c.toNat = 5760 || (8192 ≤ c.toNat && c.toNat ≤ 8202) || c.toNat = 8232 || c.toNat = 8233 ||
    c.toNat = 8239 || c.toNat = 8287 || c.toNat = 12288

/-- Nothing is left of a text that is trimmed. -/
def trimIsEmpty (s : String) : Bool := s.toList.all isWhiteSpace

/-- An ASCII digit. -/
def isAsciiDigit (c : Char) : Bool := '0' ≤ c && c ≤ '9'

/-- The number that digits denote. -/
def decimal (digits : List Char) : ℕ :=
  digits.foldl (fun n c => 10 * n + (c.toNat - '0'.toNat)) 0

/-- An unsigned number of `bits` bits: digits, after an optional plus sign. -/
def parseUnsigned (bits : ℕ) (s : List Char) : Option ℕ :=
  let digits := if s.head? = some '+' then s.tail else s
  if digits ≠ [] ∧ digits.all isAsciiDigit ∧ decimal digits < 2 ^ bits then some (decimal digits)
  else none

example : parseUnsigned 64 "+042".toList = some 42 ∧ parseUnsigned 64 "+".toList = none := by decide

/-! ### What the parts are parts of -/

theorem stripPrefix_append (pre s : List Char) : stripPrefix pre (pre ++ s) = some s := by
  unfold stripPrefix
  rw [if_pos (List.isPrefixOf_iff_prefix.mpr (List.prefix_append pre s)), List.drop_left]

theorem eq_append_of_stripPrefix {pre s rest : List Char} (h : stripPrefix pre s = some rest) :
    s = pre ++ rest := by
  unfold stripPrefix at h
  by_cases h_prefix : pre.isPrefixOf s = true
  · rw [if_pos h_prefix] at h
    obtain ⟨tail, rfl⟩ := List.isPrefixOf_iff_prefix.mp h_prefix
    rw [List.drop_left] at h
    rw [Option.some.inj h]
  · rw [if_neg h_prefix] at h
    exact nomatch h

theorem eq_append_of_stripSuffix {suf s rest : List Char} (h : stripSuffix suf s = some rest) :
    s = rest ++ suf := by
  obtain ⟨tail, h_strip, rfl⟩ := Option.map_eq_some_iff.mp h
  have h_reverse := congrArg List.reverse (eq_append_of_stripPrefix h_strip)
  rwa [List.reverse_reverse, List.reverse_append, List.reverse_reverse] at h_reverse

theorem stripSuffix_append (s suf : List Char) : stripSuffix suf (s ++ suf) = some s := by
  unfold stripSuffix
  rw [List.reverse_append, stripPrefix_append, Option.map_some, List.reverse_reverse]

theorem splitOnce_append {sep : List Char} (h : sep ≠ []) (s : List Char) :
    splitOnce sep (sep ++ s) = some ([], s) := by
  obtain ⟨c, sep, rfl⟩ := List.exists_cons_of_ne_nil h
  rw [List.cons_append, splitOnce, ← List.cons_append,
    if_pos (List.isPrefixOf_iff_prefix.mpr (List.prefix_append _ s)), List.drop_left]

/-- A separator of one character is found at its first occurrence. -/
theorem splitOnce_singleton {c : Char} {before : List Char} (h : c ∉ before) (after : List Char) :
    splitOnce [c] (before ++ c :: after) = some (before, after) := by
  induction before with
  | nil => exact splitOnce_append (List.cons_ne_nil c []) after
  | cons d before ih =>
    rw [List.mem_cons, not_or] at h
    obtain ⟨h_ne, h_rest⟩ := h
    -- the first character is not the separator, so the search goes on behind it
    rw [List.cons_append, splitOnce, if_neg, ih h_rest]
    · rfl
    · intro h_prefix
      exact h_ne (List.cons_prefix_cons.mp (List.isPrefixOf_iff_prefix.mp h_prefix)).1

theorem eq_append_of_splitOnce {sep s before after : List Char}
    (h : splitOnce sep s = some (before, after)) : s = before ++ (sep ++ after) := by
  induction s generalizing before with
  | nil =>
    unfold splitOnce at h
    -- at the end of the text only the empty separator is found
    by_cases h_empty : sep.isEmpty = true
    · rw [if_pos h_empty] at h
      obtain ⟨rfl, rfl⟩ := Prod.mk.inj (Option.some.inj h)
      rw [List.isEmpty_iff.mp h_empty]
      rfl
    · rw [if_neg h_empty] at h
      exact nomatch h
  | cons c s ih =>
    unfold splitOnce at h
    by_cases h_prefix : sep.isPrefixOf (c :: s) = true
    · rw [if_pos h_prefix] at h
      obtain ⟨rfl, rfl⟩ := Prod.mk.inj (Option.some.inj h)
      exact (List.prefix_iff_eq_append.mp (List.isPrefixOf_iff_prefix.mp h_prefix)).symm
    · rw [if_neg h_prefix] at h
      obtain ⟨⟨before', after'⟩, h_split, h_eq⟩ := Option.map_eq_some_iff.mp h
      obtain ⟨rfl, rfl⟩ := Prod.mk.inj h_eq
      rw [ih h_split]
      rfl

/-! ### First occurrences -/

/-- The text is `before`, a separator and `after`, and the separator is nowhere further in front. -/
def SplitsFirst (sep s before after : List Char) : Prop :=
  s = before ++ (sep ++ after) ∧
    ∀ before' after', s = before' ++ (sep ++ after') → before.length ≤ before'.length

/-- Where there is a separator, it is found there or further in front. -/
theorem exists_splitOnce (sep before' after' : List Char) :
    ∃ before after, splitOnce sep (before' ++ (sep ++ after')) = some (before, after) ∧
      before.length ≤ before'.length := by
  induction before' with
  | nil =>
    cases sep with
    | nil =>
      -- the empty separator is found at once
      cases after' with
      | nil => exact ⟨[], [], rfl, le_rfl⟩
      | cons c after' => exact ⟨[], c :: after', rfl, le_rfl⟩
    | cons c sep => exact ⟨[], after', splitOnce_append (List.cons_ne_nil c sep) after', le_rfl⟩
  | cons c before' ih =>
    obtain ⟨before, after, h_split, h_le⟩ := ih
    rw [List.cons_append, splitOnce]
    by_cases h_here : sep.isPrefixOf (c :: (before' ++ (sep ++ after'))) = true
    · rw [if_pos h_here]
      exact ⟨[], _, rfl, Nat.zero_le _⟩
    · rw [if_neg h_here, h_split]
      exact ⟨c :: before, after, rfl, Nat.succ_le_succ h_le⟩

/-- **A separator is found at its first occurrence.** -/
theorem splitOnce_eq_some_iff {sep s before after : List Char} :
    splitOnce sep s = some (before, after) ↔ SplitsFirst sep s before after := by
  refine ⟨fun h => ⟨eq_append_of_splitOnce h, ?_⟩, ?_⟩
  · rintro before' after' rfl
    obtain ⟨found, rest, h_split, h_le⟩ := exists_splitOnce sep before' after'
    obtain ⟨rfl, rfl⟩ := Prod.mk.inj (Option.some.inj (h.symm.trans h_split))
    exact h_le
  · rintro ⟨rfl, h_first⟩
    obtain ⟨found, rest, h_split, h_le⟩ := exists_splitOnce sep before after
    have h_eq := eq_append_of_splitOnce h_split
    -- what is found is no further behind, and no further in front
    have h_length := le_antisymm (h_first found rest h_eq) h_le
    obtain ⟨rfl, h_rest⟩ := List.append_inj h_eq h_length
    obtain rfl := List.append_cancel_left h_rest
    exact h_split

theorem splitOnce_singleton_eq_some_iff {c : Char} {s before after : List Char} :
    splitOnce [c] s = some (before, after) ↔ s = before ++ c :: after ∧ c ∉ before := by
  refine ⟨fun h => ⟨eq_append_of_splitOnce h, fun h_mem => ?_⟩, ?_⟩
  · obtain ⟨pre, post, rfl⟩ := List.append_of_mem h_mem
    have h_first := (splitOnce_eq_some_iff.mp h).2 pre (post ++ c :: after)
      (by rw [eq_append_of_splitOnce h, List.append_assoc]; rfl)
    rw [List.length_append, List.length_cons] at h_first
    omega
  · rintro ⟨rfl, h_before⟩
    exact splitOnce_singleton h_before after

/-- What follows the first occurrence has no say in where it is. -/
theorem SplitsFirst.rewrite {sep s before after : List Char} (h : SplitsFirst sep s before after)
    (after' : List Char) : SplitsFirst sep (before ++ (sep ++ after')) before after' := by
  obtain ⟨rfl, h_first⟩ := h
  refine ⟨rfl, fun found rest h_eq => not_lt.mp fun h_lt => ?_⟩
  -- an occurrence further in front ends before this one does
  have h_found : found ++ sep <+: before ++ (sep ++ after') := by
    rw [h_eq]
    exact ⟨rest, List.append_assoc ..⟩
  have h_here : before ++ sep <+: before ++ (sep ++ after') := ⟨after', List.append_assoc ..⟩
  obtain ⟨gap, h_gap⟩ := List.prefix_of_prefix_length_le h_found h_here (by
    rw [List.length_append, List.length_append]
    omega)
  refine absurd (h_first found (gap ++ after) ?_) (not_le.mpr h_lt)
  rw [← List.append_assoc before, ← h_gap]
  simp only [List.append_assoc]

/-! ### Ends and pieces -/

theorem rdropWhile_append {p : Char → Bool} {blank : List Char} (h : ∀ c ∈ blank, p c = true)
    (s : List Char) : (s ++ blank).rdropWhile p = s.rdropWhile p := by
  unfold List.rdropWhile
  rw [List.reverse_append, List.dropWhile_append_of_pos fun c hc => h c (List.mem_reverse.mp hc)]

/-- Blank space at the end of a text is trimmed. -/
theorem trimMatches_append {p : Char → Bool} {blank : List Char} (h : ∀ c ∈ blank, p c = true)
    (s : List Char) : trimMatches p (s ++ blank) = trimMatches p s := by
  unfold trimMatches
  rw [List.dropWhile_append]
  by_cases h_all : (s.dropWhile p).isEmpty = true
  · -- the text is blank itself
    rw [if_pos h_all, List.dropWhile_eq_nil_iff.mpr h, List.isEmpty_iff.mp h_all]
  · rw [if_neg h_all, rdropWhile_append h]

/-- **What is put at the end of a text** is put at the end of its last piece. -/
theorem splitOn_append_right {c : Char} {t : List Char} (h : c ∉ t) (s : List Char) :
    ∃ pieces last, s.splitOn c = pieces ++ [last] ∧ (s ++ t).splitOn c = pieces ++ [last ++ t] := by
  -- induction on the left list: only the last piece meets what is appended
  induction s with
  | nil => exact ⟨[], [], rfl, List.splitOn_eq_singleton h⟩
  | cons d s ih =>
    obtain ⟨pieces, last, h_s, h_st⟩ := ih
    rw [List.cons_append, List.splitOn_cons_eq_if_modifyHead, List.splitOn_cons_eq_if_modifyHead, h_s,
      h_st]
    -- a separator closes a piece, any other character joins the first one
    by_cases h_d : (d == c) = true
    · rw [if_pos h_d, if_pos h_d]
      exact ⟨[] :: pieces, last, rfl, rfl⟩
    · rw [if_neg h_d, if_neg h_d]
      cases pieces with
      | nil => exact ⟨[], d :: last, rfl, rfl⟩
      | cons piece pieces => exact ⟨(d :: piece) :: pieces, last, rfl, rfl⟩

/-- **The last occurrence** is the one behind which there is no other. -/
theorem afterLast_append {c : Char} {s : List Char} (h : c ∉ s) (front : List Char) :
    afterLast c (front ++ c :: s) = some s := by
  have h_mem : c ∈ front ++ c :: s := List.mem_append_right _ List.mem_cons_self
  have h_take : ((front ++ c :: s).rtakeWhile fun d => d ≠ c) = s := by
    unfold List.rtakeWhile
    rw [List.reverse_append, List.reverse_cons, List.append_assoc,
      List.takeWhile_append_of_pos fun d hd => ?_]
    · simp
    · exact decide_eq_true fun h_eq => h (h_eq ▸ List.mem_reverse.mp hd)
  unfold afterLast
  rw [if_pos h_mem, h_take]

/-- A word at the beginning is the first word. -/
theorem words_append_cons {p : Char → Bool} {word : List Char} {c : Char} (h_ne : word ≠ [])
    (h : ∀ d ∈ word, p d = false) (h_c : p c = true) (s : List Char) :
    words p (word ++ c :: s) = word :: words p s := by
  unfold words
  rw [List.splitOnP_append_cons_of_forall_mem h c h_c]
  exact List.filter_cons_of_pos (decide_eq_true h_ne)

/-! ### Numbers -/

theorem isAsciiDigit_of_isDigit {c : Char} (h : c.isDigit = true) : isAsciiDigit c = true := h

theorem decimal_append_singleton (digits : List Char) (c : Char) :
    decimal (digits ++ [c]) = 10 * decimal digits + (c.toNat - '0'.toNat) := by
  unfold decimal
  rw [List.foldl_append]
  rfl

/-- The digits of a number denote it. -/
theorem decimal_toDigits (n : ℕ) : decimal (Nat.toDigits 10 n) = n := by
  -- on the number, which loses its last digit
  induction n using Nat.strongRecOn with
  | ind n ih =>
    have h_digit : ∀ d, d < 10 → (Nat.digitChar d).toNat - '0'.toNat = d := by decide
    by_cases h_lt : n < 10
    · rw [Nat.toDigits_of_lt_base h_lt]
      show 10 * 0 + ((Nat.digitChar n).toNat - '0'.toNat) = n
      rw [h_digit n h_lt, Nat.mul_zero, Nat.zero_add]
    · -- the last digit is the remainder
      rw [Nat.toDigits_of_base_le (by decide) (not_lt.mp h_lt), decimal_append_singleton,
        ih (n / 10) (Nat.div_lt_self (by omega) (by decide)), h_digit _ (Nat.mod_lt n (by decide))]
      exact Nat.div_add_mod n 10

/-- **A number that is written in digits** is read back. -/
theorem parseUnsigned_toDigits {bits n : ℕ} (h : n < 2 ^ bits) :
    parseUnsigned bits (Nat.toDigits 10 n) = some n := by
  have h_digits : (Nat.toDigits 10 n).all isAsciiDigit = true := by
    refine List.all_eq_true.mpr fun c hc => isAsciiDigit_of_isDigit ?_
    exact Nat.isDigit_of_mem_toDigits (by decide) (by decide) hc
  have h_plus : (Nat.toDigits 10 n).head? ≠ some '+' := by
    intro h_head
    have h_mem := List.mem_of_mem_head? h_head
    exact absurd (List.all_eq_true.mp h_digits _ h_mem) (by decide)
  unfold parseUnsigned
  simp only [h_plus, if_false, decimal_toDigits]
  exact if_pos ⟨Nat.toDigits_ne_nil, h_digits, h⟩

/-- **A piece at the front** is cut off with the character behind it. -/
theorem splitN_piece {p : Char → Bool} {piece : List Char} (h : ∀ x ∈ piece, p x = false) {c : Char}
    (hc : p c = true) (n : ℕ) (rest : List Char) :
    splitN p (n + 2) (piece ++ c :: rest) = piece :: splitN p (n + 1) rest := by
  have h_all : ∀ x ∈ piece, (!p x) = true := fun x hx => by rw [h x hx]; rfl
  have h_drop : (piece ++ c :: rest).dropWhile (fun c => !p c) = c :: rest := by
    rw [List.dropWhile_append_of_pos h_all, List.dropWhile_cons_of_neg (by simpa using hc)]
  rw [splitN, h_drop]
  simp only
  rw [List.takeWhile_append_of_pos h_all, List.takeWhile_cons_of_neg (by simpa using hc),
    List.append_nil]

/-- **Fields**, each with a separator behind it, and what remains. -/
theorem splitN_fields {p : Char → Bool} {c : Char} (hc : p c = true) {fields : List (List Char)}
    (h : ∀ field ∈ fields, ∀ x ∈ field, p x = false) (rest : List Char) :
    splitN p (fields.length + 1) (fields.flatMap (fun field => field ++ [c]) ++ rest) =
      fields ++ [rest] := by
  -- induction on the fields: each ends at its own separator
  induction fields with
  | nil => rfl
  | cons field fields ih =>
    obtain ⟨h_field, h_fields⟩ := List.forall_mem_cons.mp h
    calc splitN p (fields.length + 2)
          ((field :: fields).flatMap (fun field => field ++ [c]) ++ rest)
        = splitN p (fields.length + 2)
            (field ++ c :: (fields.flatMap (fun field => field ++ [c]) ++ rest)) := by simp
      _ = field :: splitN p (fields.length + 1)
            (fields.flatMap (fun field => field ++ [c]) ++ rest) := splitN_piece h_field hc _ _
      _ = field :: fields ++ [rest] := by rw [ih h_fields, List.cons_append]

/-! ### Trimming -/

theorem trimMatches_append_left {p : Char → Bool} {blank : List Char} (h : ∀ x ∈ blank, p x = true)
    (s : List Char) : trimMatches p (blank ++ s) = trimMatches p s := by
  unfold trimMatches
  rw [List.dropWhile_append_of_pos h]

theorem trimMatches_concat {p : Char → Bool} {c : Char} (hc : p c = true) (s : List Char) :
    trimMatches p (s ++ [c]) = trimMatches p s := by
  unfold trimMatches
  by_cases h_all : ∀ x ∈ s, p x = true
  · rw [List.dropWhile_append_of_pos h_all, List.dropWhile_eq_nil_iff.mpr h_all,
      List.dropWhile_cons_of_pos hc]
    rfl
  · have h_ne : s.dropWhile p ≠ [] := fun h_nil => h_all (List.dropWhile_eq_nil_iff.mp h_nil)
    have h_isEmpty : (s.dropWhile p).isEmpty = false := List.isEmpty_eq_false_iff.mpr h_ne
    rw [List.dropWhile_append, h_isEmpty]
    simp only [Bool.false_eq_true, if_false]
    rw [List.rdropWhile_concat_pos _ _ _ hc]

/-- Nothing is trimmed that neither begins nor ends with what is trimmed. -/
theorem trimMatches_eq_self {p : Char → Bool} {s : List Char} (h_first : ∀ x ∈ s.head?, p x = false)
    (h_last : ∀ x ∈ s.getLast?, p x = false) : trimMatches p s = s := by
  unfold trimMatches
  have h_drop : s.dropWhile p = s := by
    cases s with
    | nil => rfl
    | cons x s =>
      have hx : p x = false := h_first x rfl
      exact List.dropWhile_cons_of_neg (by rw [hx]; exact Bool.false_ne_true)
  rw [h_drop]
  refine List.rdropWhile_eq_self_iff.mpr fun h_ne => ?_
  rw [h_last _ (List.getLast?_eq_some_getLast h_ne)]
  exact Bool.false_ne_true

/-! ### Case -/

/-- A letter stays a letter, and everything else is left alone. -/
theorem toLower_cases (c : Char) :
    c.toLower = c ∨ (65 ≤ c.toNat ∧ c.toNat ≤ 90) ∧ c.toLower.toNat = c.toNat + 32 := by
  -- a capital letter is 32 below its small letter, and any other character is its own
  unfold Char.toLower
  split
  next h =>
    refine .inr ?_
    obtain ⟨h_low, h_high⟩ := h
    rw [ge_iff_le, UInt32.le_iff_toNat_le] at h_low
    rw [UInt32.le_iff_toNat_le] at h_high
    refine ⟨⟨h_low, h_high⟩, ?_⟩
    show (c.val + ('a'.val - 'A'.val)).toNat = c.val.toNat + 32
    rw [UInt32.toNat_add]
    have h_90 : c.val.toNat ≤ 90 := h_high
    exact Nat.mod_eq_of_lt (by show c.val.toNat + 32 < _; omega)
  next => exact .inl rfl

theorem isWhiteSpace_toLower (c : Char) : isWhiteSpace c.toLower = isWhiteSpace c := by
  rcases toLower_cases c with h_same | ⟨h_upper, h_lower⟩
  · rw [h_same]
  · have h_blank : ∀ d : Char, 65 ≤ d.toNat → d.toNat ≤ 122 → isWhiteSpace d = false := by
      intro d h_low h_high
      simp only [isWhiteSpace, Bool.or_eq_false_iff, Bool.and_eq_false_iff,
        decide_eq_false_iff_not]
      omega
    rw [h_blank c (by omega) (by omega), h_blank c.toLower (by omega) (by omega)]

theorem toLower_of_isWhiteSpace {c : Char} (h : isWhiteSpace c = true) : c.toLower = c := by
  rcases toLower_cases c with h_same | ⟨h_upper, -⟩
  · exact h_same
  · simp only [isWhiteSpace, Bool.or_eq_true, Bool.and_eq_true, decide_eq_true_eq] at h
    omega

/-! ### Occurrences -/

/-- A word that does not have a character is on one side of it. -/
theorem infix_append_cons_iff {w a b : List Char} {c : Char} (h : c ∉ w) :
    w <:+: a ++ c :: b ↔ w <:+: a ∨ w <:+: b := by
  refine ⟨?_, ?_⟩
  · rintro ⟨s, t, h_eq⟩
    rcases List.append_eq_append_iff.mp h_eq with ⟨u, rfl, -⟩ | ⟨u, h_sw, h_cb⟩
    · exact .inl ⟨s, u, rfl⟩
    · cases u with
      | nil =>
        rw [List.append_nil] at h_sw
        exact .inl ⟨s, [], by rw [List.append_nil, h_sw]⟩
      | cons x u =>
        obtain ⟨rfl, rfl⟩ := List.cons.inj h_cb
        -- where the word begins, the character has been passed
        rcases List.append_eq_append_iff.mp h_sw with ⟨v, -, rfl⟩ | ⟨v, -, h_v⟩
        · exact absurd (List.mem_append_right _ List.mem_cons_self) h
        · cases v with
          | nil =>
            rw [List.nil_append] at h_v
            exact absurd (h_v ▸ List.mem_cons_self) h
          | cons y v =>
            obtain ⟨-, rfl⟩ := List.cons.inj h_v
            exact .inr ⟨v, t, rfl⟩
  · rintro (h_a | h_b)
    · exact h_a.trans (List.prefix_append a (c :: b)).isInfix
    · exact h_b.trans ((List.suffix_cons c b).trans (List.suffix_append a (c :: b))).isInfix

/-- A word that does not have a character begins what is before it. -/
theorem prefix_append_cons_iff {w a b : List Char} {c : Char} (h : c ∉ w) :
    w <+: a ++ c :: b ↔ w <+: a := by
  refine ⟨?_, fun h_a => h_a.trans (List.prefix_append a (c :: b))⟩
  rintro ⟨t, h_eq⟩
  rcases List.append_eq_append_iff.mp h_eq with ⟨u, rfl, -⟩ | ⟨u, rfl, h_cb⟩
  · exact List.prefix_append w u
  · cases u with
    | nil => exact ⟨[], by rw [List.append_nil, List.append_nil]⟩
    | cons x u =>
      obtain ⟨rfl, -⟩ := List.cons.inj h_cb
      exact absurd (List.mem_append_right _ List.mem_cons_self) h

/-- A word without any of the characters of a text ends before it. -/
theorem prefix_append_iff {w a b : List Char} (h : ∀ c ∈ b, c ∉ w) : w <+: a ++ b ↔ w <+: a := by
  cases b with
  | nil => rw [List.append_nil]
  | cons c b => exact prefix_append_cons_iff (h c List.mem_cons_self)

/-- A word without any of the characters between two texts is in one of them. -/
theorem infix_append_append_iff {w b : List Char} (h : ∀ c ∈ b, c ∉ w) (h_ne : b ≠ [])
    (a d : List Char) : w <:+: a ++ b ++ d ↔ w <:+: a ∨ w <:+: d := by
  induction b generalizing a with
  | nil => exact absurd rfl h_ne
  | cons c b ih =>
    have hc : c ∉ w := h c List.mem_cons_self
    rw [List.append_assoc, List.cons_append, infix_append_cons_iff hc]
    by_cases h_nil : b = []
    · subst h_nil
      rfl
    · -- nothing of the word is between this character and the next
      have h_b := ih (fun x hx => h x (List.mem_cons_of_mem _ hx)) h_nil []
      rw [List.nil_append] at h_b
      rw [h_b, ← or_assoc]
      refine or_congr_left (or_iff_left_of_imp fun h_empty => ?_)
      rw [List.infix_nil.mp h_empty]
      exact List.nil_infix

/-- A word without any of the characters of a text is in what is before it. -/
theorem infix_append_iff {w b : List Char} (h : ∀ c ∈ b, c ∉ w) (a : List Char) :
    w <:+: a ++ b ↔ w <:+: a := by
  by_cases h_nil : b = []
  · rw [h_nil, List.append_nil]
  · have h_b := infix_append_append_iff h h_nil a []
    rw [List.append_nil] at h_b
    rw [h_b]
    refine or_iff_left_of_imp fun h_empty => ?_
    rw [List.infix_nil.mp h_empty]
    exact List.nil_infix

/-- A word without the characters that are escaped, or that they are written with. -/
def Plain (esc : Char → List Char) (w : List Char) : Prop :=
  ∀ c, esc c = [c] ∨ c ∉ w ∧ esc c ≠ [] ∧ ∀ d ∈ esc c, d ∉ w

/-- **A plain word begins the escaped text** where it begins the text. -/
theorem Plain.prefix_flatMap_iff {esc : Char → List Char} {w : List Char} (h : Plain esc w)
    (s : List Char) : w <+: s.flatMap esc ↔ w <+: s := by
  -- by induction on what is still to be escaped, behind what has been passed
  suffices h_front : ∀ front, w <+: front ++ s.flatMap esc ↔ w <+: front ++ s from h_front []
  induction s with
  | nil => exact fun _ => Iff.rfl
  | cons c s ih =>
    intro front
    rw [List.flatMap_cons]
    rcases h c with h_same | ⟨hc, h_ne, h_esc⟩
    · rw [h_same, List.append_cons front c s, ← List.append_assoc]
      exact ih (front ++ [c])
    · obtain ⟨d, rest, h_eq⟩ := List.exists_cons_of_ne_nil h_ne
      have hd : d ∉ w := h_esc d (by rw [h_eq]; exact List.mem_cons_self)
      rw [h_eq, List.cons_append, prefix_append_cons_iff hd, prefix_append_cons_iff hc]

/-- **A plain word is in the escaped text** where it is in the text. -/
theorem Plain.infix_flatMap_iff {esc : Char → List Char} {w : List Char} (h : Plain esc w)
    (s : List Char) : w <:+: s.flatMap esc ↔ w <:+: s := by
  suffices h_front : ∀ front, w <:+: front ++ s.flatMap esc ↔ w <:+: front ++ s from h_front []
  induction s with
  | nil => exact fun _ => Iff.rfl
  | cons c s ih =>
    intro front
    rw [List.flatMap_cons]
    rcases h c with h_same | ⟨hc, h_ne, h_esc⟩
    · rw [h_same, List.append_cons front c s, ← List.append_assoc]
      exact ih (front ++ [c])
    · -- the word is before the character or after it, escaped or not
      have h_rest := ih []
      rw [List.nil_append, List.nil_append] at h_rest
      rw [← List.append_assoc, infix_append_append_iff h_esc h_ne, infix_append_cons_iff hc, h_rest]

end Text
