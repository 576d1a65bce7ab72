import Mathlib.Data.List.DropRight
import Ludex.Lib.Text

/-!
# Lines of a byte stream

Lines over an arbitrary alphabet with a terminator: `splitInclusive` cuts a list after every
terminator, `terminated` is the part of a list up to its last one, and `lines` are the lines of that
part. Complete lines compose: what is `Terminated` can be cut off at the front (`lines_append`).

The second half is about text. `decode` is UTF-8 decoding of a list of bytes. No character but the
line feed has the byte of the line feed in its encoding, so complete lines of bytes are decoded one
by one (`decode_append`, `splitInclusive_encode`). `textLines` are the lines of a text without their
ends, which may be written in either way (`textLines_line`).
-/

namespace Lines

section Lines

variable {α : Type} [DecidableEq α] {nl : α} {xs ys : List α}

/-- The pieces of a list, each but the last one ending with the terminator. -/
def splitInclusive (nl : α) : List α → List (List α)
  | [] => []
  | x :: xs =>
    if x = nl then [nl] :: splitInclusive nl xs
    else
      match splitInclusive nl xs with
      | [] => [[x]]
      | line :: rest => (x :: line) :: rest

/-- The list up to and including its last terminator. -/
def terminated (nl : α) (xs : List α) : List α := xs.rdropWhile fun x => x ≠ nl

/-- The complete lines of a list. -/
def lines (nl : α) (xs : List α) : List (List α) := splitInclusive nl (terminated nl xs)

/-- Nothing follows the last terminator. -/
def Terminated (nl : α) (xs : List α) : Prop := xs = [] ∨ ∃ ys, xs = ys ++ [nl]

theorem terminated_isPrefix (nl : α) (xs : List α) : terminated nl xs <+: xs :=
  List.rdropWhile_prefix _ xs

theorem terminated_isTerminated (nl : α) (xs : List α) : Terminated nl (terminated nl xs) := by
  by_cases h_nil : terminated nl xs = []
  · exact Or.inl h_nil
  · have h_last := List.rdropWhile_last_not (fun x => decide (x ≠ nl)) xs h_nil
    have h_nl : (terminated nl xs).getLast h_nil = nl :=
      not_not.mp fun h_ne => h_last (decide_eq_true h_ne)
    have h_split := (List.dropLast_append_getLast h_nil).symm
    rw [h_nl] at h_split
    exact Or.inr ⟨(terminated nl xs).dropLast, h_split⟩

theorem terminated_of_notMem (h : nl ∉ xs) : terminated nl xs = [] := by
  refine List.rdropWhile_eq_nil_iff.mpr fun x hx => ?_
  exact decide_eq_true fun h_eq => h (h_eq ▸ hx)

theorem terminated_ne_nil (h : nl ∈ xs) : terminated nl xs ≠ [] := fun h_nil => by
  simpa using List.rdropWhile_eq_nil_iff.mp h_nil nl h

theorem terminated_append_of_mem (h : nl ∈ ys) : terminated nl (xs ++ ys) = xs ++ terminated nl ys := by
  induction ys using List.reverseRecOn with
  | nil => exact absurd h List.not_mem_nil
  | append_singleton ys y ih =>
    unfold terminated at ih ⊢
    by_cases h_y : y = nl
    · rw [← List.append_assoc, List.rdropWhile_concat_neg _ _ _ (by simp [h_y]),
        List.rdropWhile_concat_neg _ _ _ (by simp [h_y]), List.append_assoc]
    · have h_mem : nl ∈ ys := by
        rcases List.mem_append.mp h with h | h
        · exact h
        · exact absurd (List.mem_singleton.mp h).symm h_y
      rw [← List.append_assoc, List.rdropWhile_concat_pos _ _ _ (by simp [h_y]),
        List.rdropWhile_concat_pos _ _ _ (by simp [h_y]), ih h_mem]

theorem terminated_append_of_notMem (h : nl ∉ ys) : terminated nl (xs ++ ys) = terminated nl xs := by
  induction ys using List.reverseRecOn with
  | nil => rw [List.append_nil]
  | append_singleton ys y ih =>
    rw [List.mem_append, List.mem_singleton, not_or] at h
    unfold terminated at ih ⊢
    rw [← List.append_assoc, List.rdropWhile_concat_pos _ _ _ (by simp [Ne.symm h.2]), ih h.1]

/-- The complete lines are those of any beginning of the list that they fit into. -/
theorem terminated_take {n : ℕ} (h : (terminated nl xs).length ≤ n) :
    terminated nl (xs.take n) = terminated nl xs := by
  have h_split := List.take_append_drop n xs
  by_cases h_mem : nl ∈ xs.drop n
  · -- a terminator further on would make them longer
    have h_all : terminated nl (xs.take n ++ xs.drop n) = xs.take n ++ terminated nl (xs.drop n) :=
      terminated_append_of_mem h_mem
    have h_len := congrArg List.length h_all
    rw [h_split, List.length_append, List.length_take_of_le] at h_len
    · have h_pos := List.length_pos_iff.mpr (terminated_ne_nil h_mem)
      omega
    · by_contra h_lt
      rw [List.drop_eq_nil_of_le (not_le.mp h_lt).le] at h_mem
      exact List.not_mem_nil h_mem
  · rw [← terminated_append_of_notMem h_mem, h_split]

theorem Terminated.eq (h : Terminated nl xs) : terminated nl xs = xs := by
  rcases h with rfl | ⟨ys, rfl⟩
  · rfl
  · exact List.rdropWhile_concat_neg _ _ _ (by simp)

/-- Complete lines at the front stay. -/
theorem Terminated.terminated_append (h : Terminated nl xs) (ys : List α) :
    terminated nl (xs ++ ys) = xs ++ terminated nl ys := by
  by_cases h_mem : nl ∈ ys
  · exact terminated_append_of_mem h_mem
  · rw [terminated_append_of_notMem h_mem, h.eq, terminated_of_notMem h_mem, List.append_nil]

omit [DecidableEq α] in
theorem Terminated.append (h : Terminated nl xs) (h' : Terminated nl ys) :
    Terminated nl (xs ++ ys) := by
  rcases h' with rfl | ⟨zs, rfl⟩
  · rwa [List.append_nil]
  · exact Or.inr ⟨xs ++ zs, (List.append_assoc _ _ _).symm⟩

/-! ### Cutting -/

@[simp] theorem splitInclusive_nil : splitInclusive nl [] = [] := rfl

theorem splitInclusive_cons_self (xs : List α) :
    splitInclusive nl (nl :: xs) = [nl] :: splitInclusive nl xs := by
  rw [splitInclusive, if_pos rfl]

/-- Elements that are no terminator go to the first piece. -/
theorem splitInclusive_append_of_notMem (h : nl ∉ xs) (h_ne : xs ≠ []) (ys : List α) :
    splitInclusive nl (xs ++ ys) =
      match splitInclusive nl ys with
      | [] => [xs]
      | line :: rest => (xs ++ line) :: rest := by
  -- induction on the body, which holds no line break, so the first one is in the rest
  induction xs with
  | nil => exact absurd rfl h_ne
  | cons x xs ih =>
    rw [List.mem_cons, not_or] at h
    rw [List.cons_append, splitInclusive, if_neg (Ne.symm h.1)]
    -- with an empty body the line is the one that follows
    by_cases h_nil : xs = []
    · subst h_nil
      rfl
    · rw [ih h.2 h_nil]
      cases splitInclusive nl ys with
      | nil => rfl
      | cons line rest => rfl

theorem splitInclusive_line (h : nl ∉ xs) (ys : List α) :
    splitInclusive nl (xs ++ nl :: ys) = (xs ++ [nl]) :: splitInclusive nl ys := by
  by_cases h_nil : xs = []
  · subst h_nil
    exact splitInclusive_cons_self ys
  · rw [splitInclusive_append_of_notMem h h_nil, splitInclusive_cons_self]

/-- **Complete lines at the front** are cut off as they are. -/
theorem splitInclusive_append (h : Terminated nl xs) (ys : List α) :
    splitInclusive nl (xs ++ ys) = splitInclusive nl xs ++ splitInclusive nl ys := by
  induction xs with
  | nil => rfl
  | cons x xs ih =>
    -- the rest is terminated too, or there is none
    have h_rest : x ≠ nl → xs ≠ [] ∧ Terminated nl xs := by
      intro h_x
      rcases h with h | ⟨zs, h⟩
      · exact nomatch h
      · cases zs with
        | nil =>
          injection h with h_eq h_nil
          exact absurd h_eq h_x
        | cons z zs =>
          injection h with h_eq h_tail
          subst h_tail
          exact ⟨by simp, Or.inr ⟨zs, rfl⟩⟩
    by_cases h_x : x = nl
    · subst h_x
      have h_tail : Terminated x xs := by
        rcases h with h | ⟨zs, h⟩
        · exact nomatch h
        · cases zs with
          | nil =>
            injection h with _ h_nil
            exact Or.inl h_nil
          | cons z zs =>
            injection h with _ h_tail
            exact Or.inr ⟨zs, h_tail⟩
      rw [List.cons_append, splitInclusive_cons_self, splitInclusive_cons_self, ih h_tail,
        List.cons_append]
    · obtain ⟨h_ne, h_tail⟩ := h_rest h_x
      rw [List.cons_append, splitInclusive, splitInclusive, if_neg h_x, if_neg h_x, ih h_tail]
      cases h_split : splitInclusive nl xs with
      | nil =>
        -- a list with elements has a first piece
        cases xs with
        | nil => exact absurd rfl h_ne
        | cons y xs =>
          rw [splitInclusive] at h_split
          split at h_split
          · exact nomatch h_split
          · split at h_split <;> exact nomatch h_split
      | cons line rest => rfl

/-- **Lines compose**: those of a list that starts with complete lines. -/
theorem lines_append (h : Terminated nl xs) (ys : List α) :
    lines nl (xs ++ ys) = lines nl xs ++ lines nl ys := by
  unfold lines
  rw [h.terminated_append, splitInclusive_append h, h.eq]

theorem lines_of_notMem (h : nl ∉ xs) : lines nl xs = [] := by
  unfold lines
  rw [terminated_of_notMem h]
  rfl

theorem Terminated.lines_eq (h : Terminated nl xs) : lines nl xs = splitInclusive nl xs := by
  unfold lines
  rw [h.eq]

theorem lines_terminated (nl : α) (xs : List α) : lines nl (terminated nl xs) = lines nl xs := by
  unfold lines
  rw [(terminated_isTerminated nl xs).eq]

theorem lines_line (h : nl ∉ xs) (ys : List α) :
    lines nl (xs ++ nl :: ys) = (xs ++ [nl]) :: lines nl ys := by
  have h_line : Terminated nl (xs ++ [nl]) := Or.inr ⟨xs, rfl⟩
  rw [List.append_cons, lines_append h_line, h_line.lines_eq, splitInclusive_line h]
  rfl

omit [DecidableEq α] in
/-- A list with a terminator starts with a line. -/
theorem exists_line (h : nl ∈ xs) : ∃ body ys, nl ∉ body ∧ xs = body ++ nl :: ys := by
  obtain ⟨body, ys, h_eq, h_body⟩ := List.eq_append_cons_of_mem h
  exact ⟨body, ys, h_body, h_eq⟩

/-- What is left behind complete lines is complete if the whole is. -/
theorem Terminated.of_append (h : Terminated nl (xs ++ ys)) (h_xs : Terminated nl xs) :
    Terminated nl ys := by
  have h_eq := h.eq
  rw [h_xs.terminated_append] at h_eq
  rw [← List.append_cancel_left h_eq]
  exact terminated_isTerminated nl ys

/-- **The lines of a list** are where they are: after complete lines, up to the next terminator. -/
theorem exists_of_mem_lines {line : List α} (h : line ∈ lines nl xs) :
    ∃ pre body post, Terminated nl pre ∧ nl ∉ body ∧ line = body ++ [nl] ∧
      xs = pre ++ (line ++ post) := by
  -- induction on the length: a line break splits off one line, and the rest is shorter
  induction h_len : xs.length using Nat.strong_induction_on generalizing xs with
  | _ n ih =>
    -- the line is the first one or lies in the rest
    by_cases h_mem : nl ∈ xs
    · obtain ⟨body, ys, h_body, rfl⟩ := exists_line h_mem
      rw [lines_line h_body] at h
      rcases List.mem_cons.mp h with rfl | h
      · exact ⟨[], body, ys, Or.inl rfl, h_body, rfl, by simp⟩
      · have h_lt : ys.length < n := by
          rw [← h_len, List.length_append, List.length_cons]
          omega
        obtain ⟨pre, body', post, h_pre, h_body', h_line, h_ys⟩ := ih ys.length h_lt h rfl
        refine ⟨(body ++ [nl]) ++ pre, body', post, ?_, h_body', h_line, ?_⟩
        · exact Terminated.append (Or.inr ⟨body, rfl⟩) h_pre
        · rw [h_ys, List.append_cons, List.append_assoc (body ++ [nl])]
    · -- with no line break there is no line at all
      rw [lines_of_notMem h_mem] at h
      exact absurd h List.not_mem_nil

theorem length_le_of_mem_lines {line : List α} (h : line ∈ lines nl xs) : line.length ≤ xs.length := by
  obtain ⟨pre, _, post, _, _, _, rfl⟩ := exists_of_mem_lines h
  exact (List.infix_append' pre line post).length_le

omit [DecidableEq α] in
/-- Complete lines that reach into a line contain it. -/
theorem Terminated.line_isPrefix {zs pre body post : List α} (h : Terminated nl zs)
    (h_body : nl ∉ body) (h_zs : zs <+: pre ++ ((body ++ [nl]) ++ post))
    (h_len : pre.length < zs.length) : pre ++ (body ++ [nl]) <+: zs := by
  have h_line : pre ++ (body ++ [nl]) <+: pre ++ ((body ++ [nl]) ++ post) :=
    (List.prefix_append_right_inj pre).mpr (List.prefix_append _ _)
  by_cases h_le : (pre ++ (body ++ [nl])).length ≤ zs.length
  · exact List.prefix_of_prefix_length_le h_line h_zs h_le
  -- otherwise the list ends inside the line, which has no terminator there
  · have h_inside : zs <+: pre ++ body := by
      refine List.prefix_of_prefix_length_le h_zs ?_ ?_
      · rw [List.append_assoc body, ← List.append_assoc pre]
        exact List.prefix_append _ _
      · rw [List.length_append, List.length_append, List.length_singleton] at h_le
        rw [List.length_append]
        omega
    obtain ⟨tail, rfl⟩ : pre <+: zs :=
      List.prefix_of_prefix_length_le (List.prefix_append _ _) h_inside h_len.le
    have h_tail : tail <+: body := (List.prefix_append_right_inj pre).mp h_inside
    rcases h with h | ⟨ys, h⟩
    · rw [h] at h_len
      exact absurd h_len (Nat.not_lt_zero _)
    · cases tail using List.reverseRecOn with
      | nil => simp at h_len
      | append_singleton tail x =>
        rw [← List.append_assoc] at h
        obtain ⟨-, h_x⟩ := List.append_inj' h rfl
        injection h_x with h_x
        refine absurd (h_tail.subset ?_) h_body
        rw [h_x]
        exact List.mem_append_right _ List.mem_cons_self

/-- The pieces of a list make it up. -/
theorem flatten_splitInclusive (nl : α) (xs : List α) : (splitInclusive nl xs).flatten = xs := by
  -- induction on the list: the pieces put together again are the list
  induction xs with
  | nil => rfl
  | cons x xs ih =>
    rw [splitInclusive]
    split
    next h_x => rw [List.flatten_cons, ih, h_x, List.singleton_append]
    next h_x =>
      -- the first piece is all there is, or the one the character joins
      split
      next h_nil =>
        rw [h_nil] at ih
        rw [← ih]
        rfl
      next line rest h_cons =>
        rw [h_cons] at ih
        rw [List.flatten_cons, List.cons_append, ← ih, List.flatten_cons]

theorem flatten_lines (nl : α) (xs : List α) : (lines nl xs).flatten = terminated nl xs :=
  flatten_splitInclusive nl _

end Lines

/-! ### Text -/

section Text

/-- The line feed, as a byte. -/
def lf : UInt8 := 10

/-- The bytes of a text in UTF-8. -/
def encode (cs : List Char) : List UInt8 := cs.flatMap String.utf8EncodeChar

/-- The text that bytes encode, if they are UTF-8. -/
def decode (bytes : List UInt8) : Option (List Char) :=
  bytes.toByteArray.utf8Decode?.map Array.toList

theorem decode_encode (cs : List Char) : decode (encode cs) = some cs := by
  show (List.utf8Encode cs).utf8Decode?.map Array.toList = some cs
  rw [List.utf8Decode?_utf8Encode]
  rfl

/-- **Decoding inverts encoding**, and nothing else is decoded. -/
theorem decode_eq_some {bytes : List UInt8} {cs : List Char} :
    decode bytes = some cs ↔ encode cs = bytes := by
  refine ⟨?_, ?_⟩
  · intro h
    obtain ⟨chars, h_decode, rfl⟩ := Option.map_eq_some_iff.mp h
    have h_some : bytes.toByteArray.utf8Decode?.isSome = true := by
      rw [h_decode]
      rfl
    have h_encode := ByteArray.utf8Encode_get_utf8Decode? (b := bytes.toByteArray) (h := h_some)
    simp only [h_decode, Option.get_some] at h_encode
    exact List.toByteArray_inj.mp h_encode
  · rintro rfl
    exact decode_encode cs

theorem encode_append (cs ds : List Char) : encode (cs ++ ds) = encode cs ++ encode ds :=
  List.flatMap_append

theorem encode_cons (c : Char) (cs : List Char) :
    encode (c :: cs) = String.utf8EncodeChar c ++ encode cs := rfl

theorem encodeChar_lf : String.utf8EncodeChar '\n' = [lf] := rfl

theorem lf_ne_ofNat {n : ℕ} (h : n < 256) (h_ne : n ≠ 10) : lf ≠ UInt8.ofNat n := by
  intro h_eq
  have h_nat := congrArg UInt8.toNat h_eq
  rw [UInt8.toNat_ofNat_of_lt' h] at h_nat
  exact h_ne h_nat.symm

/-- Only the line feed has the byte of the line feed. -/
theorem lf_notMem_encodeChar {c : Char} (h : c ≠ '\n') : lf ∉ String.utf8EncodeChar c := by
  have h_val : c.val.toNat ≠ 10 := fun h_eq => h (Char.ext (UInt32.toNat.inj h_eq))
  unfold String.utf8EncodeChar
  -- the bytes of a longer encoding are 128 and above
  simp only
  split
  · simp only [List.mem_singleton]
    exact lf_ne_ofNat (by omega) h_val
  · split
    · simp only [List.mem_cons, List.not_mem_nil, or_false, not_or]
      exact ⟨lf_ne_ofNat (by omega) (by omega), lf_ne_ofNat (by omega) (by omega)⟩
    · split
      · simp only [List.mem_cons, List.not_mem_nil, or_false, not_or]
        exact ⟨lf_ne_ofNat (by omega) (by omega), lf_ne_ofNat (by omega) (by omega),
          lf_ne_ofNat (by omega) (by omega)⟩
      · simp only [List.mem_cons, List.not_mem_nil, or_false, not_or]
        exact ⟨lf_ne_ofNat (by omega) (by omega), lf_ne_ofNat (by omega) (by omega),
          lf_ne_ofNat (by omega) (by omega), lf_ne_ofNat (by omega) (by omega)⟩

/-- The byte of a line feed in a text comes from a line feed. -/
theorem encode_split {cs : List Char} {xs ys : List UInt8} (h : encode cs = xs ++ lf :: ys) :
    ∃ as bs, cs = as ++ '\n' :: bs ∧ encode as = xs ∧ encode bs = ys := by
  induction cs generalizing xs with
  | nil => exact absurd h.symm (by simp [encode])
  | cons c cs ih =>
    rw [encode_cons] at h
    rcases List.append_eq_append_iff.mp h with ⟨zs, h_xs, h_rest⟩ | ⟨zs, h_char, h_rest⟩
    · obtain ⟨as, bs, rfl, rfl, rfl⟩ := ih h_rest
      refine ⟨c :: as, bs, rfl, ?_, rfl⟩
      rw [encode_cons, h_xs]
    · cases zs with
      | nil =>
        rw [List.append_nil] at h_char
        have h_tail : encode cs = [] ++ lf :: ys := h_rest.symm
        obtain ⟨as, bs, h_cs, h_as, rfl⟩ := ih h_tail
        refine ⟨c :: as, bs, by rw [h_cs]; rfl, ?_, rfl⟩
        rw [encode_cons, h_as, h_char, List.append_nil]
      | cons z zs =>
        -- the byte belongs to the encoding of this character
        injection h_rest with h_z h_ys
        by_cases h_c : c = '\n'
        · subst h_c
          rw [encodeChar_lf, ← h_z] at h_char
          obtain ⟨rfl, rfl⟩ : xs = [] ∧ zs = [] := by
            have h_len := congrArg List.length h_char
            simp only [List.length_append, List.length_cons, List.length_nil] at h_len
            exact ⟨List.length_eq_zero_iff.mp (by omega), List.length_eq_zero_iff.mp (by omega)⟩
          exact ⟨[], cs, rfl, rfl, h_ys.symm⟩
        · refine absurd ?_ (lf_notMem_encodeChar h_c)
          rw [h_char, ← h_z]
          exact List.mem_append_right _ List.mem_cons_self

/-- **Complete lines are decoded separately** from what follows. -/
theorem decode_append {xs : List UInt8} (h : Terminated lf xs) (ys : List UInt8) :
    decode (xs ++ ys) = (decode xs).bind fun cs => (decode ys).map fun ds => cs ++ ds := by
  -- the encoding of the whole splits at the break, and every part is the encoding of its text
  ext es
  rw [decode_eq_some, Option.bind_eq_some_iff]
  refine ⟨?_, ?_⟩
  · intro h_encode
    -- the first part is empty, or it ends with the break
    rcases h with rfl | ⟨zs, rfl⟩
    · exact ⟨[], decode_encode [], Option.map_eq_some_iff.mpr ⟨es, decode_eq_some.mpr h_encode, rfl⟩⟩
    · -- the encoding of a text is that of its parts
      rw [List.append_assoc] at h_encode
      obtain ⟨as, bs, rfl, rfl, rfl⟩ := encode_split h_encode
      refine ⟨as ++ ['\n'], ?_, Option.map_eq_some_iff.mpr ⟨bs, decode_encode bs, ?_⟩⟩
      · rw [decode_eq_some, encode_append]
        rfl
      · rw [List.append_assoc]
        rfl
  · -- and the other way round, the parts are put together
    rintro ⟨cs, h_cs, h_map⟩
    obtain ⟨ds, h_ds, rfl⟩ := Option.map_eq_some_iff.mp h_map
    rw [encode_append, decode_eq_some.mp h_cs, decode_eq_some.mp h_ds]

/-- Complete lines of a text are text. -/
theorem decode_take {xs : List UInt8} {n : ℕ} (h : (decode xs).isSome = true)
    (h_take : Terminated lf (xs.take n)) : (decode (xs.take n)).isSome = true := by
  rw [← List.take_append_drop n xs, decode_append h_take] at h
  exact Option.isSome_of_isSome_bind h

/-- The pieces of a text are encoded as the pieces of its encoding. -/
theorem splitInclusive_encode (cs : List Char) :
    splitInclusive lf (encode cs) = (splitInclusive '\n' cs).map encode := by
  -- induction on the text; a break stands for itself in the encoding
  induction cs with
  | nil => rfl
  | cons c cs ih =>
    rw [encode_cons]
    by_cases h_c : c = '\n'
    · subst h_c
      rw [encodeChar_lf, List.singleton_append, splitInclusive_cons_self, splitInclusive_cons_self,
        ih]
      rfl
    · -- no byte of another character is a line break, so it joins the piece that follows
      rw [splitInclusive_append_of_notMem (lf_notMem_encodeChar h_c) String.utf8EncodeChar_ne_nil,
        ih, splitInclusive, if_neg h_c]
      cases splitInclusive '\n' cs with
      | nil =>
        show [String.utf8EncodeChar c] = [encode [c]]
        rw [encode, List.flatMap_singleton]
      | cons line rest => rfl

/-- **Complete lines decode together** exactly when each of them decodes. -/
theorem decode_isSome_iff {xs : List UInt8} (h : Terminated lf xs) :
    (decode xs).isSome = true ↔ ∀ line ∈ splitInclusive lf xs, (decode line).isSome = true := by
  induction h_len : xs.length using Nat.strong_induction_on generalizing xs with
  | _ n ih =>
    by_cases h_mem : lf ∈ xs
    · obtain ⟨body, ys, h_body, rfl⟩ := exists_line h_mem
      have h_line : Terminated lf (body ++ [lf]) := Or.inr ⟨body, rfl⟩
      -- what follows the first line is complete too
      have h_rest : Terminated lf ys := by
        rw [List.append_cons] at h
        exact h.of_append h_line
      have h_lt : ys.length < n := by
        rw [← h_len, List.length_append, List.length_cons]
        omega
      rw [splitInclusive_line h_body, List.forall_mem_cons, ← ih ys.length h_lt h_rest rfl,
        List.append_cons, decode_append h_line]
      cases decode (body ++ [lf]) with
      | none => simp
      | some cs => simp
    · have h_nil : xs = [] := by
        rw [← h.eq]
        exact terminated_of_notMem h_mem
      subst h_nil
      rw [show decode [] = some [] from decode_encode []]
      simp

end Text

/-! ### Lines of a text -/

section TextLines

/-- How a line of a text ends. -/
inductive LineEnd where
  | lf
  | crlf
deriving DecidableEq, Repr

def LineEnd.chars : LineEnd → List Char
  | .lf => ['\n']
  | .crlf => ['\r', '\n']

/-- A piece of a text without the line end it may have. -/
def withoutEnd (piece : List Char) : List Char :=
  match Text.stripSuffix ['\n'] piece with
  | none => piece
  | some line => (Text.stripSuffix ['\r'] line).getD line

/-- The lines of a text, without their ends. Nothing follows the last line end. -/
def textLines (cs : List Char) : List (List Char) := (splitInclusive '\n' cs).map withoutEnd

theorem withoutEnd_of_notMem {line : List Char} (h : '\n' ∉ line) : withoutEnd line = line := by
  unfold withoutEnd
  cases h_strip : Text.stripSuffix ['\n'] line with
  | none => rfl
  | some rest =>
    rw [Text.eq_append_of_stripSuffix h_strip] at h
    exact absurd (List.mem_append_right _ List.mem_cons_self) h

/-- A line loses its end, and no more than that where it does not end in a carriage return. -/
theorem withoutEnd_append {line : List Char} (h : line.getLast? ≠ some '\r') (lineEnd : LineEnd) :
    withoutEnd (line ++ lineEnd.chars) = line := by
  unfold withoutEnd
  cases lineEnd with
  | lf =>
    rw [LineEnd.chars, Text.stripSuffix_append]
    cases h_strip : Text.stripSuffix ['\r'] line with
    | none => simp only [h_strip, Option.getD_none]
    | some rest =>
      rw [Text.eq_append_of_stripSuffix h_strip, List.getLast?_append_cons] at h
      exact absurd rfl h
  | crlf =>
    rw [LineEnd.chars, List.append_cons, Text.stripSuffix_append]
    simp only [Text.stripSuffix_append, Option.getD_some]

/-- **A line at the front** is cut off with its end. -/
theorem textLines_line {line : List Char} (h_lf : '\n' ∉ line) (h_cr : line.getLast? ≠ some '\r')
    (lineEnd : LineEnd) (rest : List Char) :
    textLines (line ++ (lineEnd.chars ++ rest)) = line :: textLines rest := by
  have h_pieces : splitInclusive '\n' (line ++ (lineEnd.chars ++ rest)) =
      (line ++ lineEnd.chars) :: splitInclusive '\n' rest := by
    cases lineEnd with
    | lf => exact splitInclusive_line h_lf rest
    | crlf =>
      -- the carriage return is the last character before the line feed
      have h_body : '\n' ∉ line ++ ['\r'] := by
        rw [List.mem_append]
        exact fun h => h.elim h_lf (by decide)
      have h_split := splitInclusive_line h_body rest
      rw [List.append_assoc, List.append_assoc] at h_split
      exact h_split
  unfold textLines
  rw [h_pieces, List.map_cons, withoutEnd_append h_cr]

/-- A last line that has no end is a line. -/
theorem textLines_last {line : List Char} (h_lf : '\n' ∉ line) (h_ne : line ≠ []) :
    textLines line = [line] := by
  unfold textLines
  have h_pieces := splitInclusive_append_of_notMem h_lf h_ne []
  rw [List.append_nil] at h_pieces
  rw [h_pieces]
  show [withoutEnd line] = [line]
  rw [withoutEnd_of_notMem h_lf]

end TextLines

end Lines
