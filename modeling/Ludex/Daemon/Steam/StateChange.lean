import Ludex.Daemon.Steam.ContentLog

/-!
# State changes in the content log

`parse_state_change` of `steam.rs` splits a line at the first `] AppID ` in it, what follows at the
first blank, and the rest at the commas. Here is the grammar of the lines that it accepts, without a
search (`Reports`), and what the flags in them say (`SaysRunning`). The parser returns exactly that
(`parseStateChange_eq_some_iff`).

What the flags say does not depend on their order, on a comma behind the last one, or on how the line
ends (`saysRunning_flagText`).
-/

namespace Ludex

namespace Steam

open Lines

/-! ### The grammar -/

/-- What precedes an appid. -/
def appidMark : List Char := "] AppID ".toList

/-- What precedes the flags. -/
def flagsMark : List Char := " state changed : ".toList

/-- One or more ASCII digits. -/
def IsAppid (appid : List Char) : Prop :=
  appid ≠ [] ∧ ∀ c ∈ appid, Text.isAsciiDigit c = true

/-- What follows the first mark in the line is an appid and its flags. -/
def Reports (line : List Char) (appid : String) (flags : List Char) : Prop :=
  IsAppid appid.toList ∧
    ∃ before, Text.SplitsFirst appidMark line before (appid.toList ++ (flagsMark ++ flags))

/-- One of the comma-separated flags, trimmed, is `App Running`. -/
def SaysRunning (flags : List Char) : Prop :=
  ∃ flag ∈ flags.splitOn ',', Text.trimMatches Text.isWhiteSpace flag = "App Running".toList

instance instDecidableSaysRunning (flags : List Char) : Decidable (SaysRunning flags) :=
  inferInstanceAs (Decidable (∃ flag ∈ flags.splitOn ',', _))

/-- Flags with commas between them, and perhaps one behind them, and the end of the line. -/
def flagText (flags : List (List Char)) (trailingComma : Bool) (lineEnd : Option LineEnd) :
    List Char :=
  [','].intercalate flags ++ ((if trailingComma then [','] else []) ++ lineEnd.elim [] LineEnd.chars)

/-! ### What the flags say -/

theorem lf_isWhiteSpace : Text.isWhiteSpace '\n' = true := by decide

/-- Blank space at the end changes nothing. -/
theorem saysRunning_append {blank : List Char} (h_white : ∀ c ∈ blank, Text.isWhiteSpace c = true)
    (h_comma : ',' ∉ blank) (flags : List Char) : SaysRunning (flags ++ blank) ↔ SaysRunning flags := by
  obtain ⟨pieces, last, h_flags, h_blank⟩ := Text.splitOn_append_right h_comma flags
  unfold SaysRunning
  rw [h_flags, h_blank]
  simp only [List.mem_append, List.mem_singleton, or_and_right, exists_or, exists_eq_left,
    Text.trimMatches_append h_white]

/-- A comma at the end begins a flag that is empty. -/
theorem saysRunning_append_comma (flags : List Char) :
    SaysRunning (flags ++ [',']) ↔ SaysRunning flags := by
  have h_empty : Text.trimMatches Text.isWhiteSpace [] ≠ "App Running".toList := by decide
  unfold SaysRunning
  rw [List.splitOn_append_cons_self, List.splitOn_nil]
  simp only [List.mem_append, List.mem_singleton, or_and_right, exists_or, exists_eq_left, h_empty,
    or_false]

theorem lineEnd_white (lineEnd : Option LineEnd) :
    (∀ c ∈ lineEnd.elim [] LineEnd.chars, Text.isWhiteSpace c = true) ∧
      ',' ∉ lineEnd.elim [] LineEnd.chars := by
  cases lineEnd with
  | none => exact ⟨nofun, List.not_mem_nil⟩
  | some lineEnd =>
    cases lineEnd with
    | lf => exact ⟨List.forall_mem_singleton.mpr (by decide), by decide⟩
    | crlf =>
      exact ⟨List.forall_mem_cons.mpr ⟨by decide, List.forall_mem_singleton.mpr (by decide)⟩, by decide⟩

/-- **The flags decide**, in any order, with or without a comma behind them, and with any line end. -/
theorem saysRunning_flagText {flags : List (List Char)} (h : ∀ flag ∈ flags, ',' ∉ flag)
    (trailingComma : Bool) (lineEnd : Option LineEnd) :
    SaysRunning (flagText flags trailingComma lineEnd) ↔
      ∃ flag ∈ flags, Text.trimMatches Text.isWhiteSpace flag = "App Running".toList := by
  obtain ⟨h_white, h_comma⟩ := lineEnd_white lineEnd
  have h_flags : SaysRunning ([','].intercalate flags) ↔
      ∃ flag ∈ flags, Text.trimMatches Text.isWhiteSpace flag = "App Running".toList := by
    by_cases h_nil : flags = []
    · -- an empty list is written like a list of one empty flag
      subst h_nil
      unfold SaysRunning
      rw [List.intercalate_nil, List.splitOn_nil]
      decide
    · unfold SaysRunning
      rw [List.splitOn_intercalate ',' h h_nil]
  unfold flagText
  rw [← List.append_assoc, saysRunning_append h_white h_comma, ← h_flags]
  cases trailingComma with
  | true => exact saysRunning_append_comma _
  | false => rw [if_neg Bool.false_ne_true, List.append_nil]

/-- The line feeds that are cut off first are trimmed anyway. -/
theorem any_flag_iff (flags : List Char) :
    ((flags.rdropWhile fun c => c = '\n').splitOn ',').any (fun flag =>
        Text.trimMatches Text.isWhiteSpace flag = "App Running".toList) = true ↔
      SaysRunning flags := by
  -- only line breaks were dropped at the end of the line
  have h_blank : ∀ c ∈ flags.rtakeWhile fun c => c = '\n', c = '\n' := fun c hc =>
    of_decide_eq_true (List.mem_rtakeWhile_imp (p := fun c => decide (c = '\n')) hc)
  -- they are blanks, which the trimming takes away
  have h_white : ∀ c ∈ flags.rtakeWhile fun c => c = '\n', Text.isWhiteSpace c = true := fun c hc =>
    h_blank c hc ▸ lf_isWhiteSpace
  -- and no commas, so they belong to the last flag
  have h_comma : ',' ∉ flags.rtakeWhile fun c => c = '\n' := fun h_mem =>
    absurd (h_blank ',' h_mem) (by decide)
  have h_split := List.rdropWhile_append_rtakeWhile (p := fun c => decide (c = '\n')) (l := flags)
  rw [List.any_eq_true]
  simp only [decide_eq_true_eq]
  conv_rhs => rw [← h_split]
  exact (saysRunning_append h_white h_comma _).symm

/-! ### The parser -/

theorem IsAppid.space_notMem {appid : List Char} (h : IsAppid appid) : ' ' ∉ appid := fun h_mem =>
  absurd (h.2 ' ' h_mem) (by decide)

theorem isAppid_iff {appid : List Char} :
    IsAppid appid ↔ ¬ (!appid.all Text.isAsciiDigit || appid.isEmpty) = true := by
  unfold IsAppid
  rw [Bool.or_eq_true, not_or, Bool.not_eq_true', Bool.not_eq_false, List.all_eq_true,
    List.isEmpty_iff, and_comm]

/-- **The parser accepts exactly the reports**, and returns what the flags say. -/
theorem parseStateChange_eq_some_iff {line : List Char} {appid : String} {isRunning : Bool} :
    parseStateChange line = some (appid, isRunning) ↔
      ∃ flags, Reports line appid flags ∧ (isRunning = true ↔ SaysRunning flags) := by
  unfold parseStateChange Reports
  simp only [Option.bind_eq_bind, Option.bind_eq_some_iff, Prod.exists]
  refine ⟨?_, ?_⟩
  · rintro ⟨before, rest, h_mark, digits, rest', h_space, h⟩
    split at h
    · exact nomatch h
    next h_digits =>
      obtain ⟨flags, h_flags, h_some⟩ := Option.bind_eq_some_iff.mp h
      obtain ⟨rfl, rfl⟩ := Prod.mk.inj (Option.some.inj h_some)
      have h_rest := Text.eq_append_of_splitOnce h_space
      rw [Text.eq_append_of_stripPrefix h_flags] at h_rest
      rw [Text.splitOnce_eq_some_iff, h_rest] at h_mark
      refine ⟨flags, ⟨?_, before, ?_⟩, any_flag_iff flags⟩
      · rw [String.toList_ofList]
        exact isAppid_iff.mpr h_digits
      · rw [String.toList_ofList]
        exact h_mark
  · rintro ⟨flags, ⟨h_appid, before, h_mark⟩, h_running⟩
    refine ⟨before, _, Text.splitOnce_eq_some_iff.mpr h_mark, appid.toList,
      "state changed : ".toList ++ flags, ?_, ?_⟩
    · -- there is no blank in an appid, so the first one is behind it
      exact Text.splitOnce_singleton h_appid.space_notMem _
    · rw [if_neg (isAppid_iff.mp h_appid), Text.stripPrefix_append, Option.bind_some,
        String.ofList_toList]
      refine congrArg (fun r => some (appid, r)) ?_
      rw [Bool.eq_iff_iff, h_running]
      exact any_flag_iff flags

/-- A line with other flags in their place is a report about the same game. -/
theorem Reports.rewrite {front flags : List Char} {appid : String}
    (h : Reports (front ++ flags) appid flags) (flags' : List Char) :
    Reports (front ++ flags') appid flags' := by
  obtain ⟨h_appid, before, h_first⟩ := h
  have h_front : front = before ++ (appidMark ++ (appid.toList ++ flagsMark)) := by
    have h_eq := h_first.1
    simp only [← List.append_assoc] at h_eq ⊢
    exact List.append_cancel_right h_eq
  have h_line : front ++ flags' = before ++ (appidMark ++ (appid.toList ++ (flagsMark ++ flags'))) := by
    rw [h_front]
    simp only [List.append_assoc]
  refine ⟨h_appid, before, ?_⟩
  rw [h_line]
  exact h_first.rewrite _

/-- **The parser accepts exactly its grammar.** The order of the flags, a comma behind the last one and
the end of the line make no difference. -/
theorem parseStateChange_grammar (appid : String) :
    (∀ line isRunning, parseStateChange line = some (appid, isRunning) ↔
        ∃ flags, Reports line appid flags ∧ (isRunning = true ↔ SaysRunning flags)) ∧
      ∀ (front : List Char) (flags flags' : List (List Char)) (comma comma' : Bool)
        (lineEnd lineEnd' : Option LineEnd), (∀ flag ∈ flags, ',' ∉ flag) → flags.Perm flags' →
        Reports (front ++ flagText flags comma lineEnd) appid (flagText flags comma lineEnd) →
          Reports (front ++ flagText flags' comma' lineEnd') appid (flagText flags' comma' lineEnd') ∧
            parseStateChange (front ++ flagText flags' comma' lineEnd') =
              parseStateChange (front ++ flagText flags comma lineEnd) := by
  refine ⟨fun line isRunning => parseStateChange_eq_some_iff, ?_⟩
  intro front flags flags' comma comma' lineEnd lineEnd' h_comma h_perm h_reports
  have h_reports' := h_reports.rewrite (flagText flags' comma' lineEnd')
  have h_comma' : ∀ flag ∈ flags', ',' ∉ flag := fun flag h_mem =>
    h_comma flag (h_perm.mem_iff.mpr h_mem)
  have h_same : SaysRunning (flagText flags comma lineEnd) ↔
      SaysRunning (flagText flags' comma' lineEnd') := by
    rw [saysRunning_flagText h_comma, saysRunning_flagText h_comma']
    exact exists_congr fun flag => and_congr_left fun _ => h_perm.mem_iff
  refine ⟨h_reports', ?_⟩
  -- both lines are read as what their flags say
  rw [parseStateChange_eq_some_iff.mpr ⟨_, h_reports, decide_eq_true_iff⟩]
  exact parseStateChange_eq_some_iff.mpr ⟨_, h_reports', decide_eq_true_iff.trans h_same⟩

example :
    parseStateChange "[x] AppID 440 state changed : Not App Running,App Running Soon,\r\n".toList =
      some ("440", false) := by
  decide +kernel

end Steam

end Ludex
