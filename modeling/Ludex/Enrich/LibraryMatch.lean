import Ludex.Lib.Lines
import Ludex.Lib.Paths
import Ludex.Lib.Ranking

/-!
# The library entry of an executable

`best_match` of `lutris.rs` and `find_by_install_path` of `heroic.rs` look for the entry of a library
whose directory is the longest path prefix of an executable. The two are one search
(`longestMatch`): the entries whose directory is a component prefix, and of these the last one whose
directory has the most bytes.

More bytes are not more components. The entry found is one with the most components exactly when a
deepest match is also spelled longest (`isLongestPrefix_iff`), as it is where directories are spelled
with nothing but their components (`isLongestPrefix_of_canonical`).
-/

namespace Ludex

open Paths Ranking

/-- The bytes of a string. -/
def bytes (s : String) : List UInt8 := Lines.encode s.toList

namespace LibraryMatch

section Search

variable {γ : Type} (directory : γ → String)

/-- The directory of an entry is a component prefix of the path. -/
def Matches (exePath : List UInt8) (game : γ) : Bool := startsWith exePath (bytes (directory game))

/-- The number of components of the directory of an entry. -/
def depth (game : γ) : ℕ := (components (bytes (directory game))).length

/-- The number of bytes of the directory of an entry. -/
def spelledLength (game : γ) : ℕ := (bytes (directory game)).length

/-- The last of the matching entries that are spelled longest. -/
def longestMatch (games : List γ) (exePath : List UInt8) : Option γ :=
  maxByKey (spelledLength directory) (games.filter (Matches directory exePath))

/-- The result is a matching entry with the greatest number of components, if any entry matches. -/
def IsLongestPrefix (games : List γ) (exePath : List UInt8) : Option γ → Prop
  | none => ∀ game ∈ games, Matches directory exePath game = false
  | some found => found ∈ games ∧ Matches directory exePath found = true ∧
      ∀ game ∈ games, Matches directory exePath game = true →
        depth directory game ≤ depth directory found

/-- No entry matches, or one of the deepest matches is spelled at least as long as each match with
fewer components, and longer where that one comes later. -/
def DeepestSpelledLongest (games : List γ) (exePath : List UInt8) : Prop :=
  (∀ game ∈ games, Matches directory exePath game = false) ∨
    ∃ pre deepest post, games = pre ++ deepest :: post ∧ Matches directory exePath deepest = true ∧
      (∀ game ∈ games, Matches directory exePath game = true →
        depth directory game ≤ depth directory deepest) ∧
      (∀ game ∈ pre, Matches directory exePath game = true →
        depth directory game < depth directory deepest →
          spelledLength directory game ≤ spelledLength directory deepest) ∧
      ∀ game ∈ post, Matches directory exePath game = true →
        depth directory game < depth directory deepest →
          spelledLength directory game < spelledLength directory deepest

variable {directory} {games : List γ} {exePath : List UInt8}

theorem longestMatch_eq_none_iff :
    longestMatch directory games exePath = none ↔
      ∀ game ∈ games, Matches directory exePath game = false := by
  unfold longestMatch
  rw [maxByKey_eq_none_iff, List.filter_eq_nil_iff]
  simp

/-- **The entry found**: no match before it is spelled longer, and each one behind it shorter. -/
theorem longestMatch_eq_some_iff {found : γ} :
    longestMatch directory games exePath = some found ↔
      ∃ pre post, games = pre ++ found :: post ∧ Matches directory exePath found = true ∧
        (∀ game ∈ pre, Matches directory exePath game = true →
          spelledLength directory game ≤ spelledLength directory found) ∧
        ∀ game ∈ post, Matches directory exePath game = true →
          spelledLength directory game < spelledLength directory found := by
  unfold longestMatch
  rw [maxByKey_eq_some_iff]
  refine ⟨?_, ?_⟩
  · rintro ⟨pre, post, h_filter, h_pre, h_post⟩
    -- the place in the filtered list comes from one in the list
    obtain ⟨pre', rest, rfl, rfl, h_rest⟩ := List.filter_eq_append_iff.mp h_filter
    obtain ⟨skipped, post', rfl, h_skipped, h_found, rfl⟩ := List.filter_eq_cons_iff.mp h_rest
    refine ⟨pre' ++ skipped, post', by simp, h_found, ?_, ?_⟩
    · intro game h_mem h_match
      rcases List.mem_append.mp h_mem with h_mem | h_mem
      · exact h_pre game (List.mem_filter.mpr ⟨h_mem, h_match⟩)
      · exact absurd h_match (h_skipped game h_mem)
    · intro game h_mem h_match
      exact h_post game (List.mem_filter.mpr ⟨h_mem, h_match⟩)
  · rintro ⟨pre, post, rfl, h_found, h_pre, h_post⟩
    refine ⟨pre.filter (Matches directory exePath), post.filter (Matches directory exePath),
      ?_, ?_, ?_⟩
    · rw [List.filter_append, List.filter_cons_of_pos h_found]
    · intro game h_mem
      exact h_pre game (List.mem_filter.mp h_mem).1 (List.mem_filter.mp h_mem).2
    · intro game h_mem
      exact h_post game (List.mem_filter.mp h_mem).1 (List.mem_filter.mp h_mem).2

/-- **The search finds the longest prefix** exactly when a deepest match is spelled longest. -/
theorem isLongestPrefix_iff :
    IsLongestPrefix directory games exePath (longestMatch directory games exePath) ↔
      DeepestSpelledLongest directory games exePath := by
  cases h_search : longestMatch directory games exePath with
  | none =>
    have h_none := longestMatch_eq_none_iff.mp h_search
    exact iff_of_true h_none (Or.inl h_none)
  | some found =>
    obtain ⟨pre, post, h_games, h_found, h_pre, h_post⟩ := longestMatch_eq_some_iff.mp h_search
    refine ⟨?_, ?_⟩
    · -- the entry found is a deepest match, and spelled longest
      rintro ⟨-, -, h_deepest⟩
      exact Or.inr ⟨pre, found, post, h_games, h_found, h_deepest,
        fun game h_mem h_match _ => h_pre game h_mem h_match,
        fun game h_mem h_match _ => h_post game h_mem h_match⟩
    · have h_mem : found ∈ games := by
        rw [h_games]
        exact List.mem_append_right _ List.mem_cons_self
      rintro (h_none | ⟨pre', deepest, post', h_games', h_match, h_deepest, h_pre', h_post'⟩)
      · exact absurd h_found (by rw [h_none found h_mem]; decide)
      · refine ⟨h_mem, h_found, fun game h_game h_match_game => ?_⟩
        refine (h_deepest game h_game h_match_game).trans (not_lt.mp fun h_lt => ?_)
        -- a match with fewer components would have been replaced by the deepest one
        rw [h_games'] at h_games
        rcases eq_or_mem_of_append_cons_eq h_games with h_eq | ⟨h_before, h_after⟩ | ⟨h_before, h_after⟩
        · rw [h_eq] at h_lt
          exact lt_irrefl _ h_lt
        · have h_longer := h_post' found h_after h_found h_lt
          exact absurd (h_pre deepest h_before h_match) (not_le.mpr h_longer)
        · have h_longer := h_post deepest h_after h_match
          exact absurd (h_pre' found h_before h_found h_lt) (not_le.mpr h_longer)

/-- Where every matching directory is spelled with nothing but its components, the longest prefix is
found. -/
theorem isLongestPrefix_of_canonical
    (h : ∀ game ∈ games, Matches directory exePath game = true → Canonical (bytes (directory game))) :
    IsLongestPrefix directory games exePath (longestMatch directory games exePath) := by
  cases h_search : longestMatch directory games exePath with
  | none => exact longestMatch_eq_none_iff.mp h_search
  | some found =>
    obtain ⟨pre, post, h_games, h_found, h_pre, h_post⟩ := longestMatch_eq_some_iff.mp h_search
    have h_mem : found ∈ games := by
      rw [h_games]
      exact List.mem_append_right _ List.mem_cons_self
    have h_longest : ∀ game ∈ games, Matches directory exePath game = true →
        spelledLength directory game ≤ spelledLength directory found := by
      rw [h_games, List.forall_mem_append, List.forall_mem_cons]
      exact ⟨h_pre, fun _ => le_rfl, fun game h_game h_match => (h_post game h_game h_match).le⟩
    refine ⟨h_mem, h_found, fun game h_game h_match => not_lt.mp fun h_lt => ?_⟩
    -- a deeper match would be spelled longer
    have h_longer := length_lt_of_canonical h_found h_match (h found h_mem h_found)
      (h game h_game h_match) h_lt
    exact absurd (h_longest game h_game h_match) (not_le.mpr h_longer)

end Search

/-- Whether an entry is the right one can be looked up. -/
instance instDecidableIsLongestPrefix {γ : Type} [DecidableEq γ] (directory : γ → String)
    (games : List γ) (exePath : List UInt8) (result : Option γ) :
    Decidable (IsLongestPrefix directory games exePath result) :=
  match result with
  | none => inferInstanceAs (Decidable (∀ game ∈ games, Matches directory exePath game = false))
  | some found => inferInstanceAs (Decidable (found ∈ games ∧ _ ∧ _))

end LibraryMatch

open LibraryMatch

/-! ### The two libraries -/

namespace Lutris

/-- One row from Lutris's `games` table. -/
structure LutrisGame where
  name : String
  directory : String
deriving DecidableEq

/-- The row whose directory is the longest path-component prefix of the path. -/
def bestMatch (games : List LutrisGame) (exePath : List UInt8) : Option LutrisGame :=
  longestMatch LutrisGame.directory games exePath

end Lutris

namespace Heroic

/-- An installed game of a Heroic library. -/
structure HeroicGame where
  appName : String
  title : String
  developer : Option String
  installPath : String
  executable : Option String
deriving DecidableEq

/-- The longest path-component prefix match against the install path. -/
def findByInstallPath (games : List HeroicGame) (exePath : List UInt8) : Option HeroicGame :=
  longestMatch HeroicGame.installPath games exePath

end Heroic

/-- **Both searches find the longest prefix** exactly when a deepest match is spelled longest. -/
theorem libraryMatch_isLongestPrefix_iff (games : List Lutris.LutrisGame)
    (installed : List Heroic.HeroicGame) (exePath : List UInt8) :
    (IsLongestPrefix Lutris.LutrisGame.directory games exePath (Lutris.bestMatch games exePath) ↔
        DeepestSpelledLongest Lutris.LutrisGame.directory games exePath) ∧
      (IsLongestPrefix Heroic.HeroicGame.installPath installed exePath
          (Heroic.findByInstallPath installed exePath) ↔
        DeepestSpelledLongest Heroic.HeroicGame.installPath installed exePath) :=
  ⟨isLongestPrefix_iff, isLongestPrefix_iff⟩

/-- Nine slashes behind `/a` make it longer than `/a/b`. -/
theorem libraryMatch_prefers_slashes :
    Lutris.bestMatch [⟨"Outer", "/a/////////"⟩, ⟨"Inner", "/a/b"⟩] (bytes "/a/b/x.exe") =
        some ⟨"Outer", "/a/////////"⟩ ∧
      ¬ IsLongestPrefix Lutris.LutrisGame.directory
          [⟨"Outer", "/a/////////"⟩, ⟨"Inner", "/a/b"⟩] (bytes "/a/b/x.exe")
          (Lutris.bestMatch [⟨"Outer", "/a/////////"⟩, ⟨"Inner", "/a/b"⟩] (bytes "/a/b/x.exe")) ∧
      ¬ IsLongestPrefix Heroic.HeroicGame.installPath
          [⟨"outer", "Outer", none, "/a/////////", none⟩, ⟨"inner", "Inner", none, "/a/b", none⟩]
          (bytes "/a/b/x.exe")
          (Heroic.findByInstallPath
            [⟨"outer", "Outer", none, "/a/////////", none⟩, ⟨"inner", "Inner", none, "/a/b", none⟩]
            (bytes "/a/b/x.exe")) := by
  decide +kernel

end Ludex
