import Ludex.Lib.Text
import Ludex.Core.Identity
import Ludex.Core.RepoRun
import Ludex.Core.Snapshots
import Ludex.Enrich.LibraryMatch

/-!
# The GOG enricher

`gog.rs` looks for a `goggame-*.info` file with a name in it, in the directory of an executable and
up to two directories above. A directory is a list of entries in the order in which they are read,
and the JSON reader is a parameter.

A file that cannot be read, is no JSON object of the right shape, or has no name field ends the
search of its directory; one with a blank name is passed over. So a file that would do is found
exactly when one comes before every such file (`tryDirectory_isSome_iff`), and the nearest directory
with a good file is taken exactly when this is so in it (`enrich_takesNearest_iff`).
-/

namespace Ludex

open Paths ApplicationRepo

namespace Gog

/-- `PARENT_WALK_DEPTH` -/
def parentWalkDepth : ℕ := 3

/-- A JSON value, as far as a version is made of it. -/
inductive JsonValue where
  | string (s : String)
  /-- A number with the text it is written as. -/
  | number (text : String)
  | other
deriving DecidableEq

/-- The fields that are read of an info file. -/
structure GogInfo where
  name : Option String
  version : Option JsonValue

/-- An entry of a directory. -/
structure DirEntry where
  /-- The file name, if it is UTF-8. -/
  fileName : Option String
  /-- The bytes of the file, if it can be read. -/
  content : Option (List UInt8)
deriving DecidableEq

/-- What listing a directory gives: `none` if it cannot be opened, and an entry is `none` where the
listing fails. -/
abbrev Listing := Option (List (Option DirEntry))

/-- The directories of a file system. -/
abbrev Directories := List Component → Listing

/-- The version, if it is a text or a number. -/
def valueToVersionString : JsonValue → Option String
  | .string s => if Text.trimIsEmpty s then none else some s
  | .number text => some text
  | .other => none

/-- Is it called like an info file? The extension may be written in capitals. -/
def isInfoFile (entry : DirEntry) : Bool :=
  match entry.fileName with
  | none => false
  | some fileName =>
    "goggame-".toList.isPrefixOf fileName.toList &&
      (Backup.extension fileName.toList).any fun ext => ext.map Char.toLower = "info".toList

/-- A file that was matched: its directory, its name, and the update made of it. -/
structure Matched where
  dir : List Component
  fileName : Option String
  update : IdentityUpdate
deriving DecidableEq

section Search

variable (parseInfo : List UInt8 → Option GogInfo) (dirs : Directories)

/-- Go through the entries of a directory. -/
def tryEntries (dir : List Component) : List (Option DirEntry) → Option Matched
  | [] => none
  | none :: _ => none
  | some entry :: rest =>
    if !isInfoFile entry then tryEntries dir rest
    else
      match entry.content with
      | none => none
      | some bytes =>
        match parseInfo bytes with
        | none => none
        | some info =>
          match info.name with
          | none => none
          | some productName =>
            if Text.trimIsEmpty productName then tryEntries dir rest
            else
              some ⟨dir, entry.fileName,
                { productName := some productName
                  version := info.version.bind valueToVersionString }⟩

/-- Look for an info file in a directory. -/
def tryDirectory (dir : List Component) : Option Matched :=
  (dirs dir).bind (tryEntries parseInfo dir)

/-- Look in a directory and in those above it, so many in all. -/
def walk : ℕ → List Component → Option Matched
  | 0, _ => none
  | n + 1, cursor =>
    match tryDirectory parseInfo dirs cursor with
    | some found => some found
    | none =>
      match parent cursor with
      | some above => walk n above
      | none => none

/-- Look for the info file of an application. -/
def search (app : Application) : Option Matched := do
  let exe ← app.executablePath
  let start ← parent (components (bytes exe))
  walk parseInfo dirs parentWalkDepth start

/-- Enrich an application from a nearby info file. -/
def enrich (app : Application) : Option IdentityUpdate :=
  (search parseInfo dirs app).map Matched.update

/-! ### Good files -/

/-- The name that is read from a file, and the version next to it. -/
def readName (entry : DirEntry) : Option (String × Option JsonValue) := do
  let bytes ← entry.content
  let info ← parseInfo bytes
  let name ← info.name
  return (name, info.version)

/-- The update made of an entry that is a readable info file with a name that is not blank. -/
def goodUpdate (entry : DirEntry) : Option IdentityUpdate :=
  if isInfoFile entry then
    match readName parseInfo entry with
    | none => none
    | some (name, version) =>
      if Text.trimIsEmpty name then none
      else some { productName := some name, version := version.bind valueToVersionString }
  else none

/-- The search does not end in failure at the entry: it is no info file, or one with a name. -/
def passes (entry : DirEntry) : Bool := !isInfoFile entry || (readName parseInfo entry).isSome

/-- A good file is in the directory. -/
def HasGood (dir : List Component) : Prop :=
  ∃ entries ∈ dirs dir, ∃ entry, some entry ∈ entries ∧ (goodUpdate parseInfo entry).isSome = true

/-- A good file is in the directory, and in the order in which it is listed no failure and no info
file without a name comes before it. -/
def GoodFirst (dir : List Component) : Prop :=
  ∃ entries ∈ dirs dir, ∃ pre entry post, entries = pre ++ some entry :: post ∧
    (goodUpdate parseInfo entry).isSome = true ∧
      ∀ e ∈ pre, ∃ entry', e = some entry' ∧ passes parseInfo entry' = true

/-- The directories looked into, the nearest one first. -/
def walked : ℕ → List Component → List (List Component)
  | 0, _ => []
  | n + 1, cursor =>
    cursor :: match parent cursor with
      | some above => walked n above
      | none => []

/-- The directories looked into for an application. -/
def searched (app : Application) : List (List Component) :=
  match app.executablePath.bind fun exe => parent (components (bytes exe)) with
  | none => []
  | some start => walked parentWalkDepth start

/-- The directory is the nearest one with a good file. -/
def IsNearest (dirsWalked : List (List Component)) (dir : List Component) : Prop :=
  ∃ pre post, dirsWalked = pre ++ dir :: post ∧ HasGood parseInfo dirs dir ∧
    ∀ d ∈ pre, ¬ HasGood parseInfo dirs d

/-- The result is made of a good file in the nearest directory with one, if there is one at all. -/
def TakesNearest (dirsWalked : List (List Component)) : Option Matched → Prop
  | none => ∀ dir ∈ dirsWalked, ¬ HasGood parseInfo dirs dir
  | some found => IsNearest parseInfo dirs dirsWalked found.dir ∧
      ∃ entries ∈ dirs found.dir, ∃ entry, some entry ∈ entries ∧
        entry.fileName = found.fileName ∧ goodUpdate parseInfo entry = some found.update

/-! ### One directory -/

variable {parseInfo dirs}

/-- **One entry**: a good file is taken, one that is passed is followed by the rest, and any other ends
the search. -/
theorem tryEntries_cons (dir : List Component) (entry : DirEntry) (rest : List (Option DirEntry)) :
    tryEntries parseInfo dir (some entry :: rest) =
      match goodUpdate parseInfo entry with
      | some update => some ⟨dir, entry.fileName, update⟩
      | none => if passes parseInfo entry then tryEntries parseInfo dir rest else none := by
  rw [tryEntries, goodUpdate, passes, readName]
  cases isInfoFile entry with
  | false => rfl
  | true =>
    -- the file is read, then parsed, then asked for its name
    cases entry.content with
    | none => rfl
    | some content =>
      show (match parseInfo content with | none => none | some info => _) = _
      cases h_parse : parseInfo content with
      | none => simp [h_parse]
      | some info =>
        cases h_name : info.name with
        | none => simp [h_parse, h_name]
        | some name => cases h_blank : Text.trimIsEmpty name <;> simp [h_parse, h_name, h_blank]

/-- What is found is made of a good file of the directory. -/
theorem tryEntries_some {dir : List Component} {entries : List (Option DirEntry)} {found : Matched}
    (h : tryEntries parseInfo dir entries = some found) :
    found.dir = dir ∧ ∃ entry, some entry ∈ entries ∧ entry.fileName = found.fileName ∧
      goodUpdate parseInfo entry = some found.update := by
  -- induction on the entries: a good one is taken, and one that is not good is passed over
  induction entries with
  | nil => exact nomatch h
  -- an entry that cannot be read ends the directory
  | cons e rest ih =>
    cases e with
    | none => exact nomatch h
    | some entry =>
      rw [tryEntries_cons] at h
      cases h_good : goodUpdate parseInfo entry with
      | some update =>
        rw [h_good] at h
        obtain rfl := Option.some.inj h
        exact ⟨rfl, entry, List.mem_cons_self, rfl, h_good⟩
      | none =>
        simp only [h_good] at h
        split at h
        · obtain ⟨h_dir, entry', h_mem, h_entry⟩ := ih h
          exact ⟨h_dir, entry', List.mem_cons_of_mem _ h_mem, h_entry⟩
        · exact nomatch h

/-- **A directory is searched successfully** exactly when a good file comes before every failure. -/
theorem tryEntries_isSome_iff {dir : List Component} {entries : List (Option DirEntry)} :
    (tryEntries parseInfo dir entries).isSome = true ↔
      ∃ pre entry post, entries = pre ++ some entry :: post ∧
        (goodUpdate parseInfo entry).isSome = true ∧
          ∀ e ∈ pre, ∃ entry', e = some entry' ∧ passes parseInfo entry' = true := by
  induction entries with
  | nil => exact iff_of_false (fun h => nomatch h) (by simp)
  | cons e rest ih =>
    refine ⟨?_, ?_⟩
    · intro h
      cases e with
      | none => exact nomatch h
      | some entry =>
        rw [tryEntries_cons] at h
        cases h_good : goodUpdate parseInfo entry with
        | some update => exact ⟨[], entry, rest, rfl, by rw [h_good]; rfl, by simp⟩
        | none =>
          -- the loop goes on behind an entry that is passed, and ends at any other
          simp only [h_good] at h
          split at h
          next h_passes =>
            obtain ⟨pre, entry', post, rfl, h_entry', h_pre⟩ := ih.mp h
            refine ⟨some entry :: pre, entry', post, rfl, h_entry', ?_⟩
            rw [List.forall_mem_cons]
            exact ⟨⟨entry, rfl, h_passes⟩, h_pre⟩
          next => exact nomatch h
    · rintro ⟨pre, entry, post, h_split, h_entry, h_pre⟩
      cases pre with
      | nil =>
        injection h_split with h_e _
        subst h_e
        obtain ⟨update, h_good⟩ := Option.isSome_iff_exists.mp h_entry
        rw [tryEntries_cons, h_good]
        rfl
      | cons e' pre =>
        injection h_split with h_e h_rest
        rw [List.forall_mem_cons] at h_pre
        obtain ⟨⟨entry', rfl, h_passes⟩, h_pre⟩ := h_pre
        subst h_e
        have h_tail := ih.mpr ⟨pre, entry, post, h_rest, h_entry, h_pre⟩
        rw [tryEntries_cons]
        cases goodUpdate parseInfo entry' with
        | some update => rfl
        | none =>
          simp only
          rwa [if_pos h_passes]

theorem tryDirectory_isSome_iff {dir : List Component} :
    (tryDirectory parseInfo dirs dir).isSome = true ↔ GoodFirst parseInfo dirs dir := by
  unfold tryDirectory GoodFirst
  cases dirs dir with
  | none => simp
  | some entries => simp [tryEntries_isSome_iff]

theorem tryDirectory_some {dir : List Component} {found : Matched}
    (h : tryDirectory parseInfo dirs dir = some found) :
    found.dir = dir ∧ ∃ entries ∈ dirs dir, ∃ entry, some entry ∈ entries ∧
      entry.fileName = found.fileName ∧ goodUpdate parseInfo entry = some found.update := by
  obtain ⟨entries, h_entries, h_try⟩ := Option.bind_eq_some_iff.mp h
  obtain ⟨h_dir, h_entry⟩ := tryEntries_some h_try
  exact ⟨h_dir, entries, h_entries, h_entry⟩

theorem GoodFirst.hasGood {dir : List Component} (h : GoodFirst parseInfo dirs dir) :
    HasGood parseInfo dirs dir := by
  obtain ⟨entries, h_entries, pre, entry, post, h_split, h_good, -⟩ := h
  refine ⟨entries, h_entries, entry, ?_, h_good⟩
  rw [h_split]
  exact List.mem_append_right _ List.mem_cons_self

/-! ### The walk -/

/-- **The walk** takes the first directory whose search succeeds. -/
theorem walk_eq (n : ℕ) (cursor : List Component) :
    walk parseInfo dirs n cursor = (walked n cursor).findSome? (tryDirectory parseInfo dirs) := by
  induction n generalizing cursor with
  | zero => rfl
  | succ n ih =>
    rw [walk, walked, List.findSome?_cons]
    cases tryDirectory parseInfo dirs cursor with
    | some found => rfl
    | none =>
      cases parent cursor with
      | none => rfl
      | some above => exact ih above

theorem search_eq (app : Application) :
    search parseInfo dirs app = (searched app).findSome? (tryDirectory parseInfo dirs) := by
  unfold search searched
  cases app.executablePath with
  | none => rfl
  | some exe =>
    simp only [Option.bind_eq_bind, Option.bind_some]
    cases parent (components (bytes exe)) with
    | none => rfl
    | some start => exact walk_eq parentWalkDepth start

/-- Where there is a directory with a good file, there is a nearest one. -/
theorem exists_isNearest {dirsWalked : List (List Component)} {dir : List Component}
    (h_mem : dir ∈ dirsWalked) (h : HasGood parseInfo dirs dir) :
    ∃ nearest, IsNearest parseInfo dirs dirsWalked nearest := by
  -- induction on the directories: the first good one has none before it
  induction dirsWalked with
  | nil => exact absurd h_mem List.not_mem_nil
  | cons d rest ih =>
    by_cases h_d : HasGood parseInfo dirs d
    · exact ⟨d, [], rest, rfl, h_d, by simp⟩
    · have h_rest : dir ∈ rest := by
        rcases List.mem_cons.mp h_mem with rfl | h_rest
        · exact absurd h h_d
        · exact h_rest
      obtain ⟨nearest, pre, post, rfl, h_good, h_pre⟩ := ih h_rest
      refine ⟨nearest, d :: pre, post, rfl, h_good, ?_⟩
      rw [List.forall_mem_cons]
      exact ⟨h_d, h_pre⟩

theorem IsNearest.append {pre : List (List Component)} {dir : List Component}
    (h : IsNearest parseInfo dirs pre dir) (post : List (List Component)) :
    IsNearest parseInfo dirs (pre ++ post) dir := by
  obtain ⟨before, after, rfl, h_good, h_before⟩ := h
  exact ⟨before, after ++ post, by simp, h_good, h_before⟩

theorem IsNearest.unique {dirsWalked : List (List Component)} {dir dir' : List Component}
    (h : IsNearest parseInfo dirs dirsWalked dir) (h' : IsNearest parseInfo dirs dirsWalked dir') :
    dir = dir' := by
  obtain ⟨pre, post, rfl, h_good, h_pre⟩ := h
  obtain ⟨pre', post', h_split, h_good', h_pre'⟩ := h'
  rcases Ranking.eq_or_mem_of_append_cons_eq h_split with h_eq | ⟨h_mem, -⟩ | ⟨h_mem, -⟩
  · exact h_eq
  · exact absurd h_good (h_pre' dir h_mem)
  · exact absurd h_good' (h_pre dir' h_mem)

theorem IsNearest.mem {dirsWalked : List (List Component)} {dir : List Component}
    (h : IsNearest parseInfo dirs dirsWalked dir) : dir ∈ dirsWalked := by
  obtain ⟨pre, post, rfl, -, -⟩ := h
  exact List.mem_append_right _ List.mem_cons_self

/-- **The nearest directory is taken** exactly when its good file comes before every failure in it. -/
theorem takesNearest_iff (dirsWalked : List (List Component)) :
    TakesNearest parseInfo dirs dirsWalked
        (dirsWalked.findSome? (tryDirectory parseInfo dirs)) ↔
      ∀ dir, IsNearest parseInfo dirs dirsWalked dir → GoodFirst parseInfo dirs dir := by
  cases h_find : dirsWalked.findSome? (tryDirectory parseInfo dirs) with
  | none =>
    have h_none := List.findSome?_eq_none_iff.mp h_find
    refine ⟨fun h dir h_nearest => ?_, fun h dir h_mem h_good => ?_⟩
    · obtain ⟨_, _, _, h_good, _⟩ := id h_nearest
      exact absurd h_good (h dir h_nearest.mem)
    · -- the nearest directory would have been taken
      obtain ⟨nearest, h_nearest⟩ := exists_isNearest h_mem h_good
      have h_some := tryDirectory_isSome_iff.mpr (h nearest h_nearest)
      rw [h_none nearest h_nearest.mem] at h_some
      exact nomatch h_some
  | some found =>
    obtain ⟨pre, dir, post, rfl, h_try, h_pre⟩ := List.findSome?_eq_some_iff.mp h_find
    obtain ⟨h_dir, h_entry⟩ := tryDirectory_some h_try
    have h_first : GoodFirst parseInfo dirs dir :=
      tryDirectory_isSome_iff.mp (Option.isSome_iff_exists.mpr ⟨found, h_try⟩)
    subst h_dir
    refine ⟨?_, fun h => ⟨⟨pre, post, rfl, h_first.hasGood, fun d hd h_good => ?_⟩, h_entry⟩⟩
    · rintro ⟨h_nearest, -⟩ dir' h_nearest'
      rw [← h_nearest.unique h_nearest']
      exact h_first
    · -- a nearer directory with a good file would have been taken
      obtain ⟨nearest, h_nearest⟩ := exists_isNearest hd h_good
      have h_some := tryDirectory_isSome_iff.mpr (h nearest (h_nearest.append _))
      rw [h_pre nearest h_nearest.mem] at h_some
      exact nomatch h_some

/-- Whether the nearest directory is taken says whether there is a result. -/
theorem TakesNearest.isSome_iff {dirsWalked : List (List Component)} {result : Option Matched}
    (h : TakesNearest parseInfo dirs dirsWalked result) :
    result.isSome = true ↔ ∃ dir ∈ dirsWalked, HasGood parseInfo dirs dir := by
  cases result with
  | none =>
    refine iff_of_false (fun h_some => nomatch h_some) ?_
    rintro ⟨dir, h_mem, h_good⟩
    exact h dir h_mem h_good
  | some found =>
    obtain ⟨h_nearest, -⟩ := h
    obtain ⟨_, _, _, h_good, _⟩ := id h_nearest
    exact iff_of_true rfl ⟨found.dir, h_nearest.mem, h_good⟩

end Search

/-- **A search does not depend on the order of the directory and on bad files in it** exactly when
the good files come first. -/
theorem gogLookup_iff (parseInfo : List UInt8 → Option GogInfo) (dirs : Directories) :
    (∀ dir, ((tryDirectory parseInfo dirs dir).isSome = true ↔ HasGood parseInfo dirs dir) ↔
        (HasGood parseInfo dirs dir → GoodFirst parseInfo dirs dir)) ∧
      ∀ app, (((enrich parseInfo dirs app).isSome = true ↔
            ∃ dir ∈ searched app, HasGood parseInfo dirs dir) ∧
          TakesNearest parseInfo dirs (searched app) (search parseInfo dirs app)) ↔
        ∀ dir, IsNearest parseInfo dirs (searched app) dir → GoodFirst parseInfo dirs dir := by
  refine ⟨fun dir => ?_, fun app => ?_⟩
  · -- the directory answers for its first manifest only
    rw [tryDirectory_isSome_iff]
    exact ⟨fun h => h.mpr, fun h => ⟨GoodFirst.hasGood, h⟩⟩
  · rw [search_eq, ← takesNearest_iff (searched app)]
    refine ⟨fun h => h.2, fun h => ⟨?_, h⟩⟩
    -- the lookup succeeds when the search does
    unfold enrich
    rw [Option.isSome_map, search_eq]
    exact h.isSome_iff

/-- The content of an info file. -/
def gameInfo : List UInt8 := bytes "\x7b\"name\":\"Game\"\x7d"

/-- A reader of that content. -/
def readGameInfo (content : List UInt8) : Option GogInfo :=
  if content = gameInfo then some ⟨some "Game", none⟩ else none

/-- A file system with one directory, `/g`. -/
def oneDirectory (entries : List DirEntry) (dir : List Component) : Listing :=
  if dir = components (bytes "/g") then some (entries.map some) else none

def unreadableFile : DirEntry := ⟨some "goggame-1.info", none⟩

def goodFile : DirEntry := ⟨some "goggame-2.info", some gameInfo⟩

/-- An application in that directory. -/
def gameInDirectory : Application :=
  { newRow 1 (newSteam "10" (.firstDay 0)) with executablePath := some "/g/game.exe" }

/-- A file that cannot be read hides the one listed behind it. -/
theorem gogLookup_unreadable_first :
    HasGood readGameInfo (oneDirectory [unreadableFile, goodFile]) (components (bytes "/g")) ∧
      tryDirectory readGameInfo (oneDirectory [unreadableFile, goodFile])
        (components (bytes "/g")) = none ∧
      (tryDirectory readGameInfo (oneDirectory [goodFile, unreadableFile])
        (components (bytes "/g"))).isSome = true ∧
      components (bytes "/g") ∈ searched gameInDirectory ∧
      enrich readGameInfo (oneDirectory [unreadableFile, goodFile]) gameInDirectory = none ∧
      (enrich readGameInfo (oneDirectory [goodFile, unreadableFile]) gameInDirectory).isSome =
        true := by
  refine ⟨⟨[some unreadableFile, some goodFile], ?_, goodFile, by simp, ?_⟩, ?_⟩
  · decide +kernel
  · decide +kernel
  · decide +kernel

end Gog

end Ludex
