import Ludex.Core.Identity
import Ludex.Core.RepoRun
import Ludex.Core.Vdf
import Ludex.Enrich.LibraryMatch

/-!
# Names of Steam games

The name of a Steam game stands in the appmanifest of its library. `resolve_name` of the daemon's
`steam.rs` looks for it in every library, the primary directory first and then those that
`libraryfolders.vdf` lists. The enricher of that name looks in the primary directory.

So what the enricher finds the daemon resolves to the same name (`resolveName_of_enrich`). The
converse needs that the manifest is in the primary directory, or that there is none with a name
(`namesAgree_iff`).

Files are read by the components of their paths: two spellings of a path are the same file.
-/

namespace Ludex

open Paths ApplicationRepo

namespace SteamNames

/-- The text files there are, by the components of their paths. -/
abbrev TextFiles := List Component → Option (List Char)

/-- A relative path, or a file name. -/
def named (name : String) : List Component := components (bytes name)

/-- The manifest of a game in a `steamapps` directory. -/
def manifestPath (steamapps : List Component) (appid : String) : List Component :=
  join steamapps (named ("appmanifest_" ++ appid ++ ".acf"))

/-- The name in a manifest. -/
def nameIn (content : List Char) : Option (List Char) := Vdf.parseTopLevelString content "name".toList

section Installation

variable (files : TextFiles) (steamDir : List Component)

/-- The primary `steamapps` directory. -/
def steamappsDir : List Component := join steamDir (named "steamapps")

/-- A library joins the list, unless it is in it. -/
def addLibrary (dirs : List (List Component)) (path : List Char) : List (List Component) :=
  let steamapps := join (components (Lines.encode path)) (named "steamapps")
  if steamapps ∈ dirs then dirs else dirs ++ [steamapps]

/-- Every `steamapps` directory: the primary one and those of the libraries in the index. -/
def librarySteamappsDirs : List (List Component) :=
  let primary := steamappsDir steamDir
  match files (join primary (named "libraryfolders.vdf")) with
  | none => [primary]
  | some content => (Vdf.parseAllValues content "path".toList).foldl addLibrary [primary]

/-- The name in the manifest of a directory, if it can be read. -/
def manifestName (appid : String) (dir : List Component) : Option (List Char) :=
  (files (manifestPath dir appid)).bind nameIn

/-- The name found in a library. -/
def libraryName (appid : String) : Option String :=
  ((librarySteamappsDirs files steamDir).findSome? (manifestName files appid)).map String.ofList

/-- `resolve_name`: the name found in a library, or the appid. -/
def resolveName (appid : String) : String :=
  (libraryName files steamDir appid).getD ("AppID " ++ appid)

end Installation

/-- The enricher: the name in the manifest of the primary directory. -/
def enrich (files : TextFiles) (steamDir : Option (List Component)) (app : Application) :
    Option IdentityUpdate := do
  if app.launcherType ≠ .steam then none
  else
    let steamDir ← steamDir
    let manifest := manifestPath (join steamDir (named "steamapps")) app.launcherId
    let content ← files manifest
    let name ← nameIn content
    return { productName := some (String.ofList name) }

/-- **The daemon and the enricher agree** on a game: a name found in a library is the one that the
enricher supplies, and a name that the enricher supplies is the one resolved. -/
def NamesAgree (files : TextFiles) (steamDir : List Component) (appid : String) : Prop :=
  ∀ app : Application, app.key = GameKey.steam appid →
    (∀ name, libraryName files steamDir appid = some name →
      (enrich files (some steamDir) app).bind IdentityUpdate.productName = some name) ∧
    ∀ name, (enrich files (some steamDir) app).bind IdentityUpdate.productName = some name →
      resolveName files steamDir appid = name

/-- The manifest of the primary directory has a name, or that of no library has. -/
def PrimaryDecides (files : TextFiles) (steamDir : List Component) (appid : String) : Prop :=
  (manifestName files appid (steamappsDir steamDir)).isSome = true ∨
    ∀ dir ∈ librarySteamappsDirs files steamDir, manifestName files appid dir = none

section Agreement

variable {files : TextFiles} {steamDir : List Component} {appid : String}

/-- The enricher supplies the name in the primary directory. -/
theorem enrich_productName {app : Application} (h : app.key = GameKey.steam appid) :
    (enrich files (some steamDir) app).bind IdentityUpdate.productName =
      (manifestName files appid (steamappsDir steamDir)).map String.ofList := by
  injection h with h_type h_id
  unfold enrich manifestName steamappsDir
  rw [if_neg (not_not.mpr h_type), h_id]
  simp only [Option.bind_eq_bind, Option.bind_some]
  -- without a manifest there is no name, and with one the name is what it says
  cases files (manifestPath (join steamDir (named "steamapps")) appid) with
  | none => rfl
  | some content =>
    simp only [Option.bind_some]
    cases nameIn content <;> rfl

theorem isPrefix_foldl_addLibrary (paths : List (List Char)) (dirs : List (List Component)) :
    dirs <+: paths.foldl addLibrary dirs := by
  -- induction on the paths, none of which removes a directory
  induction paths generalizing dirs with
  | nil => exact List.prefix_rfl
  | cons path paths ih =>
    refine List.IsPrefix.trans ?_ (ih _)
    unfold addLibrary
    simp only
    split
    · exact List.prefix_rfl
    · exact List.prefix_append _ _

/-- **The primary directory comes first.** -/
theorem exists_librarySteamappsDirs_eq (files : TextFiles) (steamDir : List Component) :
    ∃ others, librarySteamappsDirs files steamDir = steamappsDir steamDir :: others := by
  unfold librarySteamappsDirs
  simp only
  split
  · exact ⟨[], rfl⟩
  next content _ =>
    obtain ⟨others, h_eq⟩ := isPrefix_foldl_addLibrary
      (Vdf.parseAllValues content "path".toList) [steamappsDir steamDir]
    exact ⟨others, h_eq.symm⟩

/-- A name in the primary directory is the one found. -/
theorem libraryName_of_primary {name : List Char}
    (h : manifestName files appid (steamappsDir steamDir) = some name) :
    libraryName files steamDir appid = some (String.ofList name) := by
  obtain ⟨others, h_dirs⟩ := exists_librarySteamappsDirs_eq files steamDir
  unfold libraryName
  rw [h_dirs, List.findSome?_cons, h]
  rfl

/-- **What the enricher finds** the daemon resolves to the same name. -/
theorem resolveName_of_enrich {app : Application} (h : app.key = GameKey.steam appid) {name : String}
    (h_enrich : (enrich files (some steamDir) app).bind IdentityUpdate.productName = some name) :
    resolveName files steamDir appid = name := by
  rw [enrich_productName h] at h_enrich
  obtain ⟨chars, h_name, rfl⟩ := Option.map_eq_some_iff.mp h_enrich
  unfold resolveName
  rw [libraryName_of_primary h_name]
  rfl

theorem libraryName_eq_none_iff :
    libraryName files steamDir appid = none ↔
      ∀ dir ∈ librarySteamappsDirs files steamDir, manifestName files appid dir = none := by
  unfold libraryName
  rw [Option.map_eq_none_iff, List.findSome?_eq_none_iff]

/-- **The two agree** exactly when the primary directory decides. -/
theorem namesAgree_iff (files : TextFiles) (steamDir : List Component) (appid : String) :
    NamesAgree files steamDir appid ↔ PrimaryDecides files steamDir appid := by
  refine ⟨fun h => ?_, fun h app h_key => ⟨fun name h_name => ?_, fun name => resolveName_of_enrich h_key⟩⟩
  · have h_key : (newRow 1 (newSteam appid (.firstDay 0))).key = GameKey.steam appid := rfl
    obtain ⟨h_supplied, -⟩ := h _ h_key
    cases h_library : libraryName files steamDir appid with
    | none => exact Or.inr (libraryName_eq_none_iff.mp h_library)
    | some name =>
      -- the name found is supplied, so it stands in the primary directory
      have h_name := h_supplied name h_library
      rw [enrich_productName h_key] at h_name
      obtain ⟨chars, h_primary, -⟩ := Option.map_eq_some_iff.mp h_name
      refine Or.inl ?_
      rw [h_primary]
      rfl
  · rw [enrich_productName h_key]
    rcases h with h_primary | h_none
    · obtain ⟨chars, h_chars⟩ := Option.isSome_iff_exists.mp h_primary
      rw [libraryName_of_primary h_chars] at h_name
      rw [h_chars, ← h_name]
      rfl
    · rw [libraryName_eq_none_iff.mpr h_none] at h_name
      exact nomatch h_name

end Agreement

/-- A game on a second drive: the index lists the drive, and the manifest is there. -/
def secondDrive (path : List Component) : Option (List Char) :=
  if path = named "/s/steamapps/libraryfolders.vdf" then some "\"path\"\t\t\"/mnt/games\"".toList
  else if path = named "/mnt/games/steamapps/appmanifest_440.acf" then
    some "\"name\"\t\t\"Team Fortress 2\"".toList
  else none

/-- The daemon finds its name, the enricher does not. -/
theorem namesAgree_secondDrive :
    libraryName secondDrive (named "/s") "440" = some "Team Fortress 2" ∧
      (newRow 1 (newSteam "440" (.firstDay 0))).key = GameKey.steam "440" ∧
      enrich secondDrive (some (named "/s")) (newRow 1 (newSteam "440" (.firstDay 0))) = none := by
  decide +kernel

end SteamNames

end Ludex
