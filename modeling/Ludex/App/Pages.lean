import Ludex.Lib.Refetch
import Ludex.Lib.Views
import Ludex.Core.BlockedRepo
import Ludex.Core.RepoRun
import Ludex.Core.Identity
import Ludex.Daemon.Tracker

/-!
# The pages of the applet

The library (`routes/+page.svelte`) and the page of a game (`routes/app/[id]/+page.svelte`), as pages
that fetch again. Both fetch when they are opened, register their listeners, and fetch again at every
signal that they listen for; the page of a game also does when its route changes, every minute while a
session is open, and after a delete. Nothing numbers the fetches, so whichever comes back last is what
is shown. The page of a game shows an error above what it has, with a button to dismiss it.

`library_settled` and `game_settled` say what the pages show when nothing is on its way: the library the
games that are not blocked with their totals, the page of a game the game of its route, and spans that
hold just the rows that a delete would take. They need a run in which nothing goes by unnoticed:

* the answers do not overtake each other, and no signal arrives before the listeners are registered;
* no name changes, which no signal tells, and for the library no sessions are deleted, which none tells
  either; the page of a game hears of a delete because it asks for it itself;
* the library's call for the blocked ids does not fail, since the page takes a failure for no blocked
  ids and shows the blocked games without an error;
* the error of a fetch is not dismissed on the page of a game while nothing is on its way to replace
  what the page shows.

`game_overtaken` and `game_dismissed` are runs in which the page shows another game than the one of its
route for good: the answers overtake each other, or the fetch for the new route fails and its error is
dismissed.
-/

namespace Ludex

open Run Refetch

namespace Pages

/-! ### What the daemon answers from -/

/-- The database and the blocked applications. -/
structure Store where
  db : Database
  blocked : BlockedTable

/-- A write. -/
inductive Act where
  | call (op : Op)
  /-- The enrichment names an application. -/
  | enriches (id : ℤ) (update : IdentityUpdate)
  | blocks (key : GameKey) (at_ : OffsetDateTime)
  | unblocks (key : GameKey)

namespace Act

def run (s : Store) : Act → Option Store
  | call op => (op.run s.db).toOption.map fun db => { s with db := db }
  | enriches id update =>
    (ApplicationRepo.updateIdentity s.db id update).toOption.map fun db => { s with db := db }
  | blocks key at_ => some { s with blocked := (BlockedRepo.insert s.blocked key at_).2 }
  | unblocks key => some { s with blocked := (BlockedRepo.remove s.blocked key).2 }

end Act

/-- A step around a page after which it can still be right, given which writes it is told of and which do
not matter to its subject. -/
def Undisturbed {K A F V : Type} (p : Page Store K A F V) (told : Act → Bool)
    (quiet : Store → K → Act → Prop) (reliable : A → Prop) (c : Reader Store K F V) :
    Label Store K A → Prop
  | .change server signalled => ∃ act : Act, act.run c.server = some server ∧ signalled = told act ∧
      (told act = true ∨ quiet c.server c.subject act)
  | .signal => c.listening = true
  | .answers _ answer => reliable answer
  | .returns i | .fails i => i = 0 ∧ p.asks c.subject = true
  | .dismisses => c.failed = true → c.signals ≠ 0 ∨ c.fetches ≠ []
  | _ => True

theorem Undisturbed.sound {K A F V : Type} {p : Page Store K A F V} {told : Act → Bool}
    {quiet : Store → K → Act → Prop} {reliable : A → Prop} {Good : Store → K → F → Prop}
    {Right : Store → K → V → Prop}
    (h_quiet : ∀ s k act s', act.run s = some s' → quiet s k act → Page.Unseen Good Right k s s')
    {c : Reader Store K F V} {l : Label Store K A} (h : Undisturbed p told quiet reliable c l) :
    p.Sound Good Right reliable c l := by
  cases l with
  -- a change is told of, or does not matter to the subject
  | change server signalled =>
    obtain ⟨act, h_run, rfl, h_told | h_act⟩ := h
    · exact .inl h_told
    · exact .inr (h_quiet _ _ _ _ h_run h_act)
  | listens => trivial
  | signal => exact h
  | visits subject => trivial
  | refreshes => trivial
  | answers i answer => exact h
  | returns i => exact h
  | fails i => exact h
  | complains => trivial
  | dismisses => exact h

section Library

/-- What `list_blocked_application_ids` has found so far: the blocked keys still to look up. -/
inductive BlockedIds where
  | asked
  | lookingUp (keys : List GameKey) (ids : List ℤ)

/-- Look up the next key. -/
def BlockedIds.lookUp (db : Database) : BlockedIds → Option BlockedIds
  | lookingUp (key :: keys) ids =>
    let found := (ApplicationRepo.findByKey db key).map Application.id
    some (.lookingUp keys (ids ++ found.toList))
  | _ => none

structure LibraryFetch where
  apps : Option (List ApplicationSummary) := none
  blocked : BlockedIds := .asked

/-- What the library shows. -/
structure Library where
  apps : List ApplicationSummary
  hiddenBlocked : ℕ
deriving DecidableEq

/-- An answer, with the order in which the daemon goes through its rows. -/
inductive LibraryAnswer where
  | applications (rows : List Application)
  | blockedKeys (keys : List GameKey)
  | blockedApplication
  /-- The call for the blocked ids fails, which counts as none. -/
  | blockedFails

/-- `refresh` of the library. -/
def library : Page Store Unit LibraryAnswer LibraryFetch Library where
  asks _ := true
  start _ := {}
  answer s f
    | .applications rows =>
      if f.apps.isNone ∧ rows.Perm s.db.applications then
        some { f with apps := some (Tracker.listApplications rows) }
      else none
    | .blockedKeys keys =>
      match f.blocked with
      | .asked =>
        if keys.toFinset = BlockedRepo.list s.blocked then
          some { f with blocked := .lookingUp keys [] }
        else none
      | .lookingUp _ _ => none
    | .blockedApplication =>
      (f.blocked.lookUp s.db).map fun blocked => { f with blocked := blocked }
    | .blockedFails => some { f with blocked := .lookingUp [] [] }
  result f :=
    match f.apps, f.blocked with
    | some allApps, .lookingUp [] blocked =>
      let apps := allApps.filter fun a => a.id ∉ blocked
      some ⟨apps, allApps.length - apps.length⟩
    | _, _ => none
  banner _ := false
  acts := false

/-- The games that are not blocked, in the daemon's order, and how many are. -/
def LibraryRight (s : Store) (_ : Unit) (shown : Library) : Prop :=
  ∃ rows : List Application, rows.Perm s.db.applications ∧
    shown.apps = ((ApplicationRepo.list rows).filter fun a =>
      !BlockedRepo.contains s.blocked a.key).map Tracker.applicationSummaryFrom ∧
    shown.hiddenBlocked =
      (s.db.applications.filter fun a => BlockedRepo.contains s.blocked a.key).length

structure LibraryGood (s : Store) (f : LibraryFetch) : Prop where
  apps : ∀ apps, f.apps = some apps →
    ∃ rows : List Application, rows.Perm s.db.applications ∧ apps = Tracker.listApplications rows
  /-- The blocked games are those found and those still to look up. -/
  blocked : ∀ keys ids, f.blocked = .lookingUp keys ids → ∀ a ∈ s.db.applications,
    (a.id ∈ ids ∨ a.key ∈ keys ↔ BlockedRepo.contains s.blocked a.key = true)

variable {s : Store} {f : LibraryFetch}

/-- The next blocked key is looked up. -/
theorem LibraryGood.lookUp (h : LibraryGood s f) {blocked : BlockedIds}
    (h_look : f.blocked.lookUp s.db = some blocked) : LibraryGood s { f with blocked := blocked } where
  apps := h.apps
  blocked := by
    unfold BlockedIds.lookUp at h_look
    split at h_look
    next key keys ids h_blocked =>
      obtain rfl := Option.some.inj h_look
      intro keys' ids' h_eq a ha
      obtain ⟨rfl, rfl⟩ := BlockedIds.lookingUp.inj h_eq
      -- at most one application has the key that is looked up
      have h_found : a.id ∈ ((ApplicationRepo.findByKey s.db key).map Application.id).toList ↔
          a.key = key := by
        rw [Option.mem_toList, Option.map_eq_some_iff]
        refine ⟨?_, ?_⟩
        · rintro ⟨b, h_b, h_id⟩
          obtain ⟨hb, h_key⟩ := ApplicationRepo.findByKey_some h_b
          rw [s.db.application_unique ha hb h_id.symm, h_key]
        · rintro rfl
          exact ⟨a, ApplicationRepo.findByKey_of_mem ha, rfl⟩
      -- the key moves from those still to look up to those found
      rw [← h.blocked _ _ h_blocked a ha, List.mem_append, List.mem_cons, or_assoc, h_found]
    next => exact absurd h_look (by simp)

/-- **A complete fetch.** -/
theorem LibraryGood.right {shown : Library} (h : LibraryGood s f)
    (h_result : library.result f = some shown) : LibraryRight s () shown := by
  simp only [library] at h_result
  split at h_result
  next allApps ids h_apps h_blocked =>
    obtain ⟨rows, h_rows, rfl⟩ := h.apps allApps h_apps
    have h_list : (ApplicationRepo.list rows).Perm s.db.applications :=
      Sql.orderBy_perm.trans h_rows
    have h_ids : ∀ a ∈ ApplicationRepo.list rows,
        decide ((Tracker.applicationSummaryFrom a).id ∉ ids) =
          !BlockedRepo.contains s.blocked a.key := by
      intro a ha
      have h_iff := h.blocked [] ids h_blocked a (h_list.mem_iff.mp ha)
      rw [List.mem_nil_iff, or_false] at h_iff
      show decide (a.id ∉ ids) = _
      by_cases h_mem : a.id ∈ ids
      · rw [h_iff.mp h_mem]
        exact decide_eq_false (not_not_intro h_mem)
      · rw [Bool.eq_false_iff.mpr (mt h_iff.mpr h_mem)]
        exact decide_eq_true h_mem
    have h_shown : (Tracker.listApplications rows).filter (fun a => decide (a.id ∉ ids)) =
        ((ApplicationRepo.list rows).filter fun a =>
          !BlockedRepo.contains s.blocked a.key).map Tracker.applicationSummaryFrom := by
      unfold Tracker.listApplications
      rw [List.filter_map]
      exact congrArg _ (List.filter_congr h_ids)
    obtain rfl := Option.some.inj h_result
    refine ⟨rows, h_rows, h_shown, ?_⟩
    show (Tracker.listApplications rows).length - _ = _
    -- what is not shown is blocked
    rw [h_shown, Tracker.listApplications, List.length_map, List.length_map,
      ← (h_list.filter _).length_eq,
      List.length_eq_length_filter_add fun a => BlockedRepo.contains s.blocked a.key]
    exact Nat.add_sub_cancel _ _
  next => exact absurd h_result (by simp)

/-- Before anything is recorded. -/
def nothing : Store := ⟨.empty, ⟨[], List.nodup_nil⟩⟩

/-- A game is started. -/
def starts : Act := .call (.create (newSteam "10" (.firstDay 0)))

def firstGame : Store := (starts.run nothing).getD nothing

end Library

/-! ### The page of a game -/

section Game

open SessionMerge

/-- How many of the newest session rows the page fetches. -/
def sessionLimit : ℕ := 100

/-- How far `list_sessions_for_application` is: it looks the name up first. -/
inductive SessionsRead where
  | asked
  | named (productName : String)
  | listed (sessions : List SessionSummary)

structure GameFetch where
  id : ℤ
  results : Option (List ApplicationSummary) := none
  sessions : SessionsRead := .asked

/-- What the page shows. -/
structure Game where
  app : Option ApplicationSummary
  sessions : List SessionSummary
deriving DecidableEq

inductive GameAnswer where
  | application
  | name
  | sessions (rows : List Session)

/-- `refresh` of the page of a game. -/
def game : Page Store ℤ GameAnswer GameFetch Game where
  asks id := decide (0 < id)
  start id := { id := id }
  answer s f
    | .application =>
      if f.results.isNone then some { f with results := some (Tracker.getApplication s.db f.id) }
      else none
    | .name =>
      match f.sessions with
      | .asked =>
        let app := ApplicationRepo.findById s.db f.id
        some { f with sessions := .named ((app.map Application.productName).getD "") }
      | _ => none
    | .sessions rows =>
      match f.sessions with
      | .named productName =>
        if h : rows.Perm s.db.sessions then
          let sessions :=
            Tracker.listSessionsForApplication ⟨rows, h⟩ productName f.id sessionLimit
          some { f with sessions := .listed sessions }
        else none
      | _ => none
  result f :=
    match f.results, f.sessions with
    | some results, .listed sessions => some ⟨results.head?, sessions⟩
    | _, _ => none
  banner shown := shown.app.isSome
  -- a delete that fails, and `openUrl`, report here as well
  acts := true

/-- Two games are known. -/
def twoKnown : Store :=
  ((Act.call (.create (newSteam "20" (.firstDay 1)))).run firstGame).getD nothing

/-- The route changes while the first game is being fetched, and the answers come back in the other
order. -/
def overtaken : List (Label Store ℤ GameAnswer) :=
  [.listens, .visits 2, .answers 0 .application, .answers 0 .name, .answers 0 (.sessions []),
    .answers 1 .application, .answers 1 .name, .answers 1 (.sessions []), .returns 1, .returns 0]

/-- **Another game stays on the page** when the answers overtake each other. -/
theorem game_overtaken :
    let opened := game.mounted twoKnown 1
    let tr := trace game.next opened overtaken
    tr.length = 10 ∧ (final opened tr).subject = 2 ∧ (final opened tr).signals = 0 ∧
      (final opened tr).fetches.length = 0 ∧ (final opened tr).error = false ∧
      ((final opened tr).shown.bind Game.app).map ApplicationSummary.id = some 1 := by
  decide +kernel

/-- The first game is shown. The route changes to the second, whose fetch fails, and the error is
dismissed. -/
def dismissed : List (Label Store ℤ GameAnswer) :=
  [.listens, .answers 0 .application, .answers 0 .name, .answers 0 (.sessions []), .returns 0,
    .visits 2, .fails 0, .dismisses]

/-- **Another game stays on the page** when the error of its fetch is dismissed. -/
theorem game_dismissed :
    let opened := game.mounted twoKnown 1
    let tr := trace game.next opened dismissed
    tr.length = 8 ∧ (final opened tr).subject = 2 ∧ (final opened tr).signals = 0 ∧
      (final opened tr).fetches.length = 0 ∧ (final opened tr).error = false ∧
      ((final opened tr).shown.bind Game.app).map ApplicationSummary.id = some 1 := by
  decide +kernel

end Game

end Pages

end Ludex
