import Ludex.Core.Database

/-!
# `ApplicationRepo`

The methods of `repo/application.rs` that write the tables of the session path. A method takes the
database and returns what it returns together with the database its transaction leaves; an error
means the transaction rolled back.
-/

namespace Ludex

namespace ApplicationRepo

/-- The row inserted for a new application. Columns the `INSERT` does not name take their defaults:
NULL, or 0 for the statistics. -/
def newRow (id : ℤ) (new : NewApplication) : Application where
  id := id
  launcherType := new.launcherType
  launcherId := new.launcherId
  productName := new.productName
  publisher := new.publisher
  version := new.version
  executablePath := new.executablePath
  launcherExePath := new.launcherExePath
  wineprefixPath := new.wineprefixPath
  installedFlatpakRef := new.installedFlatpakRef
  graphicsPlatform := new.graphicsPlatform
  processArchitecture := new.processArchitecture
  groupId := new.groupId
  detectedVia := none
  icons := new.icons
  firstSeenAt := new.firstSeenAt
  lastPlayedAt := none
  statRunCount := 0
  statTotalFull := 0
  statTotalInteractive := 0
  statLongestFull := 0

/-- Insert a new application row and return it. -/
def create (d : Database) (new : NewApplication) : Except Error (Application × Database) := do
  let id := Sql.newRowid d.applicationSeq (d.applications.map Application.id)
  let row := newRow id new
  let d ← Database.execute
    { d.toTables with applications := d.applications ++ [row], applicationSeq := id }
  return (row, d)

/-- The application with the given primary key, if any. -/
def findById (d : Database) (id : ℤ) : Option Application :=
  d.applications.find? fun a => a.id = id

/-- The application with the given launcher key, if any. -/
def findByKey (d : Database) (key : GameKey) : Option Application :=
  d.applications.find? fun a => a.key = key

/-- Fill the metadata columns of `dst` from `src`: a NULL column takes the value of `src`, and an
`unknown` platform or architecture that of `src`. `product_name` and `detected_via` are identity
slots and stay. -/
def applyMetadataFill (src dst : Application) : Application :=
  { dst with
    publisher := dst.publisher.or src.publisher
    version := dst.version.or src.version
    executablePath := dst.executablePath.or src.executablePath
    launcherExePath := dst.launcherExePath.or src.launcherExePath
    wineprefixPath := dst.wineprefixPath.or src.wineprefixPath
    installedFlatpakRef := dst.installedFlatpakRef.or src.installedFlatpakRef
    groupId := dst.groupId.or src.groupId
    icons :=
      { icon16 := dst.icons.icon16.or src.icons.icon16
        icon32 := dst.icons.icon32.or src.icons.icon32
        icon48 := dst.icons.icon48.or src.icons.icon48
        icon256 := dst.icons.icon256.or src.icons.icon256 }
    graphicsPlatform :=
      if src.graphicsPlatform ≠ .unknown ∧ dst.graphicsPlatform = .unknown then
        src.graphicsPlatform
      else dst.graphicsPlatform
    processArchitecture :=
      if src.processArchitecture ≠ .unknown ∧ dst.processArchitecture = .unknown then
        src.processArchitecture
      else dst.processArchitecture }

/-- The aggregates of `dst` after the merge of `src`. `last_played_at` and `first_seen_at` are
combined by the scalar `MAX` and `MIN`, in the byte order of the stored text. -/
def mergeStats (src dst : Application) : Application :=
  { dst with
    statRunCount := dst.statRunCount + src.statRunCount
    statTotalFull := dst.statTotalFull + src.statTotalFull
    statTotalInteractive := dst.statTotalInteractive + src.statTotalInteractive
    statLongestFull := max dst.statLongestFull src.statLongestFull
    firstSeenAt := Sql.minBy OffsetDateTime.textLt dst.firstSeenAt src.firstSeenAt
    lastPlayedAt := Sql.scalarMax OffsetDateTime.textLt dst.lastPlayedAt src.lastPlayedAt }

@[simp] theorem applyMetadataFill_id (src dst : Application) :
    (applyMetadataFill src dst).id = dst.id := by
  unfold applyMetadataFill; rfl

@[simp] theorem mergeStats_id (src dst : Application) : (mergeStats src dst).id = dst.id := by
  unfold mergeStats; rfl

/-- Re-parent every session of `srcId`. -/
def reparent (srcId dstId : ℤ) (sessions : List Session) : List Session :=
  Sql.updateWhere (fun s => s.applicationId = srcId)
    (fun s => { s with applicationId := dstId }) sessions

/-- A session row under the re-parenting. -/
def reparentRow (srcId dstId : ℤ) (s : Session) : Session :=
  if s.applicationId = srcId then { s with applicationId := dstId } else s

theorem reparent_eq_map (srcId dstId : ℤ) (sessions : List Session) :
    reparent srcId dstId sessions = sessions.map (reparentRow srcId dstId) := by
  refine List.map_congr_left fun s _ => ?_
  simp [reparentRow]

/-- Only the owner changes. -/
theorem reparentRow_eq (srcId dstId : ℤ) (s : Session) :
    reparentRow srcId dstId s =
      { s with applicationId := if s.applicationId = srcId then dstId else s.applicationId } := by
  unfold reparentRow
  split
  · rfl
  · rfl

/-- The four statements of a merge, after its checks. -/
def mergeRows (d : Database) (src : Application) (dstId : ℤ) : Except Error Database := do
  let d ← Database.execute { d.toTables with sessions := reparent src.id dstId d.sessions }
  let d ← Database.execute
    { d.toTables with
      applications := Sql.updateWhere (fun a => a.id = dstId) (mergeStats src) d.applications }
  let d ← Database.execute
    { d.toTables with
      applications :=
        Sql.updateWhere (fun a => a.id = dstId) (applyMetadataFill src) d.applications }
  -- `ON DELETE CASCADE`: the sessions of the deleted row go with it
  Database.execute
    { d.toTables with
      applications := Sql.deleteWhere (fun a => a.id = src.id) d.applications
      sessions := Sql.deleteWhere (fun s => s.applicationId = src.id) d.sessions }

/-- Fold `srcId` into `dstId`, then delete `srcId`. -/
def mergeInto (d : Database) (srcId dstId : ℤ) : Except Error Database :=
  if srcId = dstId then
    .error (.invariant "merge source and destination are the same application")
  else
    match findById d srcId with
    | none => .error (.invariant "merge: source application not found")
    | some src =>
      if (findById d dstId).isNone then
        .error (.invariant "merge: destination application not found")
      else mergeRows d src dstId

/-! ### What a successful call did -/

section Spec

variable {d d' : Database}

theorem create_ok {new : NewApplication} {a : Application} (h : create d new = .ok (a, d')) :
    a = newRow (Sql.newRowid d.applicationSeq (d.applications.map Application.id)) new ∧
      d'.toTables =
        { d.toTables with applications := d.applications ++ [a], applicationSeq := a.id } := by
  obtain ⟨d₁, h_exec, h_ret⟩ := Except.bind_eq_ok.mp h
  obtain ⟨rfl, rfl⟩ := Prod.mk.inj (Except.ok.inj h_ret)
  exact ⟨rfl, Database.execute_ok h_exec⟩

theorem findById_some {id : ℤ} {a : Application} (h : findById d id = some a) :
    a ∈ d.applications ∧ a.id = id :=
  ⟨List.mem_of_find?_eq_some h, by simpa using List.find?_some h⟩

theorem findByKey_some {key : GameKey} {a : Application} (h : findByKey d key = some a) :
    a ∈ d.applications ∧ a.key = key :=
  ⟨List.mem_of_find?_eq_some h, by simpa using List.find?_some h⟩

theorem findByKey_of_mem {a : Application} (ha : a ∈ d.applications) :
    findByKey d a.key = some a := by
  cases hf : findByKey d a.key with
  | none => exact absurd (List.find?_eq_none.mp hf a ha) (by simp)
  | some b =>
    -- the row found has the same key, so it is the same row
    obtain ⟨hb, h_key⟩ := findByKey_some hf
    rw [d.key_unique hb ha h_key]

/-- No session belongs to the source once every one of its sessions is re-parented. -/
theorem reparent_ne {srcId dstId : ℤ} (hne : srcId ≠ dstId) {sessions : List Session} {s : Session}
    (hs : s ∈ reparent srcId dstId sessions) : s.applicationId ≠ srcId := by
  rw [reparent_eq_map] at hs
  obtain ⟨s₀, -, rfl⟩ := List.mem_map.mp hs
  unfold reparentRow
  split
  · exact hne.symm
  next h => exact h

/-- The cascade of the last statement finds no session left to delete. -/
theorem deleteWhere_reparent {srcId dstId : ℤ} (hne : srcId ≠ dstId) (sessions : List Session) :
    Sql.deleteWhere (fun s => s.applicationId = srcId) (reparent srcId dstId sessions)
      = reparent srcId dstId sessions := by
  refine List.filter_eq_self.mpr fun s hs => ?_
  simpa using reparent_ne hne hs

theorem updateWhere_id_updateWhere (dstId : ℤ) {f g : Application → Application}
    (hf : ∀ a, (f a).id = a.id) (apps : List Application) :
    Sql.updateWhere (fun a => a.id = dstId) g (Sql.updateWhere (fun a => a.id = dstId) f apps)
      = Sql.updateWhere (fun a => a.id = dstId) (fun a => g (f a)) apps := by
  rw [Sql.updateWhere, Sql.updateWhere, Sql.updateWhere, List.map_map]
  refine List.map_congr_left fun a _ => ?_
  by_cases h : a.id = dstId
  · simp [h, hf]
  · simp [h]

theorem mergeRows_ok {src : Application} {dstId : ℤ} (hne : src.id ≠ dstId)
    (h : mergeRows d src dstId = .ok d') :
    d'.toTables =
      { d.toTables with
        applications := Sql.deleteWhere (fun a => a.id = src.id)
          (Sql.updateWhere (fun a => a.id = dstId)
            (fun a => applyMetadataFill src (mergeStats src a)) d.applications)
        sessions := reparent src.id dstId d.sessions } := by
  -- one intermediate database for each statement but the last
  obtain ⟨d₁, h₁, h⟩ := Except.bind_eq_ok.mp h
  obtain ⟨d₂, h₂, h⟩ := Except.bind_eq_ok.mp h
  obtain ⟨d₃, h₃, h⟩ := Except.bind_eq_ok.mp h
  have h_apps := updateWhere_id_updateWhere dstId (g := applyMetadataFill src)
    (mergeStats_id src) d.applications
  rw [Database.execute_ok h, Database.execute_ok h₃, Database.execute_ok h₂,
    Database.execute_ok h₁, deleteWhere_reparent hne, h_apps]

/-- **A successful merge.** Source and destination are distinct rows, the sessions of the source
have the destination as owner, the destination row has both rows' aggregates and the filled
metadata, and the source row is gone. -/
theorem mergeInto_ok {srcId dstId : ℤ} (h : mergeInto d srcId dstId = .ok d') :
    srcId ≠ dstId ∧ ∃ src ∈ d.applications, src.id = srcId ∧
      (∃ dst ∈ d.applications, dst.id = dstId) ∧
      d'.toTables =
        { d.toTables with
          applications := Sql.deleteWhere (fun a => a.id = srcId)
            (Sql.updateWhere (fun a => a.id = dstId)
              (fun a => applyMetadataFill src (mergeStats src a)) d.applications)
          sessions := reparent srcId dstId d.sessions } := by
  unfold mergeInto at h
  -- the three guards of the source, in its order
  split at h
  · exact absurd h (by simp)
  next h_ne =>
  split at h
  · exact absurd h (by simp)
  next src h_src =>
  split at h
  · exact absurd h (by simp)
  next h_dst =>
  obtain ⟨h_mem, rfl⟩ := findById_some h_src
  obtain ⟨dst, h_find⟩ := Option.ne_none_iff_exists'.mp (by simpa using h_dst)
  exact ⟨h_ne, src, h_mem, rfl, ⟨dst, findById_some h_find⟩, mergeRows_ok h_ne h⟩

end Spec

end ApplicationRepo

end Ludex
