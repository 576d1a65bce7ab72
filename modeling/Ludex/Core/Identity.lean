import Ludex.Core.ApplicationRepo

/-!
# Identity updates

`IdentityUpdate` of `application.rs` is a patch of the columns that say what an application is, and
`ApplicationRepo::update_identity` applies one. A column whose value is given is set, and the others
stay (`IdentityUpdate.set`).

Of the constraints of the schema only the reference to a group can refuse an update
(`updateIdentity_known`). Where it is accepted, the row is what the patch makes of it
(`updateIdentity_ok_iff`).
-/

namespace Ludex

/-- Which enrichment source supplied a product name. -/
inductive DetectedVia where
  | desktop
  | pe
  | gog
  | heroic
  | lutris
  | steam
deriving DecidableEq, Repr

/-- The text stored for a source. -/
def DetectedVia.text : DetectedVia → String
  | .desktop => "desktop"
  | .pe => "pe"
  | .gog => "gog"
  | .heroic => "heroic"
  | .lutris => "lutris"
  | .steam => "steam"

/-- A patch of an application. -/
structure IdentityUpdate where
  productName : Option String := none
  publisher : Option String := none
  version : Option String := none
  executablePath : Option String := none
  launcherExePath : Option String := none
  wineprefixPath : Option String := none
  installedFlatpakRef : Option String := none
  graphicsPlatform : Option GraphicsPlatform := none
  processArchitecture : Option ProcessArchitecture := none
  groupId : Option ℤ := none
  /-- Which source supplied the product name. -/
  detectedVia : Option DetectedVia := none
  icons : Icons := {}
deriving DecidableEq

namespace IdentityUpdate

/-- The number of columns whose value is given. -/
def fields (update : IdentityUpdate) : ℕ :=
  [update.productName.isSome, update.publisher.isSome, update.version.isSome,
    update.executablePath.isSome, update.launcherExePath.isSome, update.wineprefixPath.isSome,
    update.installedFlatpakRef.isSome, update.graphicsPlatform.isSome,
    update.processArchitecture.isSome, update.groupId.isSome, update.detectedVia.isSome,
    update.icons.icon16.isSome, update.icons.icon32.isSome, update.icons.icon48.isSome,
    update.icons.icon256.isSome].count true

/-- The `SET` clauses of the statement, on a row. -/
def set (update : IdentityUpdate) (row : Application) : Application :=
  { row with
    productName := update.productName.getD row.productName
    publisher := update.publisher.or row.publisher
    version := update.version.or row.version
    executablePath := update.executablePath.or row.executablePath
    launcherExePath := update.launcherExePath.or row.launcherExePath
    wineprefixPath := update.wineprefixPath.or row.wineprefixPath
    installedFlatpakRef := update.installedFlatpakRef.or row.installedFlatpakRef
    graphicsPlatform := update.graphicsPlatform.getD row.graphicsPlatform
    processArchitecture := update.processArchitecture.getD row.processArchitecture
    groupId := update.groupId.or row.groupId
    detectedVia := (update.detectedVia.map DetectedVia.text).or row.detectedVia
    icons :=
      { icon16 := update.icons.icon16.or row.icons.icon16
        icon32 := update.icons.icon32.or row.icons.icon32
        icon48 := update.icons.icon48.or row.icons.icon48
        icon256 := update.icons.icon256.or row.icons.icon256 } }

@[simp] theorem set_id (update : IdentityUpdate) (row : Application) :
    (update.set row).id = row.id := rfl

@[simp] theorem set_key (update : IdentityUpdate) (row : Application) :
    (update.set row).key = row.key := rfl

@[simp] theorem set_groupId (update : IdentityUpdate) (row : Application) :
    (update.set row).groupId = update.groupId.or row.groupId := rfl

theorem set_checks {update : IdentityUpdate} {row : Application} (h : row.Checks) :
    (update.set row).Checks := h

/-- A patch with no field is the empty one. -/
theorem eq_empty_of_fields {update : IdentityUpdate} (h : update.fields = 0) : update = {} := by
  unfold fields at h
  rw [List.count_eq_zero] at h
  simp only [List.mem_cons, List.not_mem_nil, or_false, not_or, eq_comm (a := true),
    Bool.not_eq_true, Option.isSome_eq_false_iff, Option.isNone_iff_eq_none] at h
  obtain ⟨h₁, h₂, h₃, h₄, h₅, h₆, h₇, h₈, h₉, h₁₀, h₁₁, h₁₂, h₁₃, h₁₄, h₁₅⟩ := h
  obtain ⟨_, _, _, _, _, _, _, _, _, _, _, ⟨_, _, _, _⟩⟩ := update
  simp_all

/-- The empty patch changes nothing. -/
@[simp] theorem set_empty (row : Application) : IdentityUpdate.set {} row = row := rfl

end IdentityUpdate

namespace ApplicationRepo

/-- Apply an enrichment patch. -/
def updateIdentity (d : Database) (id : ℤ) (update : IdentityUpdate) : Except Error Database :=
  if update.fields = 0 then .ok d
  else
    Database.execute
      { d.toTables with
        applications := Sql.updateWhere (fun a => a.id = id) update.set d.applications }

/-- The tables with a patch applied to the row of an application. -/
def patched (t : Tables) (id : ℤ) (f : Application → Application) : Tables :=
  { t with applications := Sql.updateWhere (fun a => a.id = id) f t.applications }

/-- **An accepted update** has made of the row what the patch makes of it. -/
theorem updateIdentity_ok_iff {d d' : Database} {id : ℤ} {update : IdentityUpdate} :
    updateIdentity d id update = .ok d' ↔ d'.toTables = patched d.toTables id update.set := by
  unfold updateIdentity
  split
  next h_fields =>
    -- no field, no statement: it would have changed nothing
    have h_rows : patched d.toTables id update.set = d.toTables := by
      rw [IdentityUpdate.eq_empty_of_fields h_fields]
      unfold patched Sql.updateWhere
      simp
    rw [h_rows]
    refine ⟨fun h => ?_, fun h => congrArg Except.ok (Database.ext_tables h.symm)⟩
    rw [Except.ok.inj h]
  next => exact Database.execute_ok_iff

/-- **A patch whose group exists** is accepted. -/
theorem updateIdentity_known {d : Database} {update : IdentityUpdate}
    (h : ∀ g ∈ update.groupId, g ∈ d.groups) (id : ℤ) :
    ∃ d', updateIdentity d id update = .ok d' := by
  have h_ids : (patched d.toTables id update.set).applications.map Application.id =
      d.applications.map Application.id :=
    Sql.map_updateWhere fun row _ => update.set_id row
  have h_keys : (patched d.toTables id update.set).applications.map Application.key =
      d.applications.map Application.key :=
    Sql.map_updateWhere fun row _ => update.set_key row
  have h_checks : (patched d.toTables id update.set).Checks :=
    ⟨Sql.forall_mem_updateWhere d.checks.1 fun row h_row _ =>
      IdentityUpdate.set_checks (d.checks.1 row h_row), d.checks.2⟩
  have h_uniques : (patched d.toTables id update.set).Uniques := by
    obtain ⟨h_app, h_session, h_key, h_open⟩ := d.uniques
    refine ⟨?_, h_session, ?_, h_open⟩
    · rwa [h_ids]
    · rwa [h_keys]
  have h_foreign : (patched d.toTables id update.set).ForeignKeys := by
    refine ⟨fun s hs => ?_, Sql.forall_mem_updateWhere d.foreignKeys.2 fun row h_row _ g hg => ?_⟩
    · rw [h_ids]
      exact d.foreignKeys.1 s hs
    -- the group is the one given, or the one that the row has
    · rw [IdentityUpdate.set_groupId, Option.mem_def, Option.or_eq_some_iff] at hg
      rcases hg with hg | ⟨-, hg⟩
      · exact h g hg
      · exact d.foreignKeys.2 row h_row g hg
  exact ⟨⟨_, h_checks, h_uniques, h_foreign⟩, updateIdentity_ok_iff.mpr rfl⟩

end ApplicationRepo

end Ludex
