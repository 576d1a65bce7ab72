import Ludex.Core.Identity
import Ludex.Core.RepoRun
import Ludex.Lib.Registers

/-!
# The enrichment cascade

`merge.rs` lays the patches of the enrichment sources over each other, and `run_cascade` of `lib.rs`
applies the result to the row of an application.

`IdentityField` lists the fields that a patch supplies. Whatever is said of each field says it with
`IdentityUpdate.get`: a merge overwrites a field with what is given (`get_mergeInto`), so after a
sequence of patches a field has the last value given (`get_mergeAll`). On a row, a merge is one patch
after the other (`set_mergeInto`), with the source of the name put into the patch (`tagged`). So the
merged patch makes of a row what the patches in order make of it (`mergeAll_set`), and of a database
too, unless one of them is refused (`applyEach_ok`).
-/

namespace Ludex

open Registers ApplicationRepo

/-! ### Fields -/

/-- A field that a patch supplies. -/
inductive IdentityField where
  | productName
  | publisher
  | version
  | executablePath
  | launcherExePath
  | wineprefixPath
  | installedFlatpakRef
  | graphicsPlatform
  | processArchitecture
  | groupId
  | icon16
  | icon32
  | icon48
  | icon256

/-- The values of a field. -/
def IdentityField.Value : IdentityField → Type
  | .graphicsPlatform => GraphicsPlatform
  | .processArchitecture => ProcessArchitecture
  | .groupId => ℤ
  | .icon16 | .icon32 | .icon48 | .icon256 => Blob
  | _ => String

/-- The value a patch gives for a field. -/
def IdentityUpdate.get (update : IdentityUpdate) : (field : IdentityField) → Option field.Value
  | .productName => update.productName
  | .publisher => update.publisher
  | .version => update.version
  | .executablePath => update.executablePath
  | .launcherExePath => update.launcherExePath
  | .wineprefixPath => update.wineprefixPath
  | .installedFlatpakRef => update.installedFlatpakRef
  | .graphicsPlatform => update.graphicsPlatform
  | .processArchitecture => update.processArchitecture
  | .groupId => update.groupId
  | .icon16 => update.icons.icon16
  | .icon32 => update.icons.icon32
  | .icon48 => update.icons.icon48
  | .icon256 => update.icons.icon256

namespace Merge

/-! ### Merging -/

/-- Overwrite a field by one that is present. -/
def overwrite {α : Type} (acc patch : Option α) : Option α := if patch.isSome then patch else acc

def mergeIcons (acc patch : Icons) : Icons where
  icon16 := overwrite acc.icon16 patch.icon16
  icon32 := overwrite acc.icon32 patch.icon32
  icon48 := overwrite acc.icon48 patch.icon48
  icon256 := overwrite acc.icon256 patch.icon256

/-- Apply a patch on top of what has accumulated. The source is recorded if the patch has a name. -/
def mergeInto (acc : IdentityUpdate) (source : DetectedVia) : Option IdentityUpdate → IdentityUpdate
  | none => acc
  | some patch =>
    { productName := overwrite acc.productName patch.productName
      detectedVia := if patch.productName.isSome then some source else acc.detectedVia
      publisher := overwrite acc.publisher patch.publisher
      version := overwrite acc.version patch.version
      executablePath := overwrite acc.executablePath patch.executablePath
      launcherExePath := overwrite acc.launcherExePath patch.launcherExePath
      wineprefixPath := overwrite acc.wineprefixPath patch.wineprefixPath
      installedFlatpakRef := overwrite acc.installedFlatpakRef patch.installedFlatpakRef
      graphicsPlatform := overwrite acc.graphicsPlatform patch.graphicsPlatform
      processArchitecture := overwrite acc.processArchitecture patch.processArchitecture
      groupId := overwrite acc.groupId patch.groupId
      icons := mergeIcons acc.icons patch.icons }

/-- The patch carries no changes. -/
def isEmpty (patch : IdentityUpdate) : Bool :=
  patch.productName.isNone && patch.publisher.isNone && patch.version.isNone &&
    patch.executablePath.isNone && patch.launcherExePath.isNone && patch.wineprefixPath.isNone &&
    patch.installedFlatpakRef.isNone && patch.graphicsPlatform.isNone &&
    patch.processArchitecture.isNone && patch.groupId.isNone && patch.icons.icon16.isNone &&
    patch.icons.icon32.isNone && patch.icons.icon48.isNone && patch.icons.icon256.isNone

/-- A source, and the patch it has come up with. -/
abbrev Contribution := DetectedVia × Option IdentityUpdate

/-- Merge the contributions in order, from the empty update. -/
def mergeAll (contributions : List Contribution) : IdentityUpdate :=
  contributions.foldl (fun acc (source, patch) => mergeInto acc source patch) {}

end Merge

/-- What the enrichment sources find out about an application. -/
structure EnrichmentSources where
  desktop : Application → Option IdentityUpdate
  pe : Application → Option IdentityUpdate
  gog : Application → Option IdentityUpdate
  heroic : Application → Option IdentityUpdate
  lutris : Application → Option IdentityUpdate
  steam : Application → Option IdentityUpdate

/-- What the sources contribute, lowest priority first. -/
def contributions (sources : EnrichmentSources) (app : Application) : List Merge.Contribution :=
  [(.desktop, sources.desktop app), (.pe, sources.pe app), (.gog, sources.gog app),
    (.heroic, sources.heroic app), (.lutris, sources.lutris app), (.steam, sources.steam app)]

/-- Apply every enricher in priority order. -/
def buildPatch (sources : EnrichmentSources) (app : Application) : IdentityUpdate :=
  Merge.mergeAll (contributions sources app)

/-- Run the cascade for an application. -/
def runCascade (sources : EnrichmentSources) (d : Database) (appId : ℤ) : Except Error Database :=
  match findById d appId with
  | none => .ok d
  | some app =>
    let patch := buildPatch sources app
    if Merge.isEmpty patch then .ok d else updateIdentity d appId patch

namespace Merge

/-! ### One merge -/

theorem overwrite_eq_or {α : Type} (acc patch : Option α) : overwrite acc patch = patch.or acc := by
  cases patch <;> rfl

/-- **A merge overwrites** each field with what the patch gives. -/
theorem get_mergeInto (acc : IdentityUpdate) (source : DetectedVia) (patch : Option IdentityUpdate)
    (field : IdentityField) :
    (mergeInto acc source patch).get field = (patch.bind fun patch => patch.get field).or
      (acc.get field) := by
  cases patch with
  | none => rfl
  | some patch => cases field <;> exact overwrite_eq_or _ _

/-- The source a patch is recorded with: the one it came from, if it names the game. -/
def provenance (source : DetectedVia) (patch : IdentityUpdate) : Option DetectedVia :=
  patch.productName.map fun _ => source

theorem detectedVia_mergeInto (acc : IdentityUpdate) (source : DetectedVia)
    (patch : Option IdentityUpdate) :
    (mergeInto acc source patch).detectedVia =
      (patch.bind (provenance source)).or acc.detectedVia := by
  cases patch with
  | none => rfl
  | some patch =>
    show (if patch.productName.isSome then some source else acc.detectedVia) =
      (patch.productName.map fun _ => source).or acc.detectedVia
    cases patch.productName <;> rfl

/-- A patch as it is applied on its own: tagged with its source if it names the game. -/
def tagged (source : DetectedVia) (patch : IdentityUpdate) : IdentityUpdate :=
  { patch with detectedVia := provenance source patch }

theorem getD_overwrite {α : Type} (acc patch : Option α) (x : α) :
    (overwrite acc patch).getD x = patch.getD (acc.getD x) := by
  cases patch <;> rfl

theorem or_overwrite {α : Type} (acc patch x : Option α) :
    (overwrite acc patch).or x = patch.or (acc.or x) := by
  cases patch <;> rfl

/-- **On a row, a merge is one patch after the other.** -/
theorem set_mergeInto (acc : IdentityUpdate) (source : DetectedVia) (patch : IdentityUpdate)
    (row : Application) :
    (mergeInto acc source (some patch)).set row = (tagged source patch).set (acc.set row) := by
  have h_source : ((mergeInto acc source (some patch)).detectedVia.map DetectedVia.text).or
      row.detectedVia = ((provenance source patch).map DetectedVia.text).or
        ((acc.detectedVia.map DetectedVia.text).or row.detectedVia) := by
    rw [detectedVia_mergeInto, Option.bind_some]
    cases provenance source patch <;> rfl
  unfold IdentityUpdate.set
  simp only [h_source]
  simp only [mergeInto, mergeIcons, tagged, getD_overwrite, or_overwrite]

/-! ### A sequence of merges -/

section Sequence

variable {contributions : List Contribution}

theorem mergeAll_append_singleton (contributions : List Contribution) (source : DetectedVia)
    (patch : Option IdentityUpdate) :
    mergeAll (contributions ++ [(source, patch)]) = mergeInto (mergeAll contributions) source patch := by
  unfold mergeAll
  rw [List.foldl_append]
  rfl

/-- **A field has the last value given.** -/
theorem get_mergeAll (contributions : List Contribution) (field : IdentityField) :
    (mergeAll contributions).get field =
      lastGiven (contributions.map fun c => c.2.bind fun patch => patch.get field) := by
  have h_empty : ({} : IdentityUpdate).get field = none := by cases field <;> rfl
  exact get_foldl (g := fun acc => acc.get field) (fun acc c => get_mergeInto acc c.1 c.2 field) h_empty
    contributions

/-- **The source recorded** is that of the last patch with a name. -/
theorem detectedVia_mergeAll (contributions : List Contribution) :
    (mergeAll contributions).detectedVia =
      lastGiven (contributions.map fun c => c.2.bind (provenance c.1)) :=
  get_foldl (g := IdentityUpdate.detectedVia) (fun acc c => detectedVia_mergeInto acc c.1 c.2) rfl
    contributions

theorem detectedVia_isSome_iff (contributions : List Contribution) :
    (mergeAll contributions).detectedVia.isSome = true ↔
      (mergeAll contributions).productName.isSome = true := by
  have h_name : (mergeAll contributions).productName =
      lastGiven (contributions.map fun c => c.2.bind fun patch => patch.productName) :=
    get_mergeAll contributions .productName
  rw [detectedVia_mergeAll, h_name, lastGiven_isSome_iff, lastGiven_isSome_iff]
  simp only [List.mem_map, exists_exists_and_eq_and]
  refine exists_congr fun c => and_congr_right fun _ => ?_
  -- a patch gives its source with its name
  cases c.2 with
  | none => exact Iff.rfl
  | some patch =>
    show (patch.productName.map fun _ => c.1).isSome = true ↔ patch.productName.isSome = true
    rw [Option.isSome_map]

/-- A patch is empty if it gives no field. -/
theorem isEmpty_iff {patch : IdentityUpdate} :
    isEmpty patch = true ↔ ∀ field, patch.get field = none := by
  unfold isEmpty
  simp only [Bool.and_eq_true, Option.isNone_iff_eq_none, and_assoc]
  refine ⟨?_, ?_⟩
  · rintro ⟨h₁, h₂, h₃, h₄, h₅, h₆, h₇, h₈, h₉, h₁₀, h₁₁, h₁₂, h₁₃, h₁₄⟩ field
    cases field <;> assumption
  · intro h
    exact ⟨h .productName, h .publisher, h .version, h .executablePath, h .launcherExePath,
      h .wineprefixPath, h .installedFlatpakRef, h .graphicsPlatform, h .processArchitecture,
      h .groupId, h .icon16, h .icon32, h .icon48, h .icon256⟩

theorem isEmpty_mergeAll_iff (contributions : List Contribution) :
    isEmpty (mergeAll contributions) = true ↔
      ∀ c ∈ contributions, ∀ patch ∈ c.2, ∀ field, patch.get field = none := by
  rw [isEmpty_iff]
  simp only [get_mergeAll, lastGiven_eq_none_iff, List.forall_mem_map, Option.bind_eq_none_iff,
    Option.mem_def]
  exact ⟨fun h c hc patch hp field => h field c hc patch hp,
    fun h field c hc patch hp => h c hc patch hp field⟩

/-- An empty patch with no source is the empty update. -/
theorem eq_empty_of_isEmpty {patch : IdentityUpdate} (h : isEmpty patch = true)
    (h_source : patch.detectedVia = none) : patch = {} := by
  have h_get := isEmpty_iff.mp h
  -- field by field: none is given, so each is the default
  obtain ⟨_, _, _, _, _, _, _, _, _, _, _, ⟨_, _, _, _⟩⟩ := patch
  obtain rfl := h_source
  obtain rfl := h_get .productName
  obtain rfl := h_get .publisher
  obtain rfl := h_get .version
  obtain rfl := h_get .executablePath
  obtain rfl := h_get .launcherExePath
  obtain rfl := h_get .wineprefixPath
  obtain rfl := h_get .installedFlatpakRef
  obtain rfl := h_get .graphicsPlatform
  obtain rfl := h_get .processArchitecture
  obtain rfl := h_get .groupId
  obtain rfl := h_get .icon16
  obtain rfl := h_get .icon32
  obtain rfl := h_get .icon48
  obtain rfl := h_get .icon256
  rfl

/-- **An empty merge changes nothing.** -/
theorem eq_empty_of_isEmpty_mergeAll (h : isEmpty (mergeAll contributions) = true) :
    mergeAll contributions = {} := by
  refine eq_empty_of_isEmpty h (Option.not_isSome_iff_eq_none.mp fun h_source => ?_)
  rw [detectedVia_isSome_iff] at h_source
  rw [show (mergeAll contributions).productName = none from isEmpty_iff.mp h .productName] at h_source
  exact nomatch h_source

/-- Apply a contribution to a row on its own. -/
def setOne (row : Application) (c : Contribution) : Application :=
  match c.2 with
  | none => row
  | some patch => (tagged c.1 patch).set row

/-- **On a row**, the merged patch does what the patches do in order. -/
theorem mergeAll_set (contributions : List Contribution) (row : Application) :
    (mergeAll contributions).set row = contributions.foldl setOne row := by
  induction contributions using List.reverseRecOn with
  | nil => exact IdentityUpdate.set_empty row
  | append_singleton contributions c ih =>
    obtain ⟨source, patch⟩ := c
    rw [mergeAll_append_singleton, List.foldl_append, List.foldl_cons, List.foldl_nil, ← ih]
    cases patch with
    | none => rfl
    | some patch => exact set_mergeInto _ source patch row

/-- Apply a contribution to a database on its own. -/
def applyOne (id : ℤ) (d : Database) (c : Contribution) : Except Error Database :=
  match c.2 with
  | none => .ok d
  | some patch => updateIdentity d id (tagged c.1 patch)

/-- Apply the contributions in order, each on its own. -/
def applyEach (d : Database) (id : ℤ) (contributions : List Contribution) : Except Error Database :=
  contributions.foldlM (applyOne id) d

theorem setOne_id (row : Application) (c : Contribution) : (setOne row c).id = row.id := by
  unfold setOne
  cases c.2 with
  | none => rfl
  | some patch => rfl

theorem applyOne_ok_iff {d d' : Database} {id : ℤ} {c : Contribution} :
    applyOne id d c = .ok d' ↔ d'.toTables = patched d.toTables id fun row => setOne row c := by
  unfold applyOne setOne
  cases c.2 with
  | none =>
    have h_rows : patched d.toTables id (fun row => row) = d.toTables := by
      unfold patched Sql.updateWhere
      simp
    simp only [h_rows, Except.ok.injEq]
    exact ⟨fun h => by rw [h], fun h => Database.ext_tables h.symm⟩
  | some patch => exact updateIdentity_ok_iff

/-- **Contributions that are accepted in order** make of the row what they make of it one by one. -/
theorem applyEach_tables {d d' : Database} {id : ℤ}
    (h : applyEach d id contributions = .ok d') :
    d'.toTables = patched d.toTables id fun row => contributions.foldl setOne row := by
  unfold applyEach at h
  -- induction on the contributions: each patch is set on what the ones before have left
  induction contributions generalizing d with
  | nil =>
    obtain rfl := Except.ok.inj h
    unfold patched Sql.updateWhere
    simp
  | cons c contributions ih =>
    rw [List.foldlM_cons] at h
    obtain ⟨d₁, h_first, h_rest⟩ := Except.bind_eq_ok.mp h
    rw [ih h_rest, applyOne_ok_iff.mp h_first]
    unfold patched
    simp only
    rw [updateWhere_id_updateWhere id fun row => setOne_id row c]
    rfl

/-- **On a database**, the merged patch does what the patches do in order, where they are accepted. -/
theorem applyEach_ok {d d' : Database} {id : ℤ} (h : applyEach d id contributions = .ok d') :
    updateIdentity d id (mergeAll contributions) = .ok d' := by
  have h_set : (mergeAll contributions).set = fun row => contributions.foldl setOne row := by
    ext1 row
    exact mergeAll_set contributions row
  rw [updateIdentity_ok_iff, h_set]
  exact applyEach_tables h

/-- Contributions whose groups exist are accepted. -/
theorem applyEach_known {d : Database} (id : ℤ)
    (h : ∀ c ∈ contributions, ∀ patch ∈ c.2, ∀ g ∈ patch.groupId, g ∈ d.groups) :
    ∃ d', applyEach d id contributions = .ok d' := by
  unfold applyEach
  induction contributions generalizing d with
  | nil => exact ⟨d, rfl⟩
  | cons c contributions ih =>
    rw [List.forall_mem_cons] at h
    obtain ⟨h_first, h_rest⟩ := h
    obtain ⟨d₁, h_one⟩ : ∃ d₁, applyOne id d c = .ok d₁ := by
      unfold applyOne
      cases h_patch : c.2 with
      | none => exact ⟨d, rfl⟩
      | some patch =>
        have h_group : ∀ g ∈ (tagged c.1 patch).groupId, g ∈ d.groups := h_first patch h_patch
        exact updateIdentity_known h_group id
    -- no patch touches the groups
    have h_groups : d₁.groups = d.groups := by
      rw [applyOne_ok_iff.mp h_one]
      rfl
    rw [← h_groups] at h_rest
    obtain ⟨d', h_all⟩ := ih h_rest
    exact ⟨d', Except.bind_eq_ok.mpr ⟨d₁, h_one, h_all⟩⟩

/-- **The last writer wins**, field by field, on rows and on databases. -/
theorem mergeAll_lastWriterWins (contributions : List Contribution) :
    (∀ field, (mergeAll contributions).get field =
        lastGiven (contributions.map fun c => c.2.bind fun patch => patch.get field)) ∧
      ((mergeAll contributions).detectedVia.isSome = true ↔
        (mergeAll contributions).productName.isSome = true) ∧
      (mergeAll contributions).detectedVia =
        lastGiven (contributions.map fun c => c.2.bind (provenance c.1)) ∧
      (isEmpty (mergeAll contributions) = true ↔
        ∀ c ∈ contributions, ∀ patch ∈ c.2, ∀ field, patch.get field = none) ∧
      (isEmpty (mergeAll contributions) = true →
        ∀ d id, updateIdentity d id (mergeAll contributions) = .ok d) ∧
      (∀ row, (mergeAll contributions).set row = contributions.foldl setOne row) ∧
      ∀ d id,
        ((∀ c ∈ contributions, ∀ patch ∈ c.2, ∀ g ∈ patch.groupId, g ∈ d.groups) →
          ∃ d', applyEach d id contributions = .ok d') ∧
        ∀ d', applyEach d id contributions = .ok d' →
          updateIdentity d id (mergeAll contributions) = .ok d' := by
  -- the parts of the statement are lemmas of their own
  refine ⟨get_mergeAll contributions, detectedVia_isSome_iff contributions,
    detectedVia_mergeAll contributions, isEmpty_mergeAll_iff contributions, ?_,
    mergeAll_set contributions, fun d id => ⟨applyEach_known id, fun d' => applyEach_ok⟩⟩
  intro h_empty d id
  rw [eq_empty_of_isEmpty_mergeAll h_empty]
  rfl

end Sequence

/-- A library with one game in it. -/
def oneGame : Database :=
  Run.final Database.empty (Op.trace .empty [.create (newSteam "10" (.firstDay 0))])

/-- A source that names a group there is not, and one that names another. -/
def regrouped : List Contribution :=
  [(.gog, some { publisher := some "P", groupId := some 99 }), (.steam, some { groupId := some 1 })]

/-- The merged patch has the later group and is accepted. On its own the first patch is refused, with
all that it gives, whether the second is applied after it or not. -/
theorem mergeAll_regrouped :
    (updateIdentity oneGame 1 (mergeAll regrouped)).toOption.map
        (fun d => d.applications.map Application.publisher) = some [some "P"] ∧
      (applyEach oneGame 1 regrouped).toOption.isNone = true ∧
      (regrouped.foldl (fun d c => (applyOne 1 d c).toOption.getD d) oneGame).applications.map
        Application.publisher = [none] := by
  decide +kernel

end Merge

/-- **The cascade** does what its sources do one by one, lowest priority first. -/
theorem runCascade_eq {sources : EnrichmentSources} {d : Database} {appId : ℤ} {app : Application}
    (h : findById d appId = some app)
    (h_known : ∀ c ∈ contributions sources app, ∀ patch ∈ c.2, ∀ g ∈ patch.groupId, g ∈ d.groups) :
    runCascade sources d appId = Merge.applyEach d appId (contributions sources app) := by
  obtain ⟨d', h_each⟩ := Merge.applyEach_known appId h_known
  have h_merged := Merge.applyEach_ok h_each
  rw [h_each]
  unfold runCascade buildPatch
  rw [h]
  simp only
  split
  next h_empty =>
    -- nothing is written, and nothing would be
    rw [Merge.eq_empty_of_isEmpty_mergeAll h_empty] at h_merged
    exact h_merged
  next => exact h_merged

end Ludex
