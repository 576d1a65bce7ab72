import Ludex.Core.Ledger
import Ludex.Core.Reachable
import Ludex.Enrich.Merge

/-!
# Enrichment in the background

The session manager spawns `run_cascade` for a new application and drops the handle: the cascade reads
the row, asks its sources, and some time later writes what they found, in the middle of whatever the
daemon and the command line do to the database meanwhile. `Background` is a database with the cascades
that have read and not yet written, and a step is one repository call, or the read, the write or the
loss of a cascade. What the sources find is arbitrary, and may differ every time.

* `calls_undisturbed`: enrichment never blocks or fails session tracking. Take the cascades out of any
  run and the calls have the same outcomes, and leave the same sessions, accounts and rowids.
* `names_accounted`: a row says truly where its name comes from. It has the name it was created with
  and no source, or the name and the source are those of a cascade that read this very application,
  even where applications were merged away under running cascades. Rowids are not used twice, so a
  cascade that comes late writes to the row it read or to none.

A cascade that nothing interrupts is `runCascade` (`runCascade_ok_iff`).
-/

namespace Ludex

open Run Registers ApplicationRepo

/-! ### The system -/

/-- A cascade between its read and its write. -/
structure Cascade where
  /-- The row it has read. -/
  app : Application
  /-- What the sources have found out about it. -/
  patch : IdentityUpdate

/-- The cascade that is under way after the read, if the application exists and a source has something
to say about it. -/
def beginCascade (sources : EnrichmentSources) (d : Database) (appId : ℤ) : List Cascade :=
  match findById d appId with
  | none => []
  | some app =>
    let patch := buildPatch sources app
    if Merge.isEmpty patch then [] else [⟨app, patch⟩]

/-- A database, and the cascades that are going to write to it. -/
structure Background where
  database : Database
  running : List Cascade

namespace Background

/-- What happens next. -/
inductive Label where
  /-- A repository call. -/
  | call (c : Call)
  /-- A cascade reads an application, and asks its sources. -/
  | read (appId : ℤ) (sources : EnrichmentSources)
  /-- The cascade at an index writes its patch. -/
  | write (i : ℕ)
  /-- The write fails, or the daemon stops before it. -/
  | lost (i : ℕ)

/-- The repository call of a step. -/
def Label.call? : Label → Option Call
  | call c => some c
  | _ => none

/-- The state after a step, if it can be taken. -/
def next (s : Background) : Label → Option Background
  | .call (.done op) => (op.run s.database).toOption.map fun d => { s with database := d }
  | .call (.failed _) => some s
  | .read appId sources =>
    some { s with running := s.running ++ beginCascade sources s.database appId }
  | .write i => do
    let c ← s.running[i]?
    let d ← (updateIdentity s.database c.app.id c.patch).toOption
    return { database := d, running := s.running.eraseIdx i }
  | .lost i => s.running[i]?.map fun _ => { s with running := s.running.eraseIdx i }

def Step (s : Background) (l : Label) (t : Background) : Prop := next s l = some t

/-- What a step does. -/
inductive Effect : Background → Label → Background → Prop
  | call {d d' : Database} {running : List Cascade} {c : Call} :
      Ludex.Step d c d' → Effect ⟨d, running⟩ (.call c) ⟨d', running⟩
  | read {d : Database} {running : List Cascade} (appId : ℤ) (sources : EnrichmentSources) :
      Effect ⟨d, running⟩ (.read appId sources) ⟨d, running ++ beginCascade sources d appId⟩
  | write {d d' : Database} {running : List Cascade} {i : ℕ} {c : Cascade} :
      running[i]? = some c → updateIdentity d c.app.id c.patch = .ok d' →
      Effect ⟨d, running⟩ (.write i) ⟨d', running.eraseIdx i⟩
  | lost {d : Database} {running : List Cascade} {i : ℕ} :
      Effect ⟨d, running⟩ (.lost i) ⟨d, running.eraseIdx i⟩

theorem Step.effect {s t : Background} {l : Label} (h : Step s l t) : Effect s l t := by
  -- one case for each label; a refused call and a failed one leave the database as it is
  unfold Step at h
  cases l with
  | call c =>
    cases c with
    | done op =>
      obtain ⟨d, h_run, rfl⟩ := Option.map_eq_some_iff.mp h
      exact .call (.done (Except.toOption_eq_some_iff.mp h_run))
    | failed op =>
      obtain rfl := Option.some.inj h
      exact .call .failed
  | read appId sources =>
    obtain rfl := Option.some.inj h
    exact .read appId sources
  | write i =>
    obtain ⟨c, h_c, h⟩ := Option.bind_eq_some_iff.mp h
    obtain ⟨d, h_write, h⟩ := Option.bind_eq_some_iff.mp h
    obtain rfl := Option.some.inj h
    exact .write h_c (Except.toOption_eq_some_iff.mp h_write)
  | lost i =>
    obtain ⟨c, -, rfl⟩ := Option.map_eq_some_iff.mp h
    exact .lost

end Background

/-- **Without anything in between**, a cascade is its read and its write. -/
theorem runCascade_ok_iff {sources : EnrichmentSources} {d d' : Database} {appId : ℤ} :
    runCascade sources d appId = .ok d' ↔
      beginCascade sources d appId = [] ∧ d' = d ∨
        ∃ c, beginCascade sources d appId = [c] ∧ updateIdentity d c.app.id c.patch = .ok d' := by
  -- with nothing to write the cascade returns the database it was given
  have h_same : (.ok d : Except Error Database) = .ok d' ↔ d' = d :=
    ⟨fun h => (Except.ok.inj h).symm, fun h => by rw [h]⟩
  unfold runCascade beginCascade
  cases h_app : findById d appId with
  | none => simp [h_same]
  | some app =>
    obtain ⟨-, rfl⟩ := findById_some h_app
    simp only
    -- an application whose sources offered nothing is not written to
    split
    · simp [h_same]
    · simp

/-! ### What a cascade does not touch -/

/-- An identity update leaves the ledger alone. -/
theorem updateIdentity_ledger {d d' : Database} {id : ℤ} {update : IdentityUpdate}
    (h : updateIdentity d id update = .ok d') : d'.SameLedger d := by
  unfold Database.SameLedger
  rw [updateIdentity_ok_iff.mp h]
  exact ⟨Sql.map_updateWhere fun _ _ => rfl, rfl, rfl, rfl, rfl⟩

namespace Background

/-- A step that is no repository call leaves the ledger alone. -/
theorem Step.ledger {s t : Background} {l : Label} (h : s.Step l t) (h_l : l.call? = none) :
    t.database.SameLedger s.database := by
  cases h.effect with
  | call _ => exact nomatch h_l
  | read appId sources => exact .refl _
  | write _ h_write => exact updateIdentity_ledger h_write
  | lost => exact .refl _

/-- **Enrichment never blocks or fails session tracking.** Without its cascades a run is a run of the
repository calls alone, in which every call ends as it did, and which leads to a database with the same
ledger. Whatever is called next has the same outcome on both. -/
theorem calls_undisturbed {s : Background} {tr : List (Label × Background)}
    (hrun : IsRun Step s tr) :
    ∃ tr' : List (Call × Database), IsRun Ludex.Step s.database tr' ∧
      tr'.map Prod.fst = tr.filterMap (fun x => x.1.call?) ∧
      (final s tr).database.SameLedger (final s.database tr') ∧
      ∀ op : Op, Except.Agree Database.SameLedger (op.run (final s tr).database)
        (op.run (final s.database tr')) := by
  -- a call of the daemon does to both databases what it does alone
  have h_call : ∀ (s : Background) (l : Label) (t : Background) (d : Database) (c : Call),
      Step s l t → s.database.SameLedger d → l.call? = some c →
        ∃ d', Ludex.Step d c d' ∧ t.database.SameLedger d' := by
    intro s l t d c h_step h h_l
    cases h_step.effect with
    -- reads and writes of a cascade are no calls, so the other run rests
    | read appId sources => exact nomatch h_l
    | write _ _ => exact nomatch h_l
    | lost => exact nomatch h_l
    | call h_call =>
      obtain rfl := Option.some.inj h_l
      cases h_call with
      | failed => exact ⟨d, .failed, h⟩
      | @done _ op h_op =>
        obtain ⟨e', h_e, h'⟩ := (op.run_agree h).of_ok h_op
        exact ⟨e', .done h_e, h'⟩
  -- everything else is hidden: it changes no column that a call reads
  obtain ⟨tr', h_run, h_calls, h_ledger⟩ := hrun.hide (fun s d => s.database.SameLedger d) Label.call?
    (fun s l t d h_step h h_l => (h_step.ledger h_l).trans h) h_call (Tables.SameLedger.refl _)
  exact ⟨tr', h_run, h_calls, h_ledger, fun op => op.run_agree h_ledger⟩

/-- A source that names every game by its id. -/
def namingById : EnrichmentSources where
  desktop _ := none
  pe _ := none
  gog _ := none
  heroic _ := none
  lutris _ := none
  steam app := some { productName := some app.launcherId }

/-- Two games are found, the second one is merged into the first while its cascade runs, a third one is
found, and then the three cascades write, the latest first. -/
def mergedWhileEnriched : List Label :=
  [.call (.done (.create (newSteam "10" (.firstDay 0)))), .read 1 namingById,
    .call (.done (.create (newSteam "20" (.firstDay 1)))), .read 2 namingById,
    .call (.done (.mergeInto 2 1)), .call (.done (.create (newSteam "30" (.firstDay 2)))),
    .read 3 namingById, .write 2, .write 1, .write 0]

theorem calls_undisturbed_mergedWhileEnriched :
    (trace next ⟨.empty, []⟩ mergedWhileEnriched).length = 10 ∧
      ∃ tr' : List (Call × Database), IsRun Ludex.Step .empty tr' ∧
        tr'.map Prod.fst =
          (trace next ⟨.empty, []⟩ mergedWhileEnriched).filterMap (fun x => x.1.call?) ∧
        (final ⟨.empty, []⟩ (trace next ⟨.empty, []⟩ mergedWhileEnriched)).database.SameLedger
          (final .empty tr') ∧
        ∀ op : Op, Except.Agree Database.SameLedger
          (op.run (final ⟨.empty, []⟩ (trace next ⟨.empty, []⟩ mergedWhileEnriched)).database)
          (op.run (final .empty tr')) :=
  ⟨by decide +kernel, calls_undisturbed (s := ⟨.empty, []⟩) (isRun_trace next _ mergedWhileEnriched)⟩

end Background

/-! ### Where a name comes from -/

namespace Merge

/-- The last of the contributions that names the game, and its name. -/
def named (contributions : List Contribution) : Option (DetectedVia × String) :=
  lastGiven (contributions.map fun c => c.2.bind fun patch => patch.productName.map fun name =>
    (c.1, name))

/-- **The merged patch** has the name and the source of the last contribution with a name. -/
theorem named_mergeAll (contributions : List Contribution) :
    (mergeAll contributions).productName = (named contributions).map Prod.snd ∧
      (mergeAll contributions).detectedVia = (named contributions).map Prod.fst := by
  -- the name that wins is the last one given, and so is its provenance
  have h_name : (mergeAll contributions).productName =
      lastGiven (contributions.map fun c => c.2.bind fun patch => patch.productName) :=
    get_mergeAll contributions .productName
  rw [h_name, detectedVia_mergeAll]
  unfold named
  rw [← lastGiven_map, ← lastGiven_map, List.map_map, List.map_map]
  refine ⟨congrArg lastGiven (List.map_congr_left ?_), congrArg lastGiven (List.map_congr_left ?_)⟩
  · -- each source gives a name and its provenance together or not at all
    rintro ⟨source, patch⟩ -
    cases patch with
    | none => rfl
    | some patch =>
      show patch.productName = (patch.productName.map _).map Prod.snd
      cases patch.productName <;> rfl
  · rintro ⟨source, patch⟩ -
    cases patch with
    | none => rfl
    | some patch =>
      show provenance source patch = (patch.productName.map _).map Prod.fst
      unfold provenance
      cases patch.productName <;> rfl

end Merge

/-- Two rows of one application with the same name from the same source. -/
structure SameName (a b : Application) : Prop where
  id : a.id = b.id
  key : a.key = b.key
  productName : a.productName = b.productName
  detectedVia : a.detectedVia = b.detectedVia

theorem SameName.trans {a b c : Application} (h : SameName a b) (h' : SameName b c) :
    SameName a c :=
  ⟨h.id.trans h'.id, h.key.trans h'.key, h.productName.trans h'.productName,
    h.detectedVia.trans h'.detectedVia⟩

/-- What a call does to a row that it has not created keeps the name. -/
theorem RowChange.sameName {d d' : Database} {c : Call} {a' : Application} (h : RowChange d d' c a')
    (h_c : ∀ new, c ≠ .done (.create new)) : ∃ a ∈ d.applications, SameName a a' := by
  cases h with
  | created _ => exact absurd rfl (h_c _)
  | kept ha _ => exact ⟨_, ha, rfl, rfl, rfl, rfl⟩
  | closed ha _ _ _ _ => exact ⟨_, ha, rfl, rfl, rfl, rfl⟩
  | charged ha _ _ _ _ => exact ⟨_, ha, rfl, rfl, rfl, rfl⟩
  | uncharged ha _ _ _ _ _ => exact ⟨_, ha, rfl, rfl, rfl, rfl⟩
  | recomputed ha _ _ => exact ⟨_, ha, rfl, rfl, rfl, rfl⟩
  | merged _ ha _ _ => exact ⟨_, ha, rfl, rfl, rfl, rfl⟩

/-- **A repository call renames nothing.** A row after it was there before, with the same name, or has
just been created, with a new id and no source. -/
theorem Step.names {d d' : Database} {c : Call} (h : Step d c d') {a' : Application}
    (ha' : a' ∈ d'.applications) :
    (∃ a ∈ d.applications, SameName a a') ∨
      ∃ new, c = .done (.create new) ∧ d.applicationSeq < a'.id ∧ a' = newRow a'.id new := by
  cases h with
  | failed => exact Or.inl ⟨a', ha', rfl, rfl, rfl, rfl⟩
  | @done _ op h_run =>
    -- only a creation brings in an application; all other calls change the rows they find
    cases op with
    | create new =>
      obtain ⟨⟨row, d₁⟩, h_ok, rfl⟩ := Except.map_eq_ok.mp h_run
      obtain ⟨h_row, h_tables⟩ := create_ok h_ok
      rw [h_tables, List.mem_append, List.mem_singleton] at ha'
      rcases ha' with ha' | rfl
      · exact Or.inl ⟨a', ha', rfl, rfl, rfl, rfl⟩
      · -- its id is above all earlier ones
        refine Or.inr ⟨new, rfl, ?_, ?_⟩
        · rw [h_row]
          exact Int.lt_add_one_of_le (Sql.le_foldl_max _ _).1
        · rw [h_row]
          rfl
    | _ => exact Or.inl (((Step.done h_run).rowChange ha').sameName fun new => by simp)

namespace Background

/-- What a run has to say about the name of a row. -/
inductive Accounted (s : Background) (tr : List (Label × Background)) (a : Application) : Prop
  /-- The application was there from the start, with this name. -/
  | before {b : Application} : b ∈ s.database.applications → SameName b a → Accounted s tr a
  /-- It was created with this name. -/
  | created {x : Background × Label × Background} {new : NewApplication} : x ∈ steps s tr →
      x.2.1 = .call (.done (.create new)) → ⟨new.launcherType, new.launcherId⟩ = a.key →
      new.productName = a.productName → a.detectedVia = none → Accounted s tr a
  /-- A cascade has read this application, and its last source with a name was this one, with this
  name. -/
  | enriched {x : Background × Label × Background} {appId : ℤ} {sources : EnrichmentSources}
      {app : Application} {source : DetectedVia} : x ∈ steps s tr → x.2.1 = .read appId sources →
      findById x.1.database appId = some app → app.id = a.id → app.key = a.key →
      Merge.named (contributions sources app) = some (source, a.productName) →
      a.detectedVia = some source.text → Accounted s tr a

/-- The run has a step in which the cascade read its row. -/
def Read (s : Background) (tr : List (Label × Background)) (c : Cascade) : Prop :=
  ∃ x ∈ steps s tr, ∃ appId sources, x.2.1 = .read appId sources ∧
    findById x.1.database appId = some c.app ∧ c.patch = buildPatch sources c.app

/-- The rowid of the cascade belongs to the application it read, if there still is one. -/
structure Aimed (d : Database) (c : Cascade) : Prop where
  id : c.app.id ≤ d.applicationSeq
  key : ∀ a ∈ d.applications, a.id = c.app.id → a.key = c.app.key

section Run

variable {s : Background} {tr : List (Label × Background)} {x : Label × Background}
  {a b : Application} {c : Cascade}

theorem Accounted.snoc (h : Accounted s tr a) : Accounted s (tr ++ [x]) a := by
  have h_more : ∀ y ∈ steps s tr, y ∈ steps s (tr ++ [x]) := by
    intro y hy
    rw [steps_append]
    exact List.mem_append_left _ hy
  cases h with
  | before hb h_same => exact .before hb h_same
  | created hx h_l h_key h_name h_none => exact .created (h_more _ hx) h_l h_key h_name h_none
  | enriched hx h_l h_app h_id h_key h_named h_via =>
    exact .enriched (h_more _ hx) h_l h_app h_id h_key h_named h_via

theorem Read.snoc (h : Read s tr c) : Read s (tr ++ [x]) c := by
  obtain ⟨y, hy, h_read⟩ := h
  refine ⟨y, ?_, h_read⟩
  rw [steps_append]
  exact List.mem_append_left _ hy

/-- A row with the same name is accounted for in the same way. -/
theorem Accounted.congr (h : Accounted s tr a) (h_same : SameName a b) : Accounted s tr b := by
  obtain ⟨h_id', h_key', h_name', h_via'⟩ := h_same
  cases h with
  | before hb h_same => exact .before hb (h_same.trans ⟨h_id', h_key', h_name', h_via'⟩)
  | created hx h_l h_key h_name h_none =>
    exact .created hx h_l (h_key.trans h_key') (h_name.trans h_name') (h_via'.symm.trans h_none)
  | enriched hx h_l h_app h_id h_key h_named h_via =>
    rw [h_name'] at h_named
    exact .enriched hx h_l h_app (h_id.trans h_id') (h_key.trans h_key') h_named
      (h_via'.symm.trans h_via)

/-- A cascade's write to the row it read accounts for the row. -/
theorem Accounted.set (h : Accounted s tr a) (h_read : Read s tr c) (h_id : a.id = c.app.id)
    (h_key : a.key = c.app.key) : Accounted s tr (c.patch.set a) := by
  obtain ⟨y, hy, appId, sources, h_l, h_app, h_patch⟩ := h_read
  obtain ⟨h_name, h_via⟩ := Merge.named_mergeAll (contributions sources c.app)
  have h_name : c.patch.productName = (Merge.named (contributions sources c.app)).map Prod.snd := by
    rw [h_patch]
    exact h_name
  have h_via : c.patch.detectedVia = (Merge.named (contributions sources c.app)).map Prod.fst := by
    rw [h_patch]
    exact h_via
  cases h_named : Merge.named (contributions sources c.app) with
  | none =>
    -- no source has a name, and the one that is there stays
    refine h.congr ⟨rfl, rfl, ?_, ?_⟩
    · show a.productName = c.patch.productName.getD a.productName
      rw [h_name, h_named]
      rfl
    · show a.detectedVia = (c.patch.detectedVia.map DetectedVia.text).or a.detectedVia
      rw [h_via, h_named]
      rfl
  | some named =>
    obtain ⟨source, name⟩ := named
    have h_via' : (c.patch.set a).detectedVia = some source.text := by
      show (c.patch.detectedVia.map DetectedVia.text).or a.detectedVia = _
      rw [h_via, h_named]
      rfl
    refine .enriched hy h_l h_app h_id.symm h_key.symm ?_ h_via'
    show _ = some (source, c.patch.productName.getD a.productName)
    rw [h_named, h_name, h_named]
    rfl

/-! ### The invariant -/

/-- Every row is accounted for, and every cascade aims at the application it has read. -/
structure Sound (s : Background) (tr : List (Label × Background)) (t : Background) : Prop where
  accounted : ∀ a ∈ t.database.applications, Accounted s tr a
  ids : ∀ a ∈ t.database.applications, a.id ≤ t.database.applicationSeq
  running : ∀ c ∈ t.running, Read s tr c ∧ Aimed t.database c

theorem Aimed.call {d d' : Database} {k : Call} (h : Aimed d c)
    (h_step : Ludex.Step d k d') : Aimed d' c := by
  refine ⟨h.id.trans h_step.applicationIds.1, fun a' ha' h_id => ?_⟩
  rcases h_step.names ha' with ⟨a, ha, h_same⟩ | ⟨new, -, h_above, -⟩
  · exact h_same.key.symm.trans (h.key a ha (h_same.id.trans h_id))
  -- a new row has a rowid that no cascade knows
  · have h_le := h.id
    omega

theorem Aimed.update {d d' : Database} {id : ℤ} {update : IdentityUpdate}
    (h : Aimed d c) (h_update : updateIdentity d id update = .ok d') :
    Aimed d' c := by
  have h_ledger := updateIdentity_ledger h_update
  refine ⟨h_ledger.applicationSeq ▸ h.id, fun a' ha' h_id => ?_⟩
  have h_account : a'.account ∈ d.applications.map Application.account := by
    rw [← h_ledger.accounts]
    exact List.mem_map_of_mem ha'
  obtain ⟨a, ha, h_account⟩ := List.mem_map.mp h_account
  rw [← account_key h_account]
  exact h.key a ha ((account_id h_account).trans h_id)

/-- The cascade that a read begins. -/
theorem mem_beginCascade {d : Database} {appId : ℤ} {sources : EnrichmentSources}
    (h : c ∈ beginCascade sources d appId) :
    findById d appId = some c.app ∧ c.patch = buildPatch sources c.app := by
  -- an unknown application starts no cascade
  unfold beginCascade at h
  cases h_app : findById d appId with
  | none =>
    rw [h_app] at h
    exact absurd h List.not_mem_nil
  | some app =>
    rw [h_app] at h
    simp only at h
    split at h
    · exact absurd h List.not_mem_nil
    · -- the one that was found is the one the patch is built for
      rw [List.mem_singleton.mp h]
      exact ⟨rfl, rfl⟩

/-- **One step** keeps everything accounted for. -/
theorem Sound.step {t u : Background} {l : Label} (h_final : final s tr = t) (h : Sound s tr t)
    (h_step : Step t l u) : Sound s (tr ++ [(l, u)]) u := by
  -- the step that was just taken is the last of the run
  have h_last : (t, l, u) ∈ steps s (tr ++ [(l, u)]) := by
    rw [steps_append, h_final]
    exact List.mem_append_right _ List.mem_cons_self
  cases h_step.effect with
  | @call d d' running k h_call =>
    refine ⟨fun a' ha' => ?_, fun a' ha' => ?_, fun c hc => ?_⟩
    · -- a call: a row that was there keeps its account, a new one is accounted for by its creation
      rcases h_call.names ha' with ⟨a, ha, h_same⟩ | ⟨new, rfl, -, h_new⟩
      · exact (h.accounted a ha).snoc.congr h_same
      · rw [h_new]
        exact .created h_last rfl rfl rfl rfl
    · obtain ⟨h_seq, h_ids⟩ := h_call.applicationIds
      rcases h_ids a' ha' with ⟨a, ha, h_id⟩ | ⟨-, h_id⟩
      · rw [← h_id]
        exact (h.ids a ha).trans h_seq
      · exact h_id.le
    · obtain ⟨h_read, h_aimed⟩ := h.running c hc
      exact ⟨h_read.snoc, h_aimed.call h_call⟩
  -- a read: the new cascade has read what is in the table now
  | @read d running appId sources =>
    refine ⟨fun a ha => (h.accounted a ha).snoc, h.ids, fun c hc => ?_⟩
    rcases List.mem_append.mp hc with hc | hc
    · obtain ⟨h_read, h_aimed⟩ := h.running c hc
      exact ⟨h_read.snoc, h_aimed⟩
    · obtain ⟨h_app, h_patch⟩ := mem_beginCascade hc
      have h_mem := (findById_some h_app).1
      refine ⟨⟨_, h_last, appId, sources, rfl, h_app, h_patch⟩, h.ids _ h_mem, fun a ha h_id => ?_⟩
      rw [d.application_unique ha h_mem h_id]
  -- a write: the row gets the name of a cascade whose read lies in the run
  | @write d d' running i c h_c h_write =>
    obtain ⟨h_read, h_aimed⟩ := h.running c (List.mem_of_getElem? h_c)
    have h_apps : d'.applications =
        Sql.updateWhere (fun a => a.id = c.app.id) c.patch.set d.applications := by
      rw [updateIdentity_ok_iff.mp h_write]
      rfl
    have h_seq : d'.applicationSeq = d.applicationSeq :=
      (updateIdentity_ledger h_write).applicationSeq
    refine ⟨?_, ?_, fun c' hc' => ?_⟩
    · show ∀ a ∈ d'.applications, _
      rw [h_apps]
      refine Sql.forall_mem_updateWhere (fun a ha => (h.accounted a ha).snoc) fun a ha h_id => ?_
      rw [decide_eq_true_eq] at h_id
      -- the read was of a row with the same key, since ids are not used again
      exact (h.accounted a ha).snoc.set h_read.snoc h_id (h_aimed.key a ha h_id)
    · show ∀ a ∈ d'.applications, a.id ≤ d'.applicationSeq
      rw [h_apps, h_seq]
      exact Sql.forall_mem_updateWhere h.ids fun a ha _ => h.ids a ha
    · obtain ⟨h_read', h_aimed'⟩ := h.running c' (List.mem_of_mem_eraseIdx hc')
      exact ⟨h_read'.snoc, h_aimed'.update h_write⟩
  -- a cascade that is lost takes nothing with it
  | @lost d running i =>
    refine ⟨fun a ha => (h.accounted a ha).snoc, h.ids, fun c' hc' => ?_⟩
    obtain ⟨h_read, h_aimed⟩ := h.running c' (List.mem_of_mem_eraseIdx hc')
    exact ⟨h_read.snoc, h_aimed⟩

/-- **A whole run** keeps everything accounted for. -/
theorem sound_run {d : Database} (h_ids : ∀ a ∈ d.applications, a.id ≤ d.applicationSeq)
    {tr : List (Label × Background)} (hrun : IsRun Step ⟨d, []⟩ tr) :
    Sound ⟨d, []⟩ tr (final ⟨d, []⟩ tr) := by
  induction tr using List.reverseRecOn with
  | nil =>
    exact ⟨fun a ha => .before ha ⟨rfl, rfl, rfl, rfl⟩, h_ids, fun c hc => absurd hc List.not_mem_nil⟩
  | append_singleton tr x ih =>
    obtain ⟨h_before, h_last⟩ := hrun.of_append
    rw [final_append]
    cases h_last with
    | cons h_step _ => exact (ih h_before).step rfl h_step

end Run

/-- **A row says truly where its name comes from.** After any run, whatever was merged and deleted under
running cascades, a row has the name and the source it had at the start, or the name it was created
with and no source, or the name that its source gave to a cascade that read this very application. -/
theorem names_accounted {d : Database} (h_ids : ∀ a ∈ d.applications, a.id ≤ d.applicationSeq)
    {tr : List (Label × Background)} (hrun : IsRun Step ⟨d, []⟩ tr) {a : Application}
    (ha : a ∈ (final ⟨d, []⟩ tr).database.applications) : Accounted ⟨d, []⟩ tr a :=
  (sound_run h_ids hrun).accounted a ha

theorem names_accounted_mergedWhileEnriched :
    let tr := trace next ⟨.empty, []⟩ mergedWhileEnriched
    (final ⟨.empty, []⟩ tr).database.applications.map
        (fun a => (a.id, a.productName, a.detectedVia)) =
          [(1, "10", some "steam"), (3, "30", some "steam")] ∧
      ∀ a ∈ (final ⟨.empty, []⟩ tr).database.applications, Accounted ⟨.empty, []⟩ tr a :=
  ⟨by decide +kernel, fun _ => names_accounted (by decide) (isRun_trace next _ _)⟩

end Background

end Ludex
