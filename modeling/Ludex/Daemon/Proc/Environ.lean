import Ludex.Lib.Lines
import Ludex.Lib.Registers
import Ludex.Daemon.Proc

/-!
# The environment of a process

`/proc/<pid>/environ` is a list of entries, each with a NUL behind it. `environ::parse` keeps those
that are a name, a `=` and a value, where both are UTF-8.

An `EnvironBlock` is what the kernel writes: variables with distinct names, and whatever else a
process has put between them. Its variables are recovered, as far as they are text
(`lookup_parse_bytes`).
-/

namespace Ludex

namespace Environ

open Lines

def nul : UInt8 := 0

/-- The byte of `=`. -/
def equalsSign : UInt8 := 61

/-! ### Parsing -/

/-- One entry. -/
def parseEntry (entry : List UInt8) : Option (String × String) :=
  if entry.isEmpty then none
  else do
    let idx ← entry.findIdx? fun b => b == equalsSign
    let key ← decode (entry.take idx)
    let value ← decode (entry.drop (idx + 1))
    return (String.ofList key, String.ofList value)

/-- A later entry replaces an earlier one of the same name. -/
def collect (pairs : List (String × String)) : Environ :=
  pairs.foldl (fun env (key, value) => AList.insert key value env) ∅

/-- Parse a null-separated `/proc/<pid>/environ` document. -/
def parse (content : List UInt8) : Environ :=
  collect ((content.splitOn nul).filterMap parseEntry)

/-- `environ::read` of the file, if that can be read. -/
def read (file : Option (List UInt8)) : Option Environ := file.map parse

/-! ### What the kernel writes -/

/-- A variable. -/
structure EnvVar where
  name : List UInt8
  value : List UInt8
  name_noEquals : equalsSign ∉ name
  name_noNul : nul ∉ name
  value_noNul : nul ∉ value

/-- An entry of the block. -/
inductive EnvEntry where
  | var (v : EnvVar)
  /-- Text that is no variable. -/
  | other (text : List UInt8) (noEquals : equalsSign ∉ text) (noNul : nul ∉ text)

def EnvEntry.bytes : EnvEntry → List UInt8
  | .var v => v.name ++ equalsSign :: v.value
  | .other text _ _ => text

def EnvEntry.name? : EnvEntry → Option (List UInt8)
  | .var v => some v.name
  | .other _ _ _ => none

/-- A variable as text. -/
def EnvVar.text (v : EnvVar) : Option (String × String) := do
  let key ← decode v.name
  let value ← decode v.value
  return (String.ofList key, String.ofList value)

def EnvEntry.text : EnvEntry → Option (String × String)
  | .var v => v.text
  | .other _ _ _ => none

/-- Entries with a NUL behind each. -/
def render (entries : List EnvEntry) : List UInt8 := entries.flatMap fun entry => entry.bytes ++ [nul]

/-- The environment of a process, in which names are distinct. -/
structure EnvironBlock where
  entries : List EnvEntry
  distinct : (entries.filterMap EnvEntry.name?).Nodup

def EnvironBlock.bytes (block : EnvironBlock) : List UInt8 := render block.entries

/-! ### Reading it back -/

theorem EnvEntry.nul_notMem (entry : EnvEntry) : nul ∉ entry.bytes := by
  cases entry with
  | var v =>
    rw [EnvEntry.bytes, List.mem_append, List.mem_cons, not_or, not_or]
    exact ⟨v.name_noNul, by decide, v.value_noNul⟩
  | other text noEquals noNul => exact noNul

/-- The document is cut into its entries, and nothing behind the last NUL. -/
theorem splitOn_render (entries : List EnvEntry) :
    (render entries).splitOn nul = entries.map EnvEntry.bytes ++ [[]] := by
  induction entries with
  | nil => rfl
  | cons entry entries ih =>
    have h_render : render (entry :: entries) = entry.bytes ++ nul :: render entries := by
      unfold render
      rw [List.flatMap_cons, List.append_assoc, List.singleton_append]
    rw [h_render, List.splitOn_append_cons_self_of_not_mem entry.nul_notMem, ih]
    rfl

theorem findIdx?_equalsSign {name : List UInt8} (h : equalsSign ∉ name) (value : List UInt8) :
    (name ++ equalsSign :: value).findIdx? (fun b => b == equalsSign) = some name.length := by
  have h_none : name.findIdx? (fun b => b == equalsSign) = none := by
    rw [List.findIdx?_eq_none_iff]
    exact fun b hb => beq_eq_false_iff_ne.mpr fun h_eq => h (h_eq ▸ hb)
  rw [List.findIdx?_append, h_none, List.findIdx?_cons]
  simp

/-- **An entry is read as its variable**, if it is one and it is text. -/
theorem parseEntry_bytes (entry : EnvEntry) : parseEntry entry.bytes = entry.text := by
  unfold parseEntry
  cases entry with
  | var v =>
    have h_ne : ¬ (EnvEntry.var v).bytes.isEmpty = true := by
      simp [EnvEntry.bytes]
    rw [if_neg h_ne]
    simp only [EnvEntry.bytes, findIdx?_equalsSign v.name_noEquals, Option.bind_eq_bind,
      Option.bind_some, List.take_left, List.drop_length_add_append, List.drop_one, List.tail_cons]
    rfl
  | other text noEquals noNul =>
    have h_none : text.findIdx? (fun b => b == equalsSign) = none := by
      rw [List.findIdx?_eq_none_iff]
      exact fun b hb => beq_eq_false_iff_ne.mpr fun h_eq => noEquals (h_eq ▸ hb)
    simp only [EnvEntry.bytes, h_none, Option.bind_eq_bind, Option.bind_none, ite_self]
    rfl

/-- The variables of a block that are text. -/
def textVars (entries : List EnvEntry) : List (String × String) := entries.filterMap EnvEntry.text

theorem filterMap_parseEntry (entries : List EnvEntry) :
    ((render entries).splitOn nul).filterMap parseEntry = textVars entries := by
  have h_end : [[]].filterMap parseEntry = [] := rfl
  rw [splitOn_render, List.filterMap_append, h_end, List.append_nil, List.filterMap_map]
  exact List.filterMap_congr fun entry _ => parseEntry_bytes entry

theorem EnvVar.text_eq_some_iff {v : EnvVar} {key value : String} :
    v.text = some (key, value) ↔
      decode v.name = some key.toList ∧ decode v.value = some value.toList := by
  unfold EnvVar.text
  simp only [Option.bind_eq_bind, Option.bind_eq_some_iff, Option.pure_def, Option.some.injEq,
    Prod.mk.injEq]
  refine ⟨?_, ?_⟩
  · rintro ⟨cs, h_cs, ds, h_ds, rfl, rfl⟩
    rw [String.toList_ofList, String.toList_ofList]
    exact ⟨h_cs, h_ds⟩
  · rintro ⟨h_key, h_value⟩
    exact ⟨_, h_key, _, h_value, String.ofList_toList, String.ofList_toList⟩

theorem mem_textVars_iff {entries : List EnvEntry} {key value : String} :
    (key, value) ∈ textVars entries ↔ ∃ v, EnvEntry.var v ∈ entries ∧
      decode v.name = some key.toList ∧ decode v.value = some value.toList := by
  unfold textVars
  rw [List.mem_filterMap]
  refine ⟨?_, ?_⟩
  · rintro ⟨entry, h_mem, h_text⟩
    cases entry with
    | var v => exact ⟨v, h_mem, EnvVar.text_eq_some_iff.mp h_text⟩
    | other text noEquals noNul => exact nomatch h_text
  · rintro ⟨v, h_mem, h_text⟩
    exact ⟨.var v, h_mem, EnvVar.text_eq_some_iff.mpr h_text⟩

/-- Names that are distinct as bytes are distinct as text. -/
theorem nodup_textVars {entries : List EnvEntry} (h : (entries.filterMap EnvEntry.name?).Nodup) :
    ((textVars entries).map Prod.fst).Nodup := by
  induction entries with
  | nil => exact List.nodup_nil
  | cons entry entries ih =>
    cases entry with
    | other text noEquals noNul => exact ih h
    | var v =>
      obtain ⟨h_new, h_rest⟩ := List.nodup_cons.mp
        (show (v.name :: entries.filterMap EnvEntry.name?).Nodup from h)
      cases h_text : v.text with
      | none =>
        have h_skip : textVars (.var v :: entries) = textVars entries :=
          List.filterMap_cons_none h_text
        rw [h_skip]
        exact ih h_rest
      | some pair =>
        obtain ⟨key, value⟩ := pair
        have h_cons : textVars (.var v :: entries) = (key, value) :: textVars entries :=
          List.filterMap_cons_some h_text
        rw [h_cons, List.map_cons, List.nodup_cons]
        refine ⟨fun h_mem => h_new ?_, ih h_rest⟩
        -- a variable of this name further behind has the same bytes as its name
        obtain ⟨⟨_, value'⟩, h_pair, rfl⟩ := List.mem_map.mp h_mem
        obtain ⟨v', h_v', h_name', -⟩ := mem_textVars_iff.mp h_pair
        obtain ⟨h_name, -⟩ := EnvVar.text_eq_some_iff.mp h_text
        rw [decode_eq_some] at h_name h_name'
        rw [← h_name, h_name']
        exact List.mem_filterMap.mpr ⟨.var v', h_v', rfl⟩

/-- **The variables of a block are read back**: exactly those whose name and value are text. -/
theorem lookup_parse_bytes (block : EnvironBlock) (key value : String) :
    (parse block.bytes).lookup key = some value ↔ ∃ v, EnvEntry.var v ∈ block.entries ∧
      decode v.name = some key.toList ∧ decode v.value = some value.toList := by
  unfold parse EnvironBlock.bytes collect
  rw [filterMap_parseEntry, Registers.lookup_foldl_insert (nodup_textVars block.distinct),
    mem_textVars_iff, AList.lookup_empty]
  exact or_iff_left fun h => nomatch h.2

end Environ

end Ludex
