import Mathlib.Data.Prod.Lex
import Mathlib.Data.String.Basic
import Sentinel.Collections.Grouping
import Sentinel.Text.Lines
import Sentinel.Text.Percent

/-!
# The bill of materials

`build_cyclonedx_sbom`, on a lock file that has been read. A package overwrites the component of its
normalized name and version, but the component is a function of the two, so what is left is one for
each pair that occurs, whatever the order and the number of its packages. Sorted by the pairs it is
the same document.

The address of a component joins two quoted texts by a sign that quoting leaves in neither, so no
two components share one.
-/

namespace Sentinel

open Collections Text

/-! ## The document -/

/-- What `tomllib.load` makes of values. No key of a table occurs twice. -/
inductive Toml
  | string (value : String)
  | array (items : List Toml)
  | table (items : List (String × Toml))
  /-- Numbers, booleans, dates and times. -/
  | other

structure SbomComponent where
  type : String
  bomRef : String
  name : String
  version : String
  purl : String
deriving DecidableEq

/-- The entry `component` of the metadata. -/
structure SbomSubject where
  type : String
  bomRef : String
  name : String
  version : String
deriving DecidableEq

/-- What `build_cyclonedx_sbom` returns. -/
structure Sbom where
  bomFormat : String
  specVersion : String
  serialNumber : String
  version : ℕ
  subject : SbomSubject
  properties : List (String × String)
  components : List SbomComponent
deriving DecidableEq

/-- `_ALWAYS_SAFE` of `urllib.parse`, and the default of `safe`. -/
def isQuoteSafe (b : UInt8) : Bool :=
  (byteChar b).isAlphanum || "_.-~/".toList.contains (byteChar b)

/-- `urllib.parse.quote`. -/
def quote (text : String) : String :=
  String.ofList (percentEncode isQuoteSafe text.toUTF8.data.toList)

/-- `name.lower().replace("_", "-")`. -/
def normalizedName (lower : String → String) (name : String) : String :=
  String.ofList ((lower name).toList.map fun c ↦ if c = '_' then '-' else c)

/-- `purl`. -/
def purlOf (name version : String) : String :=
  "pkg:pypi/" ++ quote name ++ "@" ++ quote version

def componentOf (name version : String) : SbomComponent where
  type := "library"
  bomRef := purlOf name version
  name := name
  version := version
  purl := purlOf name version

abbrev SbomComponents := Dict (String ×ₗ String) SbomComponent

def addPackage (lower : String → String) (components : SbomComponents) (package : Toml) :
    Except String SbomComponents :=
  match package with
  | .table items =>
    match Dict.lookup "name" items, Dict.lookup "version" items with
    | some (.string name), some (.string version) =>
      let name := normalizedName lower name
      .ok (components.set (toLex (name, version)) (componentOf name version))
    | _, _ => .error "uv.lock package entries require name and version"
  | _ => .error "uv.lock package entries must be tables"

def documentOf (uuid5 : String → String) (components : SbomComponents) : Sbom :=
  let ordered := components.sortedKeys.filterMap components.get
  let identity := "\n".intercalate (ordered.map fun item ↦ item.name ++ "==" ++ item.version)
  { bomFormat := "CycloneDX"
    specVersion := "1.6"
    serialNumber := "urn:uuid:" ++ uuid5 identity
    version := 1
    subject :=
      { type := "application"
        bomRef := "sentinel-content-safety-platform"
        name := "sentinel-content-safety-platform"
        version := "0.1.0" }
    properties := [("sentinel:source", "uv.lock"), ("sentinel:reproducible", "true")]
    components := ordered }

/-- `build_cyclonedx_sbom`, or the text of the `ValueError`. The functions from outside are
`str.lower` and `uuid5` with the namespace of URLs. -/
def buildCyclonedxSbom (lower uuid5 : String → String) (lock : List (String × Toml)) :
    Except String Sbom := do
  match Dict.lookup "package" lock with
  | some (.array packages) =>
    let components ← packages.foldlM (addPackage lower) Dict.empty
    return documentOf uuid5 components
  | _ => .error "uv.lock does not contain a package list"

/-! ## Quoting -/

theorem quote_injective : Function.Injective quote := by
  intro text text' h
  have hbytes : text.toUTF8.data.toList = text'.toUTF8.data.toList :=
    percentEncode_injective (by decide) (String.ofList_inj.mp h)
  exact String.toByteArray_inj.mp (ByteArray.ext (Array.toList_inj.mp hbytes))

theorem at_not_mem_quote (text : String) : '@' ∉ (quote text).toList := by
  rw [quote, String.toList_ofList]
  refine not_mem_percentEncode (by decide) (by decide) (fun b hsafe heq ↦ ?_) _
  rw [isQuoteSafe, ← heq] at hsafe
  revert hsafe
  decide

/-- **No two components share an address.** -/
theorem purlOf_inj {name name' version version' : String}
    (h : purlOf name version = purlOf name' version') : name = name' ∧ version = version' := by
  have hlist := congrArg String.toList h
  simp only [purlOf, String.toList_append, List.append_assoc] at hlist
  obtain ⟨hname, hversion⟩ := append_last_separator_inj (at_not_mem_quote version)
    (at_not_mem_quote version') (List.append_cancel_left hlist)
  exact ⟨quote_injective (String.toList_inj.mp hname),
    quote_injective (String.toList_inj.mp hversion)⟩

/-! ## The packages of a lock -/

/-- A package entry with a name and a version. -/
def IsEntry (package : Toml) (entry : String × String) : Prop :=
  ∃ items, package = .table items ∧ Dict.lookup "name" items = some (.string entry.1) ∧
    Dict.lookup "version" items = some (.string entry.2)

/-- The packages of the lock are the entries. -/
def Lists (lock : List (String × Toml)) (entries : List (String × String)) : Prop :=
  ∃ packages, Dict.lookup "package" lock = some (.array packages) ∧
    List.Forall₂ IsEntry packages entries

def normalizedEntry (lower : String → String) (entry : String × String) : String × String :=
  (normalizedName lower entry.1, entry.2)

def componentsOf (lower : String → String) (entries : List (String × String)) : SbomComponents :=
  entries.foldl (fun components entry ↦ components.set (toLex (normalizedEntry lower entry))
    (componentOf (normalizedName lower entry.1) entry.2)) Dict.empty

variable {lower uuid5 : String → String} {entries entries' : List (String × String)}

theorem foldlM_addPackage {packages : List Toml} (h : List.Forall₂ IsEntry packages entries)
    (components : SbomComponents) : packages.foldlM (addPackage lower) components
      = .ok (entries.foldl (fun components entry ↦ components.set
        (toLex (normalizedEntry lower entry))
        (componentOf (normalizedName lower entry.1) entry.2)) components) := by
  induction h generalizing components with
  | nil => rfl
  | cons hentry _ ih =>
    obtain ⟨items, rfl, hname, hversion⟩ := hentry
    rw [List.foldlM_cons, addPackage, hname, hversion]
    exact ih _

theorem buildCyclonedxSbom_eq {lock : List (String × Toml)} (h : Lists lock entries) :
    buildCyclonedxSbom lower uuid5 lock = .ok (documentOf uuid5 (componentsOf lower entries)) := by
  obtain ⟨packages, hlookup, hentries⟩ := h
  rw [buildCyclonedxSbom, hlookup]
  simp only [foldlM_addPackage hentries]
  rfl

/-- A component is that of its normalized name and version, whichever package wrote it. -/
theorem get_componentsOf (key : String ×ₗ String) : (componentsOf lower entries).get key
    = if ofLex key ∈ entries.map (normalizedEntry lower) then
        some (componentOf (ofLex key).1 (ofLex key).2)
      else none := by
  have hget := Dict.get_foldl_set (fun entry ↦ toLex (normalizedEntry lower entry))
    (fun key ↦ componentOf (ofLex key).1 (ofLex key).2) entries key
  have hmem : key ∈ entries.map (fun entry ↦ toLex (normalizedEntry lower entry)) ↔
      ofLex key ∈ entries.map (normalizedEntry lower) := by
    rw [List.mem_map, List.mem_map]
    exact Iff.rfl
  simp only [hmem] at hget
  exact hget

theorem mem_keys_componentsOf {key : String ×ₗ String} :
    key ∈ (componentsOf lower entries).keys ↔ ofLex key ∈ entries.map (normalizedEntry lower) :=
  Dict.mem_keys_of_get_eq (get_componentsOf key)

/-! ## The order of the components -/

theorem components_documentOf (uuid5 lower : String → String) (entries : List (String × String)) :
    (documentOf uuid5 (componentsOf lower entries)).components
      = (componentsOf lower entries).sortedKeys.map fun key ↦
        componentOf (ofLex key).1 (ofLex key).2 := by
  have hget : ∀ key ∈ (componentsOf lower entries).sortedKeys,
      (componentsOf lower entries).get key
        = some (componentOf (ofLex key).1 (ofLex key).2) := by
    intro key hkey
    rw [get_componentsOf, if_pos (mem_keys_componentsOf.mp (Dict.mem_sortedKeys.mp hkey))]
  calc (componentsOf lower entries).sortedKeys.filterMap (componentsOf lower entries).get
      = (componentsOf lower entries).sortedKeys.filterMap fun key ↦
          some (componentOf (ofLex key).1 (ofLex key).2) := List.filterMap_congr hget
    _ = (componentsOf lower entries).sortedKeys.map fun key ↦
          componentOf (ofLex key).1 (ofLex key).2 := congrFun List.filterMap_eq_map _

/-- What a document is made of, and nothing else. -/
theorem documentOf_congr {components components' : SbomComponents}
    (h : components.sortedKeys.filterMap components.get
      = components'.sortedKeys.filterMap components'.get) :
    documentOf uuid5 components = documentOf uuid5 components' := by
  rw [documentOf, documentOf, h]

/-- **The document depends on the set of packages**, and names each once. -/
theorem sbom_depends_on_set (lower uuid5 : String → String)
    {lock lock' : List (String × Toml)} {entries entries' : List (String × String)}
    (hlock : Lists lock entries) (hlock' : Lists lock' entries')
    (hsame : ∀ pair, pair ∈ entries.map (normalizedEntry lower) ↔
      pair ∈ entries'.map (normalizedEntry lower)) :
    ∃ sbom, buildCyclonedxSbom lower uuid5 lock = .ok sbom ∧
      buildCyclonedxSbom lower uuid5 lock' = .ok sbom ∧
      (sbom.components.map fun item ↦ toLex (item.name, item.version)).Pairwise (· < ·) ∧
      (∀ pair, pair ∈ sbom.components.map (fun item ↦ (item.name, item.version)) ↔
        pair ∈ entries.map (normalizedEntry lower)) ∧
      (sbom.components.map SbomComponent.bomRef).Nodup ∧
      (sbom.components.map SbomComponent.purl).Nodup := by
  have hkeys : (componentsOf lower entries).sortedKeys
      = (componentsOf lower entries').sortedKeys :=
    Dict.sortedKeys_congr fun key ↦ by
      rw [mem_keys_componentsOf, mem_keys_componentsOf, hsame]
  have hcomponents := components_documentOf uuid5 lower entries
  have hcomponents' := components_documentOf uuid5 lower entries'
  have hsorted := (componentsOf lower entries).sortedLT_sortedKeys
  have haddress : ((componentsOf lower entries).sortedKeys.map fun key ↦
      purlOf (ofLex key).1 (ofLex key).2).Nodup :=
    hsorted.nodup.map fun key key' h ↦ Prod.ext (purlOf_inj h).1 (purlOf_inj h).2
  refine ⟨_, buildCyclonedxSbom_eq hlock, ?_, ?_, fun pair ↦ ?_, ?_, ?_⟩
  · rw [buildCyclonedxSbom_eq hlock']
    refine congrArg Except.ok (documentOf_congr ?_)
    exact (hcomponents'.trans (hkeys ▸ hcomponents.symm))
  · rw [hcomponents, List.map_map]
    exact (List.map_id _).symm ▸ List.sortedLT_iff_pairwise.mp hsorted
  · rw [hcomponents, List.map_map, ← ofLex_toLex pair, ← mem_keys_componentsOf,
      ← Dict.mem_sortedKeys]
    exact List.mem_map_of_injective ofLex.injective
  · rw [hcomponents, List.map_map]
    exact haddress
  · rw [hcomponents, List.map_map]
    exact haddress

def packageEntry (entry : String × String) : Toml :=
  .table [("name", .string entry.1), ("version", .string entry.2)]

def lockOf (entries : List (String × String)) : List (String × Toml) :=
  [("package", .array (entries.map packageEntry))]

theorem lists_lockOf (entries : List (String × String)) : Lists (lockOf entries) entries := by
  refine ⟨_, rfl, ?_⟩
  rw [List.forall₂_map_left_iff, List.forall₂_same]
  exact fun entry _ ↦ ⟨_, rfl, rfl, rfl⟩

/-- `str.lower` on ASCII letters. -/
def asciiLower (text : String) : String := String.ofList (text.toList.map Char.toLower)

def sampleEntries : List (String × String) := [("Z_Package", "2.0.0"), ("a@b", "1/0")]

/-- Spelled otherwise, in another order and with a duplicate. -/
def respelledEntries : List (String × String) :=
  [("A@b", "1/0"), ("z-package", "2.0.0"), ("a@B", "1/0")]

theorem sampleEntries_subset : sampleEntries.map (normalizedEntry asciiLower) ⊆
    respelledEntries.map (normalizedEntry asciiLower) := by decide +kernel

theorem respelledEntries_subset : respelledEntries.map (normalizedEntry asciiLower) ⊆
    sampleEntries.map (normalizedEntry asciiLower) := by decide +kernel

theorem sbom_depends_on_set_sample :
    ∃ sbom, buildCyclonedxSbom asciiLower id (lockOf sampleEntries) = .ok sbom ∧
      buildCyclonedxSbom asciiLower id (lockOf respelledEntries) = .ok sbom ∧
      (sbom.components.map SbomComponent.purl).Nodup := by
  obtain ⟨sbom, hsbom, hsbom', -, -, -, hpurl⟩ := sbom_depends_on_set asciiLower id
    (lists_lockOf sampleEntries) (lists_lockOf respelledEntries)
    fun _ ↦ ⟨fun h ↦ sampleEntries_subset h, fun h ↦ respelledEntries_subset h⟩
  exact ⟨sbom, hsbom, hsbom', hpurl⟩

end Sentinel
