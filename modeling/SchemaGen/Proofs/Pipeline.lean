import SchemaGen.Generation
import SchemaGen.Proofs.Fallible
import SchemaGen.Proofs.OrderedMap

/-!
# Generation without a loader

A loader keeps a reader, a map of converted files and a mark that it has loaded. Over one run none
of this shows: `generate_eq` says that the artifacts of a request are those of its requested files,
looked up by name, converted one after the other and rendered in order.
-/

namespace SchemaGen

open Options (Reader)
open Fallible

namespace Descriptor

/-- The file that a name stands for: the last one that bears it. -/
def latest? (files : List File) (name : String) : Option File :=
  files.reverse.find? (·.nameText = name)

theorem get?_byName (files : List File) (name : String) :
    (Reader.byName files).get? name = latest? files name := by
  rw [Reader.byName, OrderedMap.get?_ofList, latest?, ← List.map_reverse, List.find?_map]
  simp [Function.comp_def]

theorem nameText_of_latest? {files : List File} {name : String} {file : File}
    (h : latest? files name = some file) : file.nameText = name := by
  simpa using List.find?_some h

theorem latest?_eq_none_iff {files : List File} {name : String} :
    latest? files name = none ↔ ∀ file ∈ files, file.nameText ≠ name := by
  simp [latest?]

namespace Request

theorem requested_of_named {request : Request} (h : request.targets ≠ []) :
    request.requested = request.targets := by
  rw [requested]
  split
  · next hnone => exact absurd hnone h
  · rfl

def chosen (request : Request) : List File := request.requested.filterMap (latest? request.files)

theorem missing_eq_nil {request : Request} :
    request.missing = [] ↔ ∀ name ∈ request.requested, ∃ file,
      latest? request.files name = some file := by
  rw [← List.length_eq_zero_iff, missing, List.length_mergeSort, List.length_eq_zero_iff,
    List.filter_eq_nil_iff]
  simp [OrderedMap.contains, get?_byName, Option.ne_none_iff_exists']

theorem forall₂_chosen {request : Request} (h : request.missing = []) :
    List.Forall₂ (fun name file => latest? request.files name = some file) request.requested
      request.chosen := by
  rw [missing_eq_nil] at h
  rw [chosen]
  generalize request.requested = names at h
  induction names with
  | nil => exact .nil
  | cons name more ih =>
    obtain ⟨file, hf⟩ := h name (by simp)
    rw [List.filterMap_cons_some hf]
    exact .cons hf (ih fun other ho => h other (by simp [ho]))

/-- The chosen files in the schema model, provided that none is missing. -/
def converted (request : Request) (reader : Reader) : Except Failure (List SchemaFile) :=
  match request.missing with
  | [] => request.chosen.mapM (convertFile reader)
  | names => .error (.missingFiles names)

end Request

end Descriptor

open Descriptor (latest?)

namespace Loader

-- ---------------------------------------------------------------------------
-- Loading
-- ---------------------------------------------------------------------------

/-- Converting named files one by one is converting the files that the names stand for. -/
theorem convertAll_eq (reader : Reader) {known : OrderedMap Descriptor.File} {names : List String}
    {files : List Descriptor.File}
    (h : List.Forall₂ (fun name file => known.get? name = some file) names files)
    (start : OrderedMap SchemaFile) :
    match files.mapM (convertFile reader) with
    | .ok schemas =>
      convertAll reader known names start = (none, start.insertAll (names.zip schemas))
    | .error failure => (convertAll reader known names start).1 = some failure := by
  induction h generalizing start with
  | nil => rfl
  | @cons name file names files hf _ ih =>
    rw [List.mapM_cons]
    cases hc : convertFile reader file with
    | error failure => simp [convertAll, hf, hc]
    | ok schema =>
      have step := ih (start.insert name schema)
      cases hm : files.mapM (convertFile reader) with
      | error failure => simpa [convertAll, hf, hc, hm] using step
      | ok schemas => simpa [convertAll, hf, hc, hm, OrderedMap.insertAll] using step

theorem getFiles_of_loaded {loader : Loader} (h : loader.isLoaded = true) {names : List String}
    {schemas : List SchemaFile}
    (hs : List.Forall₂ (fun name schema => loader.files.get? name = some schema) names schemas) :
    getFiles names loader = (.ok schemas, loader) := by
  induction hs with
  | nil => rfl
  | cons hf _ ih => simp [getFiles, getFile, load, h, hf, ih]

def afterLoad (request : Descriptor.Request) (reader : Reader) (schemas : List SchemaFile) :
    Loader where
  request := request
  reader := some reader
  files := OrderedMap.ofList (request.requested.zip schemas)
  isLoaded := true

theorem loaded_eq (request : Descriptor.Request) :
    Generation.loaded request = do
      let reader ← Reader.ofFiles request.files
      let schemas ← request.converted reader
      return afterLoad request reader schemas := by
  rw [Generation.loaded, load]
  cases hr : Reader.ofFiles request.files with
  | error failure => simp [currentReader, hr]
  | ok reader =>
    cases hm : request.missing with
    | cons name more => simp [currentReader, hr, hm, Descriptor.Request.converted]
    | nil =>
      have hchosen := Descriptor.Request.forall₂_chosen hm
      simp only [← Descriptor.get?_byName] at hchosen
      have hall := convertAll_eq reader hchosen OrderedMap.empty
      cases hc : request.chosen.mapM (convertFile reader) with
      | error failure =>
        rw [hc] at hall
        generalize hp : convertAll reader (Reader.byName request.files) request.requested
          OrderedMap.empty = pair at hall
        obtain ⟨outcome, files⟩ := pair
        cases hall
        simp [currentReader, hr, hm, hp, Descriptor.Request.converted, hc]
      | ok schemas =>
        rw [hc] at hall
        simp [currentReader, hr, hm, hall, Descriptor.Request.converted, hc, afterLoad,
          OrderedMap.ofList]

theorem forall₂_converted {request : Descriptor.Request} {reader : Reader}
    {schemas : List SchemaFile} (h : request.converted reader = .ok schemas) :
    List.Forall₂ (fun name schema => ∃ file, latest? request.files name = some file ∧
      convertFile reader file = .ok schema) request.requested schemas := by
  rw [Descriptor.Request.converted] at h
  split at h
  · next hm =>
    have hfiles := Descriptor.Request.forall₂_chosen hm
    have hschemas := mapM_ok.mp h
    clear h hm
    generalize request.requested = names, request.chosen = files at hfiles hschemas
    induction hfiles generalizing schemas with
    | nil =>
      cases hschemas
      exact .nil
    | cons hf _ ih =>
      cases hschemas with
      | cons hc hrest => exact .cons ⟨_, hf, hc⟩ (ih hrest)
  · cases h

/-- After a load no requested file is left out, so asking for them again cannot fail. -/
theorem eligible_afterLoad {request : Descriptor.Request} {reader : Reader}
    {schemas : List SchemaFile} (h : request.converted reader = .ok schemas) :
    (afterLoad request reader schemas).eligible.1 = .ok (SchemaFile.eligible schemas) := by
  have hpairs := forall₂_converted h
  have hmem : ∀ pair ∈ request.requested.zip schemas, ∃ file,
      latest? request.files pair.1 = some file ∧ convertFile reader file = .ok pair.2 :=
    fun pair hp => List.forall₂_iff_zip.mp hpairs |>.2 hp
  have hsame : ∀ first ∈ request.requested.zip schemas,
      ∀ second ∈ request.requested.zip schemas, first.1 = second.1 → first.2 = second.2 := by
    intro first hf second hs hk
    obtain ⟨file, hfile, hconv⟩ := hmem first hf
    obtain ⟨other, hother, hconv'⟩ := hmem second hs
    rw [hk, hother] at hfile
    cases hfile
    exact Except.ok.inj (hconv.symm.trans hconv')
  have hfound : List.Forall₂ (fun name schema =>
      (afterLoad request reader schemas).files.get? name = some schema) request.requested
      schemas := by
    refine List.forall₂_iff_zip.mpr ⟨hpairs.length_eq, ?_⟩
    intro name schema hp
    exact OrderedMap.get?_insertAll_of_mem hsame hp
  simp only [eligible, requestedFiles]
  rw [show (afterLoad request reader schemas).request.requested = request.requested from rfl,
    getFiles_of_loaded rfl hfound]

end Loader

namespace Generation

open Descriptor (Request)

/-- A run of the generator from the request to the artifacts, without the loader in between. -/
theorem generate_eq (request : Request) (renderer : Option Target) :
    generate request renderer = do
      let target ← Target.ofParameter request.parameter
      let reader ← Reader.ofFiles request.files
      let schemas ← request.converted reader
      return ModuleText.artifacts (renderer.getD target) (SchemaFile.eligible schemas) := by
  rw [generate, Loader.loaded_eq]
  cases Target.ofParameter request.parameter with
  | error failure => rfl
  | ok target =>
    cases Reader.ofFiles request.files with
    | error failure => rfl
    | ok reader =>
      cases hc : request.converted reader with
      | error failure => simp [hc]
      | ok schemas => simp [hc, Loader.eligible_afterLoad hc]

theorem answer_of_texts {payload : Wire.Bytes} (hparameter : hasTextParameter payload = true)
    (htargets : hasTextTargets payload = true) :
    answer payload = decodeRequest payload >>= fun request => respond request none := by
  simp only [answer, hparameter, htargets, if_true]

end Generation

end SchemaGen
