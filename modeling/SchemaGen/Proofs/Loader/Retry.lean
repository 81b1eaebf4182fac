import SchemaGen.Proofs.Loader.History

/-!
# Loading again after failures

A load that fails leaves two things behind: the reader, once there is one, and the files that were
converted before the failure. `load_after_failures` compares a later load that returns with the
load of a new loader. Under the names that are requested both find the same records, if the new
loader is given the reader that was kept, and both maps are the same if no file was left behind.
-/

namespace SchemaGen.Loader

open Options (Reader)
open Descriptor (Request)

-- ---------------------------------------------------------------------------
-- The reader that is kept
-- ---------------------------------------------------------------------------

/-- The reader that a history builds: the first load that can build one does, from the files that
the request has at that moment. -/
def firstReader? : Loader → List Operation → Option Reader
  | _, [] => none
  | loader, operation :: more =>
    if operation.loads loader then
      match Reader.ofFiles loader.request.files with
      | .ok reader => some reader
      | .error _ => firstReader? (loader.perform operation) more
    else firstReader? (loader.perform operation) more

theorem reader_load_of_none {loader : Loader} (hunloaded : loader.isLoaded = false)
    (hnone : loader.reader = none) :
    match Reader.ofFiles loader.request.files with
    | .ok reader => loader.load.2.reader = some reader
    | .error _ => loader.load.2 = loader := by
  have hcurrent : loader.currentReader = Reader.ofFiles loader.request.files := by
    rw [currentReader, hnone]
  rw [← hcurrent]
  generalize hload : loader.load = outcome
  cases load_ends hload with
  | cached hloaded =>
    rw [hunloaded] at hloaded
    cases hloaded
  | unread _ hrefused => rw [hrefused]
  | missing _ hbuilt => rw [hbuilt]
  | broken _ hbuilt => rw [hbuilt]
  | finished _ hbuilt => rw [hbuilt]

theorem reader_after_of_none {loader : Loader} (hunloaded : loader.isLoaded = false)
    (hnone : loader.reader = none) (operations : List Operation) :
    (loader.after operations).reader = loader.firstReader? operations := by
  induction operations generalizing loader with
  | nil => exact hnone
  | cons operation more ih =>
    show ((loader.perform operation).after more).reader = _
    rw [firstReader?, perform_eq]
    cases operation.loads loader with
    | false => exact ih hunloaded hnone
    | true =>
      have hload := reader_load_of_none hunloaded hnone
      rw [if_pos rfl, if_pos rfl]
      cases hreader : Reader.ofFiles loader.request.files with
      | ok reader =>
        rw [hreader] at hload
        exact reader_after hload more
      | error failure =>
        rw [hreader] at hload
        rw [show loader.load.2 = loader from hload]
        exact ih hunloaded hnone

-- ---------------------------------------------------------------------------
-- The load that returns
-- ---------------------------------------------------------------------------

theorem load_of_converted {loader : Loader} {reader : Reader} {schemas : List SchemaFile}
    (hunloaded : loader.isLoaded = false) (hcurrent : loader.currentReader = .ok reader)
    (hconverted : loader.request.converted reader = .ok schemas) :
    loader.load.1 = .ok (loader.files.insertAll (loader.request.requested.zip schemas)) ∧
      loader.load.2.reader = some reader := by
  generalize hload : loader.load = outcome
  cases load_ends hload with
  | cached hloaded =>
    rw [hunloaded] at hloaded
    cases hloaded
  | unread _ hrefused =>
    rw [hcurrent] at hrefused
    cases hrefused
  | missing _ _ habsent =>
    refine absurd ?_ habsent
    rw [Request.converted] at hconverted
    split at hconverted
    · assumption
    · cases hconverted
  | broken _ hbuilt _ hfailed =>
    cases hcurrent.symm.trans hbuilt
    rw [hconverted] at hfailed
    cases hfailed
  | finished _ hbuilt hall =>
    cases hcurrent.symm.trans hbuilt
    cases hconverted.symm.trans hall
    exact ⟨rfl, rfl⟩

theorem converted_of_load {loader : Loader} {files : OrderedMap SchemaFile}
    (hunloaded : loader.isLoaded = false) (hload : loader.load.1 = .ok files) :
    ∃ reader schemas, loader.currentReader = .ok reader ∧
      loader.request.converted reader = .ok schemas := by
  generalize houtcome : loader.load = outcome at hload
  cases load_ends houtcome with
  | cached hloaded =>
    rw [hunloaded] at hloaded
    cases hloaded
  | unread => cases hload
  | missing => cases hload
  | broken => cases hload
  | finished _ hbuilt hconverted => exact ⟨_, _, hbuilt, hconverted⟩

/-- A load that returns after others have failed, against the load of a new loader over the same
request that is given the reader kept from the failed ones: under the names that are requested stand
the same records, and the maps are the same when no failed load has left a file behind. Where
the request still gives that reader, the new loader need not be given it. -/
theorem load_after_failures {request : Request} {operations : List Operation}
    {files : OrderedMap SchemaFile} (hfailed : ({ request } : Loader).hasReturned operations = false)
    (hload : (({ request } : Loader).after operations).load.1 = .ok files) :
    let loader := ({ request } : Loader).after operations
    ∃ kept fresh, ({ request } : Loader).firstReader? (operations ++ [.load]) = some kept ∧
      ({ request := loader.request, reader := some kept } : Loader).load.1 = .ok fresh ∧
      (∀ name, name ∈ fresh.keys ↔ name ∈ loader.request.requested) ∧
      (∀ name ∈ loader.request.requested, files.get? name = fresh.get? name) ∧
      (loader.files = .empty → files = fresh) ∧
      (Reader.ofFiles loader.request.files = .ok kept →
        ({ request := loader.request } : Loader).load.1 = .ok fresh) := by
  intro loader
  have hunloaded : loader.isLoaded = false := by
    rw [isLoaded_after, hfailed]
    rfl
  obtain ⟨kept, schemas, hcurrent, hconverted⟩ := converted_of_load hunloaded hload
  obtain ⟨hfiles, hkept⟩ := load_of_converted hunloaded hcurrent hconverted
  cases hload.symm.trans hfiles
  have hnew : ∀ reader, ({ request := loader.request, reader } : Loader).currentReader = .ok kept →
      ({ request := loader.request, reader } : Loader).load.1 =
        .ok (OrderedMap.ofList (loader.request.requested.zip schemas)) :=
    fun reader hreader => (load_of_converted rfl hreader hconverted).1
  have hkeys : ∀ name, name ∈ (OrderedMap.ofList (loader.request.requested.zip schemas)).keys ↔
      name ∈ loader.request.requested := by
    intro name
    have hlength := (forall₂_converted hconverted).length_eq
    rw [OrderedMap.ofList, OrderedMap.keys_insertAll, List.map_fst_zip (Nat.le_of_eq hlength),
      OrderedMap.mem_foldl_addKey]
    simp [OrderedMap.empty, OrderedMap.keys]
  refine ⟨kept, _, ?_, hnew (some kept) rfl, hkeys, ?_, ?_, hnew none⟩
  · rw [← reader_after_of_none rfl rfl, after_append]
    exact hkept
  · intro name hname
    obtain ⟨record, hrecord⟩ := OrderedMap.mem_keys_iff.mp ((hkeys name).mpr hname)
    rw [OrderedMap.get?_insertAll, ← OrderedMap.get?_ofList, hrecord]
    rfl
  · intro hempty
    rw [hempty]
    rfl

-- ---------------------------------------------------------------------------
-- What failures leave behind
-- ---------------------------------------------------------------------------

def uniqueRule (label : Descriptor.Label) : Descriptor.File where
  name := some "google/protobuf/descriptor.proto"
  package := some "google.protobuf"
  messages := [
    { name := some "FieldOptions", ranges := [{ start := some 1000, stop := some 2000 }] },
    { name := some "MessageOptions" }]
  extensions := [
    { name := some "mongoose_unique", extendee := some ".google.protobuf.FieldOptions",
      number := some 1000, label := some label, type := some .bool }]

def userFile : Descriptor.File where
  name := some "user.proto"
  messages := [
    { name := some "User",
      fields := [
        { name := some "email", number := some 1, type := some .string,
          options := some [.varint 1000 1] }] }]

def tagFile : Descriptor.File where
  name := some "tag.proto"
  messages := [{ name := some "Tag" }]

/-- A file is requested that is missing. It is added after the failure, and so is the declaration of
its constraint. -/
def lateRule : Request × List Operation :=
  ({ targets := ["user.proto"] },
    [.load, .ofChange (.addFile (uniqueRule .optional)), .ofChange (.addFile userFile)])

/-- Two files are requested, of which the second cannot be converted, since its constraint is
repeated. After the failure another file is requested in place of both. -/
def withdrawnFiles : Request × List Operation :=
  ({ targets := ["tag.proto", "user.proto"], files := [uniqueRule .repeated, tagFile, userFile] },
    [.load, .ofChange .clearTargets, .ofChange (.addTarget "google/protobuf/descriptor.proto")])

/-- A load that returns after a failed one can differ from the load of a new loader in its records,
by the reader that was kept, and in its keys, by the files that were left behind. -/
theorem retried_load_differs :
    (let start : Loader := { request := lateRule.1 }
      let loader := start.after lateRule.2
      start.hasReturned lateRule.2 = false ∧ loader.load.1.isOk = true ∧
        ({ request := loader.request } : Loader).load.1.isOk = true ∧
        loader.load.1 ≠ ({ request := loader.request } : Loader).load.1) ∧
    (let start : Loader := { request := withdrawnFiles.1 }
      let loader := start.after withdrawnFiles.2
      start.hasReturned withdrawnFiles.2 = false ∧
        loader.load.1.toOption.map OrderedMap.keys =
          some ["tag.proto", "google/protobuf/descriptor.proto"] ∧
        ({ request := loader.request } : Loader).load.1.toOption.map OrderedMap.keys =
          some ["google/protobuf/descriptor.proto"]) := by
  decide +kernel

theorem load_after_failures_lateRule :
    let loader := ({ request := lateRule.1 } : Loader).after lateRule.2
    ∃ kept files, loader.load.1 = .ok files ∧
      ({ request := loader.request, reader := some kept } : Loader).load.1 = .ok files := by
  have hfailed : ({ request := lateRule.1 } : Loader).hasReturned lateRule.2 = false := by
    decide +kernel
  obtain ⟨files, hload⟩ : ∃ files,
      (({ request := lateRule.1 } : Loader).after lateRule.2).load.1 = .ok files :=
    Fallible.exists_ok (by decide +kernel)
  obtain ⟨kept, fresh, -, hfresh, -, -, hsame, -⟩ := load_after_failures hfailed hload
  have hempty : (({ request := lateRule.1 } : Loader).after lateRule.2).files = .empty := by
    decide +kernel
  exact ⟨kept, files, hload, hsame hempty ▸ hfresh⟩

end SchemaGen.Loader
