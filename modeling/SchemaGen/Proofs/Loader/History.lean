import SchemaGen.Proofs.Artifacts

/-!
# Histories of a loader

A loader is asked for files and messages, and between the questions the request that it holds may
change in any way. An operation does one of two things (`perform_eq`): it loads, or it changes the
request and nothing else. A load ends in one of five ways (`load_ends`). What holds after every
history follows from these two facts.
-/

namespace SchemaGen.Loader

open Options (Reader)
open Descriptor (Request latest?)
open Fallible

-- ---------------------------------------------------------------------------
-- Operations
-- ---------------------------------------------------------------------------

inductive Operation where
  | load
  | files
  | requested
  | getFile (name : String)
  | eligible
  | change (edit : Request → Request)

def perform (loader : Loader) : Operation → Loader
  | .load => loader.load.2
  | .files => loader.load.2
  | .requested => loader
  | .getFile name => (loader.getFile name).2
  | .eligible => loader.eligible.2
  | .change edit => { loader with request := edit loader.request }

def after (loader : Loader) (operations : List Operation) : Loader :=
  operations.foldl perform loader

namespace Operation

/-- Whether an operation loads. When no file is requested, asking for messages asks for nothing. -/
def loads (loader : Loader) : Operation → Bool
  | load => true
  | files => true
  | requested => false
  | getFile _ => true
  | eligible => !loader.request.requested.isEmpty
  | change _ => false

def ofChange (change : Change) : Operation := .change (change.apply ·)

def edit (request : Request) : Operation → Request
  | change edit => edit request
  | _ => request

end Operation

def returns (loader : Loader) (operation : Operation) : Bool :=
  operation.loads loader && loader.load.1.isOk

def hasReturned : Loader → List Operation → Bool
  | _, [] => false
  | loader, operation :: more =>
    loader.returns operation || hasReturned (loader.perform operation) more

theorem after_append (loader : Loader) (first second : List Operation) :
    loader.after (first ++ second) = (loader.after first).after second :=
  List.foldl_append

-- ---------------------------------------------------------------------------
-- How a load ends
-- ---------------------------------------------------------------------------

theorem convertAll_inserts (reader : Reader) (known : OrderedMap Descriptor.File)
    (names : List String) (start : OrderedMap SchemaFile) :
    ∃ pairs, (convertAll reader known names start).2 = start.insertAll pairs ∧
      ∀ pair ∈ pairs, ∃ file, known.get? pair.1 = some file ∧
        convertFile reader file = .ok pair.2 := by
  fun_induction convertAll reader known names start with
  | case1 converted => exact ⟨[], rfl, by simp⟩
  | case2 name more converted hnone => exact ⟨[], rfl, by simp⟩
  | case3 name more converted file hfile failure hfailed => exact ⟨[], rfl, by simp⟩
  | case4 name more converted file hfile schema hconverted ih =>
    obtain ⟨pairs, hinsert, hpairs⟩ := ih
    refine ⟨(name, schema) :: pairs, hinsert, ?_⟩
    rintro pair hpair
    rcases List.mem_cons.mp hpair with rfl | hpair
    · exact ⟨file, hfile, hconverted⟩
    · exact hpairs pair hpair

/-- The ways in which a load ends: the files were there; there is no reader; files are missing; the
conversion breaks off, after some files; or all files have been converted. -/
inductive LoadEnds (loader : Loader) : Except Failure (OrderedMap SchemaFile) × Loader → Prop
  | cached (loaded : loader.isLoaded = true) : LoadEnds loader (.ok loader.files, loader)
  | unread {failure : Failure} (unloaded : loader.isLoaded = false)
      (refused : loader.currentReader = .error failure) : LoadEnds loader (.error failure, loader)
  | missing {reader : Reader} (unloaded : loader.isLoaded = false)
      (built : loader.currentReader = .ok reader) (absent : loader.request.missing ≠ []) :
      LoadEnds loader (.error (.missingFiles loader.request.missing),
        { loader with reader := some reader })
  | broken {reader : Reader} {failure : Failure} {pairs : List (String × SchemaFile)}
      (unloaded : loader.isLoaded = false) (built : loader.currentReader = .ok reader)
      (found : loader.request.missing = [])
      (failed : loader.request.converted reader = .error failure)
      (stored : ∀ pair ∈ pairs, ∃ file, latest? loader.request.files pair.1 = some file ∧
        convertFile reader file = .ok pair.2) :
      LoadEnds loader (.error failure,
        { loader with reader := some reader, files := loader.files.insertAll pairs })
  | finished {reader : Reader} {schemas : List SchemaFile} (unloaded : loader.isLoaded = false)
      (built : loader.currentReader = .ok reader)
      (converted : loader.request.converted reader = .ok schemas) :
      LoadEnds loader (.ok (loader.files.insertAll (loader.request.requested.zip schemas)),
        { loader with
          reader := some reader
          files := loader.files.insertAll (loader.request.requested.zip schemas)
          isLoaded := true })

theorem load_ends {loader : Loader} {outcome : Except Failure (OrderedMap SchemaFile) × Loader}
    (h : loader.load = outcome) : LoadEnds loader outcome := by
  subst h
  cases hloaded : loader.isLoaded with
  | true =>
    rw [load, if_pos hloaded]
    exact .cached hloaded
  | false =>
    simp only [load, if_neg (ne_true_of_eq_false hloaded)]
    cases hbuilt : loader.currentReader with
    | error failure => exact .unread hloaded hbuilt
    | ok reader =>
      cases hmissing : loader.request.missing with
      | cons name more =>
        simp only [← hmissing]
        exact .missing hloaded hbuilt (hmissing ▸ List.cons_ne_nil _ _)
      | nil =>
        have hchosen := Descriptor.Request.forall₂_chosen hmissing
        simp only [← Descriptor.get?_byName] at hchosen
        have hall := convertAll_eq reader hchosen loader.files
        cases hconverted : loader.request.chosen.mapM (convertFile reader) with
        | ok schemas =>
          rw [hconverted] at hall
          simp only [hall]
          refine .finished hloaded hbuilt ?_
          rw [Descriptor.Request.converted, hmissing]
          exact hconverted
        | error failure =>
          rw [hconverted] at hall
          obtain ⟨pairs, hinsert, hpairs⟩ := convertAll_inserts reader
            (Reader.byName loader.request.files) loader.request.requested loader.files
          dsimp only
          generalize convertAll reader (Reader.byName loader.request.files)
            loader.request.requested loader.files = outcome at hall hinsert ⊢
          obtain ⟨_, files⟩ := outcome
          cases hall
          cases hinsert
          simp only [Descriptor.get?_byName] at hpairs
          refine .broken hloaded hbuilt hmissing ?_ hpairs
          rw [Descriptor.Request.converted, hmissing]
          exact hconverted

theorem load_of_isLoaded {loader : Loader} (h : loader.isLoaded = true) :
    loader.load = (.ok loader.files, loader) := by
  rw [load, if_pos h]

theorem isLoaded_load (loader : Loader) : loader.load.2.isLoaded = loader.load.1.isOk := by
  generalize h : loader.load = outcome
  cases load_ends h with
  | cached hloaded => exact hloaded
  | unread hunloaded => exact hunloaded
  | missing hunloaded => exact hunloaded
  | broken hunloaded => exact hunloaded
  | finished => rfl

theorem files_load {loader : Loader} {files : OrderedMap SchemaFile}
    (h : loader.load.1 = .ok files) : loader.load.2.files = files := by
  generalize hload : loader.load = outcome at h ⊢
  cases load_ends hload with
  | cached => exact Except.ok.inj h
  | unread => cases h
  | missing => cases h
  | broken => cases h
  | finished => exact Except.ok.inj h

-- ---------------------------------------------------------------------------
-- What an operation does
-- ---------------------------------------------------------------------------

theorem snd_getFile (loader : Loader) (name : String) :
    (loader.getFile name).2 = loader.load.2 := by
  rw [getFile]
  generalize loader.load = outcome
  obtain ⟨result, last⟩ := outcome
  cases result with
  | error failure => rfl
  | ok files =>
    dsimp only
    cases files.get? name <;> rfl

/-- A loaded loader answers from its map: for each name the file under it, and no other loader
follows. -/
theorem getFiles_eq_mapM {loader : Loader} (h : loader.isLoaded = true) (names : List String) :
    getFiles names loader = (names.mapM (fun name => (loader.getFile name).1), loader) := by
  induction names with
  | nil => rfl
  | cons name more ih =>
    have hlast : (loader.getFile name).2 = loader := by
      rw [snd_getFile, load_of_isLoaded h]
    rw [getFiles, List.mapM_cons]
    generalize loader.getFile name = outcome at hlast ⊢
    obtain ⟨result, last⟩ := outcome
    cases hlast
    cases result with
    | error failure => rfl
    | ok file =>
      dsimp only
      rw [ih, ok_bind]
      cases more.mapM (fun name => (last.getFile name).1) <;> rfl

theorem snd_getFiles (loader : Loader) (names : List String) :
    (getFiles names loader).2 = if names.isEmpty then loader else loader.load.2 := by
  cases names with
  | nil => rfl
  | cons name more =>
    have hlast := snd_getFile loader name
    rw [getFiles]
    cases hload : loader.load.1 with
    | error failure =>
      have hfirst : loader.getFile name = (.error failure, loader.load.2) := by
        rw [getFile]
        generalize loader.load = outcome at hload
        obtain ⟨_, last⟩ := outcome
        cases hload
        rfl
      rw [hfirst]
      rfl
    | ok files =>
      -- after the first file the loader is loaded and stays as it is
      have hloaded : loader.load.2.isLoaded = true := by rw [isLoaded_load, hload]; rfl
      generalize loader.getFile name = outcome at hlast ⊢
      obtain ⟨result, last⟩ := outcome
      cases hlast
      cases result with
      | error failure => rfl
      | ok file =>
        dsimp only
        rw [getFiles_eq_mapM hloaded]
        cases more.mapM (fun name => (loader.load.2.getFile name).1) <;> rfl

theorem perform_eq (loader : Loader) (operation : Operation) :
    loader.perform operation =
      if operation.loads loader then loader.load.2
      else { loader with request := operation.edit loader.request } := by
  cases operation with
  | load => rfl
  | files => rfl
  | requested => rfl
  | getFile name => exact snd_getFile loader name
  | eligible =>
    have hfiles := snd_getFiles loader loader.request.requested
    have hlast : loader.eligible.2 = (getFiles loader.request.requested loader).2 := by
      rw [eligible, requestedFiles]
      generalize getFiles loader.request.requested loader = outcome
      obtain ⟨result, last⟩ := outcome
      cases result <;> rfl
    rw [perform, hlast, hfiles, Operation.loads]
    cases loader.request.requested.isEmpty <;> rfl
  | change edit => rfl

-- ---------------------------------------------------------------------------
-- What every history keeps
-- ---------------------------------------------------------------------------

/-- What a load keeps and a change of the request keeps is kept by every history. -/
theorem after_induction (Kept : Loader → Prop) {loader : Loader} (hstart : Kept loader)
    (hload : ∀ loader, Kept loader → Kept loader.load.2)
    (hchange : ∀ loader request, Kept loader → Kept { loader with request })
    (operations : List Operation) : Kept (loader.after operations) := by
  induction operations generalizing loader with
  | nil => exact hstart
  | cons operation more ih =>
    refine ih ?_
    rw [perform_eq]
    split
    · exact hload loader hstart
    · exact hchange loader _ hstart

theorem mem_zip_of_converted {request : Request} {reader : Reader} {schemas : List SchemaFile}
    (h : request.converted reader = .ok schemas) {pair : String × SchemaFile}
    (hpair : pair ∈ request.requested.zip schemas) :
    ∃ file, latest? request.files pair.1 = some file ∧ convertFile reader file = .ok pair.2 :=
  (List.forall₂_iff_zip.mp (forall₂_converted h)).2 hpair

theorem mem_files_load {loader : Loader} {entry : String × SchemaFile}
    (h : entry ∈ loader.load.2.files.entries) :
    entry ∈ loader.files.entries ∨
      ∃ reader file, loader.currentReader = .ok reader ∧
        latest? loader.request.files entry.1 = some file ∧
          convertFile reader file = .ok entry.2 := by
  generalize hload : loader.load = outcome at h
  cases load_ends hload with
  | cached => exact .inl h
  | unread => exact .inl h
  | missing => exact .inl h
  | broken _ hbuilt _ _ hstored =>
    rcases OrderedMap.mem_entries_insertAll h with hold | hnew
    · exact .inl hold
    · obtain ⟨file, hfile, hconverted⟩ := hstored entry hnew
      exact .inr ⟨_, file, hbuilt, hfile, hconverted⟩
  | finished _ hbuilt hall =>
    rcases OrderedMap.mem_entries_insertAll h with hold | hnew
    · exact .inl hold
    · obtain ⟨file, hfile, hconverted⟩ := mem_zip_of_converted hall hnew
      exact .inr ⟨_, file, hbuilt, hfile, hconverted⟩

def IsNamed (files : OrderedMap SchemaFile) : Prop :=
  ∀ entry ∈ files.entries, entry.2.name = entry.1

theorem isNamed_load {loader : Loader} (h : IsNamed loader.files) :
    IsNamed loader.load.2.files := by
  intro entry hentry
  obtain hold | ⟨reader, file, -, hfile, hconverted⟩ := mem_files_load hentry
  · exact h entry hold
  · rw [(convertFile_ok hconverted).1, Descriptor.nameText_of_latest? hfile]

theorem reader_load {loader : Loader} {reader : Reader} (h : loader.reader = some reader) :
    loader.load.2.reader = some reader := by
  have hcurrent : loader.currentReader = .ok reader := by rw [currentReader, h]
  generalize hload : loader.load = outcome
  cases load_ends hload with
  | cached => exact h
  | unread => exact h
  | missing _ hbuilt => exact congrArg some (Except.ok.inj (hbuilt.symm.trans hcurrent))
  | broken _ hbuilt => exact congrArg some (Except.ok.inj (hbuilt.symm.trans hcurrent))
  | finished _ hbuilt => exact congrArg some (Except.ok.inj (hbuilt.symm.trans hcurrent))

/-- A reader is never replaced. -/
theorem reader_after {loader : Loader} {reader : Reader} (h : loader.reader = some reader)
    (operations : List Operation) : (loader.after operations).reader = some reader :=
  after_induction (·.reader = some reader) h (fun _ => reader_load) (fun _ _ => id) operations

/-- Once loaded, a loader keeps its files whatever becomes of the request. -/
theorem files_after {loader : Loader} (h : loader.isLoaded = true) (operations : List Operation) :
    (loader.after operations).isLoaded = true ∧ (loader.after operations).files = loader.files := by
  refine after_induction (fun other => other.isLoaded = true ∧ other.files = loader.files)
    ⟨h, rfl⟩ ?_ (fun _ _ => id) operations
  rintro other ⟨hloaded, hfiles⟩
  rw [load_of_isLoaded hloaded]
  exact ⟨hloaded, hfiles⟩

theorem isLoaded_after (loader : Loader) (operations : List Operation) :
    (loader.after operations).isLoaded = (loader.isLoaded || loader.hasReturned operations) := by
  induction operations generalizing loader with
  | nil => simp [after, hasReturned]
  | cons operation more ih =>
    have hstep : (loader.perform operation).isLoaded =
        (loader.isLoaded || loader.returns operation) := by
      rw [perform_eq, returns]
      cases operation.loads loader with
      | false => simp
      | true =>
        rw [if_pos rfl, Bool.true_and, isLoaded_load]
        cases hloaded : loader.isLoaded with
        | false => rfl
        | true => rw [load_of_isLoaded hloaded]; rfl
    show ((loader.perform operation).after more).isLoaded = _
    rw [ih, hstep, hasReturned, Bool.or_assoc]

/-- The load that first returns leaves every name that is requested then among the keys. -/
theorem mem_keys_of_returns {loader : Loader} {operation : Operation}
    (hunloaded : loader.isLoaded = false) (hreturns : loader.returns operation = true)
    {name : String} (hname : name ∈ loader.request.requested) :
    name ∈ (loader.perform operation).files.keys := by
  obtain ⟨hloads, hok⟩ := (Bool.and_eq_true _ _).mp hreturns
  rw [perform_eq, if_pos hloads]
  generalize hload : loader.load = outcome at hok
  cases load_ends hload with
  | cached hloaded =>
    rw [hunloaded] at hloaded
    cases hloaded
  | unread => cases hok
  | missing => cases hok
  | broken => cases hok
  | finished _ _ hconverted =>
    have hlength := (forall₂_converted hconverted).length_eq
    show name ∈ (loader.files.insertAll _).keys
    rw [OrderedMap.keys_insertAll, List.map_fst_zip (Nat.le_of_eq hlength),
      OrderedMap.mem_foldl_addKey]
    exact .inr hname

-- ---------------------------------------------------------------------------
-- Answers after a load
-- ---------------------------------------------------------------------------

theorem getFile_eq {loader : Loader} (h : loader.isLoaded = true) (name : String) :
    (loader.getFile name).1 =
      match loader.files.get? name with
      | some file => .ok file
      | none => .error (.notLoaded name) := by
  rw [getFile, load_of_isLoaded h]
  dsimp only
  cases loader.files.get? name <;> rfl

theorem getFile_returns_iff {loader : Loader} (h : loader.isLoaded = true) (name : String) :
    (∃ file, (loader.getFile name).1 = .ok file) ↔ name ∈ loader.files.keys := by
  rw [getFile_eq h, OrderedMap.mem_keys_iff]
  cases loader.files.get? name <;> simp

theorem mapM_getFile_eq_ok_iff {loader : Loader} (h : loader.isLoaded = true) {names : List String}
    {files : List SchemaFile} :
    names.mapM (fun name => (loader.getFile name).1) = .ok files ↔
      (∀ name ∈ names, name ∈ loader.files.keys) ∧ files = names.filterMap loader.files.get? := by
  induction names generalizing files with
  | nil => simp [eq_comm]
  | cons name more ih =>
    rw [List.mapM_cons, getFile_eq h, List.forall_mem_cons, OrderedMap.mem_keys_iff]
    cases hfile : loader.files.get? name with
    | none => simp
    | some file =>
      rw [ok_bind, bind_eq_ok, List.filterMap_cons_some hfile]
      constructor
      · rintro ⟨others, hothers, hfiles⟩
        obtain ⟨hkeys, rfl⟩ := ih.mp hothers
        cases hfiles
        exact ⟨⟨⟨file, rfl⟩, hkeys⟩, rfl⟩
      · rintro ⟨⟨-, hkeys⟩, rfl⟩
        exact ⟨_, ih.mpr ⟨hkeys, rfl⟩, rfl⟩

/-- The messages of the files that are requested now, as these were loaded: file by file, as often
as a file is requested, and without the skipped files. -/
def cachedMessages (loader : Loader) : List (SchemaFile × SchemaMessage) :=
  loader.request.requested.flatMap fun name =>
    match loader.files.get? name with
    | some file => if file.isSkipped then [] else file.messages.map fun message => (file, message)
    | none => []

theorem eligible_filterMap_get? (loader : Loader) :
    SchemaFile.eligible (loader.request.requested.filterMap loader.files.get?) =
      loader.cachedMessages := by
  rw [cachedMessages]
  induction loader.request.requested with
  | nil => rfl
  | cons name more ih =>
    rw [List.flatMap_cons, ← ih]
    cases hfile : loader.files.get? name with
    | none => simp [hfile]
    | some file => cases hskipped : file.isSkipped <;> simp [SchemaFile.eligible, hfile, hskipped]

theorem eligible_eq_ok_iff {loader : Loader} (h : loader.isLoaded = true)
    {pairs : List (SchemaFile × SchemaMessage)} :
    loader.eligible.1 = .ok pairs ↔
      (∀ name ∈ loader.request.requested, name ∈ loader.files.keys) ∧
        pairs = loader.cachedMessages := by
  have hanswer : loader.eligible.1 = do
      let files ← loader.request.requested.mapM fun name => (loader.getFile name).1
      return SchemaFile.eligible files := by
    rw [eligible, requestedFiles, getFiles_eq_mapM h]
    cases loader.request.requested.mapM (fun name => (loader.getFile name).1) <;> rfl
  rw [hanswer, bind_eq_ok, ← eligible_filterMap_get?]
  simp only [mapM_getFile_eq_ok_iff h]
  constructor
  · rintro ⟨files, ⟨hkeys, rfl⟩, hpairs⟩
    cases hpairs
    exact ⟨hkeys, rfl⟩
  · rintro ⟨hkeys, rfl⟩
    exact ⟨_, ⟨hkeys, rfl⟩, rfl⟩

-- ---------------------------------------------------------------------------
-- All histories
-- ---------------------------------------------------------------------------

/-- What holds of a loader after any history. Files stand under their own names, and a reader is
never replaced. The load that is the first to return leaves all names that are requested then among
the keys. From then on the map stays as it is whatever becomes of the request, a file is found
exactly under the keys, and there are messages exactly when all names that are requested now are
keys. -/
theorem history_keeps (request : Request) (reader : Option Reader) (operations : List Operation) :
    let start : Loader := { request, reader }
    let loader := start.after operations
    (∀ key file, (key, file) ∈ loader.files.entries → file.name = key) ∧
    (∀ kept, loader.reader = some kept → ∀ more, (loader.after more).reader = some kept) ∧
    (∀ operation, start.hasReturned operations = false → loader.returns operation = true →
      ∀ name ∈ loader.request.requested, name ∈ (loader.perform operation).files.keys) ∧
    (start.hasReturned operations = true →
      (∀ more, (loader.after more).files = loader.files ∧
        (loader.after more).load.1 = .ok loader.files) ∧
      (∀ name, (∃ file, (loader.getFile name).1 = .ok file) ↔ name ∈ loader.files.keys) ∧
      (∀ name file, loader.files.get? name = some file → (loader.getFile name).1 = .ok file) ∧
      (∀ name, name ∉ loader.files.keys → (loader.getFile name).1 = .error (.notLoaded name)) ∧
      ((∃ pairs, loader.eligible.1 = .ok pairs) ↔
        ∀ name ∈ loader.request.requested, name ∈ loader.files.keys) ∧
      ∀ pairs, loader.eligible.1 = .ok pairs → pairs = loader.cachedMessages) := by
  intro start loader
  have hisLoaded : loader.isLoaded = start.hasReturned operations := isLoaded_after start operations
  refine ⟨?_, fun kept hkept more => reader_after hkept more, ?_, ?_⟩
  · have hnamed : IsNamed loader.files :=
      after_induction (IsNamed ·.files) (by simp [start, IsNamed, OrderedMap.empty])
        (fun _ => isNamed_load) (fun _ _ => id) operations
    exact fun key file hentry => hnamed (key, file) hentry
  · intro operation hunreturned hreturns name hname
    exact mem_keys_of_returns (hisLoaded.trans hunreturned) hreturns hname
  · intro hreturned
    have hloaded : loader.isLoaded = true := hisLoaded.trans hreturned
    refine ⟨fun more => ?_, getFile_returns_iff hloaded, ?_, ?_, ?_, ?_⟩
    · obtain ⟨hstill, hfiles⟩ := files_after hloaded more
      rw [load_of_isLoaded hstill, hfiles]
      exact ⟨rfl, rfl⟩
    · intro name file hfile
      rw [getFile_eq hloaded, hfile]
    · intro name hname
      have hnone : loader.files.get? name = none := OrderedMap.get?_eq_none_of_notMem hname
      rw [getFile_eq hloaded, hnone]
    · simp only [eligible_eq_ok_iff hloaded]
      constructor
      · rintro ⟨_, hkeys, -⟩
        exact hkeys
      · intro hkeys
        exact ⟨_, hkeys, rfl⟩
    · exact fun pairs hpairs => ((eligible_eq_ok_iff hloaded).mp hpairs).2

/-- A history in which a file is asked for too early and then arrives, is loaded by a question for
another file, and in which that other file is requested in the end. -/
def lateArrival : List Operation := [
  .getFile "user.proto",
  .ofChange (.addFile { name := some "user.proto", messages := [{ name := some "User" }] }),
  .getFile "order.proto",
  .ofChange (.addTarget "order.proto")]

theorem history_keeps_lateArrival :
    let start : Loader := { request := { targets := ["user.proto"] } }
    let loader := start.after lateArrival
    start.hasReturned lateArrival = true ∧ loader.files.keys = ["user.proto"] ∧
      (∃ file, (loader.getFile "user.proto").1 = .ok file) ∧
      (loader.getFile "order.proto").1 = .error (.notLoaded "order.proto") ∧
      ¬∃ pairs, loader.eligible.1 = .ok pairs := by
  intro start loader
  have hreturned : start.hasReturned lateArrival = true := by decide +kernel
  have hkeys : loader.files.keys = ["user.proto"] := by decide +kernel
  have hrequested : loader.request.requested = ["user.proto", "order.proto"] := by decide +kernel
  obtain ⟨-, -, -, hsettled⟩ := history_keeps { targets := ["user.proto"] } none lateArrival
  obtain ⟨-, hfound, -, hnotFound, heligible, -⟩ := hsettled hreturned
  refine ⟨hreturned, hkeys, (hfound "user.proto").mpr ?_, hnotFound "order.proto" ?_, ?_⟩
  · show "user.proto" ∈ loader.files.keys
    rw [hkeys]
    decide
  · show "order.proto" ∉ loader.files.keys
    rw [hkeys]
    decide
  · intro hpairs
    have hrequest : "order.proto" ∈ loader.request.requested := by rw [hrequested]; decide
    have hkey : "order.proto" ∈ loader.files.keys := heligible.mp hpairs _ hrequest
    rw [hkeys] at hkey
    exact absurd hkey (by decide)

end SchemaGen.Loader
