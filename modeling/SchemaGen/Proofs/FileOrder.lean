import SchemaGen.Proofs.Artifacts
import SchemaGen.Proofs.Descriptor.PoolOrder
import SchemaGen.Proofs.Options.Needed

/-!
# The order of a request's files

The files of a request can be listed in any order. Imports come first in a pool whatever the order,
so the pools hold the same types and extensions (`load_perm`); constraints can be set one by one in
any order (`setFlags_perm`). With one collection option at most, two answers to the same files in
different orders are therefore one and the same (`respond_eq_of_perm`). Whether there is an answer
may depend on the order.
-/

namespace SchemaGen

open Descriptor (File Pool Distinct latest?)
open Options (Declaration Reader Flag Role startNames)
open Fallible

-- ---------------------------------------------------------------------------
-- Loading
-- ---------------------------------------------------------------------------

namespace Options.Closure

def Step.file? : Step → Option File
  | add _ file => some file
  | standard => none
  | absent _ => none

/-- The pool that the files are added to: the standard descriptors stand in for a file that is not
there. -/
def basePool (files : OrderedMap File) : Pool :=
  (files.get? Descriptor.Standard.fileName).elim Descriptor.Standard.pool fun _ => Pool.empty

def metFiles (files : OrderedMap File) (names : List String) : List File :=
  (tourFrom files names).visited.filterMap files.get?

theorem file?_stepFor (files : OrderedMap File) (name : String) :
    (stepFor files name).file? = files.get? name := by
  rw [stepFor]
  split
  · next file hfile => rw [hfile]; rfl
  · next hnone =>
    rw [hnone]
    split
    · rfl
    · rfl

theorem eq_of_stepFor {files : OrderedMap File} {name : String}
    (h : stepFor files name = .standard) :
    name = Descriptor.Standard.fileName ∧ files.get? name = none := by
  rw [stepFor] at h
  split at h
  · cases h
  · next hnone =>
    split at h
    · next hname => exact ⟨hname, hnone⟩
    · cases h

theorem foldlM_perform {steps : List Step} (hsteps : Step.standard ∉ steps) {start pool : Pool}
    (h : steps.foldlM Step.perform start = .ok pool) :
    (steps.filterMap Step.file?).foldlM Pool.add start = .ok pool := by
  induction steps generalizing start with
  | nil =>
    cases h
    rfl
  | cons step more ih =>
    obtain ⟨middle, hstep, hmore⟩ := bind_eq_ok.mp h
    have hrest := ih (fun hmem => hsteps (List.mem_cons_of_mem _ hmem)) hmore
    cases step with
    | standard => exact absurd List.mem_cons_self hsteps
    | absent name => cases hstep
    | add name file =>
      rw [Step.perform] at hstep
      split at hstep
      · cases hadd : start.add file with
        | error reason => rw [hadd] at hstep; cases hstep
        | ok after =>
          rw [hadd] at hstep
          cases hstep
          show (file :: more.filterMap Step.file?).foldlM Pool.add start = .ok pool
          rw [List.foldlM_cons, hadd]
          exact hrest
      · cases hstep

theorem tourFrom_standard {files : OrderedMap File}
    (h : files.get? Descriptor.Standard.fileName = none) (names : List String) :
    ∃ taken, (tourFrom files (Descriptor.Standard.fileName :: names)).steps = .standard :: taken ∧
      Step.standard ∉ taken := by
  have hfirst : (Tour.mk [] []).visit files (files.entries.length + 1)
      Descriptor.Standard.fileName = ⟨[Descriptor.Standard.fileName], [.standard]⟩ := by
    rw [Tour.visit_of_new List.not_mem_nil, stepFor, h]
    rfl
  obtain ⟨fresh, hfresh⟩ := Tour.continues_visitAll files (files.entries.length + 1) names
    ⟨[Descriptor.Standard.fileName], [.standard]⟩
  obtain ⟨taken, htaken, hperm⟩ := hfresh.steps
  refine ⟨taken, ?_, ?_⟩
  · exact (congrArg (fun tour => (Tour.visitAll files _ names tour).steps) hfirst).trans htaken
  · intro hmem
    obtain ⟨name, hname, hstep⟩ := List.mem_map.mp (hperm.mem_iff.mp hmem)
    have hnodup := hfresh.nodup (List.nodup_singleton _)
    rw [hfresh.visited, List.singleton_append, List.nodup_cons] at hnodup
    exact hnodup.1 ((eq_of_stepFor hstep).1 ▸ hname)

/-- A successful load adds the files that it meets, in some order. -/
theorem load_ok {files : OrderedMap File} {names : List String} {pool : Pool}
    (h : load files names = .ok pool) :
    ∃ added : List File, added.Perm (metFiles files (Descriptor.Standard.fileName :: names)) ∧
      added.foldlM Pool.add (basePool files) = .ok pool := by
  rw [load_eq, loadOrder_eq] at h
  obtain ⟨-, -, hperm⟩ := tour_spec files (Descriptor.Standard.fileName :: names)
  refine ⟨(tourFrom files (Descriptor.Standard.fileName :: names)).steps.filterMap Step.file?,
    ?_, ?_⟩
  · rw [metFiles]
    refine (hperm.filterMap _).trans ?_
    rw [List.filterMap_map]
    simp only [Function.comp_def, file?_stepFor]
    exact .refl _
  · rw [basePool]
    cases hfile : files.get? Descriptor.Standard.fileName with
    | some file =>
      refine foldlM_perform (fun hmem => ?_) h
      obtain ⟨name, -, hstep⟩ := List.mem_map.mp (hperm.mem_iff.mp hmem)
      obtain ⟨rfl, hnone⟩ := eq_of_stepFor hstep
      rw [hfile] at hnone
      cases hnone
    | none =>
      obtain ⟨taken, htaken, hnone⟩ := tourFrom_standard hfile names
      rw [htaken] at h ⊢
      exact foldlM_perform hnone h

end Options.Closure

-- ---------------------------------------------------------------------------
-- The same files in another order
-- ---------------------------------------------------------------------------

namespace Descriptor

theorem Distinct.latest?_eq_of_perm {files others : List File} (h : Distinct files)
    (hperm : files.Perm others) (name : String) : latest? files name = latest? others name := by
  have hothers : Distinct others := (hperm.map File.nameText).nodup_iff.mp h
  refine Option.ext fun file => ?_
  rw [h.latest?_eq_some_iff, hothers.latest?_eq_some_iff, hperm.mem_iff]

end Descriptor

namespace Options

open Closure (Reached tourFrom tour_spec metFiles basePool load)

theorem unambiguous_basePool (known : OrderedMap File) : (basePool known).Unambiguous := by
  rw [basePool]
  cases known.get? Descriptor.Standard.fileName with
  | none => exact Pool.unambiguous_standard
  | some file => exact Pool.unambiguous_empty

theorem mem_of_mem_metFiles {files : List File} {names : List String} {file : File}
    (h : file ∈ metFiles (Reader.byName files) names) : file ∈ files := by
  obtain ⟨name, -, hfile⟩ := List.mem_filterMap.mp h
  rw [Descriptor.get?_byName] at hfile
  exact List.mem_reverse.mp (List.mem_of_find?_eq_some hfile)

theorem perm_declarations {files others : List File} (h : files.Perm others) :
    (Declaration.ofFiles files).Perm (Declaration.ofFiles others) := h.flatMap_right _

section

variable {files others : List File} (hdistinct : Distinct files) (hperm : files.Perm others)
include hdistinct hperm

theorem get?_byName_of_perm : (Reader.byName files).get? = (Reader.byName others).get? := by
  funext name
  rw [Descriptor.get?_byName, Descriptor.get?_byName, hdistinct.latest?_eq_of_perm hperm]

theorem reached_of_perm {name : String}
    (h : Reached (Reader.byName files) (startNames files) name) :
    Reached (Reader.byName others) (startNames others) name := by
  induction h with
  | root mem =>
    refine .root (List.Perm.subset ?_ mem)
    exact ((perm_declarations hperm).map _).cons _
  | imported _ found mem ih => exact .imported ih (get?_byName_of_perm hdistinct hperm ▸ found) mem

theorem perm_metFiles :
    (metFiles (Reader.byName files) (startNames files)).Perm
      (metFiles (Reader.byName others) (startNames others)) := by
  obtain ⟨hnodup, hmem, -⟩ := tour_spec (Reader.byName files) (startNames files)
  obtain ⟨hnodup', hmem', -⟩ := tour_spec (Reader.byName others) (startNames others)
  have hothers : Distinct others := (hperm.map File.nameText).nodup_iff.mp hdistinct
  have hvisited : (tourFrom (Reader.byName files) (startNames files)).visited.Perm
      (tourFrom (Reader.byName others) (startNames others)).visited := by
    refine (List.perm_ext_iff_of_nodup hnodup hnodup').mpr fun name => ?_
    rw [hmem, hmem']
    exact ⟨reached_of_perm hdistinct hperm, reached_of_perm hothers hperm.symm⟩
  rw [metFiles, metFiles, get?_byName_of_perm hdistinct hperm]
  exact hvisited.filterMap _

/-- Loading the same files gives equivalent pools, as far as it succeeds. -/
theorem load_perm (hfull : ∀ file ∈ files, file.RefersInFull) {pool other : Pool}
    (hpool : load (Reader.byName files) ((Declaration.ofFiles files).map Declaration.fileName) =
      .ok pool)
    (hother : load (Reader.byName others) ((Declaration.ofFiles others).map Declaration.fileName) =
      .ok other) : pool.Equivalent other := by
  obtain ⟨added, hadded, hpool⟩ := Closure.load_ok hpool
  obtain ⟨added', hadded', hother⟩ := Closure.load_ok hother
  have hbase : basePool (Reader.byName others) = basePool (Reader.byName files) := by
    rw [basePool, basePool, get?_byName_of_perm hdistinct hperm]
  have hmet := hadded.trans ((perm_metFiles hdistinct hperm).trans hadded'.symm)
  rw [hbase] at hother
  refine Pool.equivalent_of_perm (unambiguous_basePool _) ?_ hmet hpool hother
  exact fun file hfile => hfull file (mem_of_mem_metFiles (hadded.subset hfile))

end

namespace Reader

open Descriptor (Extension)

-- ---------------------------------------------------------------------------
-- Readers that tell the same
-- ---------------------------------------------------------------------------

/-- Readers by equivalent schemas, with the same options. The constraints may come in any order. -/
structure Equivalent (reader other : Reader) : Prop where
  schema : reader.schema.Equivalent other.schema
  flags : reader.flags.Perm other.flags
  collections : reader.collections = other.collections

def flagOf? (pool : Pool) (declaration : Declaration) : Option (Flag × Extension) :=
  match declaration.role with
  | .flag flag => (pool.extension? declaration.fullName).map (flag, ·)
  | .collection => none

def collectionOf? (pool : Pool) (declaration : Declaration) : Option Extension :=
  match declaration.role with
  | .flag _ => none
  | .collection => pool.extension? declaration.fullName

theorem ofPool_ok {pool : Pool} {declarations : List Declaration} {reader : Reader}
    (h : ofPool pool declarations = .ok reader) :
    reader.schema = pool.schema ∧ reader.flags = declarations.filterMap (flagOf? pool) ∧
      reader.collections = declarations.filterMap (collectionOf? pool) := by
  obtain ⟨-, -, h⟩ := bind_eq_ok.mp h
  obtain ⟨-, -, h⟩ := bind_eq_ok.mp h
  obtain ⟨extensions, hextensions, h⟩ := bind_eq_ok.mp h
  cases h
  have hpairs : List.Forall₂ (fun declaration pair => pair.1 = declaration.role ∧
      pool.extension? declaration.fullName = some pair.2) declarations extensions := by
    refine (mapM_ok.mp hextensions).imp fun declaration pair hpair => ?_
    obtain ⟨extension, hextension, hpair⟩ := bind_eq_ok.mp hpair
    cases hpair
    rw [extensionOf] at hextension
    split at hextension
    · next hfound =>
      cases hextension
      exact ⟨rfl, hfound⟩
    · cases hextension
  refine ⟨rfl, filterMap_eq_of_forall₂ (hpairs.imp ?_), filterMap_eq_of_forall₂ (hpairs.imp ?_)⟩
  · rintro declaration ⟨role, extension⟩ ⟨rfl, hfound⟩
    rw [flagOf?, hfound]
    cases declaration.role with
    | flag flag => rfl
    | collection => rfl
  · rintro declaration ⟨role, extension⟩ ⟨rfl, hfound⟩
    rw [collectionOf?, hfound]
    cases declaration.role with
    | flag flag => rfl
    | collection => rfl

theorem eq_of_perm_of_length_le_one {α : Type} {first second : List α} (h : first.Perm second)
    (hlength : first.length ≤ 1) : first = second := by
  cases first with
  | nil => exact h.nil_eq
  | cons entry more =>
    obtain rfl : more = [] := by simpa using hlength
    exact h.singleton_eq

/-- Readers of the same declarations in equivalent pools. -/
theorem ofPool_perm {pool other : Pool} (hpool : pool.Equivalent other)
    {declarations others : List Declaration} (hperm : declarations.Perm others)
    (hcollection : (declarations.countP fun declaration => declaration.role = .collection) ≤ 1)
    {reader second : Reader} (hreader : ofPool pool declarations = .ok reader)
    (hsecond : ofPool other others = .ok second) : reader.Equivalent second := by
  obtain ⟨hschema, hflags, hcollections⟩ := ofPool_ok hreader
  obtain ⟨hschema', hflags', hcollections'⟩ := ofPool_ok hsecond
  have hflagOf : flagOf? pool = flagOf? other := by
    funext declaration
    rw [flagOf?, flagOf?, hpool.extension?_eq]
  have hcollectionOf : collectionOf? pool = collectionOf? other := by
    funext declaration
    rw [collectionOf?, collectionOf?, hpool.extension?_eq]
  refine ⟨?_, ?_, ?_⟩
  · rw [hschema, hschema']
    exact hpool.schema
  · rw [hflags, hflags', hflagOf]
    exact hperm.filterMap _
  · rw [hcollections, hcollections', hcollectionOf]
    refine eq_of_perm_of_length_le_one (hperm.filterMap _) ?_
    rw [List.length_filterMap_eq_countP]
    refine Nat.le_trans (List.countP_mono_left fun declaration _ hsome => ?_) hcollection
    rw [collectionOf?] at hsome
    split at hsome
    · cases hsome
    · next hrole => simpa using hrole

theorem ofFiles_ok {files : List File} (hdistinct : Distinct files) {reader : Reader}
    (h : ofFiles files = .ok reader) :
    (Declaration.ofFiles files = [] ∧ reader = ⟨[], { types := [] }, [], []⟩) ∨
      (Declaration.ofFiles files ≠ [] ∧ ∃ pool,
        load (byName files) ((Declaration.ofFiles files).map Declaration.fileName) = .ok pool ∧
          ofPool pool (Declaration.ofFiles files) = .ok reader) := by
  simp only [ofFiles, hdistinct.values_byName] at h
  split at h
  · next hnone =>
    cases h
    exact .inl ⟨hnone, rfl⟩
  · next hsome => exact .inr ⟨hsome, bind_eq_ok.mp h⟩

theorem ofFiles_perm {files others : List File} (hdistinct : Distinct files)
    (hperm : files.Perm others) (hfull : ∀ file ∈ files, file.RefersInFull)
    (hcollection : ((Declaration.ofFiles files).countP fun declaration =>
      declaration.role = .collection) ≤ 1)
    {reader second : Reader} (hreader : ofFiles files = .ok reader)
    (hsecond : ofFiles others = .ok second) : reader.Equivalent second := by
  have hothers : Distinct others := (hperm.map File.nameText).nodup_iff.mp hdistinct
  have hdeclarations := perm_declarations hperm
  obtain ⟨hnone, rfl⟩ | ⟨hsome, pool, hpool, hreader⟩ := ofFiles_ok hdistinct hreader
  · obtain ⟨-, rfl⟩ | ⟨hsome, -⟩ := ofFiles_ok hothers hsecond
    · exact ⟨⟨fun _ => .refl _, fun _ _ => rfl, fun _ => rfl⟩, .refl _, rfl⟩
    · exact absurd (hnone ▸ hdeclarations).nil_eq.symm hsome
  · obtain ⟨hnone, -⟩ | ⟨-, other, hother, hsecond⟩ := ofFiles_ok hothers hsecond
    · exact absurd (hnone ▸ hdeclarations).eq_nil hsome
    · exact ofPool_perm (load_perm hdistinct hperm hfull hpool hother) hdeclarations hcollection
        hreader hsecond

-- ---------------------------------------------------------------------------
-- Reading options
-- ---------------------------------------------------------------------------

def switch (options : List Wire.Record) (flags : Flags) (entry : Flag × Extension) : Flags :=
  if (entry.2.field.value? options).any Wire.Value.isOn then entry.1.set flags else flags

theorem Flag.set_comm (first second : Flag) (flags : Flags) :
    first.set (second.set flags) = second.set (first.set flags) := by
  cases first <;> cases second <;> rfl

instance (options : List Wire.Record) : RightCommutative (switch options) where
  right_comm flags first second := by
    simp only [switch]
    split
    · split
      · exact Flag.set_comm _ _ _
      · rfl
    · rfl

theorem setFlags_ok {options : List Wire.Record} {entries : List (Flag × Extension)}
    {flags result : Flags} (h : setFlags options entries flags = .ok result) :
    result = entries.foldl (switch options) flags := by
  induction entries generalizing flags with
  | nil =>
    cases h
    rfl
  | cons entry more ih =>
    obtain ⟨value, hvalue, h⟩ := bind_eq_ok.mp h
    rw [value?] at hvalue
    split at hvalue
    · cases hvalue
    · split at hvalue
      · cases hvalue
      · cases hvalue
        exact ih h

theorem fieldFlags_none (reader : Reader) : reader.fieldFlags none = .ok {} := by
  cases hflags : reader.flags with
  | nil => simp [fieldFlags, hflags]
  | cons entry more => simp [fieldFlags, hflags]

theorem fieldFlags_of_nil {reader : Reader} (h : reader.flags = []) (options : Descriptor.Options) :
    reader.fieldFlags options = .ok {} := by
  simp [fieldFlags, h]

theorem fieldFlags_some {reader : Reader} (h : reader.flags ≠ []) (records : List Wire.Record) :
    reader.fieldFlags (some records) =
      (reader.reread Descriptor.Standard.fieldOptions records >>= fun written =>
        setFlags written reader.flags {}) := by
  cases hflags : reader.flags with
  | nil => exact absurd hflags h
  | cons entry more => simp [fieldFlags, hflags]

namespace Equivalent

variable {reader other : Reader} (h : reader.Equivalent other)
include h

theorem reread_eq_reread (type : String) (records : List Wire.Record) :
    reader.reread type records = other.reread type records := by
  simp only [reread, h.schema.readable_eq, h.schema.elements_eq]

theorem agree_fieldFlags (options : Descriptor.Options) :
    Agree (reader.fieldFlags options) (other.fieldFlags options) := by
  cases options with
  | none => exact agree_of_eq (by rw [fieldFlags_none, fieldFlags_none])
  | some records =>
    by_cases hnone : reader.flags = []
    · have hother : other.flags = [] := (hnone ▸ h.flags).nil_eq.symm
      rw [fieldFlags_of_nil hnone, fieldFlags_of_nil hother]
      exact agree_of_eq rfl
    · have hother : other.flags ≠ [] := fun hnil => hnone (hnil ▸ h.flags).eq_nil
      rw [fieldFlags_some hnone, fieldFlags_some hother, h.reread_eq_reread]
      refine (agree_of_eq rfl).bind fun written flags flags' hflags hflags' => ?_
      rw [setFlags_ok hflags, setFlags_ok hflags']
      exact h.flags.foldl_eq _

theorem collection?_eq (options : Descriptor.Options) :
    reader.collection? options = other.collection? options := by
  simp only [collection?, h.collections, h.reread_eq_reread]

-- ---------------------------------------------------------------------------
-- Conversion
-- ---------------------------------------------------------------------------

theorem agree_convertField (entries : List String) (field : Descriptor.Field) :
    Agree (convertField reader entries field) (convertField other entries field) :=
  (h.agree_fieldFlags field.options).bind fun _ => agree_of_eq rfl

theorem agree_convertMessage (package : String) (entries : List String)
    (message : Descriptor.Message) :
    Agree (convertMessage reader package entries message)
      (convertMessage other package entries message) := by
  refine (Agree.mapM (h.agree_convertField entries) message.fields).bind fun fields => ?_
  rw [h.collection?_eq]
  exact agree_of_eq rfl

theorem agree_convertFile (file : File) :
    Agree (convertFile reader file) (convertFile other file) :=
  (Agree.mapM (h.agree_convertMessage file.packageText (mapEntries file)) file.messages).bind
    fun _ => agree_of_eq rfl

end Equivalent

end Reader

end Options

namespace Generation

open Descriptor (Request)

theorem requested_of_perm {request : Request} (h : request.targets ≠ []) {files : List File} :
    ({ request with files } : Request).requested = request.requested := by
  rw [Request.requested_of_named h]
  exact Request.requested_of_named h

section

variable {request : Request} {files : List File} (hnamed : request.targets ≠ [])
  (hdistinct : Distinct request.files) (hperm : request.files.Perm files)
include hnamed hdistinct hperm

theorem missing_of_perm : ({ request with files } : Request).missing = request.missing := by
  have hcontains : ∀ name, (Reader.byName files).contains name =
      (Reader.byName request.files).contains name := by
    intro name
    rw [OrderedMap.contains, OrderedMap.contains, Options.get?_byName_of_perm hdistinct hperm]
  simp only [Request.missing, requested_of_perm hnamed, hcontains]

theorem chosen_of_perm : ({ request with files } : Request).chosen = request.chosen := by
  have hlatest : latest? files = latest? request.files :=
    funext fun name => (hdistinct.latest?_eq_of_perm hperm name).symm
  simp only [Request.chosen, requested_of_perm hnamed, hlatest]

theorem agree_converted {reader other : Reader} (h : reader.Equivalent other) :
    Agree (request.converted reader) (({ request with files } : Request).converted other) := by
  rw [Request.converted, Request.converted, missing_of_perm hnamed hdistinct hperm,
    chosen_of_perm hnamed hdistinct hperm]
  cases request.missing with
  | nil => exact Agree.mapM h.agree_convertFile request.chosen
  | cons name more => exact agree_of_eq rfl

/-- Two answers to the same files in different orders are the same. All references are in full, and
there is one collection option at most. -/
theorem respond_eq_of_perm (hfull : ∀ file ∈ request.files, file.RefersInFull)
    (hcollection : ((Declaration.ofFiles request.files).countP fun declaration =>
      declaration.role = .collection) ≤ 1)
    {renderer : Option Target} {response other : Response}
    (hresponse : respond request renderer = .ok response)
    (hother : respond { request with files } renderer = .ok other) : response = other := by
  obtain ⟨artifacts, hartifacts, hresponse⟩ := bind_eq_ok.mp hresponse
  obtain ⟨artifacts', hartifacts', hother⟩ := bind_eq_ok.mp hother
  cases hresponse
  cases hother
  rw [generate_eq] at hartifacts hartifacts'
  obtain ⟨target, htarget, hartifacts⟩ := bind_eq_ok.mp hartifacts
  obtain ⟨target', htarget', hartifacts'⟩ := bind_eq_ok.mp hartifacts'
  cases Except.ok.inj (htarget.symm.trans htarget')
  obtain ⟨reader, hreader, hartifacts⟩ := bind_eq_ok.mp hartifacts
  obtain ⟨second, hsecond, hartifacts'⟩ := bind_eq_ok.mp hartifacts'
  have hequivalent := Reader.ofFiles_perm hdistinct hperm hfull hcollection hreader hsecond
  have hagree := (agree_converted hnamed hdistinct hperm hequivalent).bind fun schemas =>
    agree_of_eq (rfl : (pure (ModuleText.artifacts (renderer.getD target)
      (SchemaFile.eligible schemas)) : Except Failure (List Artifact)) = _)
  rw [hagree artifacts artifacts' hartifacts hartifacts']

end

def bareOptions : File where
  name := some "google/protobuf/descriptor.proto"
  package := some "google.protobuf"
  messages := [
    { name := some "FieldOptions", ranges := [{ start := some 1000, stop := some 2000 }] },
    { name := some "MessageOptions", ranges := [{ start := some 1000, stop := some 2000 }] }]

def houseRules : File where
  name := some "house.proto"
  package := some "house"
  dependencies := ["google/protobuf/descriptor.proto"]
  messages := [
    { name := some "Scope",
      extensions := [
        { name := some "mongoose_required", extendee := some ".google.protobuf.FieldOptions",
          number := some 1001, type := some .bool }] }]
  extensions := [
    { name := some "mongoose_unique", extendee := some ".google.protobuf.FieldOptions",
      number := some 1000, type := some .bool }]

def guestRules : File where
  name := some "guest.proto"
  package := some "guest"
  dependencies := ["house.proto", "google/protobuf/descriptor.proto"]
  extensions := [
    { name := some "mongoose_unique", extendee := some ".google.protobuf.FieldOptions",
      number := some 1002, type := some .bool },
    { name := some "mongoose_collection", extendee := some ".google.protobuf.MessageOptions",
      number := some 1000, type := some .string }]

def itemFile : File where
  name := some "item.proto"
  messages := [
    { name := some "Item",
      options := some [.bytes 1000 [115, 116, 111, 99, 107]],
      fields := [
        { name := some "code", number := some 1, type := some .string,
          options := some [.varint 1002 1, .varint 1001 1] },
        { name := some "owner", number := some 2, type := some .message,
          typeName := some ".Item" }] }]

def itemRequest : Request where
  targets := ["item.proto"]
  files := [bareOptions, houseRules, guestRules, itemFile]

theorem respond_reversedItems :
    respond itemRequest none =
        respond { itemRequest with files := itemRequest.files.reverse } none ∧
      (respond itemRequest none).toOption.map (·.files.map Artifact.name) = some ["item.ts"] := by
  have hfull : ∀ file ∈ itemRequest.files, file.RefersInFull := by decide +kernel
  have hcollection : ((Declaration.ofFiles itemRequest.files).countP fun declaration =>
      declaration.role = .collection) ≤ 1 := by decide +kernel
  have hnames : (respond itemRequest none).toOption.map (·.files.map Artifact.name) =
      some ["item.ts"] := by decide +kernel
  obtain ⟨response, hresponse⟩ := exists_ok (by simpa using congrArg Option.isSome hnames)
  obtain ⟨other, hother⟩ := exists_ok
    (by decide +kernel : (respond { itemRequest with files := itemRequest.files.reverse }
      none).toOption.isSome = true)
  refine ⟨?_, hnames⟩
  rw [hresponse, hother, respond_eq_of_perm (by simp [itemRequest]) (by decide)
    (List.reverse_perm _).symm hfull hcollection hresponse hother]

end Generation

end SchemaGen
