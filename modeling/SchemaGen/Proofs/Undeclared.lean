import SchemaGen.Proofs.FileOrder
import SchemaGen.Proofs.Loader.Collections
import SchemaGen.Proofs.Loader.Fields
import SchemaGen.Proofs.Options.Declarations
import SchemaGen.Proofs.Parameter

/-!
# Requests without declared options

A request whose files declare no options cannot fail on the options that its fields and messages
carry, on imports or on types: what matters is the target that it asks for and whether the requested
files are there (`respond_undeclared`). `Refuses` lists its failures with their texts.
-/

namespace SchemaGen

open Options (Reader)
open Descriptor (File Message Field Request latest?)
open Fallible

-- ---------------------------------------------------------------------------
-- Conversion
-- ---------------------------------------------------------------------------

def Options.Undeclared (files : List File) : Prop :=
  ∀ name file place declaration, latest? files name = some file →
    ¬DeclaredAt file place declaration

theorem Options.declared_eq_nil_iff {files : List File} :
    declared files = [] ↔ Undeclared files := by
  rw [declared, Declaration.ofFiles, List.flatMap_eq_nil_iff]
  constructor
  · intro hnone name file place declaration hfile hdeclared
    have hmem : file ∈ (Reader.byName files).values := by
      rwa [Descriptor.mem_values_iff, Descriptor.nameText_of_latest? hfile]
    obtain ⟨placed, hplaced, -, hiff⟩ := inPlace_ofFile file
    rw [hnone file hmem, List.map_eq_nil_iff] at hplaced
    simpa [hplaced] using (hiff place declaration).mpr hdeclared
  · intro hundeclared file hfile
    obtain ⟨placed, hplaced, -, hiff⟩ := inPlace_ofFile file
    rw [← hplaced, List.map_eq_nil_iff, List.eq_nil_iff_forall_not_mem]
    rintro ⟨place, declaration⟩ hmem
    exact hundeclared _ file place declaration (Descriptor.mem_values_iff.mp hfile)
      ((hiff place declaration).mp hmem)

section

variable {reader : Reader} (hflags : reader.flags = []) (hcollections : reader.collections = [])
include hflags hcollections

theorem exists_convertFile (file : File) : ∃ schema, convertFile reader file = .ok schema := by
  have hfield : ∀ field, ∃ loaded, convertField reader (mapEntries file) field = .ok loaded := by
    intro field
    rw [convertField, Reader.fieldFlags_of_nil hflags]
    exact ⟨_, rfl⟩
  have hmessage : ∀ message, ∃ record,
      convertMessage reader file.packageText (mapEntries file) message = .ok record := by
    intro message
    obtain ⟨fields, hfields⟩ := exists_forall₂ fun field (_ : field ∈ message.fields) => hfield field
    rw [convertMessage, mapM_ok.mpr hfields, Options.Reader.collection?_of_nil hcollections]
    exact ⟨_, rfl⟩
  obtain ⟨records, hrecords⟩ := exists_forall₂ fun message (_ : message ∈ file.messages) =>
    hmessage message
  rw [convertFile, mapM_ok.mpr hrecords]
  exact ⟨_, rfl⟩

theorem defaults_of_convertMessage {package : String} {entries : List String} {message : Message}
    {record : SchemaMessage} (h : convertMessage reader package entries message = .ok record) :
    record.collection = Text.lower message.nameText ++ "s" ∧
      ∀ loaded ∈ record.fields, loaded.flags = {} := by
  constructor
  · obtain ⟨override, hoverride, hcollection⟩ := collection_convertMessage h
    rw [Options.Reader.collection?_of_nil hcollections] at hoverride
    cases hoverride
    rw [hcollection, Names.collection_eq]
    rfl
  · have hnone : record.fields.map SchemaField.flags = message.fields.map fun _ => {} := by
      apply map_eq_map_of_forall₂
      apply (fields_of_convertMessage h).imp
      intro field loaded hloaded
      obtain ⟨-, -, -, hread⟩ := convertField_ok hloaded
      rw [Reader.fieldFlags_of_nil hflags] at hread
      exact (Except.ok.inj hread).symm
    intro loaded hloaded
    have hmem : loaded.flags ∈ record.fields.map SchemaField.flags := List.mem_map_of_mem hloaded
    rw [hnone] at hmem
    obtain ⟨-, -, hempty⟩ := List.mem_map.mp hmem
    exact hempty.symm

end

-- ---------------------------------------------------------------------------
-- Absent files
-- ---------------------------------------------------------------------------

def ComesBefore (name other : String) : Prop :=
  List.Lex (· < ·) (name.toList.map Char.toNat) (other.toList.map Char.toNat)

theorem comesBefore_iff {name other : String} : ComesBefore name other ↔ name < other := by
  have hchars : ∀ first second : List Char,
      List.Lex (· < ·) (first.map Char.toNat) (second.map Char.toNat) ↔
        List.Lex (· < ·) first second := by
    intro first
    induction first with
    | nil =>
      intro second
      cases second <;> simp
    | cons c rest ih =>
      intro second
      cases second with
      | nil => simp
      | cons d more =>
        rw [List.map_cons, List.map_cons, List.cons_lex_cons_iff, List.cons_lex_cons_iff, ih,
          Char.toNat_inj]
        rfl
  rw [ComesBefore, hchars, String.lt_iff]
  rfl

instance (name other : String) : Decidable (ComesBefore name other) :=
  decidable_of_iff _ comesBefore_iff.symm

namespace Descriptor.Request

/-- The requested names that no file bears, in the order of the request. -/
def absent (request : Request) : List String :=
  request.targets.filter fun name => ∀ file ∈ request.files, file.nameText ≠ name

theorem absent_eq_nil {request : Request} :
    request.absent = [] ↔ ∀ name ∈ request.targets, ∃ file ∈ request.files, file.nameText = name := by
  simp [absent]

theorem missing_perm (request : Request) : request.missing.Perm request.absent := by
  have hfilter : request.requested.filter (!(Reader.byName request.files).contains ·) =
      request.absent := by
    have hunknown : ∀ name, (!(Reader.byName request.files).contains name) = true ↔
        ∀ file ∈ request.files, file.nameText ≠ name := by
      intro name
      rw [OrderedMap.contains, get?_byName, ← latest?_eq_none_iff]
      simp
    by_cases hnone : request.targets = []
    · simp only [requested, absent, hnone, List.filter_nil, List.filter_eq_nil_iff, hunknown]
      intro name hname habsent
      obtain ⟨file, hfile, rfl⟩ := List.mem_map.mp hname
      exact habsent file hfile rfl
    · rw [requested_of_named hnone, absent]
      apply List.filter_congr
      intro name _
      rw [Bool.eq_iff_iff, hunknown, decide_eq_true_eq]
  rw [missing, hfilter]
  exact List.mergeSort_perm _ _

theorem missing_eq_nil_iff_absent (request : Request) :
    request.missing = [] ↔ request.absent = [] := by
  rw [← List.length_eq_zero_iff, ← List.length_eq_zero_iff, request.missing_perm.length_eq]

theorem missing_sorted (request : Request) :
    request.missing.Pairwise fun name other => ¬ComesBefore other name := by
  unfold missing
  refine List.Pairwise.imp ?_ (List.pairwise_mergeSort ?_ ?_ _)
  · intro name other hle
    rw [comesBefore_iff]
    simpa only [Bool.not_eq_true', decide_eq_false_iff_not] using hle
  · intro first second third hfirst hsecond
    simp only [Bool.not_eq_true', decide_eq_false_iff_not] at hfirst hsecond ⊢
    exact String.le_trans hfirst hsecond
  · intro first second
    simp only [Bool.or_eq_true, Bool.not_eq_true', decide_eq_false_iff_not]
    exact String.le_total first second

theorem eq_missing {request : Request} {names : List String} (hperm : names.Perm request.absent)
    (hsorted : names.Pairwise fun name other => ¬ComesBefore other name) :
    names = request.missing := by
  apply List.Perm.eq_of_pairwise _ hsorted request.missing_sorted
    (hperm.trans request.missing_perm.symm)
  intro name other _ _ hle hge
  rw [comesBefore_iff] at hle hge
  exact String.le_antisymm hle hge

end Descriptor.Request

-- ---------------------------------------------------------------------------
-- Responses
-- ---------------------------------------------------------------------------

/-- Why a request without declared options is refused, and with which text. -/
inductive Refuses (request : Request) : Failure → String → Prop
  | target (unsupported : Target.asked request.parameter ∉ ["ts", "js"]) :
      Refuses request (.unsupportedTarget (Target.asked request.parameter))
        ("Unsupported target '" ++ Target.asked request.parameter ++ "', expected one of: js, ts")
  | files {names : List String} (supported : Target.asked request.parameter ∈ ["ts", "js"])
      (nonempty : names ≠ []) (listed : names.Perm request.absent)
      (sorted : names.Pairwise fun name other => ¬ComesBefore other name) :
      Refuses request (.missingFiles names)
        ("Descriptor(s) not found in request: " ++ ", ".intercalate names)

theorem refuses_iff {request : Request} {failure : Failure} :
    Refuses request failure failure.message ↔
      (Target.asked request.parameter ∉ ["ts", "js"] ∧
        failure = .unsupportedTarget (Target.asked request.parameter)) ∨
      (Target.asked request.parameter ∈ ["ts", "js"] ∧ request.missing ≠ [] ∧
        failure = .missingFiles request.missing) := by
  constructor
  · intro h
    generalize failure.message = text at h
    cases h with
    | target hunsupported => exact .inl ⟨hunsupported, rfl⟩
    | files hsupported hnonempty hlisted hsorted =>
      obtain rfl := Request.eq_missing hlisted hsorted
      exact .inr ⟨hsupported, hnonempty, rfl⟩
  · rintro (⟨hunsupported, rfl⟩ | ⟨hsupported, hnonempty, rfl⟩)
    · exact .target hunsupported
    · exact .files hsupported hnonempty request.missing_perm request.missing_sorted

/-- A record that no option has left a mark on: its collection is the default one, and its fields
have no constraints. -/
structure Unmarked (source : File × Message) (record : SchemaFile × SchemaMessage) : Prop where
  collection : record.2.collection = Text.lower source.2.nameText ++ "s"
  flags : ∀ loaded ∈ record.2.fields, loaded.flags = {}

namespace Generation

theorem respond_cases {request : Request} (h : Options.Undeclared request.files)
    (renderer : Option Target) :
    (Target.asked request.parameter ∉ ["ts", "js"] ∧
      respond request renderer = .error (.unsupportedTarget (Target.asked request.parameter))) ∨
    ∃ target : Target, target.name = Target.asked request.parameter ∧
      ((request.missing ≠ [] ∧
        respond request renderer = .error (.missingFiles request.missing)) ∨
      (request.missing = [] ∧ ∃ reader records, Reader.ofFiles request.files = .ok reader ∧
        List.Forall₂ (fun source record => Describes reader source record ∧ Unmarked source record)
          request.sources records ∧
        respond request renderer = .ok {
          features := some 1, files := ModuleText.artifacts (renderer.getD target) records })) := by
  obtain ⟨reader, hreader, hflags, hcollections⟩ : ∃ reader,
      Reader.ofFiles request.files = .ok reader ∧ reader.flags = [] ∧ reader.collections = [] :=
    ⟨_, Reader.ofFiles_of_undeclared (Options.declared_eq_nil_iff.mpr h), rfl, rfl⟩
  rw [respond, generate_eq, Target.ofParameter_eq, hreader]
  cases htarget : Target.ofName (Target.asked request.parameter) with
  | error failure =>
    obtain ⟨hunsupported, rfl⟩ := Target.ofName_eq_error.mp htarget
    exact .inl ⟨hunsupported, rfl⟩
  | ok target =>
    refine .inr ⟨target, Target.ofName_eq_ok.mp htarget, ?_⟩
    simp only [ok_bind, Request.converted]
    cases hmissing : request.missing with
    | cons name more => exact .inl ⟨by simp, rfl⟩
    | nil =>
      right
      obtain ⟨schemas, hschemas⟩ := exists_forall₂ fun file (_ : file ∈ request.chosen) =>
        exists_convertFile hflags hcollections file
      refine ⟨rfl, reader, SchemaFile.eligible schemas, rfl, ?_, ?_⟩
      · rw [Request.sources_eq]
        apply (forall₂_eligible hschemas).imp
        intro source record hdescribes
        obtain ⟨hcollection, hunset⟩ :=
          defaults_of_convertMessage hflags hcollections hdescribes.converted
        exact ⟨hdescribes, hcollection, hunset⟩
      · simp only [mapM_ok.mpr hschemas]
        rfl

theorem exists_respond_iff {request : Request} (h : Options.Undeclared request.files)
    (renderer : Option Target) :
    (∃ response, respond request renderer = .ok response) ↔
      Target.asked request.parameter ∈ ["ts", "js"] ∧ request.missing = [] := by
  obtain ⟨hunsupported, hrespond⟩ | ⟨target, htarget, hend⟩ := respond_cases h renderer
  · simp [hrespond, hunsupported]
  have hsupported := htarget ▸ target.name_mem
  obtain ⟨hmissing, hrespond⟩ | ⟨hmissing, reader, records, -, -, hrespond⟩ := hend
  · simp [hrespond, hmissing]
  · simp only [hrespond, hsupported, hmissing]
    simp

theorem respond_eq_error_iff {request : Request} (h : Options.Undeclared request.files)
    (renderer : Option Target) {failure : Failure} :
    respond request renderer = .error failure ↔
      (Target.asked request.parameter ∉ ["ts", "js"] ∧
        failure = .unsupportedTarget (Target.asked request.parameter)) ∨
      (Target.asked request.parameter ∈ ["ts", "js"] ∧ request.missing ≠ [] ∧
        failure = .missingFiles request.missing) := by
  obtain ⟨hunsupported, hrespond⟩ | ⟨target, htarget, hend⟩ := respond_cases h renderer
  · simp only [hrespond, hunsupported]
    simpa using eq_comm
  have hsupported := htarget ▸ target.name_mem
  obtain ⟨hmissing, hrespond⟩ | ⟨hmissing, reader, records, -, -, hrespond⟩ := hend
  · simp only [hrespond, hsupported]
    simpa [hmissing] using eq_comm
  · simp only [hrespond, hsupported, hmissing]
    simp

/-- A request without declared options succeeds exactly when it asks for a target that there is and
for files that there are, and otherwise its failure is reported. Its options leave no mark. -/
theorem respond_undeclared {request : Request} (h : Options.Undeclared request.files)
    (renderer : Option Target) :
    ((∃ response, respond request renderer = .ok response) ↔
      Target.asked request.parameter ∈ ["ts", "js"] ∧
        ∀ name ∈ request.targets, ∃ file ∈ request.files, file.nameText = name) ∧
    (∀ failure, respond request renderer = .error failure ↔
      Refuses request failure failure.message ∧ failure.isReported = true) ∧
    ∀ response, respond request renderer = .ok response →
      ∃ target : Target, target.name = Target.asked request.parameter ∧
      ∃ reader records, Reader.ofFiles request.files = .ok reader ∧
        List.Forall₂ (fun source record => Describes reader source record ∧ Unmarked source record)
          request.sources records ∧
        response = {
          features := some 1, files := ModuleText.artifacts (renderer.getD target) records } := by
  refine ⟨?_, ?_, ?_⟩
  · rw [exists_respond_iff h, ← Request.absent_eq_nil, request.missing_eq_nil_iff_absent]
  · intro failure
    rw [refuses_iff, respond_eq_error_iff h]
    refine (and_iff_left_of_imp ?_).symm
    rintro (⟨-, rfl⟩ | ⟨-, -, rfl⟩) <;> rfl
  · intro response hresponse
    obtain ⟨-, hrespond⟩ | ⟨target, htarget, ⟨-, hrespond⟩ |
      ⟨-, reader, records, hreader, hrecords, hrespond⟩⟩ := respond_cases h renderer
    · simp [hrespond] at hresponse
    · simp [hrespond] at hresponse
    · rw [hrespond] at hresponse
      exact ⟨target, htarget, reader, records, hreader, hrecords, (Except.ok.inj hresponse).symm⟩

/-- A file that declares an option, hidden by a later one of its name. That one imports a file that
is not there, refers to nothing, and has the option set. -/
def hidingFiles : List File := [
  { name := some "tag.proto",
    extensions := [
      { name := some "mongoose_unique", extendee := some ".google.protobuf.FieldOptions",
        number := some 50001, type := some .bool }] },
  { name := some "tag.proto", dependencies := ["nowhere.proto"],
    messages := [
      { name := some "Tag", options := some [.bytes 50001 [255]],
        fields := [
          { name := some "label", type := some .string, options := some [.varint 50001 1] },
          { name := some "owner", type := some .message, options := some [.group 50001 []] }] }] }]

def hidingRequest (targets : List String) (parameter : String) : Request :=
  { files := hidingFiles, targets, parameter := some parameter }

theorem respond_hidingFiles :
    (∃ response, respond (hidingRequest ["tag.proto"] "target=py; target=JS") none = .ok response) ∧
      respond (hidingRequest ["zoo.proto", "tag.proto", "Zoo.proto", "zoo.proto"] "") none =
        .error (.missingFiles ["Zoo.proto", "zoo.proto", "zoo.proto"]) ∧
      respond (hidingRequest ["zoo.proto"] "target=py") none = .error (.unsupportedTarget "py") := by
  have h : ∀ targets parameter, Options.Undeclared (hidingRequest targets parameter).files := by
    have hnone : Options.declared hidingFiles = [] := by decide +kernel
    intro targets parameter
    exact Options.declared_eq_nil_iff.mp hnone
  refine ⟨(respond_undeclared (h _ _) none).1.mpr ⟨by decide +kernel, by decide +kernel⟩, ?_, ?_⟩
  · refine ((respond_undeclared (h _ _) none).2.1 _).mpr ⟨.files ?_ ?_ ?_ ?_, rfl⟩
    all_goals decide +kernel
  · exact ((respond_undeclared (h _ _) none).2.1 _).mpr ⟨.target (by decide +kernel), rfl⟩

end Generation

end SchemaGen
