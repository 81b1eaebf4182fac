import SchemaGen.Proofs.Descriptor.Texts
import SchemaGen.Proofs.Options.LoadOrder
import SchemaGen.Proofs.Pipeline
import SchemaGen.Proofs.Response

/-!
# Failures that are not reported

A run ends without a response when something has to be written out again that cannot be, or cannot
be read afterwards: a file on its way into the pool of the option declarations, or the options of a
field or a message. `Interrupted` says when this happens, and `run_error_iff` that it is the only
way for a run on a request in UTF-8 not to return. As in `Closure.visit`, the limit that a call stack
sets to the length of import chains is left out.
-/

namespace SchemaGen

open Options (Reader Declaration)
open Descriptor (isWritable)
open Wire (Record Bytes)
open Fallible

-- ---------------------------------------------------------------------------
-- Options that are read
-- ---------------------------------------------------------------------------

def Options.Reader.readsBack (reader : Reader) (type : String) (records : List Record) : Bool :=
  reader.schema.readable Wire.Schema.maxDepth type
    (Descriptor.Standard.schema.normal Wire.Schema.maxDepth type records)

inductive OptionSite where
  | field (options : Option (List Record))
  | message (options : Option (List Record))

namespace OptionSite

def type : OptionSite → String
  | field _ => Descriptor.Standard.fieldOptions
  | message _ => Descriptor.Standard.messageOptions

def options : OptionSite → Option (List Record)
  | field options => options
  | message options => options

def isRead (reader : Reader) : OptionSite → Prop
  | field _ => reader.flags ≠ []
  | message _ => reader.collections ≠ []

def attempt (reader : Reader) : OptionSite → Except Failure Unit
  | field options => check (reader.fieldFlags options)
  | message options => check (reader.collection? options)

/-- Options that stop a run: they cannot be written out, or not be read after that. -/
inductive Breaks (reader : Reader) (site : OptionSite) : Failure → Prop
  | unwritable {records : List Record} (looked : site.isRead reader)
      (present : site.options = some records) (unwritable : isWritable site.type records = false) :
      Breaks reader site .incomplete
  | unreadable {records : List Record} (looked : site.isRead reader)
      (present : site.options = some records) (writable : isWritable site.type records = true)
      (damaged : reader.readsBack site.type records = false) :
      Breaks reader site .undecodableOptions

end OptionSite

namespace Descriptor

def Message.optionSites (message : Message) : List OptionSite :=
  message.fields.map (fun field => .field field.options) ++ [.message message.options]

def File.optionSites (file : File) : List OptionSite := file.messages.flatMap Message.optionSites

def Request.optionSites (request : Request) : List OptionSite :=
  request.chosen.flatMap File.optionSites

end Descriptor

namespace Options.Reader

theorem reread_eq (reader : Reader) (type : String) (records : List Record) :
    reader.reread type records =
      if isWritable type records then
        if reader.readsBack type records then
          .ok (reader.schema.elements type
            (Descriptor.Standard.schema.normal Wire.Schema.maxDepth type records))
        else .error .undecodableOptions
      else .error .incomplete := rfl

theorem value?_error {type : String} {extension : Descriptor.Extension} {options : List Record}
    {failure : Failure} (h : value? type extension options = .error failure) :
    failure.isReported = true := by
  rw [value?] at h
  split at h
  · cases h
    rfl
  · split at h
    · cases h
      rfl
    · cases h

theorem setFlags_error {options : List Record} {extensions : List (Flag × Descriptor.Extension)}
    {flags : Flags} {failure : Failure} (h : setFlags options extensions flags = .error failure) :
    failure.isReported = true := by
  induction extensions generalizing flags with
  | nil => cases h
  | cons extension more ih =>
    rcases bind_eq_error.mp h with hvalue | ⟨value, -, hrest⟩
    · exact value?_error hvalue
    · exact ih hrest

theorem firstValue_error {options : List Record} {extensions : List Descriptor.Extension}
    {failure : Failure} (h : firstValue options extensions = .error failure) :
    failure.isReported = true := by
  induction extensions with
  | nil => cases h
  | cons extension more ih =>
    rcases bind_eq_error.mp h with hvalue | ⟨value, -, hrest⟩
    · exact value?_error hvalue
    · cases value with
      | none => exact ih hrest
      | some value => cases hrest

end Options.Reader

namespace OptionSite

def finish (reader : Reader) (site : OptionSite) (records : List Record) : Except Failure Unit :=
  match site with
  | field _ => check (Reader.setFlags records reader.flags {})
  | message _ => check (Reader.firstValue records reader.collections)

theorem attempt_of_isRead {reader : Reader} {site : OptionSite} {records : List Record}
    (hread : site.isRead reader) (hpresent : site.options = some records) :
    site.attempt reader = reader.reread site.type records >>= site.finish reader := by
  cases site with
  | field options =>
    cases hpresent
    obtain ⟨first, more, hflags⟩ := List.exists_cons_of_ne_nil hread
    simp only [attempt, Reader.fieldFlags, hflags, check_bind, type]
    rw [← hflags]
    rfl
  | message options =>
    cases hpresent
    obtain ⟨first, more, hcollections⟩ := List.exists_cons_of_ne_nil hread
    simp only [attempt, Reader.collection?, hcollections, check_bind, type]
    rw [← hcollections]
    rfl

theorem attempt_of_not_isRead {reader : Reader} {site : OptionSite} (h : ¬site.isRead reader) :
    site.attempt reader = .ok () := by
  cases site with
  | field options =>
    have hflags : reader.flags = [] := by simpa [isRead] using h
    simp [attempt, Reader.fieldFlags, hflags]
  | message options =>
    have hcollections : reader.collections = [] := by simpa [isRead] using h
    simp [attempt, Reader.collection?, hcollections]

theorem attempt_of_absent {reader : Reader} {site : OptionSite} (h : site.options = none) :
    site.attempt reader = .ok () := by
  cases site with
  | field options =>
    cases h
    cases hflags : reader.flags <;> simp [attempt, Reader.fieldFlags, hflags]
  | message options =>
    cases h
    cases hcollections : reader.collections <;> simp [attempt, Reader.collection?, hcollections]

theorem finish_error {reader : Reader} {site : OptionSite} {records : List Record}
    {failure : Failure} (h : site.finish reader records = .error failure) :
    failure.isReported = true := by
  cases site with
  | field options => exact Reader.setFlags_error (check_eq_error.mp h)
  | message options => exact Reader.firstValue_error (check_eq_error.mp h)

/-- Reading options fails without a report exactly when they stop the run. -/
theorem attempt_error_iff {reader : Reader} {site : OptionSite} {failure : Failure} :
    site.attempt reader = .error failure ∧ failure.isReported = false ↔
      site.Breaks reader failure := by
  constructor
  · rintro ⟨hattempt, hreported⟩
    by_cases hread : site.isRead reader
    · cases hpresent : site.options with
      | none =>
        rw [attempt_of_absent hpresent] at hattempt
        cases hattempt
      | some records =>
        rw [attempt_of_isRead hread hpresent, Reader.reread_eq] at hattempt
        cases hwritable : isWritable site.type records with
        | false =>
          rw [hwritable] at hattempt
          cases hattempt
          exact .unwritable hread hpresent hwritable
        | true =>
          cases hback : reader.readsBack site.type records with
          | false =>
            rw [hwritable, hback] at hattempt
            cases hattempt
            exact .unreadable hread hpresent hwritable hback
          | true =>
            -- what is left can only fail by the extensions themselves
            rw [hwritable, hback] at hattempt
            have hfinish := finish_error hattempt
            rw [hreported] at hfinish
            cases hfinish
    · rw [attempt_of_not_isRead hread] at hattempt
      cases hattempt
  · intro hbreaks
    cases hbreaks with
    | unwritable hread hpresent hunwritable =>
      rw [attempt_of_isRead hread hpresent, Reader.reread_eq, hunwritable]
      exact ⟨rfl, rfl⟩
    | unreadable hread hpresent hwritable hdamaged =>
      rw [attempt_of_isRead hread hpresent, Reader.reread_eq, hwritable, hdamaged]
      exact ⟨rfl, rfl⟩

end OptionSite

-- ---------------------------------------------------------------------------
-- Conversion
-- ---------------------------------------------------------------------------

theorem check_convertField (reader : Reader) (entries : List String) (field : Descriptor.Field) :
    check (convertField reader entries field) =
      (OptionSite.field field.options).attempt reader := by
  rw [convertField, check_bind_pure]
  rfl

theorem check_convertMessage (reader : Reader) (package : String) (entries : List String)
    (message : Descriptor.Message) :
    check (convertMessage reader package entries message) =
      message.optionSites.forM (OptionSite.attempt reader) := by
  rw [convertMessage, check_bind_const fun _ => check_bind_pure _ _, check_mapM,
    Descriptor.Message.optionSites]
  simp only [check_convertField, List.forM_eq_forM, List.forM_append, List.forM_map,
    List.forM_cons, List.forM_nil]
  -- the message's own options come last
  exact bind_congr_ok fun _ _ => (bind_pure _).symm

theorem check_convertFile (reader : Reader) (file : Descriptor.File) :
    check (convertFile reader file) = file.optionSites.forM (OptionSite.attempt reader) := by
  rw [convertFile, check_bind_pure, check_mapM, Descriptor.File.optionSites, forM_flatMap]
  simp only [check_convertMessage]

theorem check_mapM_convertFile (reader : Reader) (files : List Descriptor.File) :
    check (files.mapM (convertFile reader)) =
      (files.flatMap Descriptor.File.optionSites).forM (OptionSite.attempt reader) := by
  rw [check_mapM, forM_flatMap]
  simp only [check_convertFile]

theorem converted_error_iff {request : Descriptor.Request} {reader : Reader} {failure : Failure} :
    request.converted reader = .error failure ∧ failure.isReported = false ↔
      request.missing = [] ∧ ∃ before site after, request.optionSites = before ++ site :: after ∧
        (∀ earlier ∈ before, earlier.attempt reader = .ok ()) ∧ site.Breaks reader failure := by
  rw [Descriptor.Request.converted]
  cases hmissing : request.missing with
  | cons name more =>
    constructor
    · rintro ⟨⟨⟩, hreported⟩
      cases hreported
    · rintro ⟨⟨⟩, -⟩
  | nil =>
    rw [← check_eq_error, check_mapM_convertFile, forM_error]
    constructor
    · rintro ⟨⟨before, site, after, hsites, hearlier, hattempt⟩, hreported⟩
      exact ⟨rfl, before, site, after, hsites, hearlier,
        OptionSite.attempt_error_iff.mp ⟨hattempt, hreported⟩⟩
    · rintro ⟨-, before, site, after, hsites, hearlier, hbreaks⟩
      obtain ⟨hattempt, hreported⟩ := OptionSite.attempt_error_iff.mpr hbreaks
      exact ⟨⟨before, site, after, hsites, hearlier, hattempt⟩, hreported⟩

-- ---------------------------------------------------------------------------
-- Building a reader
-- ---------------------------------------------------------------------------

namespace Options

open Closure (Step loadOrder)

theorem Closure.perform_error_iff {pool : Descriptor.Pool} {step : Step} {failure : Failure} :
    step.perform pool = .error failure ∧ failure.isReported = false ↔
      failure = .incomplete ∧ ∃ name file, step = .add name file ∧
        isWritable Descriptor.Standard.fileDescriptor file.toRecords = false := by
  constructor
  · rintro ⟨hstep, hreported⟩
    cases step with
    | standard => cases hstep
    | absent name =>
      cases hstep
      cases hreported
    | add name file =>
      cases hwritable : isWritable Descriptor.Standard.fileDescriptor file.toRecords with
      | false =>
        simp only [Step.perform, hwritable] at hstep
        cases hstep
        exact ⟨rfl, name, file, rfl, hwritable⟩
      | true =>
        simp only [Step.perform, hwritable, if_true] at hstep
        split at hstep
        · cases hstep
        · cases hstep
          cases hreported
  · rintro ⟨rfl, name, file, rfl, hwritable⟩
    rw [Step.perform, hwritable]
    exact ⟨rfl, rfl⟩

theorem Reader.requireType_error {pool : Descriptor.Pool} {name : String} {failure : Failure}
    (h : Reader.requireType pool name = .error failure) : failure.isReported = true := by
  rw [Reader.requireType] at h
  split at h
  · cases h
  · cases h
    rfl

theorem Reader.extensionOf_error {pool : Descriptor.Pool} {declaration : Declaration}
    {failure : Failure} (h : Reader.extensionOf pool declaration = .error failure) :
    failure.isReported = true := by
  rw [Reader.extensionOf] at h
  split at h
  · cases h
  · cases h
    rfl

theorem Reader.ofPool_error {pool : Descriptor.Pool} {declarations : List Declaration}
    {failure : Failure} (h : Reader.ofPool pool declarations = .error failure) :
    failure.isReported = true := by
  rcases bind_eq_error.mp h with hfield | ⟨_, -, h⟩
  · exact requireType_error hfield
  rcases bind_eq_error.mp h with hmessage | ⟨_, -, h⟩
  · exact requireType_error hmessage
  rcases bind_eq_error.mp h with hextensions | ⟨extensions, -, h⟩
  · rw [← check_eq_error, check_mapM, forM_error] at hextensions
    obtain ⟨_, declaration, _, -, -, hdeclaration⟩ := hextensions
    rw [check_bind_pure, check_eq_error] at hdeclaration
    exact extensionOf_error hdeclaration
  · cases h

/-- The steps that build the reader of a request's files; none when they declare no options. -/
def buildOrder (files : List Descriptor.File) : List Step :=
  match Declaration.ofFiles (Reader.byName files).values with
  | [] => []
  | declarations => loadOrder (Reader.byName files) (declarations.map Declaration.fileName)

theorem Reader.ofFiles_error_iff {files : List Descriptor.File} {failure : Failure} :
    Reader.ofFiles files = .error failure ∧ failure.isReported = false ↔
      failure = .incomplete ∧ ∃ before name file after pool,
        buildOrder files = before ++ .add name file :: after ∧
        before.foldlM Step.perform Descriptor.Pool.empty = .ok pool ∧
        isWritable Descriptor.Standard.fileDescriptor file.toRecords = false := by
  simp only [Reader.ofFiles, buildOrder]
  cases Declaration.ofFiles (Reader.byName files).values with
  | nil => simp
  | cons declaration more =>
    rw [bind_eq_error, Closure.load_eq, foldlM_error]
    constructor
    · rintro ⟨⟨before, step, after, pool, horder, hbefore, hstep⟩ | ⟨pool, -, hpool⟩, hreported⟩
      · obtain ⟨rfl, name, file, rfl, hwritable⟩ := Closure.perform_error_iff.mp ⟨hstep, hreported⟩
        exact ⟨rfl, before, name, file, after, pool, horder, hbefore, hwritable⟩
      · rw [ofPool_error hpool] at hreported
        cases hreported
    · rintro ⟨hfailure, before, name, file, after, pool, horder, hbefore, hwritable⟩
      obtain ⟨hstep, hreported⟩ :=
        Closure.perform_error_iff.mpr ⟨hfailure, name, file, rfl, hwritable⟩
      exact ⟨.inl ⟨before, _, after, pool, horder, hbefore, hstep⟩, hreported⟩

end Options

-- ---------------------------------------------------------------------------
-- Runs
-- ---------------------------------------------------------------------------

theorem Target.ofParameter_error {parameter : Option String} {failure : Failure}
    (h : Target.ofParameter parameter = .error failure) : failure.isReported = true := by
  unfold Target.ofParameter at h
  split at h
  · cases h
  · split at h
    · cases h
    · unfold Target.ofName at h
      split at h
      · cases h
      · split at h
        · cases h
        · cases h
          rfl

namespace Generation

open Descriptor (Request messageRecord textRecord)
open Options (buildOrder)
open Options.Closure (Step)

/-- What stops the run of a request: a file that cannot be written out when its turn to be added
comes, or, after all files have been found, the first options that are not read without a
failure. -/
inductive Stops (request : Request) : Failure → Prop
  | file {before after : List Step} {name : String} {file : Descriptor.File}
      {pool : Descriptor.Pool}
      (order : buildOrder request.files = before ++ .add name file :: after)
      (added : before.foldlM Step.perform Descriptor.Pool.empty = .ok pool)
      (unwritable : isWritable Descriptor.Standard.fileDescriptor file.toRecords = false) :
      Stops request .incomplete
  | options {reader : Reader} {before after : List OptionSite} {site : OptionSite}
      {failure : Failure} (built : Reader.ofFiles request.files = .ok reader)
      (found : request.missing = []) (sites : request.optionSites = before ++ site :: after)
      (earlier : ∀ other ∈ before, other.attempt reader = .ok ())
      (breaks : site.Breaks reader failure) : Stops request failure

/-- A run that ends without a response: its request can be read, selects a target and is stopped. -/
def Interrupted (payload : Bytes) (failure : Failure) : Prop :=
  ∃ request target, decodeRequest payload = .ok request ∧
    Target.ofParameter request.parameter = .ok target ∧ Stops request failure

theorem decodeRequest_error {payload : Bytes} {failure : Failure}
    (h : decodeRequest payload = .error failure) : failure.isReported = true := by
  unfold decodeRequest at h
  split at h
  · cases h
  · cases h
    rfl

theorem respond_error_iff {request : Request} {renderer : Option Target} {failure : Failure} :
    respond request renderer = .error failure ∧ failure.isReported = false ↔
      (∃ target, Target.ofParameter request.parameter = .ok target) ∧ Stops request failure := by
  have hrespond : respond request renderer = .error failure ↔
      generate request renderer = .error failure := by
    rw [respond, bind_eq_error]
    simp
  rw [hrespond, generate_eq]
  constructor
  · rintro ⟨h, hreported⟩
    -- follow the run to the step that failed; the failures of all others are reported
    rcases bind_eq_error.mp h with htarget | ⟨target, htarget, h⟩
    · rw [Target.ofParameter_error htarget] at hreported
      cases hreported
    refine ⟨⟨target, htarget⟩, ?_⟩
    rcases bind_eq_error.mp h with hbuild | ⟨reader, hbuild, h⟩
    · obtain ⟨rfl, before, name, file, after, pool, horder, hadded, hunwritable⟩ :=
        Reader.ofFiles_error_iff.mp ⟨hbuild, hreported⟩
      exact .file horder hadded hunwritable
    rcases bind_eq_error.mp h with hconvert | ⟨schemas, -, h⟩
    · obtain ⟨hfound, before, site, after, hsites, hearlier, hbreaks⟩ :=
        converted_error_iff.mp ⟨hconvert, hreported⟩
      exact .options hbuild hfound hsites hearlier hbreaks
    · cases h
  · rintro ⟨⟨target, htarget⟩, hstops⟩
    rw [htarget, ok_bind]
    cases hstops with
    | file horder hadded hunwritable =>
      obtain ⟨hbuild, hreported⟩ :=
        Reader.ofFiles_error_iff.mpr ⟨rfl, _, _, _, _, _, horder, hadded, hunwritable⟩
      rw [hbuild]
      exact ⟨rfl, hreported⟩
    | options hbuild hfound hsites hearlier hbreaks =>
      obtain ⟨hconvert, hreported⟩ :=
        converted_error_iff.mpr ⟨hfound, _, _, _, hsites, hearlier, hbreaks⟩
      rw [hbuild, ok_bind, hconvert]
      exact ⟨rfl, hreported⟩

theorem hasTextParameter_of_holdsTexts {payload : Bytes}
    (h : Descriptor.holdsTexts Descriptor.Standard.generatorRequest payload = true) :
    hasTextParameter payload = true := by
  obtain ⟨-, hparameter, -⟩ := Descriptor.layouts.request.fields
  refine (Option.all_eq_true _ _).mpr fun records hrecords => ?_
  exact Descriptor.lastIsText_of_areTexts
    (Descriptor.areTexts_of_holdsTexts h hrecords hparameter)

theorem hasTextTargets_of_holdsTexts {payload : Bytes}
    (h : Descriptor.holdsTexts Descriptor.Standard.generatorRequest payload = true) :
    hasTextTargets payload = true := by
  obtain ⟨htargets, -⟩ := Descriptor.layouts.request.fields
  refine (Option.all_eq_true _ _).mpr fun records hrecords => ?_
  exact Descriptor.areTexts_of_holdsTexts h hrecords htargets

theorem run_of_malformed_parameter {payload : Bytes} (h : hasTextParameter payload = false) :
    run payload = .error .malformedText := by
  obtain ⟨records, hrecords⟩ : ∃ records, requestRecords? payload = some records := by
    cases hnone : requestRecords? payload with
    | some records => exact ⟨records, rfl⟩
    | none =>
      rw [hasTextParameter, hnone] at h
      cases h
  simp only [run, answer, decodeRequest, hrecords, ok_bind, h, Bool.false_eq_true, if_false,
    Failure.isReported]

section

variable {payload : Bytes} {failure : Failure}
  (htexts : Descriptor.holdsTexts Descriptor.Standard.generatorRequest payload = true)
include htexts

theorem answer_error_iff :
    answer payload = .error failure ∧ failure.isReported = false ↔ Interrupted payload failure := by
  rw [answer_of_texts (hasTextParameter_of_holdsTexts htexts) (hasTextTargets_of_holdsTexts htexts),
    bind_eq_error]
  constructor
  · rintro ⟨hdecode | ⟨request, hdecode, hrespond⟩, hreported⟩
    · rw [decodeRequest_error hdecode] at hreported
      cases hreported
    · obtain ⟨⟨target, htarget⟩, hstops⟩ := respond_error_iff.mp ⟨hrespond, hreported⟩
      exact ⟨request, target, hdecode, htarget, hstops⟩
  · rintro ⟨request, target, hdecode, htarget, hstops⟩
    obtain ⟨hrespond, hreported⟩ := respond_error_iff.mpr ⟨⟨target, htarget⟩, hstops⟩
    exact ⟨.inr ⟨request, hdecode, hrespond⟩, hreported⟩

theorem run_error_iff : run payload = .error failure ↔ Interrupted payload failure := by
  rw [← answer_error_iff htexts, run]
  cases answer payload with
  | ok response => simp
  | error other =>
    dsimp only
    cases hreported : other.isReported with
    | true =>
      rw [if_pos rfl]
      constructor
      · rintro ⟨⟩
      · rintro ⟨⟨⟩, hnot⟩
        rw [hreported] at hnot
        cases hnot
    | false =>
      rw [if_neg Bool.false_ne_true]
      constructor
      · rintro ⟨⟩
        exact ⟨rfl, hreported⟩
      · rintro ⟨⟨⟩, -⟩
        rfl

end

theorem status_of_run {payload : Bytes} {outcome : Outcome} (h : run payload = .ok outcome) :
    outcome.status = 0 ∨ outcome.status = 1 := by
  unfold run at h
  split at h
  · cases h
    exact .inl rfl
  · split at h
    · cases h
      exact .inr rfl
    · cases h

/-- A run on a request whose strings are UTF-8 returns unless it is interrupted, and then with status
zero or one and one response that can be read back from what it wrote. A parameter that is not UTF-8
ends any run. -/
theorem run_returns_iff_not_interrupted (payload : Bytes) :
    (hasTextParameter payload = false → run payload = .error .malformedText) ∧
    (Descriptor.holdsTexts Descriptor.Standard.generatorRequest payload = true →
      ((∃ outcome, run payload = .ok outcome ∧ (outcome.status = 0 ∨ outcome.status = 1) ∧
          Response.decode? outcome.output = some outcome.response) ↔
        ¬∃ failure, Interrupted payload failure) ∧
        ∀ failure, run payload = .error failure ↔ Interrupted payload failure) := by
  refine ⟨run_of_malformed_parameter, fun htexts => ⟨⟨?_, ?_⟩, fun failure => run_error_iff htexts⟩⟩
  · rintro ⟨outcome, hrun, -⟩ ⟨failure, hinterrupted⟩
    rw [(run_error_iff htexts).mpr hinterrupted] at hrun
    cases hrun
  · intro hnever
    cases hrun : run payload with
    | ok outcome => exact ⟨outcome, rfl, status_of_run hrun, Response.decode?_encode _⟩
    | error failure => exact absurd ⟨failure, (run_error_iff htexts).mp hrun⟩ hnever

/-- A request whose file of standard descriptors has an option that lacks its name. -/
def namelessOption : Bytes :=
  Record.encodeAll [messageRecord 15 [textRecord 1 "google/protobuf/descriptor.proto",
    messageRecord 7 [textRecord 1 "mongoose_unique", textRecord 2 ".google.protobuf.FieldOptions"],
    messageRecord 8 [messageRecord 999 [messageRecord 2 []]]]]

theorem interrupted_namelessOption :
    Descriptor.holdsTexts Descriptor.Standard.generatorRequest namelessOption = true ∧
      Interrupted namelessOption .incomplete := by
  have htexts : Descriptor.holdsTexts Descriptor.Standard.generatorRequest namelessOption = true := by
    decide +kernel
  exact ⟨htexts, (((run_returns_iff_not_interrupted namelessOption).2 htexts).2 .incomplete).mp
    (by decide +kernel)⟩

theorem run_namelessOption : run namelessOption = .error .incomplete := by
  decide +kernel

end Generation

end SchemaGen
