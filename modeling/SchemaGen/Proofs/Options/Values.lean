import SchemaGen.Proofs.Descriptor.Parts
import SchemaGen.Proofs.Descriptor.PoolExtensions
import SchemaGen.Proofs.Descriptor.StandardNames
import SchemaGen.Proofs.FileOrder
import SchemaGen.Proofs.Options.Building
import SchemaGen.Proofs.Wire.Unknown

/-!
# Option values

What a reader makes of options, said of the records that the options came as. Writing options by the
standard descriptors and reading them again by the declared extensions does not touch the records
under the numbers of the extensions, as long as the standard descriptors are not the request's own.
-/

namespace SchemaGen.Options

open Descriptor (Extension Field File MessageType Pool StandsFor latest?)
open Wire (Bytes Record)
open Closure (basePool)
open Fallible

-- ---------------------------------------------------------------------------
-- Declared options
-- ---------------------------------------------------------------------------

structure DeclaredOption where
  file : File
  scope : String
  field : Field
  role : Role

namespace DeclaredOption

def declaration (option : DeclaredOption) : Declaration :=
  ⟨option.file.nameText, Descriptor.qualify option.scope option.field.nameText, option.role⟩

def number (option : DeclaredOption) : Nat := option.field.numberValue.toInt.toNat

end DeclaredOption

def declaredOptions (files : List File) : List DeclaredOption :=
  (Reader.byName files).values.flatMap fun file => file.scopedExtensions.filterMap fun entry =>
    (Role.of? (Names.stripDot entry.2.extendeeText) entry.2.nameText).map fun role =>
      ⟨file, entry.1, entry.2, role⟩

theorem declared_eq (files : List File) :
    declared files = (declaredOptions files).map DeclaredOption.declaration := by
  simp only [declared, declaredOptions, Declaration.ofFiles, List.map_flatMap, List.map_filterMap,
    Option.map_map]
  rfl

theorem mem_declaredOptions {files : List File} {option : DeclaredOption}
    (h : option ∈ declaredOptions files) :
    (Reader.byName files).get? option.file.nameText = some option.file ∧
      (option.scope, option.field) ∈ option.file.scopedExtensions := by
  obtain ⟨file, hfile, h⟩ := List.mem_flatMap.mp h
  obtain ⟨entry, hentry, h⟩ := List.mem_filterMap.mp h
  obtain ⟨role, -, rfl⟩ := Option.map_eq_some_iff.mp h
  rw [Descriptor.get?_byName]
  exact ⟨Descriptor.mem_values_iff.mp hfile, hentry⟩

-- ---------------------------------------------------------------------------
-- The pool of a reader
-- ---------------------------------------------------------------------------

/-- The pool that a reader reads by, with the standard descriptors and the declared options in it. -/
structure Behind (files : List File) (pool : Pool) (reader : Reader) : Prop where
  orderly : pool.Orderly
  standard : Descriptor.Standard.messages ⊆ pool.messages
  schema : reader.schema = pool.schema
  extension? : ∀ option ∈ declaredOptions files, ∃ extension ∈ pool.extensions,
    pool.extension? option.declaration.fullName = some extension ∧
      StandsFor extension option.field
  flags : reader.flags = (declared files).filterMap (Reader.flagOf? pool)
  collections : reader.collections = (declared files).filterMap (Reader.collectionOf? pool)

theorem Reader.ofFiles_cases {files : List File} {reader : Reader}
    (h : Reader.ofFiles files = .ok reader) :
    (declared files = [] ∧ reader.flags = [] ∧ reader.collections = []) ∨
      (declared files ≠ [] ∧ ∃ pool,
        Closure.load (Reader.byName files) ((declared files).map Declaration.fileName) = .ok pool ∧
          Reader.ofPool pool (declared files) = .ok reader) := by
  by_cases hnone : declared files = []
  · rw [Reader.ofFiles_of_undeclared hnone] at h
    cases h
    exact .inl ⟨hnone, rfl, rfl⟩
  · rw [Reader.ofFiles_of_declared hnone] at h
    exact .inr ⟨hnone, bind_eq_ok.mp h⟩

/-- The pool that declarations are looked up in comes from the standard one by adding files, those
that declare options among them. -/
theorem exists_added {files : List File} {pool : Pool}
    (hload : Closure.load (Reader.byName files) ((declared files).map Declaration.fileName) =
      .ok pool)
    (hstandard : latest? files Descriptor.Standard.fileName = none) :
    ∃ added : List File, added.foldlM Pool.add Descriptor.Standard.pool = .ok pool ∧
      ∀ option ∈ declaredOptions files, option.file ∈ added := by
  obtain ⟨added, hperm, hadded⟩ := Closure.load_ok hload
  have hbase : basePool (Reader.byName files) = Descriptor.Standard.pool := by
    rw [basePool, Descriptor.get?_byName, hstandard]
    rfl
  rw [hbase] at hadded
  refine ⟨added, hadded, ?_⟩
  intro option hoption
  have hreached : Closure.Reached (Reader.byName files) (roots files) option.file.nameText := by
    refine .root (List.mem_cons_of_mem _ ?_)
    rw [declared_eq, List.map_map]
    exact List.mem_map.mpr ⟨option, hoption, rfl⟩
  refine hperm.mem_iff.mpr (List.mem_filterMap.mpr
    ⟨option.file.nameText, ?_, (mem_declaredOptions hoption).1⟩)
  exact ((Closure.tour_spec (Reader.byName files) (roots files)).2.1 _).mpr hreached

theorem exists_extension? {added : List File} {pool : Pool} {option : DeclaredOption}
    (hadded : added.foldlM Pool.add Descriptor.Standard.pool = .ok pool)
    (hfile : option.file ∈ added)
    (hentry : (option.scope, option.field) ∈ option.file.scopedExtensions) :
    ∃ extension ∈ pool.extensions, pool.extension? option.declaration.fullName = some extension ∧
      extension.name = option.declaration.fullName ∧ StandsFor extension option.field := by
  have horderly := Pool.orderly_foldlM hadded Pool.orderly_standard
  obtain ⟨extension, hmem, hname, hstands⟩ := Pool.exists_standsFor hadded hfile hentry
  refine ⟨extension, hmem, ?_, hname, hstands⟩
  exact (find?_eq_some_iff_of_nodup horderly.unambiguous.nodup_extensions).mpr ⟨hmem, hname⟩

theorem exists_behind {files : List File} {reader : Reader}
    (hreader : Reader.ofFiles files = .ok reader)
    (hstandard : latest? files Descriptor.Standard.fileName = none) :
    (declaredOptions files = [] ∧ reader.flags = [] ∧ reader.collections = []) ∨
      ∃ pool, Behind files pool reader := by
  obtain ⟨hnone, hempty⟩ | ⟨-, pool, hload, hpool⟩ := Reader.ofFiles_cases hreader
  · rw [declared_eq, List.map_eq_nil_iff] at hnone
    exact .inl ⟨hnone, hempty⟩
  obtain ⟨added, hadded, hfiles⟩ := exists_added hload hstandard
  have horderly := Pool.orderly_foldlM hadded Pool.orderly_standard
  obtain ⟨hschema, hflags, hcollections⟩ := Reader.ofPool_ok hpool
  refine .inr ⟨pool, horderly, (Pool.subset_foldlM hadded).1, hschema, ?_, hflags, hcollections⟩
  intro option hoption
  obtain ⟨extension, hmem, hfound, -, hstands⟩ :=
    exists_extension? hadded (hfiles option hoption) (mem_declaredOptions hoption).2
  exact ⟨extension, hmem, hfound, hstands⟩

-- ---------------------------------------------------------------------------
-- Reading again
-- ---------------------------------------------------------------------------

def IsStandard (name : String) : Prop :=
  ∃ type ∈ Descriptor.Standard.messages, type.name = name ∧ type.form = .plain ∧
    Descriptor.Standard.schema.fieldsOf name = type.fields

instance : DecidablePred IsStandard := fun _ => inferInstanceAs (Decidable (∃ _ ∈ _, _))

theorem isStandard_options :
    IsStandard Descriptor.Standard.fieldOptions ∧ IsStandard Descriptor.Standard.messageOptions := by
  decide +kernel

theorem Reader.reread_ok {reader : Reader} {type : String} {records written : List Record}
    (h : reader.reread type records = .ok written) :
    written = reader.schema.elements type
      (Descriptor.Standard.schema.normal Wire.Schema.maxDepth type records) := by
  simp only [Reader.reread] at h
  split at h
  · split at h
    · cases h
      rfl
    · cases h
  · cases h

/-- Reading options again does not touch the value of a declared option. -/
theorem Behind.value?_reread {files : List File} {pool : Pool} {reader : Reader}
    (h : Behind files pool reader) {extension : Extension} (hextension : extension ∈ pool.extensions)
    (hstandard : IsStandard extension.extendee) (hsingle : extension.field.isRepeated = false)
    {records written : List Record}
    (hwritten : reader.reread extension.extendee records = .ok written) :
    extension.field.value? written = extension.field.value? records := by
  obtain ⟨type, htype, hname, hplain, hfields⟩ := hstandard
  have hmessage := h.standard htype
  have hunknown : Descriptor.Standard.schema.field? extension.extendee extension.field.number =
      none := by
    rw [Wire.Schema.field?, hfields, List.find?_eq_none]
    intro own hown
    simpa using h.orderly.number_ne hextension hmessage hname hown
  have hsets : extension.extendee ∉ pool.schema.sets :=
    hname ▸ h.orderly.unambiguous.notMem_sets hmessage hplain
  -- neither writing by the standard schema nor reading by the larger one moves these records
  rw [Reader.reread_ok hwritten, h.schema]
  apply Wire.FieldSpec.value?_congr
  rw [Wire.Schema.filter_elements hsets (by simpa [h.orderly.field?_schema hextension] using hsingle),
    Wire.Schema.filter_normal_of_unknown Descriptor.Standard.regular hunknown]

theorem Behind.value?_ok {files : List File} {pool : Pool} {reader : Reader}
    (h : Behind files pool reader) {extension : Extension} (hextension : extension ∈ pool.extensions)
    {type : String} (hstandard : IsStandard type) {records written : List Record}
    (hwritten : reader.reread type records = .ok written) {value : Option Wire.Value}
    (hvalue : Reader.value? type extension written = .ok value) :
    value = extension.field.value? records := by
  rw [Reader.value?] at hvalue
  split at hvalue
  · cases hvalue
  · next hextendee =>
    obtain rfl : extension.extendee = type := not_not.mp hextendee
    split at hvalue
    · cases hvalue
    · next hsingle =>
      cases hvalue
      exact h.value?_reread hextension hstandard (by simpa using hsingle) hwritten

-- ---------------------------------------------------------------------------
-- Constraints
-- ---------------------------------------------------------------------------

def Flag.isSet : Flag → Flags → Bool
  | .unique, flags => flags.unique
  | .required, flags => flags.required
  | .index, flags => flags.indexed

theorem Flag.isSet_set (flag other : Flag) (flags : Flags) :
    flag.isSet (other.set flags) = (decide (flag = other) || flag.isSet flags) := by
  cases flag <;> cases other <;> rfl

theorem Flag.isSet_empty (flag : Flag) : flag.isSet {} = false := by
  cases flag <;> rfl

theorem Flag.eq_of_isSet {flags others : Flags}
    (h : ∀ flag : Flag, flag.isSet flags = flag.isSet others) : flags = others := by
  have hunique := h .unique
  have hrequired := h .required
  have hindex := h .index
  cases flags
  cases others
  simp_all [Flag.isSet]

theorem isSet_of_setFlags {options : List Record} {entries : List (Flag × Extension)}
    {flags result : Flags} {isOn : Flag × Extension → Prop}
    (hvalue : ∀ entry ∈ entries, ∀ value,
      Reader.value? Descriptor.Standard.fieldOptions entry.2 options = .ok value →
        (value.any Wire.Value.isOn = true ↔ isOn entry))
    (h : Reader.setFlags options entries flags = .ok result) (flag : Flag) :
    flag.isSet result = true ↔
      flag.isSet flags = true ∨ ∃ entry ∈ entries, entry.1 = flag ∧ isOn entry := by
  induction entries generalizing flags with
  | nil =>
    cases h
    simp
  | cons entry more ih =>
    obtain ⟨value, hfirst, hrest⟩ := bind_eq_ok.mp h
    have hon := hvalue entry List.mem_cons_self value hfirst
    rw [ih (fun other hother => hvalue other (List.mem_cons_of_mem _ hother)) hrest]
    by_cases hset : value.any Wire.Value.isOn = true
    · have hentry := hon.mp hset
      simp only [hset, if_true, Flag.isSet_set, Bool.or_eq_true, decide_eq_true_eq,
        List.exists_mem_cons_iff]
      grind
    · have hentry := mt hon.mpr hset
      simp [hset, hentry]

theorem mem_flagOf? {pool : Pool} {declaration : Declaration} {entry : Flag × Extension} :
    Reader.flagOf? pool declaration = some entry ↔ declaration.role = .flag entry.1 ∧
      pool.extension? declaration.fullName = some entry.2 := by
  rw [Reader.flagOf?]
  cases hrole : declaration.role with
  | collection => simp
  | flag flag =>
    constructor
    · intro h
      obtain ⟨extension, hfound, rfl⟩ := Option.map_eq_some_iff.mp h
      exact ⟨rfl, hfound⟩
    · rintro ⟨hflag, hfound⟩
      cases hflag
      exact Option.map_eq_some_iff.mpr ⟨entry.2, hfound, rfl⟩

theorem Behind.mem_flags {files : List File} {pool : Pool} {reader : Reader}
    (h : Behind files pool reader) {entry : Flag × Extension} :
    entry ∈ reader.flags ↔ ∃ option ∈ declaredOptions files, option.role = .flag entry.1 ∧
      pool.extension? option.declaration.fullName = some entry.2 := by
  simp only [h.flags, declared_eq, List.mem_filterMap, List.mem_map, mem_flagOf?]
  constructor
  · rintro ⟨_, ⟨option, hoption, rfl⟩, hrole, hfound⟩
    exact ⟨option, hoption, hrole, hfound⟩
  · rintro ⟨option, hoption, hrole, hfound⟩
    exact ⟨_, ⟨option, hoption, rfl⟩, hrole, hfound⟩

/-- The last varint under the number of an option says yes. -/
def DeclaredOption.IsOn (option : DeclaredOption) (records : List Record) : Prop :=
  ∃ value, (Record.varints option.number records).getLast? = some value ∧ value ≠ 0

theorem Behind.isOn_iff {files : List File} {pool : Pool} {reader : Reader}
    (h : Behind files pool reader)
    {option : DeclaredOption} (hoption : option ∈ declaredOptions files)
    (hbool : option.field.type = some .bool) {extension : Extension}
    (hfound : pool.extension? option.declaration.fullName = some extension)
    {records written : List Record}
    (hwritten : reader.reread Descriptor.Standard.fieldOptions records = .ok written)
    {value : Option Wire.Value}
    (hvalue : Reader.value? Descriptor.Standard.fieldOptions extension written = .ok value) :
    value.any Wire.Value.isOn = true ↔ option.IsOn records := by
  obtain ⟨_, hmem, hsame, hstands⟩ := h.extension? option hoption
  obtain rfl := Option.some.inj (hsame.symm.trans hfound)
  rw [h.value?_ok hmem isStandard_options.1 hwritten hvalue,
    Wire.FieldSpec.value?_bool (hstands.bool hbool), hstands.number]
  simp [DeclaredOption.IsOn, DeclaredOption.number, Option.any_eq_true, Wire.Value.isOn]

theorem Behind.isSet_fieldFlags {files : List File} {pool : Pool} {reader : Reader}
    (h : Behind files pool reader)
    (hbool : ∀ option ∈ declaredOptions files, ∀ flag, option.role = .flag flag →
      option.field.type = some .bool)
    {options : Descriptor.Options} {flags : Flags} (hflags : reader.fieldFlags options = .ok flags)
    (flag : Flag) :
    flag.isSet flags = true ↔ ∃ option ∈ declaredOptions files, option.role = .flag flag ∧
      option.IsOn (options.getD []) := by
  cases options with
  | none =>
    rw [Reader.fieldFlags_none] at hflags
    cases hflags
    simp [Flag.isSet_empty, DeclaredOption.IsOn, Record.varints]
  | some records =>
    by_cases hempty : reader.flags = []
    · have hnone : ∀ option ∈ declaredOptions files, option.role ≠ .flag flag := by
        intro option hoption hrole
        obtain ⟨extension, -, hfound, -⟩ := h.extension? option hoption
        have hentry : (flag, extension) ∈ reader.flags :=
          h.mem_flags.mpr ⟨option, hoption, hrole, hfound⟩
        rw [hempty] at hentry
        cases hentry
      rw [Reader.fieldFlags_of_nil hempty] at hflags
      cases hflags
      refine iff_of_false (by simp [Flag.isSet_empty]) ?_
      rintro ⟨option, hoption, hrole, -⟩
      exact hnone option hoption hrole
    · rw [Reader.fieldFlags_some hempty] at hflags
      obtain ⟨written, hwritten, hset⟩ := bind_eq_ok.mp hflags
      -- an entry is on when the option that it was declared by is on
      have hentries : ∀ entry ∈ reader.flags, ∀ value,
          Reader.value? Descriptor.Standard.fieldOptions entry.2 written = .ok value →
            (value.any Wire.Value.isOn = true ↔ ∃ option ∈ declaredOptions files,
              option.role = .flag entry.1 ∧
                pool.extension? option.declaration.fullName = some entry.2 ∧
                  option.IsOn records) := by
        intro entry hentry value hvalue
        obtain ⟨option, hoption, hrole, hfound⟩ := h.mem_flags.mp hentry
        constructor
        · intro hon
          have hiff := h.isOn_iff hoption (hbool option hoption _ hrole) hfound hwritten hvalue
          exact ⟨option, hoption, hrole, hfound, hiff.mp hon⟩
        · rintro ⟨other, hother, hrole, hfound, hon⟩
          have hiff := h.isOn_iff hother (hbool other hother _ hrole) hfound hwritten hvalue
          exact hiff.mpr hon
      rw [isSet_of_setFlags hentries hset flag]
      simp only [Flag.isSet_empty, Bool.false_eq_true, false_or, Option.getD_some]
      constructor
      · rintro ⟨_, -, rfl, option, hoption, hrole, -, hon⟩
        exact ⟨option, hoption, hrole, hon⟩
      · rintro ⟨option, hoption, hrole, hon⟩
        obtain ⟨extension, -, hfound, -⟩ := h.extension? option hoption
        exact ⟨(flag, extension), h.mem_flags.mpr ⟨option, hoption, hrole, hfound⟩, rfl,
          option, hoption, hrole, hfound, hon⟩

section

variable {files : List File} {reader : Reader} (hreader : Reader.ofFiles files = .ok reader)
  (hstandard : latest? files Descriptor.Standard.fileName = none)
  (hbool : ∀ option ∈ declaredOptions files, ∀ flag, option.role = .flag flag →
    option.field.type = some .bool)
include hreader hstandard hbool

theorem isSet_fieldFlags {options : Descriptor.Options} {flags : Flags}
    (hflags : reader.fieldFlags options = .ok flags) (flag : Flag) :
    flag.isSet flags = true ↔ ∃ option ∈ declaredOptions files, option.role = .flag flag ∧
      option.IsOn (options.getD []) := by
  obtain ⟨hnone, hempty, -⟩ | ⟨pool, hbehind⟩ := exists_behind hreader hstandard
  · rw [Reader.fieldFlags_of_nil hempty] at hflags
    cases hflags
    simp [hnone, Flag.isSet_empty]
  · exact hbehind.isSet_fieldFlags hbool hflags flag

/-- A constraint is set exactly when one of the options declared for it is on: the last varint under
its number is not zero. Nothing else in the options matters. An option that is declared as repeated
has no place here, since flags are then not returned. -/
theorem fieldFlags_isSet {options : Descriptor.Options} {flags : Flags}
    (hflags : reader.fieldFlags options = .ok flags) :
    (∀ flag : Flag, flag.isSet flags = true ↔ ∃ option ∈ declaredOptions files,
      option.role = .flag flag ∧ option.IsOn (options.getD [])) ∧
    ∀ others flags', reader.fieldFlags others = .ok flags' →
      (∀ option ∈ declaredOptions files, Record.varints option.number (others.getD []) =
        Record.varints option.number (options.getD [])) → flags' = flags := by
  have hset := isSet_fieldFlags hreader hstandard hbool hflags
  refine ⟨hset, ?_⟩
  intro others flags' hflags' hsame
  have hset' := isSet_fieldFlags hreader hstandard hbool hflags'
  apply Flag.eq_of_isSet
  intro flag
  rw [Bool.eq_iff_iff, hset, hset']
  refine exists_congr fun option => and_congr_right fun hoption => ?_
  rw [DeclaredOption.IsOn, DeclaredOption.IsOn, hsame option hoption]

end

/-- Two options for one constraint and two for collections, one of each inside a message, and
messages that use them. -/
def rulesFile : File where
  name := some "rules.proto"
  package := some "shop"
  dependencies := ["google/protobuf/descriptor.proto"]
  extensions := [
    { name := some "mongoose_unique", extendee := some ".google.protobuf.FieldOptions",
      number := some 50001, type := some .bool },
    { name := some "mongoose_collection", extendee := some ".google.protobuf.MessageOptions",
      number := some 50001, type := some .string }]
  messages := [
    { name := some "Scope",
      extensions := [
        { name := some "mongoose_unique", extendee := some ".google.protobuf.FieldOptions",
          number := some 50002, type := some .bool },
        { name := some "mongoose_collection", extendee := some ".google.protobuf.MessageOptions",
          number := some 50002, type := some .string }] },
    { name := some "Item",
      options := some [.bytes 50002 [105], .bytes 50001 [98], .bytes 50001 []] },
    { name := some "Crate",
      options := some [.bytes 50002 [115, 116, 111, 99, 107], .varint 50001 1] }]

def rulesPool : Pool := Descriptor.Standard.pool.enter .proto2 rulesFile

def fieldRule (name : String) (number : Nat) : Extension :=
  ⟨name, "google.protobuf.FieldOptions", ⟨number, .bool, .optional⟩⟩

def messageRule (name : String) (number : Nat) : Extension :=
  ⟨name, "google.protobuf.MessageOptions", ⟨number, .string false, .optional⟩⟩

def rulesReader : Reader where
  declarations := declared [rulesFile]
  schema := rulesPool.schema
  flags := [
    (.unique, fieldRule "shop.mongoose_unique" 50001),
    (.unique, fieldRule "shop.Scope.mongoose_unique" 50002)]
  collections := [
    messageRule "shop.mongoose_collection" 50001,
    messageRule "shop.Scope.mongoose_collection" 50002]

theorem add_rules : Descriptor.Standard.pool.add rulesFile = .ok rulesPool := by
  refine Pool.add_of_refusal? (by decide) (by decide +kernel) (Pool.refusal?_eq_none_iff.mpr ?_)
  refine ⟨by decide, .inr (by decide +kernel), ?_, by decide +kernel, by decide +kernel,
    by decide +kernel, by decide⟩
  -- the names are new, so that the others need not be gone through one by one
  exact Descriptor.Standard.nameRefusal?_enter .proto2 (by decide +kernel) (by decide +kernel)
    (by decide +kernel) (by decide +kernel) (by decide +kernel)

theorem visits_rules : ∃ handed, Closure.Visits (Reader.byName [rulesFile]) (roots [rulesFile])
    Closure.start handed
      (.ok ⟨["google/protobuf/descriptor.proto", "rules.proto"], rulesPool⟩) := by
  have hroots : roots [rulesFile] = ["google/protobuf/descriptor.proto",
      "rules.proto", "rules.proto", "rules.proto", "rules.proto"] := by decide +kernel
  have haccepted : Closure.addFile ⟨["google/protobuf/descriptor.proto", "rules.proto"],
      Descriptor.Standard.pool⟩ "rules.proto" rulesFile =
        .ok ⟨["google/protobuf/descriptor.proto", "rules.proto"], rulesPool⟩ :=
    Closure.addFile_of_add (by decide +kernel) add_rules
  have hseen : Closure.Visits (Reader.byName [rulesFile])
      ["rules.proto", "rules.proto", "rules.proto"]
      ⟨["google/protobuf/descriptor.proto", "rules.proto"], rulesPool⟩ []
      (.ok ⟨["google/protobuf/descriptor.proto", "rules.proto"], rulesPool⟩) :=
    .seen (by decide) (.seen (by decide) (.seen (by decide) .done))
  rw [hroots]
  exact ⟨_, .standard (by decide) rfl
    (.added (by decide) rfl (.seen (by decide) .done) haccepted hseen)⟩

theorem ofFiles_rules : Reader.ofFiles [rulesFile] = .ok rulesReader := by
  have hrequired : ∀ name, name ∈ Descriptor.Standard.pool.outermost →
      Reader.requireType rulesPool name = .ok () := by
    intro name hmem
    have houtermost : name ∈ rulesPool.outermost := List.mem_append_left _ hmem
    simp [Reader.requireType, houtermost]
  have hextensions : (declared [rulesFile]).mapM (fun declaration => do
      return (declaration.role, ← Reader.extensionOf rulesPool declaration)) =
        .ok [(.flag .unique, fieldRule "shop.mongoose_unique" 50001),
          (.collection, messageRule "shop.mongoose_collection" 50001),
          (.flag .unique, fieldRule "shop.Scope.mongoose_unique" 50002),
          (.collection, messageRule "shop.Scope.mongoose_collection" 50002)] := by
    decide +kernel
  obtain ⟨handed, hwalk⟩ := visits_rules
  obtain ⟨others, hbuilds⟩ := exists_builds [rulesFile]
  obtain ⟨hfield, hmessage⟩ := Descriptor.Standard.mem_outermost
  rw [(hbuilds.unique (.loaded (by decide) hwalk)).2]
  simp only [Reader.ofPool, hrequired _ hfield, hrequired _ hmessage, hextensions]
  rfl

def mixedOptions : List Record := [
  .varint 50001 1, .varint 1 1, .varint 50002 0, .bytes 50002 [1], .varint 50001 0,
  .varint 50002 2]

theorem fieldFlags_mixedOptions :
    rulesReader.fieldFlags (some mixedOptions) = .ok { unique := true } ∧
      (∃ option ∈ declaredOptions [rulesFile], option.role = .flag .unique ∧
        option.IsOn mixedOptions) ∧
      ∀ flags, rulesReader.fieldFlags (some [.varint 50002 0, .varint 50002 2, .fixed32 7 7,
        .varint 50001 1, .varint 50001 0]) = .ok flags → flags = { unique := true } := by
  have hflags : rulesReader.fieldFlags (some mixedOptions) = .ok { unique := true } := by
    decide +kernel
  have hkinds : ∀ option ∈ declaredOptions [rulesFile],
      option.role = .collection ∨ option.field.type = some .bool := by decide +kernel
  have hbool : ∀ option ∈ declaredOptions [rulesFile], ∀ flag, option.role = .flag flag →
      option.field.type = some .bool := by
    intro option hoption flag hrole
    rcases hkinds option hoption with hcollection | hbool
    · rw [hrole] at hcollection
      cases hcollection
    · exact hbool
  obtain ⟨hset, hsame⟩ := fieldFlags_isSet ofFiles_rules (by decide) hbool hflags
  exact ⟨hflags, (hset .unique).mp rfl, fun flags hother => hsame _ flags hother (by decide +kernel)⟩

-- ---------------------------------------------------------------------------
-- Collections
-- ---------------------------------------------------------------------------

def collectionOptions (files : List File) : List DeclaredOption :=
  (declaredOptions files).filter (·.role = .collection)

def DeclaredOption.content? (option : DeclaredOption) (records : List Record) : Option Bytes :=
  (Record.contents option.number records).getLast?

/-- The collection that options name: the text of the first option that is there. -/
def namedCollection (files : List File) (records : List Record) : Option String :=
  ((collectionOptions files).findSome? (·.content? records)).bind Wire.text?

def HoldsTexts (files : List File) (records : List Record) : Prop :=
  ∀ option ∈ collectionOptions files, ∀ content ∈ Record.contents option.number records,
    (Wire.text? content).isSome

theorem Reader.collection?_none (reader : Reader) : reader.collection? none = .ok none := by
  cases hcollections : reader.collections with
  | nil => simp [Reader.collection?, hcollections]
  | cons extension more => simp [Reader.collection?, hcollections]

theorem Reader.collection?_of_nil {reader : Reader} (h : reader.collections = [])
    (options : Descriptor.Options) : reader.collection? options = .ok none := by
  simp [Reader.collection?, h]

theorem Reader.collection?_some {reader : Reader} (h : reader.collections ≠ [])
    (records : List Record) :
    reader.collection? (some records) =
      (reader.reread Descriptor.Standard.messageOptions records >>= fun written =>
        Reader.firstValue written reader.collections) := by
  cases hcollections : reader.collections with
  | nil => exact absurd hcollections h
  | cons extension more => simp [Reader.collection?, hcollections]

namespace Behind

variable {files : List File} {pool : Pool} {reader : Reader} (h : Behind files pool reader)
include h

theorem collectionOf?_eq_some {option : DeclaredOption} (hoption : option ∈ collectionOptions files) :
    ∃ extension ∈ pool.extensions,
      Reader.collectionOf? pool option.declaration = some extension ∧
        StandsFor extension option.field := by
  obtain ⟨hdeclared, hrole⟩ := List.mem_filter.mp hoption
  obtain ⟨extension, hmem, hfound, hstands⟩ := h.extension? option hdeclared
  refine ⟨extension, hmem, ?_, hstands⟩
  rw [Reader.collectionOf?, DeclaredOption.declaration, of_decide_eq_true hrole]
  exact hfound

theorem collections_eq : reader.collections = (collectionOptions files).filterMap fun option =>
    Reader.collectionOf? pool option.declaration := by
  rw [h.collections, declared_eq, List.filterMap_map, collectionOptions, List.filterMap_filter]
  refine List.filterMap_congr fun option _ => ?_
  cases hrole : option.role with
  | collection => simp
  | flag flag => simp [Reader.collectionOf?, DeclaredOption.declaration, hrole]

variable (hstring : ∀ option ∈ collectionOptions files, option.field.type = some .string)
include hstring

theorem firstValue_ok {records written : List Record}
    (hwritten : reader.reread Descriptor.Standard.messageOptions records = .ok written)
    (htexts : HoldsTexts files records) {options : List DeclaredOption}
    (hoptions : options ⊆ collectionOptions files) {override : Option String}
    (hfirst : Reader.firstValue written
      (options.filterMap fun option => Reader.collectionOf? pool option.declaration) =
        .ok override) :
    override = (options.findSome? (·.content? records)).bind Wire.text? := by
  induction options with
  | nil =>
    cases hfirst
    rfl
  | cons option more ih =>
    obtain ⟨hoption, hmore⟩ := List.cons_subset.mp hoptions
    obtain ⟨extension, hmem, hcollection, hstands⟩ := h.collectionOf?_eq_some hoption
    simp only [List.filterMap_cons, hcollection, Reader.firstValue] at hfirst
    obtain ⟨value, hvalue, hfirst⟩ := bind_eq_ok.mp hfirst
    obtain ⟨checked, hkind⟩ := hstands.string (hstring option hoption)
    have hcontent : value = (option.content? records).map .string := by
      rw [h.value?_ok hmem isStandard_options.2 hwritten hvalue,
        Wire.FieldSpec.value?_string hkind, hstands.number]
      rfl
    rw [List.findSome?_cons]
    cases hlast : option.content? records with
    | none =>
      rw [hcontent, hlast] at hfirst
      exact ih hmore hfirst
    | some content =>
      rw [hcontent, hlast] at hfirst
      obtain ⟨text, htext⟩ := Option.isSome_iff_exists.mp
        (htexts option hoption content (List.mem_of_getLast? hlast))
      cases hfirst
      simp [Wire.Value.shown, htext]

theorem collection?_ok {options : Descriptor.Options} (htexts : HoldsTexts files (options.getD []))
    {override : Option String} (hcollection : reader.collection? options = .ok override) :
    override = namedCollection files (options.getD []) := by
  cases options with
  | none =>
    rw [Reader.collection?_none] at hcollection
    cases hcollection
    have hnone : (collectionOptions files).findSome? (·.content? []) = none :=
      List.findSome?_eq_none_iff.mpr fun _ _ => rfl
    rw [namedCollection, Option.getD_none, hnone]
    rfl
  | some records =>
    by_cases hempty : reader.collections = []
    · have hnone : collectionOptions files = [] := by
        rw [h.collections_eq, List.filterMap_eq_nil_iff] at hempty
        refine List.eq_nil_iff_forall_not_mem.mpr fun option hoption => ?_
        obtain ⟨extension, -, hsome, -⟩ := h.collectionOf?_eq_some hoption
        rw [hempty option hoption] at hsome
        cases hsome
      have hoverride : reader.collection? (some records) = .ok none := by
        simp [Reader.collection?, hempty]
      rw [hoverride] at hcollection
      cases hcollection
      simp [namedCollection, hnone]
    · rw [Reader.collection?_some hempty] at hcollection
      obtain ⟨written, hwritten, hfirst⟩ := bind_eq_ok.mp hcollection
      rw [h.collections_eq] at hfirst
      exact h.firstValue_ok hstring hwritten htexts (List.Subset.refl _) hfirst

end Behind

theorem collection?_eq_named {files : List File} {reader : Reader}
    (hreader : Reader.ofFiles files = .ok reader)
    (hstandard : latest? files Descriptor.Standard.fileName = none)
    (hstring : ∀ option ∈ collectionOptions files, option.field.type = some .string)
    {options : Descriptor.Options} (htexts : HoldsTexts files (options.getD []))
    {override : Option String} (hcollection : reader.collection? options = .ok override) :
    override = namedCollection files (options.getD []) := by
  obtain ⟨hnone, -, hempty⟩ | ⟨pool, hbehind⟩ := exists_behind hreader hstandard
  · have hoverride : reader.collection? options = .ok none := by simp [Reader.collection?, hempty]
    rw [hoverride] at hcollection
    cases hcollection
    simp [namedCollection, collectionOptions, hnone]
  · exact hbehind.collection?_ok hstring htexts hcollection

end SchemaGen.Options
