import SchemaGen.Descriptor.Pool
import SchemaGen.Proofs.Descriptor.WellFormed

/-!
# Pools and rewritten options

A pool looks at options for the flags of messages and for features only. Rewriting that keeps these
is faithful, and a pool takes in or refuses a file whichever way its options are written
(`Pool.add_revise`).
-/

namespace SchemaGen.Descriptor

open Wire (Record)
open Standard

def featureOptions : List (String × Nat) :=
  [(fileOptions, fileFeatures), (messageOptions, messageFeatures), (fieldOptions, fieldFeatures),
    (oneofOptions, oneofFeatures), (enumOptions, enumFeatures),
    (enumValueOptions, enumValueFeatures), (extensionRangeOptions, rangeFeatures),
    (serviceOptions, serviceFeatures), (methodOptions, methodFeatures)]

/-- A revision after which options say what they said before. -/
structure Faithful (revision : Revision) : Prop where
  flag : ∀ number ∈ [1, 7, 11], ∀ records,
    Options.flag (some (revision messageOptions records)) number =
      Options.flag (some records) number
  features : ∀ entry ∈ featureOptions, ∀ records,
    (merged? Wire.Schema.maxDepth entry.2 (revision entry.1 records)).map
        (fun members features => Features.setBy features members) =
      (merged? Wire.Schema.maxDepth entry.2 records).map
        fun members features => Features.setBy features members
  complete : ∀ type records,
    schema.complete Wire.Schema.maxWrittenDepth type (revision type records) =
      schema.complete Wire.Schema.maxWrittenDepth type records
  normal : ∀ type records,
    schema.normal Wire.Schema.maxDepth type (revision type records) =
      schema.normal Wire.Schema.maxDepth type records

variable {revision : Revision}

-- ---------------------------------------------------------------------------
-- Flags and features
-- ---------------------------------------------------------------------------

theorem Faithful.flag_map (h : Faithful revision) {number : Nat} (hnumber : number ∈ [1, 7, 11])
    (options : Options) :
    Options.flag (options.map (revision messageOptions)) number = options.flag number := by
  cases options with
  | none => rfl
  | some records => exact h.flag number hnumber records

theorem Faithful.within_map (h : Faithful revision) {type : String} {number : Nat}
    (hentry : (type, number) ∈ featureOptions) (features : Features) (options : Options) :
    features.within number (options.map (revision type)) = features.within number options := by
  cases options with
  | none => rfl
  | some records =>
    have hsame := congrArg (Option.map (· features)) (h.features _ hentry records)
    simp only [Option.map_map, Function.comp_def] at hsame
    simp only [Features.within, Options.features?, Option.map_some, Option.bind_some, hsame]

theorem Faithful.isSome_features?_map (h : Faithful revision) {type : String} {number : Nat}
    (hentry : (type, number) ∈ featureOptions) (options : Options) :
    (Options.features? (options.map (revision type)) number).isSome =
      (options.features? number).isSome := by
  cases options with
  | none => rfl
  | some records =>
    have hsame := congrArg Option.isSome (h.features _ hentry records)
    simpa [Options.features?] using hsame

-- ---------------------------------------------------------------------------
-- Names
-- ---------------------------------------------------------------------------

@[simp] theorem Field.nameText_revise (revision : Revision) (field : Field) :
    (field.revise revision).nameText = field.nameText := rfl

@[simp] theorem Field.options_revise (revision : Revision) (field : Field) :
    (field.revise revision).options = field.options.map (revision fieldOptions) := rfl

@[simp] theorem Oneof.nameText_revise (revision : Revision) (oneof : Oneof) :
    (oneof.revise revision).nameText = oneof.nameText := rfl

@[simp] theorem EnumValue.nameText_revise (revision : Revision) (value : EnumValue) :
    (value.revise revision).nameText = value.nameText := rfl

@[simp] theorem Enum.nameText_revise (revision : Revision) (enum : Enum) :
    (enum.revise revision).nameText = enum.nameText := rfl

@[simp] theorem Enum.values_revise (revision : Revision) (enum : Enum) :
    (enum.revise revision).values = enum.values.map (·.revise revision) := rfl

@[simp] theorem Method.nameText_revise (revision : Revision) (method : Method) :
    (method.revise revision).nameText = method.nameText := rfl

@[simp] theorem Service.nameText_revise (revision : Revision) (service : Service) :
    (service.revise revision).nameText = service.nameText := rfl

@[simp] theorem Service.methods_revise (revision : Revision) (service : Service) :
    (service.revise revision).methods = service.methods.map (·.revise revision) := rfl

-- ---------------------------------------------------------------------------
-- Messages
-- ---------------------------------------------------------------------------

namespace Message

variable (revision) (message : Message)

@[simp] theorem name_revise : (message.revise revision).name = message.name := by rw [revise_eq]

@[simp] theorem nameText_revise : (message.revise revision).nameText = message.nameText := by
  rw [nameText, name_revise, nameText]

@[simp] theorem fields_revise :
    (message.revise revision).fields = message.fields.map (·.revise revision) := by rw [revise_eq]

@[simp] theorem extensions_revise :
    (message.revise revision).extensions = message.extensions.map (·.revise revision) := by
  rw [revise_eq]

@[simp] theorem enums_revise :
    (message.revise revision).enums = message.enums.map (·.revise revision) := by rw [revise_eq]

@[simp] theorem ranges_revise :
    (message.revise revision).ranges = message.ranges.map (·.revise revision) := by rw [revise_eq]

@[simp] theorem oneofs_revise :
    (message.revise revision).oneofs = message.oneofs.map (·.revise revision) := by rw [revise_eq]

@[simp] theorem options_revise :
    (message.revise revision).options = message.options.map (revision messageOptions) := by
  rw [revise_eq]

@[simp] theorem reserved_revise :
    (message.revise revision).reserved =
      message.reserved.map (·.revise revision reservedRange) := by rw [revise_eq]

@[simp] theorem numberRanges_revise :
    (message.revise revision).numberRanges = message.numberRanges := by
  simp [numberRanges, ExtensionRange.revise, Function.comp_def]

variable {revision} (h : Faithful revision)
include h

theorem isMapEntry_revise : (message.revise revision).isMapEntry = message.isMapEntry := by
  rw [isMapEntry, options_revise, h.flag_map (by decide), isMapEntry]

theorem isMessageSet_revise : (message.revise revision).isMessageSet = message.isMessageSet := by
  rw [isMessageSet, options_revise, h.flag_map (by decide), isMessageSet]

theorem allowsJsonClashes_revise :
    (message.revise revision).allowsJsonClashes = message.allowsJsonClashes := by
  rw [allowsJsonClashes, options_revise, h.flag_map (by decide), allowsJsonClashes]

theorem form_revise : (message.revise revision).form = message.form := by
  rw [form, isMapEntry_revise message h, isMessageSet_revise message h, form]

theorem jsonClash_revise (distinct : Bool) :
    (message.revise revision).jsonClash distinct = message.jsonClash distinct := by
  have hclash : ∀ (fields : List Field) names jsonNames,
      clashIn distinct names jsonNames (fields.map (·.revise revision)) =
        clashIn distinct names jsonNames fields := by
    intro fields
    induction fields with
    | nil => intro names jsonNames; rfl
    | cons field more ih =>
      intro names jsonNames
      rw [List.map_cons, clashIn, ih, clashIn]
      rfl
  rw [jsonClash, allowsJsonClashes_revise message h, fields_revise, hclash, oneofs_revise,
    List.map_map, jsonClash]
  rfl

end Message

-- ---------------------------------------------------------------------------
-- Messages of a file
-- ---------------------------------------------------------------------------

def Located.revise (revision : Revision) (located : Located) : Located :=
  ⟨located.around.map (Message.revise revision), located.message.revise revision⟩

@[simp] theorem Located.path_revise (revision : Revision) (located : Located) :
    (located.revise revision).path = located.path := by
  simp [Located.path, Located.revise, Function.comp_def]

theorem map_joinLevels {α β : Type} (f : α → β) (first second : List (List α)) :
    (joinLevels first second).map (List.map f) =
      joinLevels (first.map (List.map f)) (second.map (List.map f)) := by
  induction first generalizing second with
  | nil => rfl
  | cons level more ih =>
    cases second with
    | nil => rfl
    | cons other others => simp [joinLevels, ih]

mutual
theorem Message.levels_revise (revision : Revision) (around : List Message) : (message : Message) →
    Message.levels (around.map (Message.revise revision)) (message.revise revision) =
      (Message.levels around message).map (List.map (Located.revise revision))
  | ⟨name, fields, extensions, nested, enums, ranges, oneofs, options, reserved, rest⟩ => by
    have hnested := Message.levelsAll_revise revision (around ++
      [⟨name, fields, extensions, nested, enums, ranges, oneofs, options, reserved, rest⟩]) nested
    rw [List.map_append, List.map_singleton, Message.revise] at hnested
    rw [Message.revise, Message.levels, Message.levels, hnested, List.map_cons, List.map_singleton,
      Located.revise, Message.revise]
theorem Message.levelsAll_revise (revision : Revision) (around : List Message) :
    (messages : List Message) →
    Message.levelsAll (around.map (Message.revise revision)) (Message.reviseAll revision messages) =
      (Message.levelsAll around messages).map (List.map (Located.revise revision))
  | [] => rfl
  | message :: more => by
    rw [Message.reviseAll, Message.levelsAll, Message.levelsAll, map_joinLevels,
      Message.levels_revise revision around message, Message.levelsAll_revise revision around more]
end

namespace File

variable (revision) (file : File)

@[simp] theorem levels_revise :
    (file.revise revision).levels = file.levels.map (List.map (Located.revise revision)) := by
  rw [levels, levels, ← Message.levelsAll_revise, Message.reviseAll_eq]
  rfl

@[simp] theorem allMessages_revise :
    (file.revise revision).allMessages = file.allMessages.map (Located.revise revision) := by
  rw [allMessages, levels_revise, ← List.map_flatten, allMessages]

@[simp] theorem innerMessages_revise :
    (file.revise revision).innerMessages = file.innerMessages.map (Located.revise revision) := by
  rw [innerMessages, levels_revise, ← List.map_drop, ← List.map_flatten, innerMessages]

@[simp] theorem scopeOf_revise (path : List String) :
    (file.revise revision).scopeOf path = file.scopeOf path := rfl

@[simp] theorem scopedExtensions_revise :
    (file.revise revision).scopedExtensions =
      file.scopedExtensions.map fun (scope, field) => (scope, field.revise revision) := by
  simp only [scopedExtensions, allMessages_revise, List.map_append, List.map_flatMap,
    List.flatMap_map, List.map_map, Function.comp_def, Located.path_revise, scopeOf_revise]
  simp [revise, packageText, Located.revise, Function.comp_def]

@[simp] theorem scopedEnums_revise :
    (file.revise revision).scopedEnums =
      file.scopedEnums.map fun (scope, enum) => (scope, enum.revise revision) := by
  simp only [scopedEnums, allMessages_revise, List.map_append, List.map_flatMap,
    List.flatMap_map, List.map_map, Function.comp_def, Located.path_revise, scopeOf_revise]
  simp [revise, packageText, Located.revise, Function.comp_def]

@[simp] theorem declaredNames_revise :
    (file.revise revision).declaredNames = file.declaredNames := by
  simp only [declaredNames, allMessages_revise, scopedEnums_revise, scopedExtensions_revise,
    List.map_map, List.flatMap_map, Function.comp_def, Located.path_revise, scopeOf_revise]
  simp [revise, packageText, Function.comp_def]

@[simp] theorem plainNames_revise : (file.revise revision).plainNames = file.plainNames := by
  simp only [plainNames, allMessages_revise, scopedEnums_revise, scopedExtensions_revise,
    List.map_map, List.flatMap_map, Function.comp_def]
  simp [revise, Located.revise, List.flatMap_map, Function.comp_def]

def setsAny (entry : Nat × Options) : Bool := (entry.2.features? entry.1).isSome

variable {revision} (h : Faithful revision)
include h

theorem context_revise (dialect : Dialect) :
    (file.revise revision).context dialect = file.context dialect := by
  rw [context, context]
  exact congrArg _ (h.within_map (by decide) _ file.options)

theorem contextOf_revise (dialect : Dialect) (located : Located) :
    (file.revise revision).contextOf dialect (located.revise revision) =
      file.contextOf dialect located := by
  have hfold : ∀ (messages : List Message) (features : Features),
      (messages.map (Message.revise revision)).foldl
          (fun features message => features.within messageFeatures message.options) features =
        messages.foldl
          (fun features message => features.within messageFeatures message.options) features := by
    intro messages
    induction messages with
    | nil => intro features; rfl
    | cons message more ih =>
      intro features
      rw [List.map_cons, List.foldl_cons, List.foldl_cons, ih, Message.options_revise,
        h.within_map (by decide)]
  rw [contextOf, contextOf, Located.path_revise, scopeOf_revise, file.context_revise h]
  have hsame := hfold (located.around ++ [located.message]) (file.context dialect).features
  rw [List.map_append] at hsame
  exact congrArg _ hsame

theorem placedMessages_revise (dialect : Dialect) :
    (file.revise revision).placedMessages dialect =
      (file.placedMessages dialect).map fun (context, message) =>
        (context, message.revise revision) := by
  simp only [placedMessages, allMessages_revise, List.map_map, Function.comp_def,
    file.contextOf_revise h]
  rfl

theorem placedExtensions_revise (dialect : Dialect) :
    (file.revise revision).placedExtensions dialect =
      (file.placedExtensions dialect).map fun (context, field) =>
        (context, field.revise revision) := by
  simp only [placedExtensions, file.placedMessages_revise h, file.context_revise h, List.map_append,
    List.map_flatMap, List.flatMap_map, List.map_map, Function.comp_def, Message.extensions_revise]
  simp [revise, Function.comp_def]

theorem placedEnums_revise (dialect : Dialect) :
    (file.revise revision).placedEnums dialect =
      (file.placedEnums dialect).map fun (context, enum) => (context, enum.revise revision) := by
  simp only [placedEnums, file.placedMessages_revise h, file.context_revise h, List.map_append,
    List.map_flatMap, List.flatMap_map, List.map_map, Function.comp_def, Message.enums_revise]
  simp [revise, Function.comp_def]

theorem any_optionsWithFeatures_revise (fields : List Field) :
    (optionsWithFeatures (fields.map (·.revise revision))).any setsAny =
      (optionsWithFeatures fields).any setsAny := by
  have hentry : (fieldOptions, fieldFeatures) ∈ featureOptions := by decide
  simp only [optionsWithFeatures, List.map_map, List.any_map, Function.comp_def, setsAny,
    Field.options_revise, h.isSome_features?_map hentry]

theorem any_messageOptionsWithFeatures_revise (message : Message) :
    (messageOptionsWithFeatures (message.revise revision)).any setsAny =
      (messageOptionsWithFeatures message).any setsAny := by
  have hmessage : (messageOptions, messageFeatures) ∈ featureOptions := by decide
  have honeof : (oneofOptions, oneofFeatures) ∈ featureOptions := by decide
  have hrange : (extensionRangeOptions, rangeFeatures) ∈ featureOptions := by decide
  simp only [messageOptionsWithFeatures, List.any_append, List.any_cons, Message.fields_revise,
    Message.extensions_revise, any_optionsWithFeatures_revise h, Message.oneofs_revise,
    Message.ranges_revise, Message.options_revise, List.map_map, List.any_map, Function.comp_def,
    setsAny, h.isSome_features?_map hmessage, Oneof.revise, h.isSome_features?_map honeof,
    ExtensionRange.revise, h.isSome_features?_map hrange]

theorem any_enumOptionsWithFeatures_revise (enum : Enum) :
    (enumOptionsWithFeatures (enum.revise revision)).any setsAny =
      (enumOptionsWithFeatures enum).any setsAny := by
  have henum : (enumOptions, enumFeatures) ∈ featureOptions := by decide
  have hvalue : (enumValueOptions, enumValueFeatures) ∈ featureOptions := by decide
  simp only [enumOptionsWithFeatures, List.any_cons, List.map_map, List.any_map, Function.comp_def,
    setsAny, Enum.revise, h.isSome_features?_map henum, EnumValue.revise,
    h.isSome_features?_map hvalue]

theorem any_serviceOptionsWithFeatures_revise (service : Service) :
    (serviceOptionsWithFeatures (service.revise revision)).any setsAny =
      (serviceOptionsWithFeatures service).any setsAny := by
  have hservice : (serviceOptions, serviceFeatures) ∈ featureOptions := by decide
  have hmethod : (methodOptions, methodFeatures) ∈ featureOptions := by decide
  simp only [serviceOptionsWithFeatures, List.any_cons, List.map_map, List.any_map,
    Function.comp_def, setsAny, Service.revise, h.isSome_features?_map hservice, Method.revise,
    h.isSome_features?_map hmethod]

theorem setsFeatures_revise : (file.revise revision).setsFeatures = file.setsFeatures := by
  have hfile : (fileOptions, fileFeatures) ∈ featureOptions := by decide
  have hall : ∀ file : File, file.setsFeatures =
      (setsAny (fileFeatures, file.options) || (optionsWithFeatures file.extensions).any setsAny ||
        (file.allMessages.any fun located =>
          (messageOptionsWithFeatures located.message).any setsAny) ||
        (file.scopedEnums.any fun entry => (enumOptionsWithFeatures entry.2).any setsAny) ||
        file.services.any fun service => (serviceOptionsWithFeatures service).any setsAny) := by
    intro file
    rw [setsFeatures]
    simp only [List.any_cons, List.any_append, List.any_flatMap]
    rfl
  rw [hall, hall, allMessages_revise, scopedEnums_revise]
  simp only [List.any_map, Function.comp_def, Located.revise,
    any_messageOptionsWithFeatures_revise h, any_enumOptionsWithFeatures_revise h]
  simp only [revise, any_optionsWithFeatures_revise h, List.any_map, Function.comp_def,
    any_serviceOptionsWithFeatures_revise h, setsAny, h.isSome_features?_map hfile]

end File

namespace Context

variable (h : Faithful revision)
include h

theorem ofField_revise (context : Context) (oneofs : List Oneof) (field : Field) :
    context.ofField (oneofs.map (·.revise revision)) (field.revise revision) =
      context.ofField oneofs field := by
  have hfound : (field.oneofIndex.bind fun index =>
        if index < 0 then none else (oneofs.map (·.revise revision))[index.toInt.toNat]?) =
      (field.oneofIndex.bind fun index =>
        if index < 0 then none else oneofs[index.toInt.toNat]?).map (·.revise revision) := by
    cases field.oneofIndex with
    | none => rfl
    | some index =>
      rw [Option.bind_some, Option.bind_some]
      split
      · rfl
      · rw [List.getElem?_map]
  have hoptions : ∀ oneof : Option Oneof, (oneof.map (·.revise revision)).bind Oneof.options =
      (oneof.bind Oneof.options).map (revision oneofOptions) := by
    intro oneof
    cases oneof <;> rfl
  rw [ofField, show (field.revise revision).oneofIndex = field.oneofIndex from rfl, hfound, hoptions,
    h.within_map (by decide), Field.options_revise, h.within_map (by decide)]
  rfl

theorem ofEnum_revise (context : Context) (enum : Enum) :
    context.ofEnum (enum.revise revision) = context.ofEnum enum :=
  h.within_map (by decide) _ enum.options

theorem ofExtension_revise (context : Context) (field : Field) :
    context.ofField [] (field.revise revision) = context.ofField [] field :=
  ofField_revise h context [] field

end Context

-- ---------------------------------------------------------------------------
-- Taking in a file
-- ---------------------------------------------------------------------------

namespace Pool

variable (h : Faithful revision) (pool : Pool)
include h

theorem fieldMeaning?_revise (context : Context) (message : Message) (field : Field) :
    pool.fieldMeaning? context (message.revise revision) (field.revise revision) =
      pool.fieldMeaning? context message field := by
  rw [fieldMeaning?, Message.oneofs_revise, Context.ofField_revise h, Message.form_revise message h]
  rfl

theorem fieldSpec?_revise (context : Context) (message : Message) (field : Field) :
    pool.fieldSpec? context (message.revise revision) (field.revise revision) =
      pool.fieldSpec? context message field := by
  rw [fieldSpec?, fieldMeaning?_revise h, Message.oneofs_revise, Context.ofField_revise h]
  rfl

theorem extensionMeaning?_revise (context : Context) (field : Field) :
    pool.extensionMeaning? context (field.revise revision) =
      pool.extensionMeaning? context field := by
  rw [extensionMeaning?, Context.ofExtension_revise h]
  rfl

theorem extensionOf?_revise (context : Context) (field : Field) :
    pool.extensionOf? context (field.revise revision) = pool.extensionOf? context field := by
  rw [extensionOf?, extensionMeaning?_revise h, Context.ofExtension_revise h]
  rfl

theorem enumType_revise (context : Context) (enum : Enum) :
    enumType context (enum.revise revision) = enumType context enum := by
  rw [enumType, Context.ofEnum_revise h, Enum.values_revise, List.map_map]
  rfl

theorem declare_revise (dialect : Dialect) (file : File) :
    pool.declare dialect (file.revise revision) = pool.declare dialect file := by
  simp only [declare, File.declaredNames_revise, file.placedMessages_revise h,
    file.placedEnums_revise h, List.map_map, Function.comp_def, Message.numberRanges_revise,
    Message.form_revise _ h, enumType_revise h]

theorem enter_revise (dialect : Dialect) (file : File) :
    pool.enter dialect (file.revise revision) = pool.enter dialect file := by
  simp only [enter, declare_revise h, file.placedMessages_revise h, file.placedExtensions_revise h,
    List.map_map, List.filterMap_map, Function.comp_def, Message.numberRanges_revise,
    Message.form_revise _ h, Message.fields_revise, fieldSpec?_revise h, extensionOf?_revise h]
  simp [File.revise, File.packageText, File.nameText, Function.comp_def]

-- ---------------------------------------------------------------------------
-- Refusing a file
-- ---------------------------------------------------------------------------

theorem fieldIsSound_revise (context : Context) (message : Message) (field : Field) :
    pool.fieldIsSound context (message.revise revision) (field.revise revision) =
      pool.fieldIsSound context message field := by
  have hzero : ∀ features meaning,
      zeroIsSound features (message.revise revision) (field.revise revision) meaning =
        zeroIsSound features message field meaning := by
    intro features meaning
    cases meaning with
    | enum type => simp only [zeroIsSound, message.isMapEntry_revise h]; rfl
    | _ => rfl
  have honeof : ∀ features, oneofIsSound features (message.revise revision) (field.revise revision) =
      oneofIsSound features message field := by
    intro features
    simp only [oneofIsSound, Message.oneofs_revise, List.length_map]
    rfl
  simp only [fieldIsSound, Message.oneofs_revise, Context.ofField_revise h, honeof,
    fieldMeaning?_revise h, Message.form_revise message h, hzero]
  rfl

omit h in
theorem membersAt_revise (message : Message) (index : Nat) :
    membersAt (message.revise revision) index =
      (membersAt message index).map (·.revise revision) := by
  rw [membersAt, Message.fields_revise, List.filter_map]
  rfl

omit h in
theorem isSynthetic_revise (message : Message) (index : Nat) :
    isSynthetic (message.revise revision) index = isSynthetic message index := by
  rw [isSynthetic, membersAt_revise, List.any_map]
  rfl

theorem oneofsAreSound_revise (message : Message) :
    oneofsAreSound (message.revise revision) = oneofsAreSound message := by
  simp only [oneofsAreSound, Message.oneofs_revise, List.length_map, isSynthetic_revise,
    membersAt_revise, Message.form_revise message h, List.isEmpty_map]

theorem entryIsSound_revise (context : Context) (message : Message) :
    pool.entryIsSound context (message.revise revision) = pool.entryIsSound context message := by
  rw [entryIsSound, entryIsSound, Message.fields_revise]
  rcases message.fields with _ | ⟨key, _ | ⟨value, _ | ⟨third, more⟩⟩⟩
  · rfl
  · rfl
  · simp only [List.map_cons, List.map_nil, fieldMeaning?_revise h]
    rfl
  · rfl

theorem formIsSound_revise (context : Context) (message : Message) :
    pool.formIsSound context (message.revise revision) = pool.formIsSound context message := by
  simp only [formIsSound, message.isMessageSet_revise h, message.form_revise h,
    entryIsSound_revise h, Message.fields_revise, Message.oneofs_revise, List.isEmpty_map,
    List.countP_map, Function.comp_def, Context.ofField_revise h]
  rfl

theorem messageRefusal?_revise (context : Context) (message : Message) :
    pool.messageRefusal? context (message.revise revision) =
      pool.messageRefusal? context message := by
  simp only [messageRefusal?, rangeLimit, message.isMessageSet_revise h, Message.numberRanges_revise,
    Message.reserved_revise, List.all_map, Function.comp_def, oneofsAreSound_revise h,
    Message.fields_revise, Message.oneofs_revise, List.find?_map, fieldIsSound_revise h,
    List.map_map, Field.nameText_revise, Oneof.nameText_revise, message.jsonClash_revise h,
    formIsSound_revise h]
  cases message.fields.find? fun field => !pool.fieldIsSound context message field <;> rfl

theorem enumIsSound_revise (context : Context) (enum : Enum) :
    enumIsSound context (enum.revise revision) = enumIsSound context enum := by
  have hreserved : (enum.revise revision).reserved =
      enum.reserved.map (·.revise revision enumReservedRange) := rfl
  simp only [enumIsSound, Context.ofEnum_revise h, Enum.values_revise, hreserved, List.all_map,
    Function.comp_def]
  cases enum.values <;> rfl

theorem extensionIsSound_revise (context : Context) (field : Field) :
    pool.extensionIsSound context (field.revise revision) =
      pool.extensionIsSound context field := by
  simp only [extensionIsSound, Context.ofExtension_revise h, extensionMeaning?_revise h]
  rfl

theorem extensionRefusal?_revise (dialect : Dialect) (file : File) :
    pool.extensionRefusal? dialect (file.revise revision) =
      pool.extensionRefusal? dialect file := by
  simp only [extensionRefusal?, file.placedExtensions_revise h, List.find?_map, Function.comp_def,
    extensionIsSound_revise h]
  cases (file.placedExtensions dialect).find? fun entry =>
    !pool.extensionIsSound entry.1 entry.2 <;> rfl

omit h in
theorem serviceIsSound_revise (package : String) (service : Service) :
    pool.serviceIsSound package (service.revise revision) =
      pool.serviceIsSound package service := by
  simp only [serviceIsSound, Service.methods_revise, Service.nameText_revise, List.map_map,
    List.all_map, Function.comp_def, Method.nameText_revise]
  rfl

theorem refusal?_revise (dialect : Dialect) (file : File) :
    pool.refusal? dialect (file.revise revision) = pool.refusal? dialect file := by
  have hnames : pool.nameRefusal? (file.revise revision) = pool.nameRefusal? file := by
    simp only [nameRefusal?, File.plainNames_revise]
    rfl
  have henums : ((file.placedEnums dialect).map fun (context, enum) =>
        (context, enum.revise revision)).find? (fun (context, enum) => !enumIsSound context enum) =
      ((file.placedEnums dialect).find? fun (context, enum) => !enumIsSound context enum).map
        fun (context, enum) => (context, enum.revise revision) := by
    rw [List.find?_map]
    simp only [Function.comp_def, enumIsSound_revise h]
  have hservices : (file.revise revision).services = file.services.map (·.revise revision) := rfl
  simp only [refusal?, file.setsFeatures_revise h, hnames, file.placedEnums_revise h, henums,
    file.placedMessages_revise h, List.findSome?_map, Function.comp_def, messageRefusal?_revise h,
    extensionRefusal?_revise h, hservices, List.find?_map, serviceIsSound_revise, Option.map_map,
    Enum.nameText_revise, Service.nameText_revise]
  rfl

/-- A pool treats a file by what its options say, however they are written. -/
theorem add_revise (file : File) : pool.add (file.revise revision) = pool.add file := by
  have hdependencies : (file.revise revision).dependencies = file.dependencies := rfl
  have hdialect : (file.revise revision).dialect? = file.dialect? := rfl
  simp only [add, hdependencies, hdialect, enter_revise h, refusal?_revise h]
  rfl

end Pool

end SchemaGen.Descriptor
