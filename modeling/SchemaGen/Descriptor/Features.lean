import SchemaGen.Descriptor.Coding
import SchemaGen.Descriptor.Traversal

/-!
# Features

How the declarations of a file are to be read depends on the language version of the file. Three
versions are told apart. The latest one leaves the choices to features, which options set for all
that stands inside: features of a file hold in its messages unless these set others, and so on
inwards. The older versions stand for fixed choices.
-/

namespace SchemaGen.Descriptor

open Wire (Record)

inductive Dialect where
  | proto2
  | proto3
  | editions
  deriving Repr, DecidableEq

/-- The version that an edition stands for, if it can be used. The two older versions have editions
of their own. -/
def Dialect.ofEdition? : Edition → Option Dialect
  | .proto2 => some proto2
  | .proto3 => some proto3
  | .year2023 => some editions
  | .year2024 => some editions
  | _ => none

/-- The language version of a file, which is the oldest one unless declared. An edition goes with
the version that is named for them, and with no other. -/
def File.dialect? (file : File) : Option Dialect :=
  match file.dialect, file.edition with
  | none, none => some .proto2
  | some "proto2", none => some .proto2
  | some "proto3", none => some .proto3
  | some "editions", some edition => Dialect.ofEdition? edition
  | _, _ => none

/-- Whether an unset field is told apart from one that holds zero, and whether it may be unset. -/
inductive Presence where
  | explicit
  | implicit
  | required
  deriving Repr, DecidableEq

/-- The choices that hold for a declaration: the presence of fields, whether enums are closed,
whether strings have to be UTF-8, whether messages inside others are written as groups, and whether
names in JSON are kept apart from the names of fields. -/
structure Features where
  presence : Presence
  closedEnums : Bool
  checkedText : Bool
  groupedMessages : Bool
  distinctJson : Bool
  deriving Repr, DecidableEq

def Dialect.features : Dialect → Features
  | proto2 => ⟨.explicit, true, false, false, false⟩
  | proto3 => ⟨.implicit, false, true, false, true⟩
  | editions => ⟨.explicit, false, true, false, true⟩

-- ---------------------------------------------------------------------------
-- Features in options
-- ---------------------------------------------------------------------------

def Presence.ofCode? : Nat → Option Presence
  | 0 => some explicit
  | 1 => some explicit
  | 2 => some implicit
  | 3 => some required
  | _ => none

def closedEnumsOf? : Nat → Option Bool
  | 0 => some false
  | 1 => some false
  | 2 => some true
  | _ => none

def checkedTextOf? : Nat → Option Bool
  | 0 => some false
  | 2 => some true
  | 3 => some false
  | _ => none

def groupedMessagesOf? : Nat → Option Bool
  | 0 => some false
  | 1 => some false
  | 2 => some true
  | _ => none

def distinctJsonOf? : Nat → Option Bool
  | 0 => some false
  | 1 => some true
  | 2 => some false
  | _ => none

def Features.setBy (features : Features) (records : List Record) : Features where
  presence := (lastCode? Presence.ofCode? 1 records).getD features.presence
  closedEnums := (lastCode? closedEnumsOf? 2 records).getD features.closedEnums
  checkedText := (lastCode? checkedTextOf? 4 records).getD features.checkedText
  groupedMessages := (lastCode? groupedMessagesOf? 5 records).getD features.groupedMessages
  distinctJson := (lastCode? distinctJsonOf? 6 records).getD features.distinctJson

def Options.features? (options : Options) (number : Nat) : Option (List Record) :=
  options.bind (merged? Wire.Schema.maxDepth number)

def Features.within (features : Features) (number : Nat) (options : Options) : Features :=
  ((options.features? number).map features.setBy).getD features

def fileFeatures : Nat := 50

def messageFeatures : Nat := 12

def fieldFeatures : Nat := 21

def oneofFeatures : Nat := 1

def enumFeatures : Nat := 7

def enumValueFeatures : Nat := 2

def rangeFeatures : Nat := 50

def serviceFeatures : Nat := 34

def methodFeatures : Nat := 35

-- ---------------------------------------------------------------------------
-- Declarations in their context
-- ---------------------------------------------------------------------------

/-- What a declaration finds around it: the language version, the full name of the package or
message that it stands in, and the features that hold there. -/
structure Context where
  dialect : Dialect
  scope : String
  features : Features
  deriving Repr, DecidableEq

namespace Context

/-- The features of a field: those of its oneof, or else of its surroundings, and its own. -/
def ofField (context : Context) (oneofs : List Oneof) (field : Field) : Features :=
  let oneof := field.oneofIndex.bind fun index =>
    if index < 0 then none else oneofs[index.toInt.toNat]?
  (context.features.within oneofFeatures (oneof.bind Oneof.options)).within fieldFeatures
    field.options

def ofEnum (context : Context) (enum : Enum) : Features :=
  context.features.within enumFeatures enum.options

end Context

namespace File

def context (file : File) (dialect : Dialect) : Context :=
  ⟨dialect, file.packageText, dialect.features.within fileFeatures file.options⟩

def contextOf (file : File) (dialect : Dialect) (located : Located) : Context where
  dialect := dialect
  scope := file.scopeOf located.path
  features := (located.around ++ [located.message]).foldl
    (fun features message => features.within messageFeatures message.options)
    (file.context dialect).features

def placedMessages (file : File) (dialect : Dialect) : List (Context × Message) :=
  file.allMessages.map fun located => (file.contextOf dialect located, located.message)

def placedExtensions (file : File) (dialect : Dialect) : List (Context × Field) :=
  file.extensions.map (fun field => (file.context dialect, field)) ++
    (file.placedMessages dialect).flatMap fun (context, message) =>
      message.extensions.map fun field => (context, field)

def placedEnums (file : File) (dialect : Dialect) : List (Context × Enum) :=
  file.enums.map (fun enum => (file.context dialect, enum)) ++
    (file.placedMessages dialect).flatMap fun (context, message) =>
      message.enums.map fun enum => (context, enum)

-- ---------------------------------------------------------------------------
-- Where features are set
-- ---------------------------------------------------------------------------

def optionsWithFeatures (fields : List Field) : List (Nat × Options) :=
  fields.map fun field => (fieldFeatures, field.options)

def messageOptionsWithFeatures (message : Message) : List (Nat × Options) :=
  (messageFeatures, message.options) ::
    optionsWithFeatures message.fields ++ optionsWithFeatures message.extensions ++
    message.oneofs.map (fun oneof => (oneofFeatures, oneof.options)) ++
    message.ranges.map fun range => (rangeFeatures, range.options)

def enumOptionsWithFeatures (enum : Enum) : List (Nat × Options) :=
  (enumFeatures, enum.options) ::
    enum.values.map fun value => (enumValueFeatures, value.options)

def serviceOptionsWithFeatures (service : Service) : List (Nat × Options) :=
  (serviceFeatures, service.options) ::
    service.methods.map fun method => (methodFeatures, method.options)

def setsFeatures (file : File) : Bool :=
  let all := (fileFeatures, file.options) ::
    optionsWithFeatures file.extensions ++
    (file.allMessages.flatMap fun located => messageOptionsWithFeatures located.message) ++
    (file.scopedEnums.flatMap fun (_, enum) => enumOptionsWithFeatures enum) ++
    file.services.flatMap serviceOptionsWithFeatures
  all.any fun (number, options) => (options.features? number).isSome

end File

end SchemaGen.Descriptor
