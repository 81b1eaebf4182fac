import SchemaGen.Descriptor.Pool.Basic

/-!
# Standard descriptors

The message types in which descriptors and their options are themselves written, and those of a
code generator's request. They are those of release 7.36.2 of the protobuf runtime; other releases
have other fields and options. Every enum here is closed, no string is checked, and option messages
leave the numbers from 990 up to extensions, except the one that they use themselves.
-/

namespace SchemaGen.Descriptor

open Wire (FieldSpec Kind)

namespace Standard

def fileName : String := "google/protobuf/descriptor.proto"

def fieldOptions : String := "google.protobuf.FieldOptions"

def messageOptions : String := "google.protobuf.MessageOptions"

def fileDescriptor : String := "google.protobuf.FileDescriptorProto"

def fileSet : String := "google.protobuf.FileDescriptorSet"

def generatorRequest : String := "google.protobuf.compiler.CodeGeneratorRequest"

def optional (number : Nat) (kind : Kind) : FieldSpec := ⟨number, kind, .optional⟩

def required (number : Nat) (kind : Kind) : FieldSpec := ⟨number, kind, .required⟩

def repeated (number : Nat) (kind : Kind) : FieldSpec := ⟨number, kind, .repeated⟩

def optionRanges : List NumberRange := [⟨990, 999⟩, ⟨1000, 536870912⟩]

def featureRanges : List NumberRange := [⟨1000, 10001⟩]

def setRanges : List NumberRange := [⟨536000000, 536000001⟩]

def listed (name : String) (values : List (String × Int32)) : EnumType := ⟨name, values, true⟩

def edition : EnumType :=
  listed "google.protobuf.Edition" [
    ("EDITION_UNKNOWN", 0), ("EDITION_LEGACY", 900), ("EDITION_PROTO2", 998),
    ("EDITION_PROTO3", 999), ("EDITION_2023", 1000), ("EDITION_2024", 1001),
    ("EDITION_2026", 1002), ("EDITION_UNSTABLE", 9999), ("EDITION_1_TEST_ONLY", 1),
    ("EDITION_2_TEST_ONLY", 2), ("EDITION_99997_TEST_ONLY", 99997),
    ("EDITION_99998_TEST_ONLY", 99998), ("EDITION_99999_TEST_ONLY", 99999),
    ("EDITION_MAX", 2147483647)]

def symbolVisibility : EnumType :=
  listed "google.protobuf.SymbolVisibility" [
    ("VISIBILITY_UNSET", 0), ("VISIBILITY_LOCAL", 1), ("VISIBILITY_EXPORT", 2)]

def fieldLabel : EnumType :=
  listed "google.protobuf.FieldDescriptorProto.Label" [
    ("LABEL_OPTIONAL", 1), ("LABEL_REPEATED", 3), ("LABEL_REQUIRED", 2)]

def fieldType : EnumType :=
  listed "google.protobuf.FieldDescriptorProto.Type" [
    ("TYPE_DOUBLE", 1), ("TYPE_FLOAT", 2), ("TYPE_INT64", 3), ("TYPE_UINT64", 4),
    ("TYPE_INT32", 5), ("TYPE_FIXED64", 6), ("TYPE_FIXED32", 7), ("TYPE_BOOL", 8),
    ("TYPE_STRING", 9), ("TYPE_GROUP", 10), ("TYPE_MESSAGE", 11), ("TYPE_BYTES", 12),
    ("TYPE_UINT32", 13), ("TYPE_ENUM", 14), ("TYPE_SFIXED32", 15), ("TYPE_SFIXED64", 16),
    ("TYPE_SINT32", 17), ("TYPE_SINT64", 18)]

def cType : EnumType :=
  listed "google.protobuf.FieldOptions.CType" [
    ("STRING", 0), ("CORD", 1), ("STRING_PIECE", 2)]

def jsType : EnumType :=
  listed "google.protobuf.FieldOptions.JSType" [
    ("JS_NORMAL", 0), ("JS_STRING", 1), ("JS_NUMBER", 2)]

def optionRetention : EnumType :=
  listed "google.protobuf.FieldOptions.OptionRetention" [
    ("RETENTION_UNKNOWN", 0), ("RETENTION_RUNTIME", 1), ("RETENTION_SOURCE", 2)]

def optionTargetType : EnumType :=
  listed "google.protobuf.FieldOptions.OptionTargetType" [
    ("TARGET_TYPE_UNKNOWN", 0), ("TARGET_TYPE_FILE", 1), ("TARGET_TYPE_EXTENSION_RANGE", 2),
    ("TARGET_TYPE_MESSAGE", 3), ("TARGET_TYPE_FIELD", 4), ("TARGET_TYPE_ONEOF", 5),
    ("TARGET_TYPE_ENUM", 6), ("TARGET_TYPE_ENUM_ENTRY", 7), ("TARGET_TYPE_SERVICE", 8),
    ("TARGET_TYPE_METHOD", 9)]

def fieldPresence : EnumType :=
  listed "google.protobuf.FeatureSet.FieldPresence" [
    ("FIELD_PRESENCE_UNKNOWN", 0), ("EXPLICIT", 1), ("IMPLICIT", 2), ("LEGACY_REQUIRED", 3)]

def enumType : EnumType :=
  listed "google.protobuf.FeatureSet.EnumType" [
    ("ENUM_TYPE_UNKNOWN", 0), ("OPEN", 1), ("CLOSED", 2)]

def repeatedFieldEncoding : EnumType :=
  listed "google.protobuf.FeatureSet.RepeatedFieldEncoding" [
    ("REPEATED_FIELD_ENCODING_UNKNOWN", 0), ("PACKED", 1), ("EXPANDED", 2)]

def utf8Validation : EnumType :=
  listed "google.protobuf.FeatureSet.Utf8Validation" [
    ("UTF8_VALIDATION_UNKNOWN", 0), ("VERIFY", 2), ("NONE", 3)]

def messageEncoding : EnumType :=
  listed "google.protobuf.FeatureSet.MessageEncoding" [
    ("MESSAGE_ENCODING_UNKNOWN", 0), ("LENGTH_PREFIXED", 1), ("DELIMITED", 2)]

def jsonFormat : EnumType :=
  listed "google.protobuf.FeatureSet.JsonFormat" [
    ("JSON_FORMAT_UNKNOWN", 0), ("ALLOW", 1), ("LEGACY_BEST_EFFORT", 2)]

def enforceNamingStyle : EnumType :=
  listed "google.protobuf.FeatureSet.EnforceNamingStyle" [
    ("ENFORCE_NAMING_STYLE_UNKNOWN", 0), ("STYLE2024", 1), ("STYLE_LEGACY", 2), ("STYLE2026", 3)]

def defaultSymbolVisibility : EnumType :=
  listed "google.protobuf.FeatureSet.VisibilityFeature.DefaultSymbolVisibility" [
    ("DEFAULT_SYMBOL_VISIBILITY_UNKNOWN", 0), ("EXPORT_ALL", 1), ("EXPORT_TOP_LEVEL", 2),
    ("LOCAL_ALL", 3), ("STRICT", 4)]

def enforceProtoLimits : EnumType :=
  listed "google.protobuf.FeatureSet.ProtoLimitsFeature.EnforceProtoLimits" [
    ("ENFORCE_PROTO_LIMITS_UNKNOWN", 0), ("LEGACY_NO_EXPLICIT_LIMITS", 1),
    ("PROTO_LIMITS2026", 2)]

def verificationState : EnumType :=
  listed "google.protobuf.ExtensionRangeOptions.VerificationState" [
    ("DECLARATION", 0), ("UNVERIFIED", 1)]

def idempotencyLevel : EnumType :=
  listed "google.protobuf.MethodOptions.IdempotencyLevel" [
    ("IDEMPOTENCY_UNKNOWN", 0), ("NO_SIDE_EFFECTS", 1), ("IDEMPOTENT", 2)]

def optimizeMode : EnumType :=
  listed "google.protobuf.FileOptions.OptimizeMode" [
    ("SPEED", 1), ("CODE_SIZE", 2), ("LITE_RUNTIME", 3)]

def semantic : EnumType :=
  listed "google.protobuf.GeneratedCodeInfo.Annotation.Semantic" [
    ("NONE", 0), ("SET", 1), ("ALIAS", 2)]

def enums : List EnumType := [
  edition, symbolVisibility, fieldLabel, fieldType, cType, jsType, optionRetention,
  optionTargetType, fieldPresence, enumType, repeatedFieldEncoding, utf8Validation,
  messageEncoding, jsonFormat, enforceNamingStyle, defaultSymbolVisibility, enforceProtoLimits,
  verificationState, idempotencyLevel, optimizeMode, semantic]

def oneOf (enum : EnumType) : Kind := .enum enum.closed

def messageType (name : String) (fields : List FieldSpec) (ranges : List NumberRange) :
    MessageType :=
  { name, fields, ranges }

def messages : List MessageType := [
  messageType "google.protobuf.FileDescriptorProto" [
      optional 1 (.string false), optional 2 (.string false), repeated 3 (.string false),
      repeated 4 (.message "google.protobuf.DescriptorProto"),
      repeated 5 (.message "google.protobuf.EnumDescriptorProto"),
      repeated 6 (.message "google.protobuf.ServiceDescriptorProto"),
      repeated 7 (.message "google.protobuf.FieldDescriptorProto"),
      optional 8 (.message "google.protobuf.FileOptions"),
      optional 9 (.message "google.protobuf.SourceCodeInfo"), repeated 10 .int32,
      repeated 11 .int32, optional 12 (.string false), optional 14 (oneOf edition),
      repeated 15 (.string false)] [],
  messageType "google.protobuf.DescriptorProto" [
      optional 1 (.string false), repeated 2 (.message "google.protobuf.FieldDescriptorProto"),
      repeated 3 (.message "google.protobuf.DescriptorProto"),
      repeated 4 (.message "google.protobuf.EnumDescriptorProto"),
      repeated 5 (.message "google.protobuf.DescriptorProto.ExtensionRange"),
      repeated 6 (.message "google.protobuf.FieldDescriptorProto"),
      optional 7 (.message "google.protobuf.MessageOptions"),
      repeated 8 (.message "google.protobuf.OneofDescriptorProto"),
      repeated 9 (.message "google.protobuf.DescriptorProto.ReservedRange"),
      repeated 10 (.string false), optional 11 (oneOf symbolVisibility)] [],
  messageType "google.protobuf.FieldDescriptorProto" [
      optional 1 (.string false), optional 2 (.string false), optional 3 .int32,
      optional 4 (oneOf fieldLabel), optional 5 (oneOf fieldType),
      optional 6 (.string false), optional 7 (.string false),
      optional 8 (.message "google.protobuf.FieldOptions"), optional 9 .int32,
      optional 10 (.string false), optional 17 .bool] [],
  messageType "google.protobuf.FieldOptions" [
      optional 1 (oneOf cType), optional 2 .bool, optional 3 .bool,
      optional 5 .bool, optional 6 (oneOf jsType), optional 10 .bool,
      optional 15 .bool, optional 16 .bool, optional 17 (oneOf optionRetention),
      repeated 19 (oneOf optionTargetType),
      repeated 20 (.message "google.protobuf.FieldOptions.EditionDefault"),
      optional 21 (.message "google.protobuf.FeatureSet"),
      optional 22 (.message "google.protobuf.FieldOptions.FeatureSupport"),
      repeated 999 (.message "google.protobuf.UninterpretedOption")] optionRanges,
  messageType "google.protobuf.FieldOptions.EditionDefault" [
      optional 2 (.string false), optional 3 (oneOf edition)] [],
  messageType "google.protobuf.FeatureSet" [
      optional 1 (oneOf fieldPresence), optional 2 (oneOf enumType),
      optional 3 (oneOf repeatedFieldEncoding),
      optional 4 (oneOf utf8Validation),
      optional 5 (oneOf messageEncoding),
      optional 6 (oneOf jsonFormat),
      optional 7 (oneOf enforceNamingStyle),
      optional 8 (oneOf defaultSymbolVisibility),
      optional 9 (oneOf enforceProtoLimits)] featureRanges,
  messageType "google.protobuf.FieldOptions.FeatureSupport" [
      optional 1 (oneOf edition), optional 2 (oneOf edition),
      optional 3 (.string false), optional 4 (oneOf edition),
      optional 5 (.string false)] [],
  messageType "google.protobuf.UninterpretedOption" [
      repeated 2 (.message "google.protobuf.UninterpretedOption.NamePart"),
      optional 3 (.string false), optional 4 .uint64, optional 5 .int64, optional 6 .double,
      optional 7 .bytes, optional 8 (.string false)] [],
  messageType "google.protobuf.UninterpretedOption.NamePart" [
      required 1 (.string false), required 2 .bool] [],
  messageType "google.protobuf.EnumDescriptorProto" [
      optional 1 (.string false),
      repeated 2 (.message "google.protobuf.EnumValueDescriptorProto"),
      optional 3 (.message "google.protobuf.EnumOptions"),
      repeated 4 (.message "google.protobuf.EnumDescriptorProto.EnumReservedRange"),
      repeated 5 (.string false), optional 6 (oneOf symbolVisibility)] [],
  messageType "google.protobuf.EnumValueDescriptorProto" [
      optional 1 (.string false), optional 2 .int32,
      optional 3 (.message "google.protobuf.EnumValueOptions")] [],
  messageType "google.protobuf.EnumValueOptions" [
      optional 1 .bool, optional 2 (.message "google.protobuf.FeatureSet"), optional 3 .bool,
      optional 4 (.message "google.protobuf.FieldOptions.FeatureSupport"),
      repeated 999 (.message "google.protobuf.UninterpretedOption")] optionRanges,
  messageType "google.protobuf.EnumOptions" [
      optional 2 .bool, optional 3 .bool, optional 6 .bool,
      optional 7 (.message "google.protobuf.FeatureSet"),
      repeated 999 (.message "google.protobuf.UninterpretedOption")] optionRanges,
  messageType "google.protobuf.EnumDescriptorProto.EnumReservedRange" [
      optional 1 .int32, optional 2 .int32] [],
  messageType "google.protobuf.DescriptorProto.ExtensionRange" [
      optional 1 .int32, optional 2 .int32,
      optional 3 (.message "google.protobuf.ExtensionRangeOptions")] [],
  messageType "google.protobuf.ExtensionRangeOptions" [
      repeated 2 (.message "google.protobuf.ExtensionRangeOptions.Declaration"),
      optional 3 (oneOf verificationState),
      optional 50 (.message "google.protobuf.FeatureSet"),
      repeated 999 (.message "google.protobuf.UninterpretedOption")] optionRanges,
  messageType "google.protobuf.ExtensionRangeOptions.Declaration" [
      optional 1 .int32, optional 2 (.string false), optional 3 (.string false),
      optional 5 .bool, optional 6 .bool] [],
  messageType "google.protobuf.OneofDescriptorProto" [
      optional 1 (.string false), optional 2 (.message "google.protobuf.OneofOptions")] [],
  messageType "google.protobuf.OneofOptions" [
      optional 1 (.message "google.protobuf.FeatureSet"),
      repeated 999 (.message "google.protobuf.UninterpretedOption")] optionRanges,
  messageType "google.protobuf.MessageOptions" [
      optional 1 .bool, optional 2 .bool, optional 3 .bool, optional 7 .bool, optional 11 .bool,
      optional 12 (.message "google.protobuf.FeatureSet"),
      repeated 999 (.message "google.protobuf.UninterpretedOption")] optionRanges,
  messageType "google.protobuf.DescriptorProto.ReservedRange" [
      optional 1 .int32, optional 2 .int32] [],
  messageType "google.protobuf.ServiceDescriptorProto" [
      optional 1 (.string false), repeated 2 (.message "google.protobuf.MethodDescriptorProto"),
      optional 3 (.message "google.protobuf.ServiceOptions")] [],
  messageType "google.protobuf.MethodDescriptorProto" [
      optional 1 (.string false), optional 2 (.string false), optional 3 (.string false),
      optional 4 (.message "google.protobuf.MethodOptions"), optional 5 .bool,
      optional 6 .bool] [],
  messageType "google.protobuf.MethodOptions" [
      optional 33 .bool, optional 34 (oneOf idempotencyLevel),
      optional 35 (.message "google.protobuf.FeatureSet"),
      repeated 999 (.message "google.protobuf.UninterpretedOption")] optionRanges,
  messageType "google.protobuf.ServiceOptions" [
      optional 33 .bool, optional 34 (.message "google.protobuf.FeatureSet"),
      repeated 999 (.message "google.protobuf.UninterpretedOption")] optionRanges,
  messageType "google.protobuf.FileOptions" [
      optional 1 (.string false), optional 8 (.string false),
      optional 9 (oneOf optimizeMode), optional 10 .bool,
      optional 11 (.string false), optional 16 .bool, optional 17 .bool, optional 18 .bool,
      optional 20 .bool, optional 23 .bool, optional 27 .bool, optional 31 .bool,
      optional 36 (.string false), optional 37 (.string false), optional 39 (.string false),
      optional 40 (.string false), optional 41 (.string false), optional 44 (.string false),
      optional 45 (.string false), optional 50 (.message "google.protobuf.FeatureSet"),
      repeated 999 (.message "google.protobuf.UninterpretedOption")] optionRanges,
  messageType "google.protobuf.SourceCodeInfo" [
      repeated 1 (.message "google.protobuf.SourceCodeInfo.Location")] setRanges,
  messageType "google.protobuf.SourceCodeInfo.Location" [
      repeated 1 .int32, repeated 2 .int32, optional 3 (.string false),
      optional 4 (.string false), repeated 6 (.string false)] [],
  messageType "google.protobuf.FileDescriptorSet" [
      repeated 1 (.message "google.protobuf.FileDescriptorProto")] setRanges,
  messageType "google.protobuf.FeatureSetDefaults" [
      repeated 1 (.message "google.protobuf.FeatureSetDefaults.FeatureSetEditionDefault"),
      optional 4 (oneOf edition), optional 5 (oneOf edition)] [],
  messageType "google.protobuf.FeatureSetDefaults.FeatureSetEditionDefault" [
      optional 3 (oneOf edition), optional 4 (.message "google.protobuf.FeatureSet"),
      optional 5 (.message "google.protobuf.FeatureSet")] [],
  messageType "google.protobuf.FeatureSet.VisibilityFeature" [] [],
  messageType "google.protobuf.FeatureSet.ProtoLimitsFeature" [] [],
  messageType "google.protobuf.GeneratedCodeInfo" [
      repeated 1 (.message "google.protobuf.GeneratedCodeInfo.Annotation")] [],
  messageType "google.protobuf.GeneratedCodeInfo.Annotation" [
      repeated 1 .int32, optional 2 (.string false), optional 3 .int32, optional 4 .int32,
      optional 5 (oneOf semantic)] []]

def requestMessages : List MessageType := [
  messageType "google.protobuf.compiler.CodeGeneratorRequest" [
      repeated 1 (.string false), optional 2 (.string false),
      optional 3 (.message "google.protobuf.compiler.Version"),
      repeated 15 (.message "google.protobuf.FileDescriptorProto"),
      repeated 17 (.message "google.protobuf.FileDescriptorProto")] [],
  messageType "google.protobuf.compiler.Version" [
      optional 1 .int32, optional 2 .int32, optional 3 .int32, optional 4 (.string false)] []]

/-- Whether a type stands inside one of the message types. -/
def isInner (type : MessageType) : Bool :=
  messages.any fun outer => (outer.name ++ ".").toList.isPrefixOf type.name.toList

def scopeAround (name : String) : String := (scopesFrom name).getD 1 ""

def valueNames (enum : EnumType) : List String :=
  enum.values.map fun (value, _) => qualify (scopeAround enum.name) value

def pool : Pool where
  files := [fileName]
  symbols := messages.map (·.name) ++ enums.map (·.name) ++ enums.flatMap valueNames
  outermost := (messages.filter (!isInner ·)).map (·.name)
  messages := messages
  enums := enums
  extensions := []

def schema : Wire.Schema where
  types := (messages ++ requestMessages).map fun type => (type.name, type.fields)

end Standard

end SchemaGen.Descriptor
