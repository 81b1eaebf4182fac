/-!
# Published parts

The names under which the parts of the generator are published to other programs. Some can be asked
for although they are not in the published list: what the package says about itself, its modules,
and what every module has.
-/

namespace SchemaGen.Catalogue

def published : List String := [
  "DefaultTemplateRenderer", "DescriptorLoader", "GeneratedFile", "GeneratorConfig",
  "ITemplateRenderer", "OptionResolver", "TypeMapper", "generate_code", "map_kind", "model"]

def particulars : List String := [
  "__all__", "__builtins__", "__cached__", "__doc__", "__file__", "__getattr__", "__loader__",
  "__name__", "__package__", "__path__", "__spec__", "__version__", "annotations"]

def modules : List String := [
  "codegen", "config", "descriptor_loader", "exceptions", "naming", "options", "plugin", "tools",
  "type_mapper"]

def common : List String := [
  "__annotations__", "__class__", "__delattr__", "__dict__", "__dir__", "__eq__", "__format__",
  "__ge__", "__getattribute__", "__getstate__", "__gt__", "__hash__", "__init__",
  "__init_subclass__", "__le__", "__lt__", "__ne__", "__new__", "__reduce__", "__reduce_ex__",
  "__repr__", "__setattr__", "__sizeof__", "__str__", "__subclasshook__"]

def isPublished (name : String) : Bool := published.contains name

def isKnown (name : String) : Bool :=
  (published ++ particulars ++ modules ++ common).contains name

end SchemaGen.Catalogue
