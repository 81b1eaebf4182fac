import SchemaGen.Descriptor.Pool.Refusal

/-!
# Descriptor pools

Files are added to a pool one by one. A file is refused when one of its dependencies is not there
yet or when its declarations are faulty; an accepted file adds its names, message types, enums and
extensions. The pool then gives the schema by which messages of its types are read, extensions
included.
-/

namespace SchemaGen.Descriptor.Pool

def add (pool : Pool) (file : File) : Except Refusal Pool :=
  match file.dependencies.find? (!pool.files.contains ·) with
  | some name => .error (.missingDependency name)
  | none =>
    match file.dialect? with
    | none => .error (.unknownDialect file.dialectText)
    | some dialect =>
      let entered := pool.enter dialect file
      match entered.refusal? dialect file with
      | some refusal => .error refusal
      | none => .ok entered

/-- The schema of the pool's message types, with the extensions of each as further fields. -/
def schema (pool : Pool) : Wire.Schema where
  types := pool.messages.map fun type =>
    (type.name, type.fields ++
      (pool.extensions.filter (·.extendee == type.name)).map Extension.field)
  sets := (pool.messages.filter (·.form == .messageSet)).map MessageType.name

end SchemaGen.Descriptor.Pool
