import SchemaGen.Descriptor.Basic

/-!
# Messages of a file

All messages of a file, each with the messages around it. They come in level order: by depth, and
within a level from left to right under parents in that order.
-/

namespace SchemaGen.Descriptor

/-- Joins two lists of levels level by level. -/
def joinLevels {α : Type} : List (List α) → List (List α) → List (List α)
  | [], levels => levels
  | levels, [] => levels
  | first :: more, second :: others => (first ++ second) :: joinLevels more others

structure Located where
  around : List Message
  message : Message
  deriving Inhabited

def Located.path (located : Located) : List String :=
  (located.around ++ [located.message]).map Message.nameText

namespace Message

mutual
/-- The levels of the tree under a message, which itself is the first one. -/
def levels (around : List Message) : Message → List (List Located)
  | ⟨name, fields, extensions, nested, enums, ranges, oneofs, options, reserved, rest⟩ =>
    let message : Message :=
      ⟨name, fields, extensions, nested, enums, ranges, oneofs, options, reserved, rest⟩
    [⟨around, message⟩] :: levelsAll (around ++ [message]) nested
def levelsAll (around : List Message) : List Message → List (List Located)
  | [] => []
  | message :: more => joinLevels (levels around message) (levelsAll around more)
end

end Message

namespace File

def levels (file : File) : List (List Located) := Message.levelsAll [] file.messages

def allMessages (file : File) : List Located := file.levels.flatten

def innerMessages (file : File) : List Located := (file.levels.drop 1).flatten

def scopeOf (file : File) (path : List String) : String := path.foldl qualify file.packageText

/-- The extensions of a file with the scope each is declared in: those of the file itself, then
those of its messages. -/
def scopedExtensions (file : File) : List (String × Field) :=
  file.extensions.map (fun field => (file.packageText, field)) ++
    file.allMessages.flatMap fun located =>
      located.message.extensions.map fun field => (file.scopeOf located.path, field)

def scopedEnums (file : File) : List (String × Enum) :=
  file.enums.map (fun enum => (file.packageText, enum)) ++
    file.allMessages.flatMap fun located =>
      located.message.enums.map fun enum => (file.scopeOf located.path, enum)

end File

end SchemaGen.Descriptor
