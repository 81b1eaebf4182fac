/-!
# Log

Records of what a run does. A level of attention selects the records that are written.
-/

namespace SchemaGen.Log

inductive Level where
  | debug
  | info
  | warning
  | error
  | critical
  deriving Repr, DecidableEq

/-- Settings that name something other than a level: the layout of records, and the table of such
layouts. -/
inductive Fault where
  | unknownLevel
  | noLevel
  deriving Repr, DecidableEq

def Fault.message : Fault → String
  | unknownLevel => "Unknown level: '%(levelname)s:%(name)s:%(message)s'"
  | noLevel =>
    "Level not an integer or a valid string: \x7b" ++
      "'%': (<class 'logging.PercentStyle'>, '%(levelname)s:%(name)s:%(message)s'), " ++
      "'\x7b': (<class 'logging.StrFormatStyle'>, " ++
      "'\x7blevelname\x7d:\x7bname\x7d:\x7bmessage\x7d'), " ++
      "'$': (<class 'logging.StringTemplateStyle'>, " ++
      "'$\x7blevelname\x7d:$\x7bname\x7d:$\x7bmessage\x7d')\x7d"

namespace Level

def name : Level → String
  | debug => "DEBUG"
  | info => "INFO"
  | warning => "WARNING"
  | error => "ERROR"
  | critical => "CRITICAL"

def urgency : Level → Nat
  | debug => 10
  | info => 20
  | warning => 30
  | error => 40
  | critical => 50

/-- Upper case as far as the names of settings need it: besides the plain letters, the dotless i and
the long s have plain capitals, and two ligatures stand for two letters each. -/
def capitals (c : Char) : List Char :=
  if c = 'ı' then ['I']
  else if c = 'ſ' then ['S']
  else if c = 'ﬅ' ∨ c = 'ﬆ' then ['S', 'T']
  else [c.toUpper]

/-- The least urgency that is written under a setting. Anything that is no name of a level stands
for warnings, except for two names that are taken by something else. -/
def threshold (setting : String) : Except Fault Nat :=
  match String.ofList (setting.toList.flatMap capitals) with
  | "NOTSET" => .ok 0
  | "DEBUG" => .ok 10
  | "INFO" => .ok 20
  | "WARN" => .ok 30
  | "ERROR" => .ok 40
  | "FATAL" => .ok 50
  | "CRITICAL" => .ok 50
  | "BASIC_FORMAT" => .error .unknownLevel
  | "_STYLES" => .error .noLevel
  | _ => .ok 30

end Level

inductive Source where
  | options
  | loader
  | plugin
  deriving Repr, DecidableEq

def Source.name : Source → String
  | .options => "proto2mongoose.options"
  | .loader => "proto2mongoose.descriptor_loader"
  | .plugin => "proto2mongoose.plugin"

structure Entry where
  level : Level
  source : Source
  text : String
  deriving Repr, DecidableEq

def Entry.line (entry : Entry) : String :=
  "protoc-gen-mongoose: " ++ entry.level.name ++ " " ++ entry.source.name ++ ": " ++ entry.text ++
    "\n"

def defaultSetting : String := "WARNING"

def written (threshold : Nat) (entries : List Entry) : String :=
  String.join ((entries.filter (threshold ≤ ·.level.urgency)).map Entry.line)

end SchemaGen.Log
