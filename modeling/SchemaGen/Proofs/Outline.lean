import SchemaGen.ModuleText
import SchemaGen.Proofs.Text.SingleQuoted

/-!
# Reading modules back

A module's text tells what it was generated from: the target, the file with its package and language
version, the message, its collection and its fields. `Outline.read?` reads this from the lines of a
module, and `read?_content` says that it gives back what was written, for all names that are
identifiers and all file names without line breaks. The header is read from its end, since a file's
name may look like what follows it.
-/

namespace SchemaGen.ModuleText

open Descriptor (isIdentifier isIdentifierChars isLetterOrDigit)

-- ---------------------------------------------------------------------------
-- Outlines
-- ---------------------------------------------------------------------------

structure FieldOutline where
  name : String
  type : TargetType
  repeated : Bool
  flags : Flags
  deriving Repr, DecidableEq

structure Outline where
  target : Target
  fileName : String
  package : Option String
  dialect : String
  message : String
  collection : String
  fields : List FieldOutline
  deriving Repr, DecidableEq

def FieldOutline.of (field : SchemaField) : FieldOutline :=
  ⟨field.name, field.target, field.repeated, field.flags⟩

def Outline.of (target : Target) (file : SchemaFile) (message : SchemaMessage) : Outline where
  target := target
  fileName := file.name
  package := file.package
  dialect := file.dialect
  message := message.name
  collection := message.collection
  fields := message.fields.map FieldOutline.of

-- ---------------------------------------------------------------------------
-- Reading pieces
-- ---------------------------------------------------------------------------

def after? (fixed text : List Char) : Option (List Char) :=
  if fixed.isPrefixOf text then some (text.drop fixed.length) else none

def readType (text : List Char) : Option (TargetType × List Char) :=
  [.string, .number, .boolean, .buffer, .date, .mixed].findSome? fun type =>
    (after? type.expression.toList text).map fun rest => (type, rest)

def readExpression (text : List Char) : Option ((TargetType × Bool) × List Char) :=
  match after? ['['] text with
  | some inner => do
    let (type, rest) ← readType inner
    let rest ← after? [']'] rest
    return ((type, true), rest)
  | none => do
    let (type, rest) ← readType text
    return ((type, false), rest)

def flagText (key : String) : List Char := (", " ++ key ++ ": true").toList

def readFlag (key : String) (text : List Char) : Bool × List Char :=
  match after? (flagText key) text with
  | some rest => (true, rest)
  | none => (false, text)

def readField (line : List Char) : Option (FieldOutline × List Char) := do
  let text ← after? "  ".toList line
  let name := String.ofList (text.takeWhile isLetterOrDigit)
  let text ← after? ": ".toList (text.dropWhile isLetterOrDigit)
  match after? "\x7b type: ".toList text with
  | none => do
    let ((type, repeated), rest) ← readExpression text
    return (⟨name, type, repeated, {}⟩, rest)
  | some text => do
    let ((type, repeated), text) ← readExpression text
    let (unique, text) := readFlag "unique" text
    let (required, text) := readFlag "required" text
    let (indexed, text) := readFlag "index" text
    let rest ← after? " \x7d".toList text
    return (⟨name, type, repeated, ⟨unique, required, indexed⟩⟩, rest)

def closing : List Char := "\x7d, \x7b".toList

/-- The lines of fields up to the line that closes them. A comma stands after each field but the
last. -/
def readFields : List (List Char) → Option (List FieldOutline × List (List Char))
  | [] => none
  | line :: more =>
    if line = closing then some ([], more)
    else do
      let (field, ending) ← readField line
      let (fields, rest) ← readFields more
      if ending = (if fields.isEmpty then [] else [',']) then some (field :: fields, rest)
      else none

def isPackageChar (c : Char) : Bool := isLetterOrDigit c || c == '.'

def readOrigin (line : List Char) : Option (String × Option String × String) := do
  let text ← after? "// @generated from file ".toList line
  let text ← after? [')'] text.reverse
  let dialect := String.ofList (text.takeWhile isLetterOrDigit).reverse
  let text ← after? "syntax ".toList.reverse (text.dropWhile isLetterOrDigit)
  match after? " (".toList.reverse text with
  | some name => return (String.ofList name.reverse, none, dialect)
  | none => do
    let text ← after? ", ".toList.reverse text
    let package := String.ofList (text.takeWhile isPackageChar).reverse
    let name ← after? " (package ".toList.reverse (text.dropWhile isPackageChar)
    return (String.ofList name.reverse, some package, dialect)

def readTarget (line : List Char) : Option Target :=
  [Target.typescript, .javascript].find? fun target => line == (importLine target).toList

def readDeclaration (line : List Char) : Option String := do
  let text ← (after? "export const ".toList line).or (after? "const ".toList line)
  let name ← after? "Schema".toList.reverse (text.takeWhile isLetterOrDigit).reverse
  return String.ofList name.reverse

def readCollection (line : List Char) : Option String := do
  let text ← after? "  collection: ".toList line
  let (name, _) ← Text.SingleQuoted.read text
  return String.ofList name

/-- Reads the outline of a module from its text. -/
def Outline.read? (text : String) : Option Outline :=
  match text.toList.splitOn '\n' with
  | _ :: origin :: _ :: _ :: importing :: _ :: declaration :: more => do
    let (fileName, package, dialect) ← readOrigin origin
    let target ← readTarget importing
    let message ← readDeclaration declaration
    let (fields, more) ← readFields more
    let collection ← readCollection (more.headD [])
    return { target, fileName, package, dialect, message, collection, fields }
  | _ => none

-- ---------------------------------------------------------------------------
-- Fixed texts and words
-- ---------------------------------------------------------------------------

@[simp] theorem after?_append (fixed rest : List Char) :
    after? fixed (fixed ++ rest) = some rest := by
  simp [after?]

theorem cut_word {p : Char → Bool} {word rest : List Char} (hword : ∀ c ∈ word, p c = true)
    (hstop : ∀ c, rest.head? = some c → p c = false) :
    (word ++ rest).takeWhile p = word ∧ (word ++ rest).dropWhile p = rest := by
  induction word with
  | nil =>
    cases rest with
    | nil => exact ⟨rfl, rfl⟩
    | cons c rest => simp [hstop c rfl]
  | cons first word ih =>
    obtain ⟨htake, hdrop⟩ := ih fun c hc => hword c (List.mem_cons_of_mem _ hc)
    simp [hword first List.mem_cons_self, htake, hdrop]

theorem isLetterOrDigit_of_isIdentifierChars {word : List Char}
    (h : isIdentifierChars word = true) : ∀ c ∈ word, isLetterOrDigit c = true := by
  cases word with
  | nil => simp
  | cons first rest =>
    simp only [isIdentifierChars, Bool.and_eq_true, List.all_eq_true] at h
    intro c hc
    rcases List.mem_cons.mp hc with rfl | hc
    · simp [isLetterOrDigit, h.1]
    · exact h.2 c hc

-- ---------------------------------------------------------------------------
-- Fields
-- ---------------------------------------------------------------------------

theorem readType_expression (type : TargetType) (rest : List Char) :
    readType (type.expression.toList ++ rest) = some (type, rest) := by
  cases type <;> rfl

def expressionChars (type : TargetType) (repeated : Bool) : List Char :=
  if repeated then '[' :: (type.expression.toList ++ [']']) else type.expression.toList

theorem readExpression_expressionChars (type : TargetType) (repeated : Bool) (rest : List Char) :
    readExpression (expressionChars type repeated ++ rest) = some ((type, repeated), rest) := by
  cases repeated with
  | true =>
    have hopen : after? ['['] ('[' :: (type.expression.toList ++ ']' :: rest)) =
        some (type.expression.toList ++ ']' :: rest) := after?_append ['['] _
    have hclose : after? [']'] (']' :: rest) = some rest := after?_append [']'] _
    simp [readExpression, expressionChars, hopen, readType_expression, hclose]
  | false =>
    have hopen : after? ['['] (type.expression.toList ++ rest) = none := by cases type <;> rfl
    simp [readExpression, expressionChars, hopen, readType_expression]

def flagChars (key : String) (isSet : Bool) : List Char := if isSet then flagText key else []

theorem readFlag_flagChars {key : String} {isSet : Bool} {rest : List Char}
    (h : after? (flagText key) rest = none) :
    readFlag key (flagChars key isSet ++ rest) = (isSet, rest) := by
  cases isSet with
  | true => simp [readFlag, flagChars]
  | false => simp [readFlag, flagChars, h]

def valueChars (type : TargetType) (repeated : Bool) (flags : Flags) : List Char :=
  if flags.any then
    "\x7b type: ".toList ++ (expressionChars type repeated ++ (flagChars "unique" flags.unique ++
      (flagChars "required" flags.required ++ (flagChars "index" flags.indexed ++ " \x7d".toList))))
  else expressionChars type repeated

theorem toList_typeExpression (entry : SchemaField) :
    entry.typeExpression.toList = expressionChars entry.target entry.repeated := by
  cases h : entry.repeated <;> simp [SchemaField.typeExpression, expressionChars, h]

theorem toList_field (entry : SchemaField) :
    (field entry).toList =
      entry.name.toList ++ (": ".toList ++ valueChars entry.target entry.repeated entry.flags) := by
  have htype := toList_typeExpression entry
  rcases hflags : entry.flags with ⟨unique, required, indexed⟩
  cases unique <;> cases required <;> cases indexed <;>
    simp [field, hflags, Flags.keys, valueChars, Flags.any, flagChars, flagText, htype]

theorem after?_brace_expressionChars (type : TargetType) (repeated : Bool) (rest : List Char) :
    after? "\x7b type: ".toList (expressionChars type repeated ++ rest) = none := by
  cases repeated <;> cases type <;> rfl

def entryLine (entry : SchemaField) (ending : List Char) : List Char :=
  "  ".toList ++ ((field entry).toList ++ ending)

theorem readField_entryLine {entry : SchemaField} (hname : isIdentifier entry.name = true)
    (ending : List Char) :
    readField (entryLine entry ending) = some (FieldOutline.of entry, ending) := by
  have hword := isLetterOrDigit_of_isIdentifierChars hname
  -- the name ends at the colon
  have hstop : ∀ rest : List Char, ∀ c, (": ".toList ++ rest).head? = some c →
      isLetterOrDigit c = false := by
    rintro rest c ⟨⟩
    rfl
  rcases hflags : entry.flags with ⟨unique, required, indexed⟩
  by_cases hany : (Flags.mk unique required indexed).any = true
  · have hunique : after? (flagText "unique") (flagChars "required" required ++
        (flagChars "index" indexed ++ (" \x7d".toList ++ ending))) = none := by
      cases required <;> cases indexed <;> rfl
    have hrequired : after? (flagText "required")
        (flagChars "index" indexed ++ (" \x7d".toList ++ ending)) = none := by
      cases indexed <;> rfl
    have hindexed : after? (flagText "index") (" \x7d".toList ++ ending) = none := rfl
    simp only [readField, entryLine, toList_field, List.append_assoc, after?_append,
      Option.bind_eq_bind, Option.bind_some, (cut_word hword (hstop _)).1,
      (cut_word hword (hstop _)).2, hflags, valueChars, hany, if_true,
      readExpression_expressionChars, readFlag_flagChars hunique, readFlag_flagChars hrequired,
      readFlag_flagChars hindexed, String.ofList_toList]
    simp [FieldOutline.of, hflags]
  · have hnone : Flags.mk unique required indexed = {} := by
      simpa [Flags.any, and_assoc] using hany
    simp only [readField, entryLine, toList_field, List.append_assoc, after?_append,
      Option.bind_eq_bind, Option.bind_some, (cut_word hword (hstop _)).1,
      (cut_word hword (hstop _)).2, hflags, valueChars, hany, Bool.false_eq_true, if_false,
      after?_brace_expressionChars, readExpression_expressionChars, String.ofList_toList]
    simp [FieldOutline.of, hflags, hnone]

theorem entryLine_ne_closing (entry : SchemaField) (ending : List Char) :
    entryLine entry ending ≠ closing := by
  simp [entryLine, closing]

theorem readFields_fieldLines {fields : List SchemaField}
    (hnames : ∀ entry ∈ fields, isIdentifier entry.name = true) (rest : List (List Char)) :
    readFields ((fieldLines fields).map String.toList ++ closing :: rest) =
      some (fields.map FieldOutline.of, rest) := by
  -- by the cases of `fieldLines`: only the last field has no comma
  fun_induction fieldLines fields with
  | case1 => simp [readFields]
  | case2 last =>
    have hline : ("  " ++ field last).toList = entryLine last [] := by simp [entryLine]
    have hlast := readField_entryLine (hnames last (by simp)) []
    simp [readFields, hline, entryLine_ne_closing, hlast]
  | case3 next more hmore ih =>
    have hline : ("  " ++ field next ++ ",").toList = entryLine next [','] := by simp [entryLine]
    have hnext := readField_entryLine (hnames next (by simp)) [',']
    have hrest := ih fun entry hentry => hnames entry (by simp [hentry])
    have hsome : more ≠ [] := fun h => hmore h
    simp [readFields, hline, entryLine_ne_closing, hnext, hrest, hsome]

-- ---------------------------------------------------------------------------
-- Header and declaration
-- ---------------------------------------------------------------------------

def isDotted (name : String) : Bool := (name.toList.splitOn '.').all isIdentifierChars

theorem ne_empty_of_isDotted {name : String} (h : isDotted name = true) : name ≠ "" := by
  rintro rfl
  revert h
  decide

theorem mem_intersperse {separator part : List Char} {parts : List (List Char)}
    (h : part ∈ parts.intersperse separator) : part = separator ∨ part ∈ parts := by
  induction parts with
  | nil => simp at h
  | cons first rest ih =>
    cases rest with
    | nil => exact .inr h
    | cons second rest =>
      simp only [List.intersperse_cons_cons, List.mem_cons] at h
      rcases h with rfl | rfl | h
      · exact .inr (by simp)
      · exact .inl rfl
      · exact (ih h).imp_right (List.mem_cons_of_mem _)

theorem isPackageChar_of_isDotted {name : String} (h : isDotted name = true) :
    ∀ c ∈ name.toList, isPackageChar c = true := by
  intro c hc
  have hjoined : ['.'].intercalate (name.toList.splitOn '.') = name.toList :=
    List.intercalate_splitOn '.'
  rw [← hjoined, List.intercalate, List.mem_flatten] at hc
  obtain ⟨part, hpart, hc⟩ := hc
  rcases mem_intersperse hpart with rfl | hpart
  · rw [List.mem_singleton.mp hc]
    rfl
  · have hword := isLetterOrDigit_of_isIdentifierChars (List.all_eq_true.mp h part hpart) c hc
    simp [isPackageChar, hword]

theorem readOrigin_header {file : SchemaFile} (hdialect : isIdentifier file.dialect = true)
    (hpackage : ∀ package, file.package = some package → isDotted package = true) :
    readOrigin ("// @generated from file " ++ file.name ++ " (" ++ origin file ++ ")").toList =
      some (file.name, file.package, file.dialect) := by
  have hword : ∀ c ∈ file.dialect.toList.reverse, isLetterOrDigit c = true := fun c hc =>
    isLetterOrDigit_of_isIdentifierChars hdialect c (List.mem_reverse.mp hc)
  have hstop : ∀ rest : List Char, ∀ c, ("syntax ".toList.reverse ++ rest).head? = some c →
      isLetterOrDigit c = false := by
    rintro rest c ⟨⟩
    rfl
  -- both cases write the line as the reader sees it, from its end
  cases hfile : file.package with
  | none =>
    have hend : ("// @generated from file " ++ file.name ++ " (" ++ origin file ++ ")").toList =
        "// @generated from file ".toList ++ ([')'] ++ (file.dialect.toList.reverse ++
          ("syntax ".toList.reverse ++
            (" (".toList.reverse ++ file.name.toList.reverse)))).reverse := by
      simp [origin, hfile]
    rw [hend]
    simp only [readOrigin, after?_append, List.reverse_reverse, Option.bind_eq_bind,
      Option.bind_some, (cut_word hword (hstop _)).1, (cut_word hword (hstop _)).2,
      String.ofList_toList]
    rfl
  | some package =>
    have hdotted := hpackage package hfile
    have hchars : ∀ c ∈ package.toList.reverse, isPackageChar c = true := fun c hc =>
      isPackageChar_of_isDotted hdotted c (List.mem_reverse.mp hc)
    have hstop' : ∀ rest : List Char, ∀ c, (" (package ".toList.reverse ++ rest).head? = some c →
        isPackageChar c = false := by
      rintro rest c ⟨⟩
      rfl
    have hend : ("// @generated from file " ++ file.name ++ " (" ++ origin file ++ ")").toList =
        "// @generated from file ".toList ++ ([')'] ++ (file.dialect.toList.reverse ++
          ("syntax ".toList.reverse ++ (", ".toList.reverse ++ (package.toList.reverse ++
            (" (package ".toList.reverse ++ file.name.toList.reverse)))))).reverse := by
      simp [origin, hfile, ne_empty_of_isDotted hdotted]
    -- no bracket follows, so the package is read first
    have hnamed : ∀ rest : List Char,
        after? " (".toList.reverse (", ".toList.reverse ++ rest) = none := fun rest => rfl
    rw [hend]
    simp only [readOrigin, after?_append, List.reverse_reverse, Option.bind_eq_bind,
      Option.bind_some, (cut_word hword (hstop _)).1, (cut_word hword (hstop _)).2,
      String.ofList_toList, hnamed, (cut_word hchars (hstop' _)).1,
      (cut_word hchars (hstop' _)).2]
    rfl

theorem readTarget_importLine (target : Target) :
    readTarget (importLine target).toList = some target := by
  cases target <;> decide

def declarationLine (target : Target) (message : String) : String :=
  let declaration := "const " ++ Names.exported message ++ " = new Schema(\x7b"
  if target.usesModules then "export " ++ declaration else declaration

def declarationStart (target : Target) : List Char :=
  if target.usesModules then "export const ".toList else "const ".toList

theorem after?_declarationStart (target : Target) (rest : List Char) :
    (after? "export const ".toList (declarationStart target ++ rest)).or
      (after? "const ".toList (declarationStart target ++ rest)) = some rest := by
  cases target with
  | typescript =>
    rw [show declarationStart .typescript = "export const ".toList from rfl, after?_append]
    rfl
  | javascript =>
    rw [show declarationStart .javascript = "const ".toList from rfl, after?_append]
    rfl

theorem readDeclaration_declarationLine (target : Target) {message : String}
    (hname : isIdentifier message = true) :
    readDeclaration (declarationLine target message).toList = some message := by
  have hword : ∀ c ∈ message.toList ++ "Schema".toList, isLetterOrDigit c = true := by
    intro c hc
    rcases List.mem_append.mp hc with hc | hc
    · exact isLetterOrDigit_of_isIdentifierChars hname c hc
    · exact List.all_eq_true.mp (show "Schema".toList.all isLetterOrDigit = true by decide) c hc
  have hstop : ∀ c, (" = new Schema(\x7b".toList).head? = some c → isLetterOrDigit c = false := by
    rintro c ⟨⟩
    rfl
  have hline : (declarationLine target message).toList = declarationStart target ++
      ((message.toList ++ "Schema".toList) ++ " = new Schema(\x7b".toList) := by
    cases target <;> simp [declarationLine, Names.exported, declarationStart, Target.usesModules]
  -- the ending is taken off the word, which may itself end in it
  have hlast : after? "Schema".toList.reverse (message.toList ++ "Schema".toList).reverse =
      some message.toList.reverse := by
    rw [List.reverse_append]
    exact after?_append _ _
  rw [hline]
  simp only [readDeclaration, after?_declarationStart, Option.bind_eq_bind, Option.bind_some,
    (cut_word hword hstop).1, hlast, List.reverse_reverse, String.ofList_toList]
  rfl

theorem readCollection_encode (name : String) :
    readCollection ("  collection: " ++ Text.SingleQuoted.encode name ++ ",").toList =
      some name := by
  have hline : ("  collection: " ++ Text.SingleQuoted.encode name ++ ",").toList =
      "  collection: ".toList ++ (Text.SingleQuoted.encodeChars name.toList ++ [',']) := by
    simp [Text.SingleQuoted.encode]
  rw [hline]
  simp only [readCollection, after?_append, Option.bind_eq_bind, Option.bind_some,
    Text.SingleQuoted.read_encodeChars, String.ofList_toList]
  rfl

-- ---------------------------------------------------------------------------
-- Lines
-- ---------------------------------------------------------------------------

theorem newline_notMem_of_isLetterOrDigit {word : List Char}
    (h : ∀ c ∈ word, isLetterOrDigit c = true) : '\n' ∉ word :=
  fun hmem => absurd (h _ hmem) (by decide)

theorem newline_notMem_valueChars (type : TargetType) (repeated : Bool) (flags : Flags) :
    '\n' ∉ valueChars type repeated flags := by
  have htype : '\n' ∉ expressionChars type repeated := by
    cases repeated <;> cases type <;> decide
  have hflags : ∀ key ∈ ["unique", "required", "index"], ∀ isSet, '\n' ∉ flagChars key isSet := by
    decide
  unfold valueChars
  split
  · simp [htype, hflags]
  · exact htype

/-- What a message and its file are named with: identifiers, and a file name on one line. -/
structure Plain (file : SchemaFile) (message : SchemaMessage) : Prop where
  fileName : '\n' ∉ file.name.toList
  package : ∀ package, file.package = some package → isDotted package = true
  dialect : isIdentifier file.dialect = true
  messageName : isIdentifier message.name = true
  fieldNames : ∀ entry ∈ message.fields, isIdentifier entry.name = true

theorem newline_notMem_fieldLines {fields : List SchemaField}
    (hnames : ∀ entry ∈ fields, isIdentifier entry.name = true) :
    ∀ line ∈ fieldLines fields, '\n' ∉ line.toList := by
  have hfield : ∀ entry ∈ fields, '\n' ∉ (field entry).toList := by
    intro entry hentry
    have hname := newline_notMem_of_isLetterOrDigit
      (isLetterOrDigit_of_isIdentifierChars (hnames entry hentry))
    simp [toList_field, hname, newline_notMem_valueChars]
  clear hnames
  fun_induction fieldLines fields with
  | case1 => simp
  | case2 last => simpa using hfield last
  | case3 next more _ ih =>
    intro line hline
    rcases List.mem_cons.mp hline with rfl | hline
    · simpa using hfield next (by simp)
    · exact ih (fun entry hentry => hfield entry (by simp [hentry])) line hline

theorem newline_notMem_origin {file : SchemaFile} (hdialect : isIdentifier file.dialect = true)
    (hpackage : ∀ package, file.package = some package → isDotted package = true) :
    '\n' ∉ (origin file).toList := by
  have hword := newline_notMem_of_isLetterOrDigit (isLetterOrDigit_of_isIdentifierChars hdialect)
  cases hfile : file.package with
  | none => simp [origin, hfile, hword]
  | some package =>
    have hdotted := hpackage package hfile
    have hchars : '\n' ∉ package.toList := fun hmem =>
      absurd (isPackageChar_of_isDotted hdotted _ hmem) (by decide)
    simp [origin, hfile, ne_empty_of_isDotted hdotted, hword, hchars]

theorem newline_notMem_lines {target : Target} {file : SchemaFile} {message : SchemaMessage}
    (h : Plain file message) : ∀ line ∈ lines target file message, '\n' ∉ line.toList := by
  have horigin := newline_notMem_origin h.dialect h.package
  have hname := newline_notMem_of_isLetterOrDigit
    (isLetterOrDigit_of_isIdentifierChars h.messageName)
  have hcollection := Text.SingleQuoted.newline_notMem_encodeChars message.collection.toList
  have hfields := newline_notMem_fieldLines h.fieldNames
  have hfileName := h.fileName
  -- every line is fixed text around names, except those of the fields
  cases target
  all_goals
    simp only [lines, header, schemaLines, exportLines, Target.usesModules, importLine,
      Names.exported, Text.SingleQuoted.encode, generator, version, Bool.false_eq_true, if_true,
      if_false, List.append_assoc, List.cons_append, List.nil_append, List.append_nil]
    simp [or_imp, forall_and, horigin, hname, hcollection, hfileName]
    exact hfields

theorem intercalate_concat_nil (separator : List Char) {parts : List (List Char)} (h : parts ≠ []) :
    separator.intercalate (parts ++ [[]]) = separator.intercalate parts ++ separator := by
  induction parts with
  | nil => exact absurd rfl h
  | cons first rest ih =>
    cases rest with
    | nil => simp [List.intercalate]
    | cons second rest =>
      have hrest := ih (by simp)
      simp only [List.intercalate, List.cons_append, List.intersperse_cons_cons,
        List.flatten_cons, List.append_assoc] at hrest ⊢
      rw [hrest]

/-- The lines of a module are found again in its text. -/
theorem splitOn_content {target : Target} {file : SchemaFile} {message : SchemaMessage}
    (h : Plain file message) :
    (content target file message).toList.splitOn '\n' =
      (lines target file message).map String.toList ++ [[]] := by
  have hjoin : (content target file message).toList =
      ['\n'].intercalate ((lines target file message).map String.toList ++ [[]]) := by
    have hlines : (lines target file message).map String.toList ≠ [] := by simp [lines, header]
    rw [intercalate_concat_nil _ hlines]
    simp [content, String.toList_intercalate]
  rw [hjoin, List.splitOn_intercalate]
  · intro line hline
    -- the last line is ended too, so an empty piece follows it
    rcases List.mem_append.mp hline with hline | hline
    · obtain ⟨text, htext, rfl⟩ := List.mem_map.mp hline
      exact newline_notMem_lines h text htext
    · simp [List.mem_singleton.mp hline]
  · simp

theorem fieldLines_eq_mapIdx (fields : List SchemaField) :
    fieldLines fields = fields.mapIdx fun index entry =>
      "  " ++ field entry ++ (if index + 1 < fields.length then "," else "") := by
  fun_induction fieldLines fields with
  | case1 => rfl
  | case2 last => simp
  | case3 next more hmore ih =>
    have hlength : 0 < more.length := List.length_pos_iff.mpr fun h => hmore h
    rw [ih]
    simp [List.mapIdx_cons, hlength]

theorem getLast?_valueChars (type : TargetType) (repeated : Bool) (flags : Flags) :
    ∃ last, (valueChars type repeated flags).getLast? = some last ∧ last ≠ ',' := by
  unfold valueChars
  split
  · refine ⟨'\x7d', ?_, by decide⟩
    simp only [List.getLast?_append]
    rfl
  · cases repeated <;> cases type <;> exact ⟨_, rfl, by decide⟩

theorem getLast?_field_ne_comma (entry : SchemaField) :
    (field entry).toList.getLast? ≠ some ',' := by
  obtain ⟨last, hlast, hne⟩ := getLast?_valueChars entry.target entry.repeated entry.flags
  rw [toList_field, List.getLast?_append, List.getLast?_append, hlast]
  simpa using hne

theorem exists_lines_eq (target : Target) (file : SchemaFile) (message : SchemaMessage) :
    ∃ front back : List String, front.length = 7 ∧
      lines target file message =
        front ++ fieldLines message.fields ++ "\x7d, \x7b" :: back := by
  refine ⟨header file ++ ["", importLine target, "", declarationLine target message.name], ?_⟩
  simp only [lines, schemaLines, List.append_assoc, List.cons_append, List.nil_append]
  exact ⟨_, rfl, rfl⟩

-- ---------------------------------------------------------------------------
-- Modules
-- ---------------------------------------------------------------------------

theorem read?_content {target : Target} {file : SchemaFile} {message : SchemaMessage}
    (h : Plain file message) :
    Outline.read? (content target file message) = some (Outline.of target file message) := by
  have horigin := readOrigin_header h.dialect h.package
  have htarget := readTarget_importLine target
  have hdeclaration := readDeclaration_declarationLine target h.messageName
  have hcollection := readCollection_encode message.collection
  have hfields := readFields_fieldLines h.fieldNames
  unfold declarationLine at hdeclaration
  rw [Outline.read?, splitOn_content h]
  simp only [lines, header, schemaLines, List.cons_append, List.nil_append, List.append_assoc,
    List.map_cons, List.map_append, horigin, htarget, hdeclaration, Option.bind_eq_bind,
    Option.bind_some]
  rw [show "\x7d, \x7b".toList = closing from rfl, hfields]
  simp only [Option.bind_some, List.headD_cons, hcollection]
  rfl

/-- A module's text tells its outline: one reader recovers it from every text, so modules with equal
texts have equal outlines. After the seven lines that lead to the fields each field has a line, with
a comma after it unless it is the last. -/
theorem content_decodes {target : Target} {file : SchemaFile} {message : SchemaMessage}
    (h : Plain file message) :
    Outline.read? (content target file message) = some (Outline.of target file message) ∧
      (∀ otherTarget otherFile otherMessage, Plain otherFile otherMessage →
        content target file message = content otherTarget otherFile otherMessage →
        Outline.of target file message = Outline.of otherTarget otherFile otherMessage) ∧
      (∃ front back : List String, front.length = 7 ∧
        (content target file message).toList.splitOn '\n' =
          (front ++ (message.fields.mapIdx fun index entry =>
              "  " ++ field entry ++ (if index + 1 < message.fields.length then "," else "")) ++
            "\x7d, \x7b" :: back).map String.toList) ∧
      ∀ entry ∈ message.fields, (field entry).toList.getLast? ≠ some ',' := by
  refine ⟨read?_content h, ?_, ?_, fun entry _ => getLast?_field_ne_comma entry⟩
  · intro otherTarget otherFile otherMessage hother hequal
    have hread : Outline.read? (content target file message) = _ := read?_content h
    rw [hequal, read?_content hother] at hread
    exact (Option.some.inj hread).symm
  · obtain ⟨front, back, hlength, hlines⟩ := exists_lines_eq target file message
    refine ⟨front, back ++ [""], hlength, ?_⟩
    rw [splitOn_content h, hlines, fieldLines_eq_mapIdx]
    simp

def bracketed : SchemaFile where
  name := "a (package x, syntax y).proto"
  package := some "shop.v1"
  dialect := "proto3"

/-- A message named like its declaration, in a collection named like the text around it. -/
def imitating : SchemaMessage where
  name := "Schema"
  fullName := "shop.v1.Schema"
  collection := "\x27,\n  timestamps: true\n\x7d, \x7b"
  fields := [
    { name := "type", number := 1, kind := .enum ".shop.v1.Kind", repeated := true },
    { name := "unique", number := 2, kind := .scalar 12, flags := { indexed := true } }]

theorem content_decodes_imitating :
    Plain bracketed imitating ∧
      Outline.read? (content .javascript bracketed imitating) =
        some (Outline.of .javascript bracketed imitating) := by
  have hplain : Plain bracketed imitating :=
    ⟨by decide, by rintro _ ⟨⟩; decide, by decide, by decide, by decide⟩
  exact ⟨hplain, (content_decodes hplain).1⟩

end SchemaGen.ModuleText
