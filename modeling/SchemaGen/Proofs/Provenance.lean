import Mathlib.Data.List.DropRight
import SchemaGen.Proofs.CollectionLiteral

/-!
# What a header leaves in the code of its module

The header of a module tells in a line comment which file the module was generated from. `strip`
reads a script and drops its line comments. What it leaves of a module depends on the file only
through what follows the first line terminator of that comment, its `spill`: files whose texts
stand on one line all leave the same code, and any other file leaves a different one
(`withoutLineComments_content`). The name of `smuggling` puts a statement into the code.
-/

namespace SchemaGen

namespace Text.Script

open SingleQuoted (backslash quote isLineTerminator isBare encodeChar encodeChars encodeChar_cases
  hexDigit hexDigit_isBare)

-- ---------------------------------------------------------------------------
-- Line comments
-- ---------------------------------------------------------------------------

inductive Region where
  | code
  | lineComment
  | blockComment
  | literal (quote : Char)
  deriving Repr, DecidableEq

def quotes : List Char := [quote, '\x22', '\x60']

/-- A script without its line comments. The line terminators that end them stay, and regular
expressions are read as other code. -/
def strip : Region → List Char → List Char
  | _, [] => []
  | .code, '/' :: '/' :: rest => strip .lineComment rest
  | .code, '/' :: '*' :: rest => '/' :: '*' :: strip .blockComment rest
  | .code, c :: rest => c :: strip (if c ∈ quotes then .literal c else .code) rest
  | .lineComment, c :: rest =>
    if isLineTerminator c then c :: strip .code rest else strip .lineComment rest
  | .blockComment, '*' :: '/' :: rest => '*' :: '/' :: strip .code rest
  | .blockComment, c :: rest => c :: strip .blockComment rest
  -- a backslash takes the next character with it
  | .literal quote, '\x5c' :: c :: rest => '\x5c' :: c :: strip (.literal quote) rest
  | .literal quote, c :: rest => c :: strip (if c = quote then .code else .literal quote) rest

def withoutLineComments (script : String) : List Char := strip .code script.toList

/-- Lines are never joined: every line terminator stays. -/
theorem countP_strip (region : Region) (text : List Char) :
    (strip region text).countP isLineTerminator = text.countP isLineTerminator := by
  have hslash : isLineTerminator '/' = false := by decide
  have hstar : isLineTerminator '*' = false := by decide
  fun_induction strip region text with
  | case1 => rfl
  | case2 rest ih => simp [ih, hslash]
  | case6 c rest hc ih => simp [ih, hc]
  | _ => simp_all [List.countP_cons]

-- ---------------------------------------------------------------------------
-- Code that is kept
-- ---------------------------------------------------------------------------

/-- A text that starts and ends in code and of which nothing is dropped, whatever follows it. -/
def IsKept (text : List Char) : Prop :=
  ∀ rest : List Char, strip .code (text ++ rest) = text ++ strip .code rest

theorem IsKept.nil : IsKept [] := fun _ => rfl

theorem IsKept.append {first second : List Char} (hfirst : IsKept first) (hsecond : IsKept second) :
    IsKept (first ++ second) := by
  intro rest
  rw [List.append_assoc, hfirst, hsecond, List.append_assoc]

theorem IsKept.strip_eq {text : List Char} (h : IsKept text) : strip .code text = text := by
  simpa [strip] using h []

def isPlain (c : Char) : Bool := !('/' :: quotes).contains c

theorem isPlain_iff {c : Char} : isPlain c = true ↔ c ≠ '/' ∧ c ∉ quotes := by simp [isPlain]

theorem isKept_singleton {c : Char} (h : isPlain c = true) : IsKept [c] := by
  obtain ⟨hslash, hquote⟩ := isPlain_iff.mp h
  intro rest
  simp [strip, hslash, hquote]

theorem isKept_newline : IsKept ['\n'] := isKept_singleton (by decide)

theorem isPlain_of_all_not {p : Char → Bool} (hnone : ('/' :: quotes).all (!p ·) = true) {c : Char}
    (h : p c = true) : isPlain c = true := by
  rw [isPlain_iff, ← not_or, ← List.mem_cons]
  intro hc
  simpa [h] using List.all_eq_true.mp hnone c hc

theorem isKept_of_isPlain {text : List Char} (h : text.all isPlain = true) : IsKept text := by
  induction text with
  | nil => exact .nil
  | cons c text ih =>
    rw [List.all_cons, Bool.and_eq_true] at h
    exact (isKept_singleton h.1).append (ih h.2)

theorem strip_encodeChar (c : Char) (rest : List Char) :
    strip (.literal quote) (encodeChar c ++ rest) =
      encodeChar c ++ strip (.literal quote) rest := by
  have hbare : ∀ {d : Char}, isBare d = true → ∀ rest : List Char,
      strip (.literal quote) (d :: rest) = d :: strip (.literal quote) rest := by
    intro d hd rest
    simp only [isBare, Bool.and_eq_true, bne_iff_ne, ne_eq] at hd
    obtain ⟨⟨⟨hbackslash, hquote⟩, -⟩, -⟩ := hd
    have hescape : ¬d = '\x5c' := hbackslash
    simp [strip, hescape, hquote]
  rcases encodeChar_cases c with ⟨hc, he⟩ | ⟨hlow, he⟩ | hlisted
  · rw [he, List.singleton_append, hbare hc, List.singleton_append]
  · have hhigh := hexDigit_isBare (c.toNat / 16) (by omega)
    have hdigit := hexDigit_isBare (c.toNat % 16) (by omega)
    simp [he, backslash, strip, hbare hhigh, hbare hdigit]
  · simp only [List.mem_cons, List.not_mem_nil, or_false] at hlisted
    rcases hlisted with rfl | rfl | rfl | rfl | rfl | rfl | rfl
    all_goals rfl

theorem isKept_encodeChars (text : List Char) : IsKept (encodeChars text) := by
  intro rest
  have hbody : strip (.literal quote) (text.flatMap encodeChar ++ quote :: rest) =
      text.flatMap encodeChar ++ quote :: strip .code rest := by
    induction text with
    | nil => rfl
    | cons c text ih => simp only [List.flatMap_cons, List.append_assoc, strip_encodeChar, ih]
  have hopen : ∀ more, strip .code (quote :: more) = quote :: strip (.literal quote) more :=
    fun _ => rfl
  simp [encodeChars, hopen, hbody]

theorem strip_comment {line : List Char} (h : ['/', '/'] <+: line) (rest : List Char) :
    strip .code (line ++ '\n' :: rest) =
      strip .code (line.dropWhile (!isLineTerminator ·) ++ '\n' :: rest) := by
  -- a line terminator ends the comment and is itself plain code
  have hend : ∀ {c : Char} (more : List Char), isLineTerminator c = true →
      strip .lineComment (c :: more) = strip .code (c :: more) := by
    intro c more hc
    have hkept := isKept_singleton (isPlain_of_all_not (by decide) hc) more
    rw [List.singleton_append, List.singleton_append] at hkept
    simp [hkept, strip, hc]
  have hcomment : ∀ comment : List Char, strip .lineComment (comment ++ '\n' :: rest) =
      strip .code (comment.dropWhile (!isLineTerminator ·) ++ '\n' :: rest) := by
    intro comment
    induction comment with
    | nil => exact hend rest (by decide)
    | cons c comment ih =>
      cases hc : isLineTerminator c with
      | true => simpa [hc] using hend _ hc
      | false => simp [strip, hc, ih]
  obtain ⟨comment, rfl⟩ := h
  exact hcomment comment

end Text.Script

namespace SchemaFile

def provenance (file : SchemaFile) : List Char :=
  file.name.toList ++ (file.package.getD "").toList ++ file.dialect.toList

/-- The texts that a header shows hold no line terminators. -/
def IsOneLine (file : SchemaFile) : Prop :=
  ∀ c ∈ file.provenance, Text.SingleQuoted.isLineTerminator c = false

end SchemaFile

namespace ModuleText

open Descriptor (isIdentifier)
open Text.SingleQuoted (isLineTerminator)
open Text.Script

-- ---------------------------------------------------------------------------
-- Header
-- ---------------------------------------------------------------------------

def generatorLine : String := "// @generated by " ++ generator ++ " " ++ version

def originLine (file : SchemaFile) : String :=
  "// @generated from file " ++ file.name ++ " (" ++ origin file ++ ")"

/-- What stands outside the comment: the rest of its line from the first line terminator on. -/
def spill (file : SchemaFile) : List Char :=
  (originLine file).toList.dropWhile (!isLineTerminator ·)

theorem countP_originLine (file : SchemaFile) :
    (originLine file).toList.countP isLineTerminator =
      file.provenance.countP isLineTerminator := by
  have hfixed : ∀ text ∈ ["syntax ", "package ", ", syntax ", "// @generated from file ", " (", ")"],
      text.toList.countP isLineTerminator = 0 := by decide +kernel
  simp only [List.mem_cons, List.not_mem_nil, or_false, forall_eq_or_imp, forall_eq] at hfixed
  obtain ⟨hdialect, hpackage, hboth, hfront, hopen, hclose⟩ := hfixed
  have horigin : (origin file).toList.countP isLineTerminator =
      (file.package.getD "").toList.countP isLineTerminator +
        file.dialect.toList.countP isLineTerminator := by
    cases h : file.package with
    | none => simp only [origin, h, String.toList_append, List.countP_append, hdialect]; rfl
    | some package =>
      by_cases hempty : package = ""
      · simp only [origin, h, hempty, if_true, String.toList_append, List.countP_append, hdialect]
        rfl
      · simp only [origin, h, hempty, if_false, String.toList_append, List.countP_append, hpackage,
          hboth, Option.getD_some, Nat.zero_add, Nat.add_zero]
  unfold originLine
  simp only [SchemaFile.provenance, String.toList_append, List.countP_append, horigin,
    hfront, hopen, hclose]
  omega

theorem isOneLine_iff (file : SchemaFile) :
    file.IsOneLine ↔ (originLine file).toList.countP isLineTerminator = 0 := by
  simp [countP_originLine, SchemaFile.IsOneLine, List.countP_eq_zero]

theorem spill_eq_nil_iff (file : SchemaFile) : spill file = [] ↔ file.IsOneLine := by
  simp [spill, isOneLine_iff, List.countP_eq_zero, List.dropWhile_eq_nil_iff]

def codeLines (target : Target) (message : SchemaMessage) : List String :=
  ["/* eslint-disable */", "", importLine target, ""] ++ schemaLines target message ++
    exportLines target message

theorem content_eq_origin (target : Target) (file : SchemaFile) (message : SchemaMessage) :
    (content target file message).toList =
      generatorLine.toList ++ '\n' :: ((originLine file).toList ++ '\n' ::
        ended (codeLines target message)) := by
  have hne : lines target file message ≠ [] := by simp [lines, header]
  have hlines : lines target file message =
      generatorLine :: originLine file :: codeLines target message := rfl
  rw [content, toList_intercalate_newline hne, hlines]
  simp [ended]

theorem strip_content (target : Target) (file : SchemaFile) (message : SchemaMessage) :
    withoutLineComments (content target file message) =
      '\n' :: strip .code (spill file ++ '\n' :: ended (codeLines target message)) := by
  have hgenerator : generatorLine.toList.dropWhile (!isLineTerminator ·) = [] := by
    decide +kernel
  have horigin : ['/', '/'] <+: (originLine file).toList := by
    unfold originLine
    simp only [String.toList_append, List.append_assoc]
    exact List.IsPrefix.trans (by decide) (List.prefix_append _ _)
  have hnewline : ∀ rest, strip .code ('\n' :: rest) = '\n' :: strip .code rest := isKept_newline
  rw [withoutLineComments, content_eq_origin, strip_comment (by decide), hgenerator,
    List.nil_append, hnewline, strip_comment horigin, spill]

-- ---------------------------------------------------------------------------
-- Code
-- ---------------------------------------------------------------------------

theorem isPlain_of_isIdentifier {name : String} (h : isIdentifier name = true) :
    name.toList.all isPlain = true := by
  rw [List.all_eq_true]
  intro c hc
  exact isPlain_of_all_not (by decide) (isLetterOrDigit_of_isIdentifierChars h c hc)

theorem isKept_ended {lines : List String} (h : ∀ line ∈ lines, IsKept line.toList) :
    IsKept (ended lines) := by
  induction lines with
  | nil => exact .nil
  | cons line lines ih =>
    have hrest := ih fun other hother => h other (List.mem_cons_of_mem _ hother)
    exact ((h line List.mem_cons_self).append isKept_newline).append hrest

theorem isPlain_valueChars (type : TargetType) (repeated : Bool) (flags : Flags) :
    (valueChars type repeated flags).all isPlain = true := by
  have htype : (expressionChars type repeated).all isPlain = true := by
    cases repeated <;> cases type <;> decide
  have hflags : ∀ key ∈ ["unique", "required", "index"], ∀ isSet,
      (flagChars key isSet).all isPlain = true := by decide
  have hopen : "\x7b type: ".toList.all isPlain = true := by decide
  have hclose : " \x7d".toList.all isPlain = true := by decide
  unfold valueChars
  split
  · simp only [List.all_append, htype, hopen, hclose, hflags "unique" (by simp),
      hflags "required" (by simp), hflags "index" (by simp), Bool.and_self]
  · exact htype

theorem isKept_fieldLines {fields : List SchemaField}
    (h : ∀ entry ∈ fields, isIdentifier entry.name = true) :
    ∀ line ∈ fieldLines fields, IsKept line.toList := by
  intro line hline
  rw [fieldLines_eq_mapIdx, List.mem_mapIdx] at hline
  obtain ⟨index, hindex, rfl⟩ := hline
  have hfield : (field fields[index]).toList.all isPlain = true := by
    have hname := isPlain_of_isIdentifier (h fields[index] (List.getElem_mem hindex))
    have hcolon : ": ".toList.all isPlain = true := by decide
    simp only [toList_field, List.all_append, hname, hcolon, isPlain_valueChars, Bool.and_self]
  simp only [String.toList_append]
  refine (isKept_of_isPlain (by decide)).append (isKept_of_isPlain hfield) |>.append ?_
  split <;> exact isKept_of_isPlain (by decide)

theorem isKept_between {before name after : String} (hbefore : before.toList.all isPlain = true)
    (hname : IsKept name.toList) (hafter : after.toList.all isPlain = true) :
    IsKept (before ++ name ++ after).toList := by
  simp only [String.toList_append]
  exact ((isKept_of_isPlain hbefore).append hname).append (isKept_of_isPlain hafter)

theorem isKept_exported {name : String} (h : isIdentifier name = true) :
    IsKept (Names.exported name).toList := by
  rw [Names.exported, String.toList_append]
  exact (isKept_of_isPlain (isPlain_of_isIdentifier h)).append (isKept_of_isPlain (by decide))

theorem isKept_declarationLine (target : Target) {name : String} (h : isIdentifier name = true) :
    IsKept (declarationLine target name).toList := by
  have hconst : IsKept ("const " ++ Names.exported name ++ " = new Schema(\x7b").toList :=
    isKept_between (by decide) (isKept_exported h) (by decide)
  cases target with
  | typescript =>
    change IsKept ("export " ++ _).toList
    rw [String.toList_append]
    exact (isKept_of_isPlain (by decide)).append hconst
  | javascript => exact hconst

theorem isKept_exportLines (target : Target) {message : SchemaMessage}
    (h : isIdentifier message.name = true) :
    ∀ line ∈ exportLines target message, IsKept line.toList := by
  cases target with
  | typescript => simp [exportLines, Target.usesModules]
  | javascript =>
    intro line hline
    change line ∈ ["", "module.exports = \x7b " ++ Names.exported message.name ++ " \x7d;"] at hline
    simp only [List.mem_cons, List.not_mem_nil, or_false] at hline
    rcases hline with rfl | rfl
    · exact .nil
    · exact isKept_between (by decide) (isKept_exported h) (by decide)

/-- Nothing but the two comments of the header is dropped from a module. -/
theorem isKept_codeLines (target : Target) {message : SchemaMessage}
    (hname : isIdentifier message.name = true)
    (hfields : ∀ entry ∈ message.fields, isIdentifier entry.name = true) :
    IsKept (ended (codeLines target message)) := by
  have hcollection :
      IsKept ("  collection: " ++ Text.SingleQuoted.encode message.collection ++ ",").toList := by
    refine isKept_between (by decide) ?_ (by decide)
    rw [Text.SingleQuoted.encode, String.toList_ofList]
    exact isKept_encodeChars message.collection.toList
  have himport : IsKept (importLine target).toList := by cases target <;> exact fun _ => rfl
  have hdisable : IsKept "/* eslint-disable */".toList := fun _ => rfl
  have hfixed : ∀ text ∈ ["\x7d, \x7b", "  timestamps: true", "\x7d);"],
      text.toList.all isPlain = true := by decide
  have hlines : codeLines target message =
      ["/* eslint-disable */", "", importLine target, "", declarationLine target message.name] ++
        fieldLines message.fields ++ ["\x7d, \x7b",
          "  collection: " ++ Text.SingleQuoted.encode message.collection ++ ",",
          "  timestamps: true", "\x7d);"] ++ exportLines target message := by
    simp [codeLines, schemaLines, declarationLine]
  apply isKept_ended
  rw [hlines]
  intro line hline
  simp only [List.mem_append, List.mem_cons, List.not_mem_nil, or_false] at hline
  rcases hline with (((rfl | rfl | rfl | rfl | rfl) | hline) | rfl | rfl | rfl | rfl) | hline
  · exact hdisable
  · exact .nil
  · exact himport
  · exact .nil
  · exact isKept_declarationLine target hname
  · exact isKept_fieldLines hfields line hline
  · exact isKept_of_isPlain (hfixed _ (by simp))
  · exact hcollection
  · exact isKept_of_isPlain (hfixed _ (by simp))
  · exact isKept_of_isPlain (hfixed _ (by simp))
  · exact isKept_exportLines target hname line hline

-- ---------------------------------------------------------------------------
-- Modules
-- ---------------------------------------------------------------------------

/-- What is left of a module depends on its file only through what the header spills, which is
nothing exactly if the texts of the file stand on one line. Beside such a file every other one
changes the code. Files of one line leave the module below its header as it was written. -/
theorem withoutLineComments_content (target : Target) (message : SchemaMessage)
    (file other : SchemaFile) :
    withoutLineComments (content target file message) =
        '\n' :: strip .code (spill file ++ '\n' :: ended (codeLines target message)) ∧
      (spill file = [] ↔ file.IsOneLine) ∧
      (other.IsOneLine →
        (withoutLineComments (content target file message) =
          withoutLineComments (content target other message) ↔ file.IsOneLine)) ∧
      (isIdentifier message.name = true →
        (∀ entry ∈ message.fields, isIdentifier entry.name = true) →
        file.IsOneLine →
          withoutLineComments (content target file message) =
            '\n' :: '\n' :: ended (codeLines target message)) := by
  refine ⟨strip_content target file message, spill_eq_nil_iff file, ?_, ?_⟩
  · intro hother
    constructor
    · intro hsame
      -- both modules have the line terminators of their texts, and the rest is common to them
      have hcount := congrArg (List.countP isLineTerminator) hsame
      simp only [withoutLineComments, countP_strip, content_eq_origin, List.countP_append,
        List.countP_cons] at hcount
      have hzero := (isOneLine_iff other).mp hother
      exact (isOneLine_iff file).mpr (by omega)
    · intro hfile
      rw [strip_content, strip_content, (spill_eq_nil_iff file).mpr hfile,
        (spill_eq_nil_iff other).mpr hother]
  · intro hname hfields hfile
    have hkept := isKept_newline.append (isKept_codeLines target hname hfields)
    rw [strip_content, (spill_eq_nil_iff file).mpr hfile]
    exact congrArg _ hkept.strip_eq

/-- A file whose name goes on with a statement after a line terminator. -/
def smuggling : SchemaFile where
  name := "a.proto\nprocess.exit(1); //"

def user : SchemaMessage where
  name := "User"
  fullName := "User"
  collection := "users"

theorem withoutLineComments_smuggling :
    isIdentifier user.name = true ∧
      withoutLineComments (content .typescript smuggling user) ≠
        withoutLineComments (content .typescript { name := "a.proto" } user) ∧
      ∃ code, withoutLineComments (content .typescript { name := "a.proto" } user) = '\n' :: code ∧
        withoutLineComments (content .typescript smuggling user) =
          '\n' :: ("\nprocess.exit(1); ".toList ++ code) := by
  have hspill : spill smuggling = "\nprocess.exit(1); ".toList ++ "// (syntax proto2)".toList := by
    decide +kernel
  have hplain : spill { name := "a.proto" } = [] := by decide +kernel
  have hstatement : IsKept "\nprocess.exit(1); ".toList := isKept_of_isPlain (by decide +kernel)
  have hcomment : "// (syntax proto2)".toList.dropWhile (!isLineTerminator ·) = [] := by
    decide +kernel
  have hsmuggling := strip_content .typescript smuggling user
  have hhonest := strip_content .typescript { name := "a.proto" } user
  rw [hspill, List.append_assoc, hstatement, strip_comment (by decide), hcomment] at hsmuggling
  rw [hplain] at hhonest
  refine ⟨by decide, ?_, _, hhonest, hsmuggling⟩
  intro hsame
  have hlength := congrArg List.length hsame
  have hlonger : 0 < "\nprocess.exit(1); ".toList.length := by decide +kernel
  simp only [hsmuggling, hhonest, List.length_cons, List.length_append] at hlength
  omega

end ModuleText

end SchemaGen
