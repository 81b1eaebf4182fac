import SchemaGen.Text.SingleQuoted
import SchemaGen.Text.Visible

/-!
# Text and bytes shown in diagnostics

Quoted forms for messages. The quote is a single one unless the content holds single quotes and no
double ones; the quote itself, backslashes and everything that is not visible are escaped.
-/

namespace SchemaGen.Text.Shown

open SingleQuoted (quote backslash hexDigit)

def doubleQuote : Char := '\x22'

/-- The quote around a content that holds single or double quotes as told. -/
def quoteFor (hasSingle hasDouble : Bool) : Char :=
  if hasSingle && !hasDouble then doubleQuote else quote

def hexDigits : (count : Nat) → Nat → List Char
  | 0, _ => []
  | count + 1, n => hexDigits count (n / 16) ++ [hexDigit (n % 16)]

def shortEscape? (around c : Char) : Option (List Char) :=
  if c = around ∨ c = backslash then some [backslash, c]
  else if c = '\n' then some [backslash, 'n']
  else if c = '\r' then some [backslash, 'r']
  else if c = '\t' then some [backslash, 't']
  else none

def showChar (around c : Char) : List Char :=
  match shortEscape? around c with
  | some escape => escape
  | none =>
    if isVisible c then [c]
    else if c.toNat < 0x100 then backslash :: 'x' :: hexDigits 2 c.toNat
    else if c.toNat < 0x10000 then backslash :: 'u' :: hexDigits 4 c.toNat
    else backslash :: 'U' :: hexDigits 8 c.toNat

def text (content : String) : String :=
  let chars := content.toList
  let around := quoteFor (chars.contains quote) (chars.contains doubleQuote)
  String.ofList (around :: chars.flatMap (showChar around) ++ [around])

def showByte (around : Char) (b : UInt8) : List Char :=
  let c := Char.ofNat b.toNat
  match shortEscape? around c with
  | some escape => escape
  | none =>
    if 0x20 ≤ b.toNat ∧ b.toNat < 0x7f then [c]
    else backslash :: 'x' :: hexDigits 2 b.toNat

def bytes (content : List UInt8) : String :=
  let around := quoteFor (content.contains 0x27) (content.contains 0x22)
  String.ofList ('b' :: around :: content.flatMap (showByte around) ++ [around])

end SchemaGen.Text.Shown
