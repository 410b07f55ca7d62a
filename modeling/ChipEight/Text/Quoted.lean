import ChipEight.Text.Printable
import ChipEight.Text.Report

/-!
Quoted text for messages: in apostrophes, or in quotation marks where the text holds an apostrophe
and no quotation mark. Characters that cannot be seen are written as escapes.
-/

namespace ChipEight.Quoted

def apostrophe : Char := '\x27'

def quotationMark : Char := '\x22'

/-- The mark that a text is put between. -/
def delimiter (text : List Char) : Char :=
  if text.contains apostrophe && !text.contains quotationMark then quotationMark else apostrophe

/-- The escape of a code point: two, four or eight hexadecimal digits. -/
def escapeCode (code : Nat) : List Char :=
  if code < 0x100 then '\\' :: 'x' :: Hex.padLeft 2 (Hex.digits code)
  else if code < 0x10000 then '\\' :: 'u' :: Hex.padLeft 4 (Hex.digits code)
  else '\\' :: 'U' :: Hex.padLeft 8 (Hex.digits code)

def escape (delimiter c : Char) : List Char :=
  if c == delimiter || c == '\\' then ['\\', c]
  else if c == '\t' then ['\\', 't']
  else if c == '\n' then ['\\', 'n']
  else if c == '\r' then ['\\', 'r']
  else if Printable.isPrintable c then [c]
  else escapeCode c.toNat

def quote (text : String) : String :=
  let mark := delimiter text.toList
  String.ofList (mark :: text.toList.flatMap (escape mark) ++ [mark])

end ChipEight.Quoted
