import BlockScript.Text.CaseTable
import BlockScript.Text.InvisibleTable
import BlockScript.Text.MarkTable

/-!
Texts in quotes, as error messages show them.

Quotes, backslashes and the usual controls are escaped by a letter; every other character that
leaves no mark of its own, or combines with the one before it, is written as its code point.
-/

namespace BlockScript.Text

def quotedChar (c : Char) : List Char :=
  match c with
  | '"' => ['\\', '"']
  | '\\' => ['\\', '\\']
  | '\n' => ['\\', 'n']
  | '\t' => ['\\', 't']
  | '\r' => ['\\', 'r']
  | '\x00' => ['\\', '0']
  | c =>
    if inRanges invisibleRanges c || inRanges combiningRanges c then
      ['\\', 'u', '\x7b'] ++ Nat.toDigits 16 c.toNat ++ ['\x7d']
    else [c]

def quoted (s : String) : String :=
  String.ofList ('"' :: s.toList.flatMap quotedChar ++ ['"'])

def quotedList (texts : List String) : String :=
  "[" ++ ", ".intercalate (texts.map quoted) ++ "]"

end BlockScript.Text
