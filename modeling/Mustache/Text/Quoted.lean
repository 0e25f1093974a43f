import Mustache.Text.PrintableTable
import Mustache.Text.WidthTable

/-! Text between double quotes. A quote and a backslash follow a backslash, four controls have short
forms, and any other character without a visible shape of its own is shown by its number. -/
namespace Mustache.Text

def quotedChar (c : Char) : List Char :=
  match c with
  | '"' => ['\\', '"']
  | '\\' => ['\\', '\\']
  | '\t' => ['\\', 't']
  | '\r' => ['\\', 'r']
  | '\n' => ['\\', 'n']
  | '\x00' => ['\\', '0']
  | c =>
    if inRanges extendingRanges c || inRanges unprintableRanges c then
      "\\u\x7b".toList ++ Nat.toDigits 16 c.toNat ++ ['\x7d']
    else [c]

def quoted (text : String) : String :=
  .ofList ('"' :: text.toList.flatMap quotedChar ++ ['"'])

end Mustache.Text
