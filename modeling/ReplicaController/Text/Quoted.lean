import ReplicaController.Text.Hex
import ReplicaController.Text.SpelledOut

/-!
# Quoted text

A text between double quotes, with the quote, the backslash and four control characters behind a
backslash and every other character that would not show written by its number.
-/

namespace ReplicaController.Text

def quoteChar (c : Char) : List Char :=
  match c with
  | '\x00' => ['\\', '0']
  | '\t' => ['\\', 't']
  | '\n' => ['\\', 'n']
  | '\r' => ['\\', 'r']
  | '"' => ['\\', '"']
  | '\\' => ['\\', '\\']
  | c =>
    if isSpelledOut c then ['\\', 'u', '\x7b'] ++ hexDigits c.toNat ++ ['\x7d'] else [c]

def quoted (s : String) : String :=
  String.ofList ('"' :: s.toList.flatMap quoteChar ++ ['"'])

end ReplicaController.Text
