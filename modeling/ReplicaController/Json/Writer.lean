import ReplicaController.Json.Basic
import ReplicaController.Decimal.Shortest
import ReplicaController.Text.Hex

/-!
# Writing a document

The compact text of a document. Control characters are escaped, five of them by a letter; all other
characters stand as they are. An unreadable node has no text and is written as null.
-/

namespace ReplicaController.Json

def escapeChar (c : Char) : List Char :=
  match c with
  | '"' => ['\\', '"']
  | '\\' => ['\\', '\\']
  | '\x08' => ['\\', 'b']
  | '\x0c' => ['\\', 'f']
  | '\n' => ['\\', 'n']
  | '\r' => ['\\', 'r']
  | '\t' => ['\\', 't']
  | c =>
    if c.toNat < 0x20 then
      ['\\', 'u', '0', '0', Text.hexDigit (c.toNat / 16), Text.hexDigit (c.toNat % 16)]
    else [c]

def textOf (s : String) : String := String.ofList ('"' :: s.toList.flatMap escapeChar ++ ['"'])

mutual

def write : Json → String
  | .null => "null"
  | .bool b => if b then "true" else "false"
  | .int n => toString n
  | .double x => Decimal.text x
  | .str s => textOf s
  | .arr items => "[" ++ ",".intercalate (itemTexts items) ++ "]"
  | .obj fields => "\x7b" ++ ",".intercalate (fieldTexts fields) ++ "\x7d"
  | .unreadable => "null"

def itemTexts : List Json → List String
  | [] => []
  | j :: js => write j :: itemTexts js

def fieldTexts : List (String × Json) → List String
  | [] => []
  | (k, j) :: fs => (textOf k ++ ":" ++ write j) :: fieldTexts fs

end

end ReplicaController.Json
