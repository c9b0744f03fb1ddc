import ReplicaController.Json.Number
import ReplicaController.Text.Hex

/-!
# Tokens

The lexer runs over the characters once, keeping what it is inside of: nothing, a word or number, a
text, an escape or the digits of a code unit. Half of a surrogate pair makes the text it stands in
unreadable, which is no fault of the grammar.
-/

namespace ReplicaController.Json

inductive Token
  | openArray
  | closeArray
  | openObject
  | closeObject
  | comma
  | colon
  | null
  | bool (value : Bool)
  | number (value : Json)
  | text (value : Option String)

/-- The characters of a text so far, the last first, and the first half of a pair if one is open. -/
structure Draft where
  chars : List Char
  high : Option Nat
  readable : Bool

namespace Draft

def start : Draft := ⟨[], none, true⟩

/-- Give up the text if half a pair is open. -/
def settle (d : Draft) : Draft := ⟨d.chars, none, d.readable && d.high.isNone⟩

def push (d : Draft) (c : Char) : Draft :=
  let d := d.settle
  { d with chars := c :: d.chars }

def pushUnit (d : Draft) (u : Nat) : Draft :=
  if 0xD800 ≤ u ∧ u < 0xDC00 then { d.settle with high := some u }
  else if 0xDC00 ≤ u ∧ u < 0xE000 then
    match d.high with
    | some h => ⟨Char.ofNat (0x10000 + (h - 0xD800) * 0x400 + (u - 0xDC00)) :: d.chars, none, d.readable⟩
    | none => { d with readable := false }
  else d.push (Char.ofNat u)

def toToken (d : Draft) : Token :=
  let d := d.settle
  .text (if d.readable then some (String.ofList d.chars.reverse) else none)

end Draft

inductive LexState
  | between
  | lexeme (chars : List Char)
  | inText (draft : Draft)
  | inEscape (draft : Draft)
  | inUnit (draft : Draft) (value left : Nat)

def isLexemeChar (c : Char) : Bool :=
  Text.isDigit c || ('a' ≤ c && c ≤ 'z') || ('A' ≤ c && c ≤ 'Z') || c == '-' || c == '+' || c == '.'

/-- A word or number that has come to its end. -/
def lexemeToken? (cs : List Char) : Option Token :=
  match cs with
  | ['n', 'u', 'l', 'l'] => some .null
  | ['t', 'r', 'u', 'e'] => some (.bool true)
  | ['f', 'a', 'l', 's', 'e'] => some (.bool false)
  | cs => (Numeral.ofChars? cs).map fun x => .number x.toJson

def punctuation? (c : Char) : Option Token :=
  match c with
  | '[' => some .openArray
  | ']' => some .closeArray
  | '\x7b' => some .openObject
  | '\x7d' => some .closeObject
  | ',' => some .comma
  | ':' => some .colon
  | _ => none

def isSpace (c : Char) : Bool := c == ' ' || c == '\t' || c == '\n' || c == '\r'

def escape? (c : Char) : Option Char :=
  match c with
  | '"' => some '"'
  | '\\' => some '\\'
  | '/' => some '/'
  | 'b' => some '\x08'
  | 'f' => some '\x0c'
  | 'n' => some '\n'
  | 'r' => some '\r'
  | 't' => some '\t'
  | _ => none

/-- One character outside every token, with the tokens before it, the last first. -/
def lexBetween (tokens : List Token) (c : Char) : Option (LexState × List Token) :=
  if isSpace c then some (.between, tokens)
  else if c == '"' then some (.inText .start, tokens)
  else match punctuation? c with
    | some t => some (.between, t :: tokens)
    | none => if isLexemeChar c then some (.lexeme [c], tokens) else none

def lexStep (state : LexState) (tokens : List Token) (c : Char) : Option (LexState × List Token) :=
  match state with
  | .between => lexBetween tokens c
  | .lexeme cs =>
    if isLexemeChar c then some (.lexeme (c :: cs), tokens)
    else match lexemeToken? cs.reverse with
      | some t => lexBetween (t :: tokens) c
      | none => none
  | .inText d =>
    if c == '"' then some (.between, d.toToken :: tokens)
    else if c == '\\' then some (.inEscape d, tokens)
    else if c.toNat < 0x20 then none
    else some (.inText (d.push c), tokens)
  | .inEscape d =>
    if c == 'u' then some (.inUnit d 0 4, tokens)
    else (escape? c).map fun e => (.inText (d.push e), tokens)
  | .inUnit d n left =>
    match Text.hexValue? c with
    | none => none
    | some v =>
      if left ≤ 1 then some (.inText (d.pushUnit (16 * n + v)), tokens)
      else some (.inUnit d (16 * n + v) (left - 1), tokens)

def lexFrom (state : LexState) (tokens : List Token) : List Char → Option (List Token)
  | [] =>
    match state with
    | .between => some tokens.reverse
    | .lexeme cs => (lexemeToken? cs.reverse).map fun t => (t :: tokens).reverse
    | _ => none
  | c :: cs =>
    match lexStep state tokens c with
    | some (state, tokens) => lexFrom state tokens cs
    | none => none

def lex? (text : String) : Option (List Token) := lexFrom .between [] text.toList

end ReplicaController.Json
