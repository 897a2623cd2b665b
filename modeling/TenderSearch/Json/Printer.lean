import TenderSearch.Binary64.Shortest
import TenderSearch.Json.Basic
import TenderSearch.Text.Digits

/-!
# JSON text of a value

`render` writes a value on one line without blanks, `pretty` writes one field
or item a line with two blanks of indentation.
-/

namespace TenderSearch.Json

/-- How decimals are written: first digits that stand for a power of ten in
the plain range are written without an exponent. -/
structure DecimalStyle where
  plainFrom : Int
  plainTo : Int
  mark : String
  plus : String
  minus : String

def decimalStyle : DecimalStyle :=
  { plainFrom := -5, plainTo := 15, mark := "e", plus := "+", minus := "-" }

def zeros (n : Nat) : List Char :=
  List.replicate n '0'

/-- A decimal with at least one digit after its point, or with an exponent. -/
def DecimalStyle.write (style : DecimalStyle) (d : Decimal) : String :=
  let digits := Text.digitsOf d.digits
  let lead := d.exponent + (digits.length : Int) - 1
  if d.digits = 0 then "0.0"
  else if style.plainFrom ≤ lead ∧ lead ≤ style.plainTo then
    if 0 ≤ d.exponent then
      String.ofList (digits ++ zeros d.exponent.toNat ++ ['.', '0'])
    else if 0 ≤ lead then
      let whole := lead.toNat + 1
      String.ofList (digits.take whole ++ '.' :: digits.drop whole)
    else
      String.ofList ('0' :: '.' :: zeros ((-lead).toNat - 1) ++ digits)
  else
    let significand :=
      match digits with
      | first :: second :: rest => first :: '.' :: second :: rest
      | short => short
    String.ofList significand ++ style.mark ++
      (if 0 ≤ lead then style.plus else style.minus) ++ String.ofList (Text.digitsOf lead.natAbs)

def Number.render : Number → String
  | .int n => (if n < 0 then "-" else "") ++ String.ofList (Text.digitsOf n.natAbs)
  | .float x => (if x.negative then "-" else "") ++ decimalStyle.write x.shortest

/-- A digit of a lower-case hexadecimal number. -/
def hexDigit (n : Nat) : Char :=
  (Nat.digitChar (n % 16))

/-- How a character of a string is written. -/
def escape (c : Char) : List Char :=
  if c = '"' then ['\\', '"']
  else if c = '\\' then ['\\', '\\']
  else if c = '\x08' then ['\\', 'b']
  else if c = '\x0c' then ['\\', 'f']
  else if c = '\n' then ['\\', 'n']
  else if c = '\r' then ['\\', 'r']
  else if c = '\t' then ['\\', 't']
  else if c.toNat < 0x20 then
    ['\\', 'u', '0', '0', hexDigit (c.toNat / 16), hexDigit c.toNat]
  else [c]

def quote (s : String) : String :=
  "\"" ++ String.ofList (s.toList.flatMap escape) ++ "\""

mutual

def render : Json → String
  | .null => "null"
  | .bool b => if b then "true" else "false"
  | .num n => n.render
  | .str s => quote s
  | .arr items => "[" ++ String.intercalate "," (renderItems items) ++ "]"
  | .obj fields => "\x7b" ++ String.intercalate "," (renderFields fields) ++ "\x7d"

def renderItems : List Json → List String
  | [] => []
  | item :: rest => render item :: renderItems rest

def renderFields : List (String × Json) → List String
  | [] => []
  | (key, value) :: rest => (quote key ++ ":" ++ render value) :: renderFields rest

end

/-- The break before a line at a depth. -/
def lineBreak (level : Nat) : String :=
  "\n" ++ String.ofList (List.replicate (2 * level) ' ')

/-- Entries between brackets, one a line. -/
def block (level : Nat) (opening closing : String) (entries : List String) : String :=
  if entries.isEmpty then opening ++ closing
  else
    opening ++ lineBreak (level + 1) ++
      String.intercalate ("," ++ lineBreak (level + 1)) entries ++
      lineBreak level ++ closing

mutual

/-- A value on several lines, the first of which is at a depth. -/
def prettyAt (level : Nat) : Json → String
  | .null => "null"
  | .bool b => if b then "true" else "false"
  | .num n => n.render
  | .str s => quote s
  | .arr items => block level "[" "]" (prettyItems (level + 1) items)
  | .obj fields => block level "\x7b" "\x7d" (prettyFields (level + 1) fields)

def prettyItems (level : Nat) : List Json → List String
  | [] => []
  | item :: rest => prettyAt level item :: prettyItems level rest

def prettyFields (level : Nat) : List (String × Json) → List String
  | [] => []
  | (key, value) :: rest =>
      (quote key ++ ": " ++ prettyAt level value) :: prettyFields level rest

end

def pretty (value : Json) : String :=
  prettyAt 0 value

end TenderSearch.Json
