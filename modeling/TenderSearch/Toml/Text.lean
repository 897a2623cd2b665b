import TenderSearch.Json.Token

/-!
# TOML strings

Strings are written in four ways: basic ones with escapes and literal ones
without, on one line or on several. Every reader takes the text after the
opening quotes and returns what follows the closing ones.
-/

namespace TenderSearch.Toml.Text

open Json.Token (hexDigit? hex4? isHighSurrogate isLowSurrogate)

def isBlank (c : Char) : Bool :=
  c = ' ' || c = '\t'

/-- A control character other than tab. -/
def isControl (c : Char) : Bool :=
  c ≠ '\t' && (c.toNat < 0x20 || c.toNat = 0x7F)

/-- The character with a number, unless the number is half of a surrogate pair
or too large. -/
def scalar? (n : Nat) : Option Char :=
  if isHighSurrogate n || isLowSurrogate n || 0x110000 ≤ n then none else some (Char.ofNat n)

/-- The character that a one-letter escape stands for. -/
def shortEscape? : Char → Option Char
  | 'b' => some '\x08'
  | 't' => some '\t'
  | 'n' => some '\n'
  | 'f' => some '\x0c'
  | 'r' => some '\r'
  | '"' => some '"'
  | '\\' => some '\\'
  | _ => none

/-- Puts a character in front of what was read. -/
def cons? (c : Option Char) (read : Option (List Char × List Char)) :
    Option (List Char × List Char) := do
  let c ← c
  let (content, rest) ← read
  return (c :: content, rest)

def hex8? (a b c d e f g h : Char) : Option Nat := do
  return (← hex4? a b c d) * 0x10000 + (← hex4? e f g h)

/-- The content of a basic string on one line. -/
def basic? : List Char → Option (List Char × List Char)
  | [] => none
  | '"' :: rest => some ([], rest)
  | '\\' :: 'u' :: a :: b :: c :: d :: rest =>
      cons? ((hex4? a b c d).bind scalar?) (basic? rest)
  | '\\' :: 'U' :: a :: b :: c :: d :: e :: f :: g :: h :: rest =>
      cons? ((hex8? a b c d e f g h).bind scalar?) (basic? rest)
  | '\\' :: c :: rest => cons? (shortEscape? c) (basic? rest)
  | c :: rest => if isControl c || c = '\\' then none else cons? (some c) (basic? rest)

/-- The content of a literal string on one line. -/
def literal? : List Char → Option (List Char × List Char)
  | [] => none
  | '\'' :: rest => some ([], rest)
  | c :: rest => if isControl c then none else cons? (some c) (literal? rest)

/-- Where the reading of a string on several lines stands. -/
inductive Gap where
  /-- Between characters. -/
  | no
  /-- After a backslash and blanks: a line break has to come. -/
  | opening
  /-- After an escaped line break: blanks and line breaks are dropped. -/
  | dropping
deriving DecidableEq

/-- A line break in a string on several lines. -/
def lineBreak? (gap : Gap) (read : Gap → Option (List Char × List Char)) :
    Option (List Char × List Char) :=
  match gap with
  | .no => cons? (some '\n') (read .no)
  | _ => read .dropping

/-- The content of a basic string on several lines. Up to two quotes may stand
before the closing ones. -/
def basicLines? (gap : Gap) : List Char → Option (List Char × List Char)
  | [] => none
  | '\n' :: rest => lineBreak? gap fun gap => basicLines? gap rest
  | '\r' :: '\n' :: rest => lineBreak? gap fun gap => basicLines? gap rest
  | c :: rest =>
      if isBlank c && gap ≠ .no then basicLines? gap rest
      else if gap = .opening then none
      else
        match c, rest with
        | '"', '"' :: '"' :: '"' :: '"' :: rest => some (['"', '"'], rest)
        | '"', '"' :: '"' :: '"' :: rest => some (['"'], rest)
        | '"', '"' :: '"' :: rest => some ([], rest)
        | '\\', 'u' :: a :: b :: c :: d :: rest =>
            cons? ((hex4? a b c d).bind scalar?) (basicLines? .no rest)
        | '\\', 'U' :: a :: b :: c :: d :: e :: f :: g :: h :: rest =>
            cons? ((hex8? a b c d e f g h).bind scalar?) (basicLines? .no rest)
        | '\\', c :: after =>
            match shortEscape? c with
            | some c => cons? (some c) (basicLines? .no after)
            | none => basicLines? .opening (c :: after)
        | c, rest =>
            if isControl c || c = '\\' then none else cons? (some c) (basicLines? .no rest)

/-- The content of a literal string on several lines. Up to two quotes may
stand before the closing ones. -/
def literalLines? : List Char → Option (List Char × List Char)
  | [] => none
  | '\'' :: '\'' :: '\'' :: '\'' :: '\'' :: rest => some (['\'', '\''], rest)
  | '\'' :: '\'' :: '\'' :: '\'' :: rest => some (['\''], rest)
  | '\'' :: '\'' :: '\'' :: rest => some ([], rest)
  | '\n' :: rest => cons? (some '\n') (literalLines? rest)
  | '\r' :: '\n' :: rest => cons? (some '\n') (literalLines? rest)
  | c :: rest => if isControl c then none else cons? (some c) (literalLines? rest)

/-- The text without a line break at its start. -/
def dropLineBreak : List Char → List Char
  | '\n' :: rest => rest
  | '\r' :: '\n' :: rest => rest
  | rest => rest

/-- A string of any kind at the head of a text, and what follows it. -/
def read? : List Char → Option (String × List Char)
  | '"' :: '"' :: '"' :: rest => finish (basicLines? .no (dropLineBreak rest))
  | '"' :: rest => finish (basic? rest)
  | '\'' :: '\'' :: '\'' :: rest => finish (literalLines? (dropLineBreak rest))
  | '\'' :: rest => finish (literal? rest)
  | _ => none
where
  finish (read : Option (List Char × List Char)) : Option (String × List Char) :=
    read.map fun (content, rest) => (String.ofList content, rest)

/-- A string on one line, as keys may be written. -/
def readLine? : List Char → Option (String × List Char)
  | '"' :: rest => (basic? rest).map fun (content, rest) => (String.ofList content, rest)
  | '\'' :: rest => (literal? rest).map fun (content, rest) => (String.ofList content, rest)
  | _ => none

end TenderSearch.Toml.Text
