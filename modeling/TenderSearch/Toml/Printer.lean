import TenderSearch.Json.Printer

/-!
# Writing TOML text

A string is written in the plainest of four ways that can hold it. Lists of
several strings take one line each.
-/

namespace TenderSearch.Toml

inductive Quoting where
  | basic
  | literal
  | basicLines
  | literalLines
deriving DecidableEq

/-- Has no place in a string but as an escape. -/
def needsCode (c : Char) : Bool :=
  c ≠ '\t' && c ≠ '\n' && (c.toNat < 0x20 || c.toNat = 0x7F)

/-- The length of the longest run of a character, where one of so many is just
being read. -/
def longestRun (mark : Char) (current : Nat) : List Char → Nat
  | [] => current
  | c :: rest =>
      if c = mark then longestRun mark (current + 1) rest
      else max current (longestRun mark 0 rest)

/-- How a string is written: in quotes without escapes, or in apostrophes, or
the same on several lines, or else with escapes. -/
def Quoting.of (content : List Char) : Quoting :=
  let codes := content.any needsCode
  let lines := content.contains '\n'
  let quotes := longestRun '"' 0 content
  let apostrophes := longestRun '\'' 0 content
  let backslash := content.contains '\\'
  if !codes && !backslash && quotes = 0 && !lines then .basic
  else if !codes && apostrophes = 0 && !lines then .literal
  else if !codes && !backslash && quotes ≤ 2 then .basicLines
  else if !codes && apostrophes ≤ 2 then .literalLines
  else if lines then .basicLines
  else .basic

def Quoting.delimiter : Quoting → List Char
  | .basic => ['"']
  | .literal => ['\'']
  | .basicLines => ['"', '"', '"']
  | .literalLines => ['\'', '\'', '\'']

def hexDigit (n : Nat) : Char :=
  (Nat.digitChar (n % 16)).toUpper

/-- How a character other than a quote is written between quotes, where line
breaks may or may not stand for themselves. -/
def escape (lines : Bool) (c : Char) : List Char :=
  if c = '\x08' then ['\\', 'b']
  else if c = '\t' then ['\\', 't']
  else if c = '\n' then (if lines then ['\n'] else ['\\', 'n'])
  else if c = '\x0c' then ['\\', 'f']
  else if c = '\r' then ['\\', 'r']
  else if c = '\\' then ['\\', '\\']
  else if needsCode c then
    ['\\', 'u', '0', '0', hexDigit (c.toNat / 16), hexDigit c.toNat]
  else [c]

/-- Text between quotes, of which so many stand directly in front of it. Two
quotes in a row need no escape on several lines. -/
def escapeAll (lines : Bool) (run : Nat) : List Char → List Char
  | [] => []
  | c :: rest =>
      if c = '"' then
        if lines && run < 2 then '"' :: escapeAll lines (run + 1) rest
        else '\\' :: '"' :: escapeAll lines 0 rest
      else escape lines c ++ escapeAll lines 0 rest

/-- The text between the delimiters of a string. -/
def Quoting.body (content : List Char) : Quoting → List Char
  | .basic => escapeAll false 0 content
  | .literal => content
  | .basicLines => (if content.contains '\n' then ['\n'] else []) ++ escapeAll true 0 content
  | .literalLines => (if content.contains '\n' then ['\n'] else []) ++ content

def Quoting.write (quoting : Quoting) (content : List Char) : List Char :=
  quoting.delimiter ++ quoting.body content ++ quoting.delimiter

def writeText (s : String) : List Char :=
  (Quoting.of s.toList).write s.toList

def writeInteger (n : Int) : List Char :=
  (Json.Number.render (.int n)).toList

def writeTextLines : List String → List Char
  | [] => []
  | s :: rest => [' ', ' ', ' ', ' '] ++ writeText s ++ [',', '\n'] ++ writeTextLines rest

def writeTexts : List String → List Char
  | [] => ['[', ']']
  | [s] => ['['] ++ writeText s ++ [']']
  | items => ['[', '\n'] ++ writeTextLines items ++ [']']

def writeAssignment (key : String) (value : List Char) : List Char :=
  key.toList ++ [' ', '=', ' '] ++ value ++ ['\n']

def writeHeader (key : String) : List Char :=
  ['['] ++ key.toList ++ [']', '\n']

end TenderSearch.Toml
