import Mathlib.Data.List.DropRight
import Mathlib.Data.List.Infix

/-!
# Python text

A `str` as the list of its characters, with the methods of it the scripts use, and `int(s, base)`. The Unicode database
is a parameter (`decimal`: the value of a decimal digit outside ASCII); white space and line boundaries are listed.
Upper and lower case are those of ASCII.
-/

namespace Py

def isSpace (c : Char) : Bool :=
  c.toNat ∈ [0x09, 0x0A, 0x0B, 0x0C, 0x0D, 0x1C, 0x1D, 0x1E, 0x1F, 0x20, 0x85, 0xA0, 0x1680, 0x2028, 0x2029,
    0x202F, 0x205F,
    0x3000] || (0x2000 ≤ c.toNat && c.toNat ≤ 0x200A)

def strip (s : List Char) : List Char := (s.dropWhile isSpace).rdropWhile isSpace

def upper (s : List Char) : List Char := s.map Char.toUpper

def lower (s : List Char) : List Char := s.map Char.toLower

def contains (sub s : List Char) : Bool := s.tails.any sub.isPrefixOf

def isLineBreak (c : Char) : Bool :=
  c.toNat ∈ [0x0A, 0x0B, 0x0C, 0x0D, 0x1C, 0x1D, 0x1E, 0x85, 0x2028, 0x2029]

def splitlinesFrom (cur : List Char) : List Char → List (List Char)
  | [] => if cur.isEmpty then [] else [cur.reverse]
  | '\r' :: '\n' :: cs => cur.reverse :: splitlinesFrom [] cs
  | c :: cs => if isLineBreak c then cur.reverse :: splitlinesFrom [] cs else splitlinesFrom (c :: cur) cs

def splitlines (s : List Char) : List (List Char) := splitlinesFrom [] s

/-! ### `int` -/

/-- What `int` reads for a character: digits and white space outside ASCII become those of ASCII. -/
def toAscii (decimal : Char → Option (Fin 10)) (c : Char) : Char :=
  if c.toNat < 127 then c
  else if isSpace c then ' '
  else match decimal c with
    | some d => Char.ofNat (0x30 + d)
    | none => '?'

def isAsciiSpace (c : Char) : Bool := c.toNat = 0x20 || (0x09 ≤ c.toNat && c.toNat ≤ 0x0D)

def digit (base : Nat) (c : Char) : Option Nat :=
  let d :=
    if '0' ≤ c ∧ c ≤ '9' then some (c.toNat - 0x30)
    else if 'a' ≤ c ∧ c ≤ 'z' then some (c.toNat - 0x61 + 10)
    else if 'A' ≤ c ∧ c ≤ 'Z' then some (c.toNat - 0x41 + 10)
    else none
  d.filter (· < base)

/-- The rest of a number, with single underscores between digits and white space after it. -/
def digitsFrom (base acc : Nat) (underscore : Bool) : List Char → Option Nat
  | [] => if underscore then none else some acc
  | c :: cs =>
    match digit base c with
    | some d => digitsFrom base (acc * base + d) false cs
    | none =>
      if underscore then none
      else if c = '_' then digitsFrom base acc true cs
      else if (c :: cs).all isAsciiSpace then some acc
      else none

def digits (base : Nat) : List Char → Option Nat
  | [] => none
  | c :: cs => (digit base c).bind fun d => digitsFrom base d false cs

/-- With base 16 the digits may follow `0x`, and one underscore after it. -/
def unsigned (base : Nat) (cs : List Char) : Option Nat :=
  match base, cs with
  | 16, '0' :: x :: '_' :: cs => if x = 'x' ∨ x = 'X' then digits 16 cs else digits 16 ('0' :: x :: '_' :: cs)
  | 16, '0' :: x :: cs => if x = 'x' ∨ x = 'X' then digits 16 cs else digits 16 ('0' :: x :: cs)
  | base, cs => digits base cs

/-- `int(s, base)`; `none` is `ValueError`. -/
def int (decimal : Char → Option (Fin 10)) (base : Nat) (s : List Char) : Option Int :=
  match (s.map (toAscii decimal)).dropWhile isAsciiSpace with
  | '+' :: cs => (unsigned base cs).map Int.ofNat
  | '-' :: cs => (unsigned base cs).map fun n => -(n : Int)
  | cs => (unsigned base cs).map Int.ofNat

end Py
