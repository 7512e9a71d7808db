import Mathlib.Data.List.Basic
import Mathlib.Data.String.Basic

/-!
# Text operations

The string operations a systems language's standard library offers, on Lean strings: trimming
Unicode white space, ASCII case folding, splitting on a character or around the first or last
occurrence of a pattern, and parsing unsigned decimals with a bound.

Each operation is defined by recursion on the characters, so that it evaluates on closed
strings.
-/

set_option autoImplicit false

namespace Freshdock.Text

/-- The characters with the Unicode property `White_Space`. -/
def isWhitespace (c : Char) : Bool :=
  let n := c.toNat
  (9 ≤ n && n ≤ 13) || n == 0x20 || n == 0x85 || n == 0xA0 || n == 0x1680 ||
    (0x2000 ≤ n && n ≤ 0x200A) || n == 0x2028 || n == 0x2029 || n == 0x202F || n == 0x205F ||
    n == 0x3000

def isAsciiDigit (c : Char) : Bool := '0' ≤ c && c ≤ '9'

def isAsciiHexdigit (c : Char) : Bool :=
  isAsciiDigit c || ('a' ≤ c && c ≤ 'f') || ('A' ≤ c && c ≤ 'F')

/-- Without white space at either end. -/
def trim (s : String) : String :=
  String.ofList (((s.toList.dropWhile isWhitespace).reverse.dropWhile isWhitespace).reverse)

/-- Without any leading copies of `c`. -/
def trimStartMatches (s : String) (c : Char) : String :=
  String.ofList (s.toList.dropWhile (· == c))

/-- ASCII letters in lower case, every other character as it is. -/
def toAsciiLowercase (s : String) : String := String.ofList (s.toList.map Char.toLower)

/-- ASCII letters in upper case, every other character as it is. -/
def toAsciiUppercase (s : String) : String := String.ofList (s.toList.map Char.toUpper)

/-- With `new` in every place of `old`. -/
def replaceChar (s : String) (old new : Char) : String :=
  String.ofList (s.toList.map fun c => if c = old then new else c)

def eqIgnoreAsciiCase (s t : String) : Bool := toAsciiLowercase s == toAsciiLowercase t

def startsWith (s pat : String) : Bool := pat.toList.isPrefixOf s.toList

def contains (s : String) (c : Char) : Bool := s.toList.contains c

/-- Does `pat` occur anywhere in `s`? -/
def containsText (s pat : String) : Bool := s.toList.tails.any pat.toList.isPrefixOf

/-- The rest of `s` after `pat`, when `s` starts with it. -/
def stripPrefix (s pat : String) : Option String :=
  if startsWith s pat then some (String.ofList (s.toList.drop pat.toList.length)) else none

/-- What comes before `pat` at the end of `s`. -/
def stripSuffix (s pat : String) : Option String :=
  if pat.toList.isSuffixOf s.toList then
    some (String.ofList (s.toList.take (s.toList.length - pat.toList.length)))
  else none

/-- The pieces between the occurrences of `sep`: always one more than there are of them. -/
def splitChars (sep : Char) : List Char → List (List Char)
  | [] => [[]]
  | c :: cs =>
      if c = sep then [] :: splitChars sep cs
      else
        match splitChars sep cs with
        | [] => [[c]]
        | piece :: pieces => (c :: piece) :: pieces

def split (s : String) (sep : Char) : List String := (splitChars sep s.toList).map String.ofList

/-- Around the first occurrence of `sep`. -/
def splitOnceChars (sep : Char) : List Char → Option (List Char × List Char)
  | [] => none
  | c :: cs =>
      if c = sep then some ([], cs)
      else (splitOnceChars sep cs).map fun (before, after) => (c :: before, after)

def splitOnce (s : String) (sep : Char) : Option (String × String) :=
  (splitOnceChars sep s.toList).map fun (before, after) =>
    (String.ofList before, String.ofList after)

/-- Around the last occurrence of `pat`. -/
def rsplitOnceChars (pat : List Char) : List Char → Option (List Char × List Char)
  | [] => if pat = [] then some ([], []) else none
  | c :: cs =>
      match rsplitOnceChars pat cs with
      | some (before, after) => some (c :: before, after)
      | none =>
          if pat.isPrefixOf (c :: cs) then some ([], (c :: cs).drop pat.length) else none

def rsplitOnce (s pat : String) : Option (String × String) :=
  (rsplitOnceChars pat.toList s.toList).map fun (before, after) =>
    (String.ofList before, String.ofList after)

/-- The maximal runs of characters that are not white space. -/
def splitWhitespaceChars : List Char → List (List Char)
  | [] => []
  | c :: cs =>
      if isWhitespace c then splitWhitespaceChars cs
      else
        match cs with
        | [] => [[c]]
        | next :: _ =>
            if isWhitespace next then [c] :: splitWhitespaceChars cs
            else
              match splitWhitespaceChars cs with
              | [] => [[c]]
              | word :: words => (c :: word) :: words

def splitWhitespace (s : String) : List String :=
  (splitWhitespaceChars s.toList).map String.ofList

/-- The value of a digit string, most significant digit first. -/
def decimalValue (digits : List Char) : Nat :=
  digits.foldl (fun value c => 10 * value + (c.toNat - '0'.toNat)) 0

/-- A decimal below `bound`: at least one digit, after an optional `+`. -/
def parseUnsigned (bound : Nat) (s : String) : Option Nat :=
  let digits :=
    match s.toList with
    | '+' :: rest => rest
    | chars => chars
  if digits.isEmpty || !digits.all isAsciiDigit then none
  else if decimalValue digits < bound then some (decimalValue digits) else none

def parseU32 (s : String) : Option Nat := parseUnsigned (2 ^ 32) s

def parseU64 (s : String) : Option Nat := parseUnsigned (2 ^ 64) s

end Freshdock.Text
