import SpaceLink.Json.Basic
import SpaceLink.Text.Numeral

/-! # Reading JSON

A text is one value with blanks around it. Each step gives the value and the rest of the input, or
nothing if the input is not of the form.
-/
namespace SpaceLink.Json

abbrev Parse (α : Type) := List Char → Option (α × List Char)

def isBlank (c : Char) : Bool := c = ' ' || c = '\n' || c = '\t' || c = '\r'

def skipBlanks (input : List Char) : List Char := input.dropWhile isBlank

def hexUnit : Parse Nat
  | a :: b :: c :: d :: rest => do
    let digits ← [a, b, c, d].mapM Text.hexDigit?
    return (digits.foldl (fun n digit => 16 * n + digit) 0, rest)
  | _ => none

/-- What a string is made of: characters, and code units of the surrogate range. -/
inductive StringPart where
  | char (c : Char)
  | surrogate (unit : Nat)

def StringPart.ofUnit (unit : Nat) : StringPart :=
  if 0xD800 ≤ unit ∧ unit < 0xE000 then .surrogate unit else .char (Char.ofNat unit)

/-- What stands for itself or for a control character behind a backslash. -/
def simpleEscape? (c : Char) : Option Char :=
  [('"', '"'), ('\\', '\\'), ('/', '/'), ('b', '\x08'), ('f', '\x0c'), ('n', '\n'), ('r', '\r'),
    ('t', '\t')].lookup c

/-- The parts of a string up to its closing quote, which is taken too. -/
def stringParts : Nat → List StringPart → Parse (List StringPart)
  | 0, _, _ => none
  | steps + 1, done, input =>
    match input with
    | '"' :: rest => some (done.reverse, rest)
    | '\\' :: 'u' :: rest => do
      let (unit, rest) ← hexUnit rest
      stringParts steps (.ofUnit unit :: done) rest
    | '\\' :: c :: rest => do
      let c ← simpleEscape? c
      stringParts steps (.char c :: done) rest
    | c :: rest => if c.toNat < 0x20 then none else stringParts steps (.char c :: done) rest
    | [] => none

/-- The text of the parts. A high surrogate goes with the low one behind it, and neither stands
alone. -/
def joinParts : List StringPart → Option (List Char)
  | [] => some []
  | .char c :: rest => (joinParts rest).map (c :: ·)
  | .surrogate high :: .surrogate low :: rest =>
    if high < 0xDC00 ∧ 0xDC00 ≤ low then
      (joinParts rest).map (Char.ofNat (0x10000 + (high - 0xD800) * 0x400 + (low - 0xDC00)) :: ·)
    else none
  | .surrogate _ :: _ => none

def stringBody (input : List Char) : Option (Option String × List Char) := do
  let (parts, rest) ← stringParts (input.length + 1) [] input
  return ((joinParts parts).map String.ofList, rest)

def someDigits (input : List Char) : Option (List Char × List Char) :=
  let digits := input.takeWhile Char.isDigit
  if digits.isEmpty then none else some (digits, input.dropWhile Char.isDigit)

/-- Digits of a whole number: no zero in front of others. -/
def wholeDigits (input : List Char) : Option (List Char × List Char) :=
  match input with
  | '0' :: c :: rest => if c.isDigit then none else some (['0'], c :: rest)
  | _ => someDigits input

def fraction : Parse (List Char)
  | '.' :: rest => (someDigits rest).map fun (digits, rest) => ('.' :: digits, rest)
  | rest => some ([], rest)

def exponent : Parse (List Char)
  | c :: rest =>
    if c = 'e' ∨ c = 'E' then
      let (sign, rest) := match rest with
        | '+' :: rest => (['+'], rest)
        | '-' :: rest => (['-'], rest)
        | rest => ([], rest)
      (someDigits rest).map fun (digits, rest) => (c :: sign ++ digits, rest)
    else some ([], c :: rest)
  | [] => some ([], [])

def number (input : List Char) : Option (Json × List Char) := do
  let (sign, rest) := match input with
    | '-' :: rest => (['-'], rest)
    | rest => ([], rest)
  let (whole, rest) ← wholeDigits rest
  let (fractional, rest) ← fraction rest
  let (scale, rest) ← exponent rest
  let tail := fractional ++ scale
  if sign.isEmpty && tail.isEmpty then
    let n ← Text.digits? whole
    return (.natural n, rest)
  else return (.numeral (String.ofList (sign ++ whole ++ tail)), rest)

/-- The rest behind a word that has to come next. -/
def word (expected : String) (value : Json) (input : List Char) : Option (Json × List Char) :=
  let letters := expected.toList
  if letters.isPrefixOf input then some (value, input.drop letters.length) else none

mutual

def value : Nat → Parse Json
  | 0, _ => none
  | steps + 1, input =>
    match skipBlanks input with
    | '"' :: rest => (stringBody rest).map fun (text, rest) => (.string text, rest)
    | '[' :: rest =>
      match skipBlanks rest with
      | ']' :: rest => some (.array [], rest)
      | rest => do
        let (items, rest) ← items steps [] rest
        return (.array items, rest)
    | '\x7b' :: rest =>
      match skipBlanks rest with
      | '\x7d' :: rest => some (.object [], rest)
      | rest => do
        let (members, rest) ← members steps [] rest
        return (.object members, rest)
    | 't' :: rest => word "true" (.bool true) ('t' :: rest)
    | 'f' :: rest => word "false" (.bool false) ('f' :: rest)
    | 'n' :: rest => word "null" .null ('n' :: rest)
    | rest => number rest

def items : Nat → List Json → Parse (List Json)
  | 0, _, _ => none
  | steps + 1, done, input => do
    let (item, rest) ← value steps input
    match skipBlanks rest with
    | ',' :: rest => items steps (item :: done) rest
    | ']' :: rest => return ((item :: done).reverse, rest)
    | _ => none

def members : Nat → List (Option String × Json) → Parse (List (Option String × Json))
  | 0, _, _ => none
  | steps + 1, done, input =>
    match skipBlanks input with
    | '"' :: rest => do
      let (name, rest) ← stringBody rest
      match skipBlanks rest with
      | ':' :: rest => do
        let (item, rest) ← value steps rest
        match skipBlanks rest with
        | ',' :: rest => members steps ((name, item) :: done) rest
        | '\x7d' :: rest => return (((name, item) :: done).reverse, rest)
        | _ => none
      | _ => none
    | _ => none

end

/-- Reads a text that is one value. Every step takes a character, so there are enough of them. -/
def parse? (text : String) : Option Json :=
  let input := text.toList
  match value (input.length + 1) input with
  | some (json, rest) => if (skipBlanks rest).isEmpty then some json else none
  | none => none

end SpaceLink.Json
