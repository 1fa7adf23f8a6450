import SettingsLang.Decimal.Digits

/-!
TOML strings as they stand in a document: basic strings with escapes, literal strings without, and
the multi-line form of either. A reader takes the characters of a document from some point on, and
answers with what it read and with the characters after it.
-/

namespace SettingsLang.Toml

/-- Reads something from the front of a document, or refuses it. -/
abbrev Reader (α : Type) := List Char → Option (α × List Char)

/-- A character that stands for itself in a line: a tab or anything but a control character. -/
def isPlain (c : Char) : Bool :=
  c == '\t' || (0x20 ≤ c.toNat && c.toNat != 0x7F)

def isSpace (c : Char) : Bool :=
  c == ' ' || c == '\t'

def skipSpace (cs : List Char) : List Char :=
  cs.dropWhile isSpace

/-- The document after a line break, which is a newline with or without a carriage return before
it. -/
def lineBreak? : List Char → Option (List Char)
  | '\n' :: rest => some rest
  | '\r' :: '\n' :: rest => some rest
  | _ => none

/-- The document after white space and line breaks. -/
def skipEmptyLines : List Char → List Char
  | [] => []
  | '\r' :: '\n' :: rest => skipEmptyLines rest
  | c :: rest => if isSpace c || c == '\n' then skipEmptyLines rest else c :: rest

/-- The character of a code point given in hexadecimal, if there is one. -/
def scalarValue? (hex : List Char) : Option Char :=
  let n := Decimal.ofDigits 16 hex
  if hex.all (Decimal.isDigitOf 16) && (n < 0xD800 || (0xDFFF < n && n < 0x110000)) then
    some (Char.ofNat n)
  else none

/-- The character that a letter after a backslash stands for. -/
def shortEscape? : Char → Option Char
  | 'b' => some '\x08'
  | 't' => some '\t'
  | 'n' => some '\n'
  | 'f' => some '\x0c'
  | 'r' => some '\r'
  | '"' => some '"'
  | '\\' => some '\\'
  | _ => none

def escape? : Reader Char
  | 'u' :: rest =>
    if rest.length < 4 then none else (scalarValue? (rest.take 4)).map (·, rest.drop 4)
  | 'U' :: rest =>
    if rest.length < 8 then none else (scalarValue? (rest.take 8)).map (·, rest.drop 8)
  | c :: rest => (shortEscape? c).map (·, rest)
  | [] => none

def before (c : Char) (read : Option (List Char × List Char)) : Option (List Char × List Char) :=
  read.map fun (cs, rest) => (c :: cs, rest)

/-- Reads a basic string after its opening quote; `fuel` bounds the characters looked at. -/
def basicBody : (fuel : Nat) → Reader (List Char)
  | fuel + 1, c :: rest =>
    if c = '"' then some ([], rest)
    else if c = '\\' then (escape? rest).bind fun (e, rest) => before e (basicBody fuel rest)
    else if isPlain c then before c (basicBody fuel rest)
    else none
  | _, _ => none

/-- Reads the end of a multi-line string, three of its quotes and up to two more before them,
which belong to the string. -/
def closing? (quote : Char) : Reader (List Char) := fun cs =>
  let run := (cs.takeWhile (· == quote)).length
  if run < 3 then none
  else
    let inside := min (run - 3) 2
    some (List.replicate inside quote, cs.drop (inside + 3))

/-- The document after a backslash that ends a line: the line break and all white space up to the
next character are no part of the string. -/
def continued? (cs : List Char) : Option (List Char) :=
  (lineBreak? (skipSpace cs)).map skipEmptyLines

/-- Reads a multi-line basic string after its opening quotes. Line breaks are newlines whichever
way they are written. -/
def multilineBasicBody : (fuel : Nat) → Reader (List Char)
  | 0, _ => none
  | fuel + 1, cs =>
    match closing? '"' cs, lineBreak? cs, cs with
    | some ending, _, _ => some ending
    | none, some rest, _ => before '\n' (multilineBasicBody fuel rest)
    | none, none, [] => none
    | none, none, c :: rest =>
      if c = '\\' then
        match continued? rest with
        | some rest => multilineBasicBody fuel rest
        | none => (escape? rest).bind fun (e, rest) => before e (multilineBasicBody fuel rest)
      else if isPlain c then before c (multilineBasicBody fuel rest)
      else none

def literalBody (cs : List Char) : Option (List Char × List Char) :=
  let isInside (c : Char) : Bool := isPlain c && c != '\''
  match cs.dropWhile isInside with
  | '\'' :: rest => some (cs.takeWhile isInside, rest)
  | _ => none

/-- Reads a multi-line literal string after its opening quotes. -/
def multilineLiteralBody : (fuel : Nat) → Reader (List Char)
  | 0, _ => none
  | fuel + 1, cs =>
    match closing? '\'' cs, lineBreak? cs, cs with
    | some ending, _, _ => some ending
    | none, some rest, _ => before '\n' (multilineLiteralBody fuel rest)
    | none, none, [] => none
    | none, none, c :: rest =>
      if isPlain c then before c (multilineLiteralBody fuel rest) else none

/-- The document after a line break, if there is one at its front: a line break right after the
opening quotes of a multi-line string is no part of it. -/
def skipFirstBreak (cs : List Char) : List Char :=
  (lineBreak? cs).getD cs

def lineString? : Reader String := fun cs =>
  let body := match cs with
    | '"' :: rest => basicBody rest.length rest
    | '\'' :: rest => literalBody rest
    | _ => none
  body.map fun (inside, rest) => (String.ofList inside, rest)

def string? : Reader String := fun cs =>
  let whole (body : Option (List Char × List Char)) : Option (String × List Char) :=
    body.map fun (inside, rest) => (String.ofList inside, rest)
  match cs with
  | '"' :: '"' :: '"' :: rest => whole (multilineBasicBody rest.length (skipFirstBreak rest))
  | '\'' :: '\'' :: '\'' :: rest => whole (multilineLiteralBody rest.length (skipFirstBreak rest))
  | cs => lineString? cs

end SettingsLang.Toml
