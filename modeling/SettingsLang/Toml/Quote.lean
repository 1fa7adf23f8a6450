import SettingsLang.Decimal.Digits

/-!
Writing strings in TOML. The plainest form that holds the text as it is comes first: a basic or a
literal string on one line, then either form on several lines. If none holds it, a basic string
does, since it has escapes. A tab speaks for no form and against none: a literal string holds it as
it is, while a basic string writes it as an escape.
-/

namespace SettingsLang.Toml

inductive Quotation where
  | basic
  | literal
  | multilineBasic
  | multilineLiteral
  deriving DecidableEq, Repr

/-- A character that only an escape can write, in any form. Tabs and newlines are none of them. -/
def needsEscape (c : Char) : Bool :=
  c != '\t' && c != '\n' && (c.toNat < 0x20 || c.toNat == 0x7F)

/-- The length of the longest run of a character, `here` counting those just before the text. -/
def longestRun (char : Char) (here : Nat) : List Char → Nat
  | [] => here
  | c :: rest =>
    if c = char then longestRun char (here + 1) rest else max here (longestRun char 0 rest)

/-- The form in which a text is written. -/
def Quotation.ofText (text : List Char) : Quotation :=
  let plain := !text.any needsEscape
  let oneLine := !text.contains '\n'
  let straight := !text.contains '\\'
  if plain && oneLine && straight && longestRun '"' 0 text = 0 then .basic
  else if plain && oneLine && longestRun '\'' 0 text = 0 then .literal
  else if plain && straight && longestRun '"' 0 text < 3 then .multilineBasic
  else if plain && longestRun '\'' 0 text < 3 then .multilineLiteral
  else if oneLine then .basic
  else .multilineBasic

def hexCapital (n : Nat) : Char :=
  if n < 10 then Char.ofNat (48 + n) else Char.ofNat (55 + n)

/-- A character as it is written with escapes, on one line. -/
def escapedChar (c : Char) : List Char :=
  match c with
  | '\x08' => ['\\', 'b']
  | '\t' => ['\\', 't']
  | '\n' => ['\\', 'n']
  | '\x0c' => ['\\', 'f']
  | '\r' => ['\\', 'r']
  | '"' => ['\\', '"']
  | '\\' => ['\\', '\\']
  | c =>
    if needsEscape c then
      ['\\', 'u', '0', '0', hexCapital (c.toNat / 16), hexCapital (c.toNat % 16)]
    else [c]

/-- A text with escapes on several lines. Newlines are kept, and so are quotes but for every third
one of a run; `quotes` counts those of the run at hand. -/
def escapedLines (quotes : Nat) : List Char → List Char
  | [] => []
  | '"' :: rest =>
    if quotes < 2 then '"' :: escapedLines (quotes + 1) rest
    else '\\' :: '"' :: escapedLines 0 rest
  | '\n' :: rest => '\n' :: escapedLines 0 rest
  | c :: rest => escapedChar c ++ escapedLines 0 rest

/-- A text between marks of several lines. A text with a newline starts on a line of its own. -/
def onLines (mark text inside : List Char) : List Char :=
  mark ++ (if text.contains '\n' then ['\n'] else []) ++ inside ++ mark

def Quotation.write (text : List Char) : Quotation → List Char
  | .basic => '"' :: text.flatMap escapedChar ++ ['"']
  | .literal => '\'' :: text ++ ['\'']
  | .multilineBasic => onLines ['"', '"', '"'] text (escapedLines 0 text)
  | .multilineLiteral => onLines ['\'', '\'', '\''] text text

def quoted (text : String) : String :=
  String.ofList ((Quotation.ofText text.toList).write text.toList)

example : quoted "a'b" = "\"a'b\"" := by decide
example : quoted "a\\b" = "'a\\b'" := by decide
example : quoted "a\tb" = "\"a\\tb\"" := by decide
example : quoted "\t\"" = "'\t\"'" := by decide

end SettingsLang.Toml
