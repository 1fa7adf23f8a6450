import SettingsLang.Text.Hidden

/-!
A text as a message shows it: in double quotes, with escapes for what would be misread.
-/

namespace SettingsLang.Text

attribute [local instance (high)] instPowNat

def hexDigit (n : Nat) : Char :=
  if n < 10 then Char.ofNat (48 + n) else Char.ofNat (87 + n)

/-- The code point of a character in hexadecimal, without leading zeros. -/
def hexadecimal (c : Char) : List Char :=
  let places := (List.range 6).map fun place => hexDigit (c.toNat / 16 ^ (5 - place) % 16)
  match places.dropWhile (· == '0') with
  | [] => ['0']
  | ds => ds

def shownChar (c : Char) : List Char :=
  match c with
  | '\x00' => ['\\', '0']
  | '\t' => ['\\', 't']
  | '\n' => ['\\', 'n']
  | '\r' => ['\\', 'r']
  | '"' => ['\\', '"']
  | '\\' => ['\\', '\\']
  | c => if isHidden c then ['\\', 'u', '\x7b'] ++ hexadecimal c ++ ['\x7d'] else [c]

def shown (text : String) : String :=
  String.ofList ('"' :: text.toList.flatMap shownChar ++ ['"'])

example : hexadecimal '\u00a0' = ['a', '0'] := by decide

end SettingsLang.Text
