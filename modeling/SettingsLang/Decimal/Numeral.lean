import SettingsLang.Decimal.Binary64

/-!
Reading decimal numerals: `-12.5e+3`, a sign, an integer part, a fraction and an exponent.
-/

namespace SettingsLang.Decimal

def signed : List Char → Bool × List Char
  | '-' :: rest => (true, rest)
  | '+' :: rest => (false, rest)
  | rest => (false, rest)

/-- The parts of an unsigned numeral: integer part, fraction and exponent, the last two only if
their marks are there. -/
structure Numeral where
  whole : List Char
  fraction : Option (List Char)
  exponent : Option (List Char)

/-- Cuts a numeral at its point and at its exponent mark. -/
def Numeral.cut (cs : List Char) : Numeral :=
  let isMark (c : Char) : Bool := c == 'e' || c == 'E'
  let mantissa := cs.takeWhile (!isMark ·)
  let exponent := match cs.dropWhile (!isMark ·) with
    | [] => none
    | _ :: rest => some rest
  let fraction := match mantissa.dropWhile (· != '.') with
    | [] => none
    | _ :: rest => some rest
  ⟨mantissa.takeWhile (· != '.'), fraction, exponent⟩

def ofParts (negative : Bool) (whole fraction : List Char) (exponent : Int) : Decimal :=
  ⟨negative, ofDigits 10 (whole ++ fraction), exponent - fraction.length⟩

def integer? (cs : List Char) : Option Int :=
  let (negative, ds) := signed cs
  if ds.isEmpty || !ds.all (isDigitOf 10) then none
  else some (if negative then -(ofDigits 10 ds : Int) else ofDigits 10 ds)

/-- A decimal numeral, all of whose parts hold digits. -/
def read? (cs : List Char) : Option Decimal := do
  let (negative, rest) := signed cs
  let numeral := Numeral.cut rest
  let fraction := numeral.fraction.getD []
  let exponent ← match numeral.exponent with
    | none => some 0
    | some ds => integer? ds
  if (numeral.whole ++ fraction).isEmpty || !(numeral.whole ++ fraction).all (isDigitOf 10) then
    none
  else some (ofParts negative numeral.whole fraction exponent)

end SettingsLang.Decimal

namespace SettingsLang.Binary64

/-- The number nearest to a numeral; `inf`, `-inf` and `NaN` are the numbers without one. -/
def ofText? (text : String) : Option Binary64 :=
  if text == "inf" then some (infinity false)
  else if text == "-inf" then some (infinity true)
  else if text == "NaN" then some nan
  else (Decimal.read? text.toList).map Decimal.toBinary64

end SettingsLang.Binary64
