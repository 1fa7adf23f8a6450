import SettingsLang.Decimal.Numeral
import SettingsLang.Toml.Value
import SettingsLang.Toml.Text

/-!
TOML values without quotes or brackets: booleans, integers, floats, dates and times. Such a value
is the longest run of characters that can belong to one, so what follows it is never part of it.
-/

namespace SettingsLang.Toml

def isBareValueChar (c : Char) : Bool :=
  c.isAlphanum || c == '+' || c == '-' || c == '_' || c == '.' || c == ':'

/-- The digits of a run in which single underscores may stand between two digits. -/
def digitRun? (isDigit : Char → Bool) : List Char → Option (List Char)
  | [] => none
  | [c] => if isDigit c then some [c] else none
  | c :: '_' :: rest => if isDigit c then (digitRun? isDigit rest).map (c :: ·) else none
  | c :: rest => if isDigit c then (digitRun? isDigit rest).map (c :: ·) else none

/-- A run of decimal digits that does not start with a zero, or a zero alone. -/
def wholeRun? (cs : List Char) : Option (List Char) :=
  match digitRun? (Decimal.isDigitOf 10) cs with
  | some ('0' :: _ :: _) => none
  | run => run

/-- The number as an integer of 64 bits, if it is one. -/
def inRange? (n : Int) : Option Int :=
  if -9223372036854775808 ≤ n ∧ n < 9223372036854775808 then some n else none

def basedInteger? (base : Nat) (cs : List Char) : Option Int :=
  (digitRun? (Decimal.isDigitOf base) cs).bind fun ds => inRange? (Decimal.ofDigits base ds)

/-- An integer. Those outside 64 bits are refused. -/
def integer? : List Char → Option Int
  | '0' :: 'x' :: rest => basedInteger? 16 rest
  | '0' :: 'o' :: rest => basedInteger? 8 rest
  | '0' :: 'b' :: rest => basedInteger? 2 rest
  | cs =>
    let (negative, rest) := Decimal.signed cs
    (wholeRun? rest).bind fun ds =>
      let n := Decimal.ofDigits 10 ds
      inRange? (if negative then -n else n)

/-- The value of an exponent: a sign and a run of digits, zeros first or not. -/
def exponent? (cs : List Char) : Option Int :=
  let (negative, rest) := Decimal.signed cs
  (digitRun? (Decimal.isDigitOf 10) rest).map fun ds =>
    let n := Decimal.ofDigits 10 ds
    if negative then -(n : Int) else n

def decimal? (cs : List Char) : Option Decimal := do
  let (negative, rest) := Decimal.signed cs
  let numeral := Decimal.Numeral.cut rest
  if numeral.fraction.isNone && numeral.exponent.isNone then none
  else
    let whole ← wholeRun? numeral.whole
    let fraction ← match numeral.fraction with
      | none => some []
      | some ds => digitRun? (Decimal.isDigitOf 10) ds
    let exponent ← match numeral.exponent with
      | none => some 0
      | some ds => exponent? ds
    some (.ofParts negative whole fraction exponent)

/-- A float. A decimal too large for the format is refused, while one below its least number is
minus infinity. -/
def float? (cs : List Char) : Option Binary64 :=
  let (negative, rest) := Decimal.signed cs
  if rest = ['i', 'n', 'f'] then some (.infinity negative)
  else if rest = ['n', 'a', 'n'] then some { Binary64.nan with negative }
  else
    (decimal? cs).bind fun d =>
      if d.toBinary64 = .infinity false then none else some d.toBinary64

/-- Reads a number of two digits up to a greatest one. -/
def twoDigits? (most : Nat) : Reader Nat
  | a :: b :: rest =>
    let n := Decimal.ofDigits 10 [a, b]
    if a.isDigit && b.isDigit && n ≤ most then some (n, rest) else none
  | _ => none

def expect? (c : Char) : List Char → Option (List Char)
  | d :: rest => if d = c then some rest else none
  | [] => none

def daysIn (year month : Nat) : Nat :=
  if month = 2 then
    if year % 4 = 0 ∧ (year % 100 ≠ 0 ∨ year % 400 = 0) then 29 else 28
  else if month = 4 ∨ month = 6 ∨ month = 9 ∨ month = 11 then 30
  else 31

/-- The document after a date of the calendar. -/
def date? (cs : List Char) : Option (List Char) := do
  let (century, rest) ← twoDigits? 99 cs
  let (decade, rest) ← twoDigits? 99 rest
  let rest ← expect? '-' rest
  let (month, rest) ← twoDigits? 12 rest
  let rest ← expect? '-' rest
  let (day, rest) ← twoDigits? 31 rest
  if month = 0 ∨ day = 0 ∨ daysIn (100 * century + decade) month < day then none else some rest

/-- The document after a time of day, whose last minute may have a leap second. -/
def time? (cs : List Char) : Option (List Char) := do
  let (_, rest) ← twoDigits? 23 cs
  let rest ← expect? ':' rest
  let (_, rest) ← twoDigits? 59 rest
  let rest ← expect? ':' rest
  let (_, rest) ← twoDigits? 60 rest
  match rest with
  | '.' :: rest =>
    if (rest.takeWhile Char.isDigit).isEmpty then none else some (rest.dropWhile Char.isDigit)
  | rest => some rest

/-- The rest of a time is an offset from universal time, or nothing. -/
def isOffset : List Char → Bool
  | [] | ['Z'] | ['z'] => true
  | c :: rest =>
    (c == '+' || c == '-') &&
      match twoDigits? 23 rest with
      | some (_, ':' :: rest) => (twoDigits? 59 rest).any (·.2.isEmpty)
      | _ => false

def isZonedTime (cs : List Char) : Bool :=
  (time? cs).any isOffset

def isDatetime (cs : List Char) : Bool :=
  match date? cs with
  | some [] => true
  | some (c :: rest) => (c == 'T' || c == 't') && isZonedTime rest
  | none => time? cs == some []

def bareValue? (run : List Char) : Option Value :=
  if run = ['t', 'r', 'u', 'e'] then some (.boolean true)
  else if run = ['f', 'a', 'l', 's', 'e'] then some (.boolean false)
  else if isDatetime run then some (.datetime (String.ofList run))
  else
    match integer? run, float? run with
    | some n, _ => some (.integer n)
    | none, some x => some (.float x)
    | none, none => none

/-- Reads a bare value. A space between a date and a time does not end it. -/
def bare? : Reader Value := fun cs =>
  let run := cs.takeWhile isBareValueChar
  let rest := cs.dropWhile isBareValueChar
  match date? run, rest with
  | some [], ' ' :: more =>
    let time := more.takeWhile isBareValueChar
    if (time.head?).any Char.isDigit then
      if isZonedTime time then
        some (.datetime (String.ofList (run ++ ' ' :: time)), more.dropWhile isBareValueChar)
      else none
    else (bareValue? run).map (·, rest)
  | _, _ => (bareValue? run).map (·, rest)

end SettingsLang.Toml
