/-!
Decimal digits of natural numbers, most significant first, and the value of a list of digits.
-/

namespace SettingsLang.Decimal

/-- The character of a digit; 9 and everything above it share one. -/
def digitChar : Nat → Char
  | 0 => '0'
  | 1 => '1'
  | 2 => '2'
  | 3 => '3'
  | 4 => '4'
  | 5 => '5'
  | 6 => '6'
  | 7 => '7'
  | 8 => '8'
  | _ => '9'

/-- The decimal digits of `n` before the digits `rest`, at most `fuel` of them. -/
def digitsOnto : (fuel n : Nat) → (rest : List Char) → List Char
  | 0, _, rest => rest
  | fuel + 1, n, rest =>
    if n < 10 then digitChar n :: rest
    else digitsOnto fuel (n / 10) (digitChar (n % 10) :: rest)

/-- The decimal digits of `n`, without leading zeros; zero has one digit. There are never more of
them than binary digits. -/
def digits (n : Nat) : List Char :=
  digitsOnto (n.log2 + 1) n []

def width (n : Nat) : Nat :=
  (digits n).length

/-- The value of a digit in a base up to sixteen, letters of either case above nine. -/
def digitValue? (c : Char) : Option Nat :=
  if '0' ≤ c ∧ c ≤ '9' then some (c.toNat - 48)
  else if 'a' ≤ c ∧ c ≤ 'f' then some (c.toNat - 87)
  else if 'A' ≤ c ∧ c ≤ 'F' then some (c.toNat - 55)
  else none

def isDigitOf (base : Nat) (c : Char) : Bool :=
  (digitValue? c).any (· < base)

/-- The number that a list of digits writes in a base, what is no digit counting as zero. -/
def ofDigits (base : Nat) (cs : List Char) : Nat :=
  cs.foldl (fun n c => n * base + (digitValue? c).getD 0) 0

/-- An integer in decimal, with a sign only if it is negative. -/
def integerText (n : Int) : String :=
  String.ofList (if n < 0 then '-' :: digits n.natAbs else digits n.natAbs)

example : integerText 0 = "0" := by decide
example : integerText (-9223372036854775808) = "-9223372036854775808" := by decide
example : ofDigits 16 ['f', 'F'] = 255 := by decide

end SettingsLang.Decimal
