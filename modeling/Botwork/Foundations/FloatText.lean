import Botwork.Foundations.Text

/-!
# Reading floating-point numbers

`f64::from_str`: an optional sign, then a decimal number with an optional fraction
and exponent, or the name of an infinity or of NaN in any case.  `Float` is the binary64
format, and `Float.ofScientific` rounds to the nearest number, ties to even.

## Main definitions

- `FloatText.parse` — the number a text is
- `FloatText.roundNat` — `f64::round`, of a number that is not negative
-/

namespace Botwork.Foundations.FloatText

inductive ParseFloatError where
  | empty
  | invalid
  deriving DecidableEq, Repr

def ParseFloatError.text : ParseFloatError → String
  | .empty => "cannot parse float from empty string"
  | .invalid => "invalid float literal"

def digitsValue (digits : List Char) : Nat := digits.foldl (fun n c => 10 * n + (c.toNat - 48)) 0

/-- A nonempty run of digits, and nothing else. -/
def digits? (cs : List Char) : Option Nat :=
  if cs ≠ [] ∧ cs.all Char.isDigit then some (digitsValue cs) else none

/-- What may follow the digits of a number: nothing, or an exponent. -/
def exponent? : List Char → Option Int
  | [] => some 0
  | c :: cs =>
    if c = 'e' ∨ c = 'E' then
      match cs with
      | '-' :: digits => (digits? digits).map fun n => -(n : Int)
      | '+' :: digits => (digits? digits).map Int.ofNat
      | digits => (digits? digits).map Int.ofNat
    else none

/-- The fraction after a point, and what follows it. -/
def splitFraction : List Char → List Char × List Char
  | '.' :: rest => (rest.takeWhile Char.isDigit, rest.dropWhile Char.isDigit)
  | rest => ([], rest)

/-- `digits * 10 ^ exponent`, rounded once. -/
def ofDecimal (digits : Nat) (exponent : Int) : Float :=
  Float.ofScientific digits (decide (exponent < 0)) exponent.natAbs

def number? (cs : List Char) : Option Float :=
  let whole := cs.takeWhile Char.isDigit
  let (fraction, rest) := splitFraction (cs.dropWhile Char.isDigit)
  if whole = [] ∧ fraction = [] then none
  else (exponent? rest).map fun exponent =>
    ofDecimal (digitsValue (whole ++ fraction)) (exponent - fraction.length)

def unsigned? (cs : List Char) : Option Float :=
  let name := cs.map Char.toLower
  if name = "inf".toList ∨ name = "infinity".toList then some (1 / 0)
  else if name = "nan".toList then some (0 / 0)
  else number? cs

def parse (text : String) : Except ParseFloatError Float :=
  match text.toList with
  | [] => .error .empty
  | '-' :: cs => ((unsigned? cs).map Float.neg).elim (.error .invalid) .ok
  | '+' :: cs => (unsigned? cs).elim (.error .invalid) .ok
  | cs => (unsigned? cs).elim (.error .invalid) .ok

/-- `f64::round`, half away from zero, of a number that is not negative; from `2 ^ 64`
    on it stays there. -/
def roundNat (x : Float) : Nat :=
  let whole := x.toUInt64
  if 0.5 ≤ x - whole.toFloat then whole.toNat + 1 else whole.toNat

example : (parse "1.5e3").map roundNat = .ok 1500 := by decide +kernel

example : parse "1.2.3" = .error .invalid := by decide +kernel

end Botwork.Foundations.FloatText
