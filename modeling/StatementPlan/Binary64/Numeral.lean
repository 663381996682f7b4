/-
Decimal texts of binary numbers.

*Writing* uses the fewest significant digits that read back as the number: the search goes
over the decimal grids from coarse to fine and stops at the first one on which a neighbour
of the number reads back.  If both neighbours do, the nearer one is taken, and the upper one
if they are equally near.  The text has no exponent and, for a whole number, no point.

*Reading* takes an optional sign, digits with at most one point among or around them, and an
optional exponent; or, in any case, `inf`, `infinity` or `nan`.
-/
import StatementPlan.Binary64.Rounding
import StatementPlan.Text.AsciiCase
import StatementPlan.Text.Numeral

namespace StatementPlan.Binary64

/-- The multiple of `10 ^ exponent` next to a finite magnitude that reads back as it. -/
def neighbour? (rank : Nat) (exponent : Int) : Option Nat :=
  let num := units rank * Nat.pow 10 (-exponent).toNat
  let den := unitsPerOne * Nat.pow 10 exponent.toNat
  let low := num / den
  let readsBack := fun digits => rankOfDecimal digits exponent == rank
  match readsBack low, readsBack (low + 1) with
  | true, true => if 2 * (num % den) < den then some low else some (low + 1)
  | true, false => some low
  | false, true => some (low + 1)
  | false, false => none

/-- The first neighbour that reads back, on `steps` grids from `exponent` downwards.  Every
finite magnitude lies on the grid of the exponent -1074 and is written exactly there. -/
def shortestFrom (rank : Nat) : Nat → Int → Nat × Int
  | 0, _ => (units rank * Nat.pow 5 1074, -1074)
  | steps + 1, exponent =>
    match neighbour? rank exponent with
    | some digits => (digits, exponent)
    | none => shortestFrom rank steps (exponent - 1)

/-- The fewest digits, and their exponent, that read back as a finite magnitude. -/
def shortest (rank : Nat) : Nat × Int :=
  let places := (Nat.toDigits 10 (units rank / unitsPerOne)).length
  shortestFrom rank (places + 1074) places

/-- `digits * 10 ^ exponent` without an exponent. -/
def positional (digits : Nat) (exponent : Int) : List Char :=
  let shown := Nat.toDigits 10 digits
  if 0 ≤ exponent then shown ++ List.replicate exponent.toNat '0'
  else
    let decimals := (-exponent).toNat
    let padded := List.replicate (decimals + 1 - shown.length) '0' ++ shown
    padded.take (padded.length - decimals) ++ '.' :: padded.drop (padded.length - decimals)

/-- The text of a magnitude. -/
def writeMagnitude (rank : Nat) : List Char :=
  if infinityRank < rank then "NaN".toList
  else if rank = infinityRank then "inf".toList
  else if rank = 0 then ['0']
  else positional (shortest rank).1 (shortest rank).2

/-- The text of a number; only a not-a-number shows no sign. -/
def write (x : Binary64) : String :=
  String.ofList (if x.negative && !x.isNaN then '-' :: writeMagnitude x.rank
    else writeMagnitude x.rank)

/-- An exponent part, or nothing. -/
def exponent? : List Char → Option Int
  | [] => some 0
  | mark :: rest => if mark = 'e' ∨ mark = 'E' then Numeral.integer? rest else none

/-- Digits with at most one point and an optional exponent. -/
def decimal? (text : List Char) : Option (Nat × Int) :=
  let whole := text.takeWhile Char.isDigit
  let (fraction, rest) := match text.dropWhile Char.isDigit with
    | '.' :: after => (after.takeWhile Char.isDigit, after.dropWhile Char.isDigit)
    | after => ([], after)
  if whole.isEmpty && fraction.isEmpty then none
  else (exponent? rest).map fun exponent =>
    (Nat.ofDigitChars 10 (whole ++ fraction) 0, exponent - fraction.length)

/-- The words for the numbers without digits. -/
def word? (negative : Bool) (text : List Char) : Option Binary64 :=
  match foldCase (String.ofList text) with
  | "inf" | "infinity" => some (infinity negative)
  | "nan" => some nan
  | _ => none

/-- The number a text denotes. -/
def read? (text : String) : Option Binary64 :=
  let (negative, unsigned) := Numeral.splitSign text.toList
  match decimal? unsigned with
  | some (digits, exponent) => some (ofDecimal negative digits exponent)
  | none => word? negative unsigned

end StatementPlan.Binary64
