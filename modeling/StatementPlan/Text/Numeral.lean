/-
Whole numbers in decimal text.  A number is written with ASCII digits and no leading zero,
a negative one after a minus sign.  It is read with an optional sign and any number of
leading zeros; blanks, separators and digits of other scripts are refused.

`size?_writeNat`: a written number reads back as a size exactly if it is below the limit.
`int64?_writeInt`: every 64-bit integer reads back.
-/
namespace StatementPlan.Numeral

/-- The value of a non-empty run of digits. -/
def digits? (text : List Char) : Option Nat :=
  if text ≠ [] ∧ text.all Char.isDigit then some (Nat.ofDigitChars 10 text 0) else none

/-- A sign, if there is one, and what follows it. -/
def splitSign : List Char → Bool × List Char
  | '-' :: rest => (true, rest)
  | '+' :: rest => (false, rest)
  | text => (false, text)

/-- The value of an optional sign and digits. -/
def integer? (text : List Char) : Option Int :=
  match splitSign text with
  | (true, rest) => (digits? rest).map fun n => -(n : Int)
  | (false, rest) => (digits? rest).map fun n => (n : Int)

/-- Sizes, positions and row counts are below this bound. -/
def sizeLimit : Nat := Nat.pow 2 64

/-- A size: digits after an optional plus sign, below `sizeLimit`.  A minus sign is refused,
also before a zero. -/
def size? (text : String) : Option Nat :=
  let unsigned := match text.toList with
    | '+' :: rest => rest
    | all => all
  (digits? unsigned).bind fun n => if n < sizeLimit then some n else none

/-- An integer as one of 64 bits, if it is within their range. -/
def int64OfInt? (i : Int) : Option Int64 :=
  if Int64.minValue.toInt ≤ i ∧ i ≤ Int64.maxValue.toInt then some (Int64.ofInt i) else none

/-- A 64-bit integer: digits after an optional sign, within the range of the type. -/
def int64? (text : String) : Option Int64 :=
  (integer? text.toList).bind int64OfInt?

/-- The text of a natural number. -/
def writeNat (n : Nat) : String := Nat.repr n

/-- The text of an integer. -/
def writeInt (i : Int) : String := Int.repr i

theorem toList_writeNat (n : Nat) : (writeNat n).toList = Nat.toDigits 10 n := by
  simp [writeNat, Nat.repr_eq_ofList_toDigits]

theorem digits?_toDigits (n : Nat) : digits? (Nat.toDigits 10 n) = some n := by
  have all : (Nat.toDigits 10 n).all Char.isDigit = true := by
    rw [List.all_eq_true]
    exact fun c h => Nat.isDigit_of_mem_toDigits (by decide) (by decide) h
  simp [digits?, all, Nat.ofDigitChars_ten_toDigits]

theorem head_toDigits {n : Nat} {c : Char} {rest : List Char} (h : Nat.toDigits 10 n = c :: rest) :
    c.isDigit = true :=
  Nat.isDigit_of_mem_toDigits (by decide) (by decide) (h ▸ List.mem_cons_self)

theorem splitSign_toDigits (n : Nat) :
    splitSign (Nat.toDigits 10 n) = (false, Nat.toDigits 10 n) := by
  unfold splitSign
  split
  · rename_i h; exact absurd (head_toDigits h) (by decide)
  · rename_i h; exact absurd (head_toDigits h) (by decide)
  · rfl

theorem size?_writeNat (n : Nat) :
    size? (writeNat n) = if n < sizeLimit then some n else none := by
  simp only [size?, toList_writeNat]
  split
  · rename_i h; exact absurd (head_toDigits h) (by decide)
  · simp [digits?_toDigits]

theorem integer?_writeInt (i : Int) : integer? (writeInt i).toList = some i := by
  unfold writeInt
  cases i with
  | ofNat n =>
    simp [Int.repr, integer?, splitSign_toDigits, digits?_toDigits]
  | negSucc n =>
    simp [Int.repr, integer?, splitSign, digits?_toDigits, Int.negSucc_eq]

theorem int64OfInt?_toInt (v : Int64) : int64OfInt? v.toInt = some v := by
  rw [int64OfInt?, if_pos ⟨v.minValue_le_toInt, v.toInt_le⟩, Int64.ofInt_toInt]

theorem int64?_writeInt (v : Int64) : int64? (writeInt v.toInt) = some v := by
  rw [int64?, integer?_writeInt, Option.bind_some, int64OfInt?_toInt]

end StatementPlan.Numeral
