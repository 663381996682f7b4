/-
Documents: the values that trees, plans and settings are stored as.  A record is read field
by field, unknown fields are ignored; the list of its values in the order of the fields is
read as well.  An alternative without content is stored as its name, and a record with that
one name over null is read as well.

`size?_size`: a stored size is read back exactly if it is below the limit.
`optional?_missing`, `optional?_present`: a field that may be missing, read from where it is.
-/
import StatementPlan.Binary64.Rounding
import StatementPlan.Text.Numeral

namespace StatementPlan

/-- A stored value.  A number is an integer if it is written without a fraction and without an
exponent. -/
inductive Document where
  | null
  | boolean (value : Bool)
  | integer (value : Int)
  | decimal (value : Binary64)
  | text (value : String)
  | list (items : List Document)
  | record (fields : List (String × Document))

namespace Document

/-- The stored form of a size. -/
def size (n : Nat) : Document := .integer (.ofNat n)

/-- A size: an integer within the limit, never a number with a fraction. -/
def size? : Document → Option Nat
  | .integer (.ofNat n) => if n < Numeral.sizeLimit then some n else none
  | _ => none

/-- A 64-bit integer. -/
def int64? : Document → Option Int64
  | .integer i => Numeral.int64OfInt? i
  | _ => none

/-- A binary number; an integer goes to the nearest one. -/
def binary64? : Document → Option Binary64
  | .decimal x => some x
  | .integer i => some (Binary64.ofInt i)
  | _ => none

def boolean? : Document → Option Bool
  | .boolean b => some b
  | _ => none

def text? : Document → Option String
  | .text s => some s
  | _ => none

def list? : Document → Option (List Document)
  | .list items => some items
  | _ => none

def record? : Document → Option (List (String × Document))
  | .record fields => some fields
  | _ => none

/-- The names of a record's fields in their order: those a list in place of the record has to
give, and those it may leave out at its end. -/
structure Layout where
  needed : List String
  omissible : List String := []

namespace Layout

def names (layout : Layout) : List String := layout.needed ++ layout.omissible

/-- The list has a value for every needed field, and no value without a field. -/
def admits (layout : Layout) (values : List Document) : Bool :=
  layout.needed.length ≤ values.length && values.length ≤ layout.names.length

end Layout

/-- The fields of a record, or the values of the list in its place, each under the name of its
own place. -/
def fields? (layout : Layout) : Document → Option (List (String × Document))
  | .record fields => some fields
  | .list values => if layout.admits values then some (layout.names.zip values) else none
  | _ => none

/-- Texts in a list. -/
def texts? (d : Document) : Option (List String) :=
  d.list?.bind fun items => items.mapM text?

/-- The name of an alternative without content. -/
def name? : Document → Option String
  | .text name => some name
  | .record [(name, .null)] => some name
  | _ => none

/-- The field under a key, read by `read`. -/
def required? (fields : List (String × Document)) (key : String) (read : Document → Option α) :
    Option α :=
  (fields.lookup key).bind read

/-- The field under a key that may be missing or null. -/
def optional? (fields : List (String × Document)) (key : String) (read : Document → Option α) :
    Option (Option α) :=
  match fields.lookup key with
  | none | some .null => some none
  | some value => (read value).map some

/-- The field under a key that may be missing but is not null. -/
def defaulted? (fields : List (String × Document)) (key : String) (read : Document → Option α)
    (default : α) : Option α :=
  match fields.lookup key with
  | none => some default
  | some value => read value

/-- Stored texts. -/
def ofTexts (texts : List String) : Document :=
  .list (texts.map .text)

theorem size?_size (n : Nat) : (size n).size? = if n < Numeral.sizeLimit then some n else none := by
  rfl

theorem int64?_toInt (v : Int64) : (Document.integer v.toInt).int64? = some v :=
  Numeral.int64OfInt?_toInt v

theorem texts?_ofTexts (texts : List String) : (ofTexts texts).texts? = some texts := by
  simp only [ofTexts, texts?, list?, Option.bind_some]
  induction texts with
  | nil => rfl
  | cons t rest ih => simp [List.mapM_cons, text?, ih]

theorem fields?_record (layout : Layout) (fields : List (String × Document)) :
    (record fields).fields? layout = some fields := by
  rfl

theorem optional?_missing {fields : List (String × Document)} {key : String}
    (read : Document → Option α) (h : fields.lookup key = none) :
    optional? fields key read = some none := by
  rw [optional?, h]

theorem optional?_present {fields : List (String × Document)} {key : String} {d : Document}
    (read : Document → Option α) (h : fields.lookup key = some d) (present : d ≠ .null) :
    optional? fields key read = (read d).map some := by
  rw [optional?, h]
  cases d <;> first | rfl | exact absurd rfl present

end Document

end StatementPlan
