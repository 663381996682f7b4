/-
Tokens: the text a node carries and what sort of text it is.
-/
namespace StatementPlan

/-- Sorts of token text. -/
inductive TokenKind where
  | identifier | string | numeric
  | true | false | null
  | bar | line | area
  | asc | desc
  deriving DecidableEq, Repr

namespace TokenKind

/-- The name the sort is stored under. -/
def name : TokenKind → String
  | identifier => "Identifier" | string => "String" | numeric => "Numeric"
  | true => "True" | false => "False" | null => "Null"
  | bar => "Bar" | line => "Line" | area => "Area"
  | asc => "Asc" | desc => "Desc"

/-- The sort in messages, and the spelling of a keyword. -/
def heading : TokenKind → String
  | identifier => "IDENTIFIER" | string => "STRING" | numeric => "NUMERIC"
  | true => "TRUE" | false => "FALSE" | null => "NULL"
  | bar => "BAR" | line => "LINE" | area => "AREA"
  | asc => "ASC" | desc => "DESC"

def every : List TokenKind :=
  [identifier, string, numeric, true, false, null, bar, line, area, asc, desc]

/-- The sort stored under a name. -/
def ofName? (name : String) : Option TokenKind :=
  every.find? fun kind => kind.name == name

theorem ofName?_name (kind : TokenKind) : ofName? kind.name = some kind := by
  cases kind <;> rfl

end TokenKind

/-- A text and its sort. -/
structure Token where
  kind : TokenKind
  text : String
  deriving DecidableEq, Repr

namespace Token

def identifier (name : String) : Token := ⟨.identifier, name⟩

def string (value : String) : Token := ⟨.string, value⟩

def numeric (text : String) : Token := ⟨.numeric, text⟩

/-- A keyword in its one spelling. -/
def keyword (kind : TokenKind) : Token := ⟨kind, kind.heading⟩

/-- The token in an outline: a string stands between double quotes, as it is. -/
def shown (token : Token) : String :=
  if token.kind = .string then "\"" ++ token.text ++ "\"" else token.text

end Token

end StatementPlan
