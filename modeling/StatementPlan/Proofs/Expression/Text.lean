/-
The text of an expression shows the expression, but for what it does not tell: which calls are
aggregates.  It starts with a word, which may be empty; what follows the word opens a quoted text,
the arguments of a call or a list, or is not part of the text.

`chars_append`: the word of an expression, and what follows it.
`Legible.toldApart`: expressions are told apart by their texts, and the texts show where they end.
-/
import StatementPlan.Expression.Text
import StatementPlan.Proofs.Text.Quoted

namespace StatementPlan

namespace Expr

mutual

/-- The expression as it is shown: no call is an aggregate. -/
def shown : Expr → Expr
  | .literal value => .literal value
  | .column position => .column position
  | .call symbol _ args => .call symbol false (shownAll args)
  | .list items => .list (shownAll items)

def shownAll : List Expr → List Expr
  | [] => []
  | e :: rest => shown e :: shownAll rest

end

theorem shownAll_eq_map (es : List Expr) : shownAll es = es.map shown := by
  induction es with
  | nil => rfl
  | cons e rest ih => simp [shownAll, ih]

theorem text_shown (e : Expr) : e.shown.text = e.text := by
  have parts : ∀ {es : List Expr}, (∀ e ∈ es, e.shown.text = e.text) →
      textAll (shownAll es) = textAll es := fun each => by
    rw [textAll_eq_map, textAll_eq_map, shownAll_eq_map, List.map_map]
    exact List.map_congr_left each
  refine Expr.induct (motive := fun e => e.shown.text = e.text) (fun _ => rfl) (fun _ => rfl) ?_ ?_ e
  · intro symbol aggregate args each
    rw [shown, text, text, parts each]
  · intro items each
    rw [shown, text, text, parts each]

/-- An expression without binary numbers whose calls are of identifiers. -/
inductive Legible : Expr → Prop
  | int64 (value : Int64) : Legible (.literal (.int64 value))
  | utf8 (value : String) : Legible (.literal (.utf8 value))
  | boolean (value : Bool) : Legible (.literal (.boolean value))
  | null : Legible (.literal .null)
  | column (position : Nat) : Legible (.column position)
  | call {symbol : String} (named : Identifier symbol) (aggregate : Bool) {args : List Expr}
      (each : ∀ a ∈ args, Legible a) : Legible (.call symbol aggregate args)
  | list {items : List Expr} (each : ∀ e ∈ items, Legible e) : Legible (.list items)

def chars (e : Expr) : List Char := e.text.toList

/-- The word that the text starts with. -/
def word : Expr → List Char
  | .literal (.utf8 _) | .list _ => []
  | .literal value => value.text.toList
  | .column position => '#' :: Nat.toDigits 10 position
  | .call symbol _ _ => symbol.toList

/-- What opens after the word, if something does. -/
def opening : Expr → Option Char
  | .literal (.utf8 _) => some '"'
  | .call .. => some '('
  | .list _ => some '['
  | _ => none

/-- What follows the word. -/
def afterWord (rest : List Char) : Expr → List Char
  | .literal (.utf8 value) => '"' :: (value.toList.flatMap Quoted.escape ++ '"' :: rest)
  | .call _ _ args => '(' :: separated (args.map chars) ')' rest
  | .list items => '[' :: separated (items.map chars) ']' rest
  | _ => rest

theorem chars_append (e : Expr) (rest : List Char) : e.chars ++ rest = e.word ++ e.afterWord rest := by
  have parts : ∀ es : List Expr, (textAll es).map String.toList = es.map chars := fun es => by
    rw [textAll_eq_map, List.map_map]
    rfl
  cases e with
  | literal value =>
    cases value with
    | utf8 value => simp [chars, text, Literal.text, Quoted.quote, word, afterWord]
    | _ => rfl
  | column position => simp [chars, text, word, afterWord, Numeral.toList_writeNat]
  | call symbol aggregate args => simp [chars, text, word, afterWord, separated, parts]
  | list items => simp [chars, text, word, afterWord, separated, parts]

/-- The leaf of a word. -/
def leafOf? : List Char → Option Expr
  | '#' :: digits => (Numeral.digits? digits).map .column
  | 't' :: _ => some (.literal (.boolean true))
  | 'f' :: _ => some (.literal (.boolean false))
  | 'n' :: _ => some (.literal .null)
  | text => ((Numeral.integer? text).bind Numeral.int64OfInt?).map fun i => .literal (.int64 i)

theorem mem_writeInt {i : Int} {c : Char} (mem : c ∈ (Numeral.writeInt i).toList) :
    c.isDigit = true ∨ c = '-' := by
  have digits : ∀ n, ∀ k ∈ Nat.toDigits 10 n, k.isDigit = true := fun n k =>
    Nat.isDigit_of_mem_toDigits (by decide) (by decide)
  rw [Numeral.writeInt] at mem
  cases i with
  | ofNat n => exact .inl (digits n c (by simpa [Int.repr] using mem))
  | negSucc n =>
    have shape : c = '-' ∨ c ∈ Nat.toDigits 10 (n + 1) := by simpa [Int.repr] using mem
    exact shape.symm.imp_left (digits _ c)

/-- The word of a leaf tells which one it is. -/
theorem leafOf?_word {e : Expr} (legible : e.Legible) (leaf : e.opening = none) :
    leafOf? e.word = some e := by
  cases legible with
  | utf8 | call | list => cases leaf
  | boolean value => cases value <;> rfl
  | null => rfl
  | column position => rw [word, leafOf?, Numeral.digits?_toDigits, Option.map_some]
  | int64 value =>
    have first : ∀ {c : Char} {more : List Char}, (Numeral.writeInt value.toInt).toList = c :: more →
        c.isDigit = true ∨ c = '-' := fun shape => mem_writeInt (shape ▸ List.mem_cons_self)
    change leafOf? (Numeral.writeInt value.toInt).toList = _
    unfold leafOf?
    split
    · rename_i shape
      exact absurd (first shape) (by decide)
    · rename_i shape
      exact absurd (first shape) (by decide)
    · rename_i shape
      exact absurd (first shape) (by decide)
    · rename_i shape
      exact absurd (first shape) (by decide)
    · rw [Numeral.integer?_writeInt, Option.bind_some, Numeral.int64OfInt?_toInt, Option.map_some]

theorem Legible.inWord {e : Expr} (legible : e.Legible) : ∀ c ∈ e.word, inWord c = true := by
  cases legible with
  | utf8 | list => exact fun c mem => absurd mem List.not_mem_nil
  | boolean value => cases value <;> simp [word, Literal.text, StatementPlan.inWord]
  | null => simp [word, Literal.text, StatementPlan.inWord]
  | int64 value =>
    intro c mem
    rcases mem_writeInt mem with number | rfl
    · exact inWord_of_isDigit number
    · rfl
  | column position =>
    refine List.forall_mem_cons.2 ⟨rfl, fun c mem => ?_⟩
    exact inWord_of_isDigit (Nat.isDigit_of_mem_toDigits (by decide) (by decide) mem)
  | call named => exact named.inWord

theorem afterWord_of_leaf {e : Expr} (leaf : e.opening = none) (rest : List Char) :
    e.afterWord rest = rest := by
  cases e with
  | literal value => cases value <;> first | rfl | cases leaf
  | column => rfl
  | call | list => cases leaf

/-- What opens after a word ends no text. -/
theorem head_afterWord {e : Expr} {c : Char} (opens : e.opening = some c) :
    c ∈ ['"', '(', '['] ∧ ∀ rest, (e.afterWord rest).head? = some c := by
  cases e with
  | literal value =>
    cases value with
    | utf8 => cases opens; exact ⟨by decide, fun _ => rfl⟩
    | _ => cases opens
  | column => cases opens
  | call | list => cases opens; exact ⟨by decide, fun _ => rfl⟩

theorem afterWord_stops (e : Expr) {rest : List Char} (ends : AtEnd rest) :
    Stops StatementPlan.inWord (e.afterWord rest) := by
  cases opens : e.opening with
  | none => exact (afterWord_of_leaf opens rest).symm ▸ ends.stops
  | some c =>
    obtain ⟨bracket, head⟩ := head_afterWord opens
    have outside : ∀ c ∈ ['"', '(', '['], StatementPlan.inWord c = false := by
      simp [StatementPlan.inWord]
    intro d mem
    obtain rfl := Option.some.inj ((head rest).symm.trans mem)
    exact outside c bracket

/-- An end and something that opens are told apart. -/
theorem opening_eq {e e' : Expr} {rest rest' : List Char} (ends : AtEnd rest) (ends' : AtEnd rest')
    (same : e.afterWord rest = e'.afterWord rest') : e.opening = e'.opening := by
  have apart : ∀ c ∈ ['"', '(', '['], c ∉ enders := by simp [enders]
  cases opens : e.opening with
  | none =>
    rw [afterWord_of_leaf opens] at same
    cases opens' : e'.opening with
    | none => rfl
    | some c =>
      obtain ⟨bracket, head⟩ := head_afterWord opens'
      exact absurd (ends c (same ▸ head rest')) (apart c bracket)
  | some c =>
    obtain ⟨bracket, head⟩ := head_afterWord opens
    cases opens' : e'.opening with
    | none =>
      rw [afterWord_of_leaf opens'] at same
      exact absurd (ends' c (same ▸ head rest)) (apart c bracket)
    | some d =>
      rw [← head rest, same, (head_afterWord opens').2 rest']

/-- The word of an expression, and what follows it, are as long as they can be. -/
theorem word_inj {e e' : Expr} (legible : e.Legible) (legible' : e'.Legible) {rest rest' : List Char}
    (ends : AtEnd rest) (ends' : AtEnd rest') (same : e.chars ++ rest = e'.chars ++ rest') :
    e.word = e'.word ∧ e.afterWord rest = e'.afterWord rest' := by
  rw [chars_append, chars_append] at same
  exact run_append_inj legible.inWord legible'.inWord (afterWord_stops e ends) (afterWord_stops e' ends') same

theorem Legible.first {e : Expr} (legible : e.Legible) : ∃ c ∈ e.chars.head?, c ∉ [')', ']'] := by
  have text := chars_append e []
  rw [List.append_nil] at text
  rw [text]
  cases words : e.word with
  | cons c more =>
    have outside : ∀ c ∈ [')', ']'], StatementPlan.inWord c = false := by
      simp [StatementPlan.inWord]
    have inside := legible.inWord c (by simp [words])
    exact ⟨c, rfl, fun bracket => by simp [outside c bracket] at inside⟩
  | nil =>
    cases opens : e.opening with
    | none =>
      have leaf := leafOf?_word legible opens
      rw [words] at leaf
      cases leaf
    | some c =>
      have apart : ∀ c ∈ ['"', '(', '['], c ∉ [')', ']'] := by simp
      obtain ⟨bracket, head⟩ := head_afterWord opens
      exact ⟨c, head [], apart c bracket⟩

/-- Leaves are told apart by their words, and from other expressions by what follows. -/
theorem Legible.leaf {e e' : Expr} (legible : e.Legible) (legible' : e'.Legible)
    (leaf : e.opening = none) : ToldApart chars shown e e' := by
  intro rest rest' ends ends' same
  obtain ⟨words, rests⟩ := word_inj legible legible' ends ends' same
  have leaf' : e'.opening = none := (opening_eq ends ends' rests).symm.trans leaf
  rw [afterWord_of_leaf leaf, afterWord_of_leaf leaf'] at rests
  have read := leafOf?_word legible leaf
  rw [words, leafOf?_word legible' leaf'] at read
  exact ⟨congrArg shown (Option.some.inj read).symm, rests⟩

theorem separated_inj {es es' : List Expr} {close : Char} (bracket : close ∈ [')', ']'])
    (legible : ∀ e ∈ es, e.Legible) (legible' : ∀ e ∈ es', e.Legible)
    (each : ∀ e ∈ es, ∀ e' ∈ es', ToldApart chars shown e e') {rest rest' : List Char}
    (same : separated (es.map chars) close rest = separated (es'.map chars) close rest') :
    shownAll es = shownAll es' ∧ rest = rest' := by
  have closes : ∀ c ∈ [')', ']'], c ∈ enders ∧ c ≠ ',' := by simp [enders]
  have opens : ∀ e ∈ es ++ es', ∃ c ∈ e.chars.head?, c ≠ close := by
    intro e mem
    obtain ⟨c, head, other⟩ := ((List.mem_append.1 mem).elim (legible e) (legible' e)).first
    exact ⟨c, head, fun same => other (same ▸ bracket)⟩
  obtain ⟨ender, comma⟩ := closes close bracket
  rw [shownAll_eq_map, shownAll_eq_map]
  exact ToldApart.all ender comma opens each same

/-- The text of an expression shows it, and where it ends. -/
theorem Legible.toldApart {e e' : Expr} (legible : e.Legible) (legible' : e'.Legible) :
    ToldApart chars shown e e' := by
  induction legible generalizing e' with
  | int64 value => exact Legible.leaf (.int64 value) legible' rfl
  | boolean value => exact Legible.leaf (.boolean value) legible' rfl
  | null => exact Legible.leaf .null legible' rfl
  | column position => exact Legible.leaf (.column position) legible' rfl
  | utf8 value =>
    intro rest rest' ends ends' same
    obtain ⟨-, rests⟩ := word_inj (.utf8 value) legible' ends ends' same
    have opens := opening_eq ends ends' rests
    cases legible' with
    | utf8 value' =>
      obtain ⟨texts, ending⟩ := Quoted.quoted_append_inj (List.cons.inj rests).2
      exact ⟨by rw [String.toList_inj.1 texts], ending⟩
    | _ => cases opens
  | call named aggregate each ih =>
    intro rest rest' ends ends' same
    obtain ⟨words, rests⟩ := word_inj (.call named aggregate each) legible' ends ends' same
    have opens := opening_eq ends ends' rests
    cases legible' with
    | call named' aggregate' each' =>
      obtain rfl := String.toList_inj.1 words
      obtain ⟨args, ending⟩ := separated_inj (by decide) each each'
        (fun a mem b mem' => ih a mem (each' b mem')) (List.cons.inj rests).2
      exact ⟨by rw [shown, shown, args], ending⟩
    | _ => cases opens
  | list each ih =>
    intro rest rest' ends ends' same
    obtain ⟨-, rests⟩ := word_inj (.list each) legible' ends ends' same
    have opens := opening_eq ends ends' rests
    cases legible' with
    | list each' =>
      obtain ⟨items, ending⟩ := separated_inj (by decide) each each'
        (fun a mem b mem' => ih a mem (each' b mem')) (List.cons.inj rests).2
      exact ⟨by rw [shown, shown, items], ending⟩
    | _ => cases opens

end Expr

end StatementPlan
