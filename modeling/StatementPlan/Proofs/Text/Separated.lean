/-
Texts that show where they end.  A word ends at the first character that belongs to no word, and a
list of texts in brackets at its bracket, if the text of each item shows where it ends.

`run_append_inj`: runs of characters of one class.
`ToldApart.all`: lists of texts between brackets.
-/
import Mathlib.Data.List.Basic

namespace StatementPlan

/-- The text does not go on with a character of the class. -/
def Stops (p : Char → Bool) (rest : List Char) : Prop := ∀ c ∈ rest.head?, p c = false

theorem takeWhile_run {p : Char → Bool} {run rest : List Char} (inside : ∀ c ∈ run, p c = true)
    (stops : Stops p rest) : (run ++ rest).takeWhile p = run := by
  rw [List.takeWhile_append_of_pos inside]
  cases rest with
  | nil => simp
  | cons c rest => simp [stops c rfl]

/-- A run of characters of a class is as long as it can be. -/
theorem run_append_inj {p : Char → Bool} {run run' rest rest' : List Char}
    (inside : ∀ c ∈ run, p c = true) (inside' : ∀ c ∈ run', p c = true) (stops : Stops p rest)
    (stops' : Stops p rest') (same : run ++ rest = run' ++ rest') : run = run' ∧ rest = rest' := by
  have runs : run = run' := by
    rw [← takeWhile_run inside stops, same, takeWhile_run inside' stops']
  subst runs
  exact ⟨rfl, List.append_cancel_left same⟩

/-- The characters that end a text: separators and closing brackets. -/
def enders : List Char := [',', ')', ']', ' ', '\n']

/-- The text goes on with one of them, if it goes on. -/
def AtEnd (rest : List Char) : Prop := ∀ c ∈ rest.head?, c ∈ enders

theorem atEnd_cons {c : Char} (ender : c ∈ enders) (rest : List Char) : AtEnd (c :: rest) := by
  intro d mem
  obtain rfl := Option.some.inj mem
  exact ender

theorem atEnd_append {label : String} (starts : label.toList.head?.any (· ∈ enders) = true)
    (rest : List Char) : AtEnd (label.toList ++ rest) := by
  obtain ⟨c, head, ender⟩ := (Option.any_eq_true _ _).1 starts
  intro d mem
  rw [List.head?_append, head] at mem
  obtain rfl := Option.some.inj mem
  exact of_decide_eq_true ender

/-- The characters of names, numbers and positions. -/
def inWord (c : Char) : Bool := c.isAlphanum || c == '_' || c == '-' || c == '#'

theorem inWord_of_isDigit {c : Char} (digit : c.isDigit = true) : inWord c = true := by
  simp [inWord, Char.isAlphanum, digit]

theorem AtEnd.stops {rest : List Char} (ends : AtEnd rest) : Stops inWord rest := by
  have outside : ∀ c ∈ enders, inWord c = false := by simp [enders, inWord]
  exact fun c mem => outside c (ends c mem)

/-- A name of letters, digits and underscores. -/
structure Identifier (name : String) : Prop where
  nonempty : name.toList ≠ []
  chars : ∀ c ∈ name.toList, c.isAlphanum = true ∨ c = '_'
  head : ∀ c ∈ name.toList.head?, c.isDigit = false

theorem Identifier.inWord {name : String} (h : Identifier name) :
    ∀ c ∈ name.toList, inWord c = true := by
  intro c mem
  rcases h.chars c mem with letter | rfl
  · simp [StatementPlan.inWord, letter]
  · rfl

theorem Identifier.first {name : String} (h : Identifier name) :
    ∃ c ∈ name.toList.head?, StatementPlan.inWord c = true := by
  cases shape : name.toList with
  | nil => exact absurd shape h.nonempty
  | cons c rest => exact ⟨c, rfl, h.inWord c (by simp [shape])⟩

/-- A name shows where it ends. -/
theorem Identifier.append_inj {name name' : String} (h : Identifier name) (h' : Identifier name')
    {rest rest' : List Char} (ends : AtEnd rest) (ends' : AtEnd rest')
    (same : name.toList ++ rest = name'.toList ++ rest') : name = name' ∧ rest = rest' := by
  obtain ⟨names, rests⟩ := run_append_inj h.inWord h'.inWord ends.stops ends'.stops same
  exact ⟨String.toList_inj.1 names, rests⟩

/-- Before an end, the texts of two values show what they are as far as they are shown, and where
they end. -/
def ToldApart (text : α → List Char) (shown : α → β) (a b : α) : Prop :=
  ∀ {rest rest' : List Char}, AtEnd rest → AtEnd rest' → text a ++ rest = text b ++ rest' →
    shown a = shown b ∧ rest = rest'

theorem intercalate_cons (separator text : List Char) (texts : List (List Char)) :
    separator.intercalate (text :: texts) = text ++ texts.flatMap (separator ++ ·) := by
  induction texts generalizing text with
  | nil => simp
  | cons next rest ih => simp [ih]

/-- Texts that all end alike are texts with the end between them, and nothing after the last. -/
theorem intercalate_ended (texts : List (List Char)) (ender : Char) :
    [ender].intercalate (texts ++ [[]]) = texts.flatMap (· ++ [ender]) := by
  induction texts with
  | nil => rfl
  | cons text rest ih =>
    rw [List.cons_append, List.intercalate_cons_of_ne_nil (by simp), ih, List.flatMap_cons]

/-- Texts separated by commas, up to a bracket. -/
def separated (texts : List (List Char)) (close : Char) (rest : List Char) : List Char :=
  [',', ' '].intercalate texts ++ close :: rest

theorem separated_cons (text : List Char) (texts : List (List Char)) (close : Char) (rest : List Char) :
    separated (text :: texts) close rest =
      text ++ (texts.flatMap ([',', ' '] ++ ·) ++ close :: rest) := by
  rw [separated, intercalate_cons, List.append_assoc]

namespace ToldApart

variable {text : α → List Char} {shown : α → β} {as bs : List α} {close : Char} {rest rest' : List Char}

theorem atEnd_following (ender : close ∈ enders) (texts : List (List Char)) (rest : List Char) :
    AtEnd (texts.flatMap ([',', ' '] ++ ·) ++ close :: rest) := by
  cases texts with
  | nil => exact atEnd_cons ender rest
  | cons => exact atEnd_cons (by decide) _

theorem following (ender : close ∈ enders) (bracket : close ≠ ',')
    (each : ∀ a ∈ as, ∀ b ∈ bs, ToldApart text shown a b)
    (same : (as.map text).flatMap ([',', ' '] ++ ·) ++ close :: rest =
      (bs.map text).flatMap ([',', ' '] ++ ·) ++ close :: rest') :
    as.map shown = bs.map shown ∧ rest = rest' := by
  induction as generalizing bs with
  | nil =>
    cases bs with
    | nil => exact ⟨rfl, (List.cons.inj same).2⟩
    | cons => exact absurd (List.cons.inj same).1 bracket
  | cons a as ih =>
    cases bs with
    | nil => exact absurd (List.cons.inj same).1.symm bracket
    | cons b bs =>
      simp only [List.map_cons, List.flatMap_cons, List.append_assoc] at same
      obtain ⟨first, others⟩ := each a (by simp) b (by simp) (atEnd_following ender _ rest)
        (atEnd_following ender _ rest') (List.append_cancel_left same)
      obtain ⟨more, rests⟩ := ih (fun a mem b mem' => each a (by simp [mem]) b (by simp [mem'])) others
      exact ⟨congrArg₂ List.cons first more, rests⟩

/-- All items up to the bracket, where none starts with the bracket itself. -/
theorem all (ender : close ∈ enders) (bracket : close ≠ ',')
    (opens : ∀ a ∈ as ++ bs, ∃ c ∈ (text a).head?, c ≠ close)
    (each : ∀ a ∈ as, ∀ b ∈ bs, ToldApart text shown a b)
    (same : separated (as.map text) close rest = separated (bs.map text) close rest') :
    as.map shown = bs.map shown ∧ rest = rest' := by
  have started : ∀ x ∈ as ++ bs, ∀ (more r : List Char), close :: r ≠ text x ++ more := by
    intro x mem more r start
    obtain ⟨c, head, other⟩ := opens x mem
    have first := congrArg List.head? start
    rw [List.head?_append, head] at first
    exact other (Option.some.inj first).symm
  cases as with
  | nil =>
    cases bs with
    | nil => exact ⟨rfl, (List.cons.inj same).2⟩
    | cons b bs =>
      rw [List.map_cons, separated_cons] at same
      exact absurd same (started b (by simp) _ rest)
  | cons a as =>
    cases bs with
    | nil =>
      rw [List.map_cons, separated_cons] at same
      exact absurd same.symm (started a (by simp) _ rest')
    | cons b bs =>
      rw [List.map_cons, List.map_cons, separated_cons, separated_cons] at same
      refine following ender bracket each ?_
      simp only [List.map_cons, List.flatMap_cons, List.append_assoc, same]

end ToldApart

theorem separated_names_inj {names names' : List String} (each : ∀ name ∈ names, Identifier name)
    (each' : ∀ name ∈ names', Identifier name) {rest rest' : List Char}
    (same : separated (names.map String.toList) ']' rest = separated (names'.map String.toList) ']' rest') :
    names = names' ∧ rest = rest' := by
  have opens : ∀ name ∈ names ++ names', ∃ c ∈ name.toList.head?, c ≠ ']' := by
    intro name mem
    obtain ⟨c, head, word⟩ := ((List.mem_append.1 mem).elim (each name) (each' name)).first
    exact ⟨c, head, fun bracket => by simp [bracket, inWord] at word⟩
  have apart : ∀ name ∈ names, ∀ name' ∈ names', ToldApart String.toList id name name' :=
    fun name mem name' mem' => (each name mem).append_inj (each' name' mem')
  obtain ⟨items, rests⟩ := ToldApart.all (by decide) (by decide) opens apart same
  exact ⟨by simpa using items, rests⟩

end StatementPlan
