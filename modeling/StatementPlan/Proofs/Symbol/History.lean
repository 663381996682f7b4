/-
Registries by their history.  What a registry knows about a name, in whatever ASCII case it is
spelled, is settled by the last change of that name: the symbol that was registered, or nothing if
the name was taken out.

`lookup_apply`: what one change does to every name.
`Reads.apply`, `Reads.replay`: a registry reads the log of its changes, after one more change and
after many.
`history_determines_registry`: what a registry finds, answers and counts, told by the log.
-/
import Mathlib.Data.Set.Card
import StatementPlan.Proofs.Text.AsciiCase
import StatementPlan.Symbol.Registry

namespace StatementPlan.Registry

/-- A change of a registry; names are as they were spelled. -/
inductive Change where
  /-- A function of one row is registered. -/
  | scalar (name : String)
  /-- An aggregate is registered, with its bytes of state. -/
  | aggregate (name : String) (bytes : Nat)
  | deregister (name : String)
  deriving DecidableEq

namespace Change

def name : Change → String
  | scalar name | aggregate name _ | deregister name => name

/-- The symbol that is registered, if one is. -/
def symbol? : Change → Option Symbol
  | scalar name => some (.scalar name)
  | aggregate name bytes => some (.aggregate name bytes)
  | deregister _ => none

theorem symbol?_name {c : Change} {s : Symbol} (made : c.symbol? = some s) :
    s.name = foldCase c.name := by
  cases c with
  | deregister => cases made
  | _ =>
    obtain rfl := Option.some.inj made
    rfl

end Change

/-- The registry after a change. -/
def apply (r : Registry) (c : Change) : Registry :=
  match c.symbol? with
  | some s => r.register s
  | none => r.deregister c.name

/-- What a change answers: whether there was a symbol that it replaces or takes out. -/
def answer (r : Registry) (c : Change) : Bool :=
  match c.symbol? with
  | some s => r.holds s.name
  | none => (r.lookup c.name).isSome

/-- The registry after several changes, one after the other. -/
def replay (r : Registry) (log : List Change) : Registry := log.foldl apply r

/-- The last change of a name, in whatever case. -/
def lastOf? (log : List Change) (name : String) : Option Change :=
  log.reverse.find? fun c => sameName c.name name

/-- The symbol was registered under the name, up to case, and no later change is of that name. -/
def Stands (log : List Change) (s : Symbol) (name : String) : Prop :=
  ∃ before c after, log = before ++ c :: after ∧ c.symbol? = some s ∧ SameLetters c.name name ∧
    ∀ later ∈ after, ¬SameLetters later.name name

/-- Some symbol is registered under the name. -/
def Live (log : List Change) (name : String) : Prop := ∃ s, Stands log s name

/-- The live names, each in lower case. -/
def liveNames (log : List Change) : Set String := { name | foldCase name = name ∧ Live log name }

/-- What the log of its changes tells of a registry. -/
structure ToldBy (log : List Change) (r : Registry) : Prop where
  lookup : ∀ name s, r.lookup name = some s ↔ Stands log s name
  named : ∀ name s, r.lookup name = some s → s.name = foldCase name
  stateless : ∀ name s, r.lookup name = some s → s.isAggregate = false → s.scratchpad = 0
  /-- A change answers whether its name was live just before. -/
  answer : ∀ c, r.answer c = true ↔ Live log c.name
  size : r.size = (liveNames log).ncard

variable {r : Registry} {log : List Change} {name : String} {s : Symbol}

/-- Of the changes of a name the last one counts. -/
theorem stands_iff : Stands log s name ↔ (lastOf? log name).bind Change.symbol? = some s := by
  simp only [Option.bind_eq_some_iff, lastOf?, List.find?_eq_some_iff_append]
  constructor
  · rintro ⟨before, c, after, rfl, made, same, none⟩
    refine ⟨c, ⟨sameName_iff.2 (foldCase_eq_iff.2 same), after.reverse, before.reverse, by simp, ?_⟩, made⟩
    intro later mem
    have other := none later (List.mem_reverse.1 mem)
    rw [← foldCase_eq_iff, ← sameName_iff] at other
    simpa using other
  · rintro ⟨c, ⟨same, after, before, whole, none⟩, made⟩
    refine ⟨before.reverse, c, after.reverse, ?_, made, foldCase_eq_iff.1 (sameName_iff.1 same), ?_⟩
    · rw [← List.reverse_inj, whole]
      simp
    · intro later mem
      have other := none later (List.mem_reverse.1 mem)
      rw [← foldCase_eq_iff, ← sameName_iff]
      simpa using other

theorem lastOf?_snoc (log : List Change) (c : Change) (name : String) :
    lastOf? (log ++ [c]) name = if sameName c.name name then some c else lastOf? log name := by
  rw [lastOf?, lastOf?, List.reverse_append, List.reverse_singleton, List.singleton_append, List.find?_cons]
  cases sameName c.name name <;> rfl

/-- After a change its name has what is registered; what other names have stays. -/
theorem lookup_apply (r : Registry) (c : Change) (name : String) :
    (r.apply c).lookup name = if sameName c.name name then c.symbol? else r.lookup name := by
  by_cases same : foldCase c.name = foldCase name
  · rw [if_pos (sameName_iff.2 same), apply]
    split
    · rename_i s made
      rw [lookup_register_self r ((Change.symbol?_name made).trans same), made]
    · rename_i made
      rw [lookup_deregister_self r same.symm, made]
  · rw [if_neg fun here => same (sameName_iff.1 here), apply]
    split
    · rename_i s made
      exact lookup_register_other r fun here => same ((Change.symbol?_name made).symm.trans here)
    · exact lookup_deregister_other r fun here => same here.symm

/-- The registry reads the log of its changes; its symbols are kept under different names in lower
case. -/
structure Reads (r : Registry) (log : List Change) : Prop where
  lookup : ∀ name, r.lookup name = (lastOf? log name).bind Change.symbol?
  folded : ∀ s ∈ r.symbols, foldCase s.name = s.name
  distinct : (r.symbols.map Symbol.name).Nodup

theorem Reads.empty : Reads {} [] := ⟨fun _ => rfl, nofun, .nil⟩

theorem Reads.apply (h : Reads r log) (c : Change) : Reads (r.apply c) (log ++ [c]) := by
  refine ⟨fun name => ?_, ?_, ?_⟩
  · rw [lookup_apply, lastOf?_snoc, h.lookup]
    split <;> rfl
  · rw [Registry.apply]
    split
    · rename_i s made
      intro s' mem
      rcases List.mem_append.1 mem with mem | mem
      · exact h.folded s' (List.mem_filter.1 mem).1
      · rw [List.mem_singleton.1 mem, Change.symbol?_name made, fold_fold]
    · exact fun s mem => h.folded s (List.mem_filter.1 mem).1
  · have fewer : ∀ gone : String, ((r.symbols.filter fun s => s.name != gone).map Symbol.name).Nodup :=
      fun gone => h.distinct.sublist (List.filter_sublist.map Symbol.name)
    rw [Registry.apply]
    split
    · rename_i s made
      rw [register, List.map_append, List.map_singleton]
      refine (fewer s.name).append (List.nodup_singleton _) ?_
      rw [List.disjoint_singleton, List.mem_map]
      rintro ⟨s', mem, same⟩
      have other := (List.mem_filter.1 mem).2
      simp [same] at other
    · exact fewer _

theorem Reads.replay (h : Reads r log) (more : List Change) : Reads (r.replay more) (log ++ more) := by
  induction more generalizing r log with
  | nil =>
    rw [List.append_nil]
    exact h
  | cons c rest ih =>
    have next := ih (h.apply c)
    rw [List.append_assoc, List.singleton_append] at next
    exact next

theorem Reads.lookup_eq_some (h : Reads r log) : r.lookup name = some s ↔ Stands log s name := by
  rw [stands_iff, h.lookup]

theorem Reads.live (h : Reads r log) : (r.lookup name).isSome = true ↔ Live log name := by
  simp only [Option.isSome_iff_exists, h.lookup_eq_some, Live]

/-- The names of the symbols are the live ones. -/
theorem Reads.mem_names (h : Reads r log) :
    name ∈ r.symbols.map Symbol.name ↔ name ∈ liveNames log := by
  rw [List.mem_map]
  constructor
  · rintro ⟨s, mem, rfl⟩
    have folded := h.folded s mem
    have found : (r.lookup s.name).isSome = true := by
      rw [Registry.lookup, List.find?_isSome]
      exact ⟨s, mem, by simp [folded]⟩
    exact ⟨folded, h.live.1 found⟩
  · rintro ⟨folded, s, stands⟩
    have found := h.lookup_eq_some.2 stands
    have named : s.name = foldCase name := by simpa using List.find?_some found
    exact ⟨s, List.mem_of_find?_eq_some found, named.trans folded⟩

/-- A change answers whether its name is found. -/
theorem answer_eq (r : Registry) (c : Change) : r.answer c = (r.lookup c.name).isSome := by
  rw [answer]
  split
  · rename_i s made
    rw [Change.symbol?_name made, holds, lookup, Bool.eq_iff_iff, List.any_eq_true, List.find?_isSome]
  · rfl

/-- A registry that reads the log of its changes is told by it. -/
theorem Reads.toldBy (h : Reads r log) : ToldBy log r where
  lookup _ _ := h.lookup_eq_some
  named name s found := by simpa using List.find?_some found
  stateless _ _ _ := Symbol.scratchpad_eq_zero_of_scalar
  answer c := by rw [answer_eq, h.live]
  size := by
    have names : liveNames log = (r.symbols.map Symbol.name).toFinset := by
      ext name
      rw [← h.mem_names, List.coe_toFinset]
      rfl
    rw [names, Set.ncard_coe_finset, List.toFinset_card_of_nodup h.distinct, List.length_map, Registry.size]

/-- The changes that make the registry of the operators and the standard functions. -/
def builtinChanges : List Change :=
  scalarBuiltins.map .scalar ++ aggregateBuiltins.map fun (name, bytes) => .aggregate name bytes

theorem builtins_eq : builtins = replay {} builtinChanges := by
  rfl

/-- What a registry finds, answers and counts is told by the log of its changes, whether it starts
empty or with the standard functions. -/
theorem history_determines_registry (log : List Change) :
    ToldBy log (replay {} log) ∧ ToldBy (builtinChanges ++ log) (replay builtins log) := by
  have standard : Reads builtins builtinChanges := builtins_eq ▸ Reads.empty.replay builtinChanges
  exact ⟨(Reads.empty.replay log).toldBy, (standard.replay log).toldBy⟩

end StatementPlan.Registry
