import Destructure.Selection.Session

/-!
Clauses that are tried in order. The first clause whose pattern matches, with the consent of its
guard, is selected and its action is run with the bindings of the match visible; no other action
is run. A pattern that cannot be compiled is reported when its clause is reached.
-/

namespace Destructure

structure Clause (α Result : Type) where
  matcher : Except (Error α) (Matcher α)
  guard : Option (Bindings α → Bool)
  action : Action α Result

structure Selector (α Result : Type) where
  registry : Registry α
  options : Options
  clauses : List (Clause α Result)

namespace Selector

variable {α Result : Type}

def empty (registry : Registry α) (options : Options) : Selector α Result :=
  ⟨registry, options, []⟩

def add [BEq α] (selector : Selector α Result) (pattern : Pattern α)
    (guard : Option (Bindings α → Bool)) (action : Action α Result) : Selector α Result :=
  let matcher := Matcher.compile pattern selector.registry selector.options
  { selector with clauses := selector.clauses ++ [⟨matcher, guard, action⟩] }

def size (selector : Selector α Result) : Nat := selector.clauses.length

def isEmpty (selector : Selector α Result) : Bool := selector.clauses.isEmpty

def select [BEq α] (value : Value α) :
    List (Clause α Result) → Action α (Except (Error α) Result)
  | [] => pure (.error (.noMatchingPattern value))
  | clause :: clauses =>
    match clause.matcher with
    | .error error => pure (.error error)
    | .ok matcher => do
      match ← Session.search matcher clause.guard value with
      | some bindings => .ok <$> Session.within bindings clause.action
      | none => select value clauses

def evaluate [BEq α] (selector : Selector α Result) (value : Value α) :
    Action α (Except (Error α) Result) :=
  select value selector.clauses

def clauseText [Foreign α] (clause : Clause α Result) : List Char :=
  match clause.matcher with
  | .ok matcher => matcher.source.render
  | .error error => '<' :: error.message.toList ++ ['>']

def text [Foreign α] (selector : Selector α Result) : String :=
  String.ofList ('[' :: Text.commaSeparated (selector.clauses.map clauseText) ++ [']'])

end Selector

end Destructure
