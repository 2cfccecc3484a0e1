import Destructure.Matching.Search
import Destructure.Selection.Environment

/-!
What actions of clauses work with: the names that are visible, and a log of the questions that
searches have asked about bindings.
-/

namespace Destructure

structure Session (α : Type) where
  environment : Environment α
  /-- The questions asked so far, the latest first. -/
  consultations : List (Consultation α)

abbrev Action (α Result : Type) := StateM (Session α) Result

namespace Session

variable {α Result : Type}

def fresh : Session α := ⟨Environment.empty, []⟩

/-- Run an action with the bindings visible, and without them again afterwards. -/
def within (bindings : Bindings α) (action : Action α Result) : Action α Result :=
  fun session =>
    let (result, session) :=
      action { session with environment := session.environment.enter bindings }
    (result, { session with environment := session.environment.leave bindings.names })

def get? (name : String) : Action α (Option (Value α)) :=
  fun session => (session.environment.get? name, session)

def depth (name : String) : Action α Nat :=
  fun session => (session.environment.depth name, session)

def isEmpty : Action α Bool := fun session => (session.environment.isEmpty, session)

def search [BEq α] (matcher : Matcher α) (guard : Option (Bindings α → Bool)) (value : Value α) :
    Action α (Option (Bindings α)) := fun session =>
  let outcome := matcher.search guard value
  (Matcher.bindingsOf outcome,
    { session with consultations := outcome.2.consultations ++ session.consultations })

def run (action : Action α Result) : Result × List (Consultation α) :=
  let (result, session) := action fresh
  (result, session.consultations.reverse)

end Session

end Destructure
