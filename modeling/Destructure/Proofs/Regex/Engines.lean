import Destructure.Proofs.Regex.Enclosure
import Destructure.Proofs.Regex.Programs

/-!
What is documented of engines, and the engine that is built in. An engine compiles what can be read
as an expression and finds matches of it; which of them it prefers is left open. The source is put
into a group between the two ends of the text before it is read. An expression stays in its group
there, and that the built-in reader keeps to this is seen from what it reads with the ending behind
a source.

Main statement: `Engine.lawful_builtIn`.
-/

namespace Destructure.Regex

def Recognizer.Counted (recognizer : Recognizer) : Prop :=
  ∀ text captures, recognizer.captures? text = some captures →
    captures.size = recognizer.captureCount

/-- An engine goes by a reader of expressions: it compiles only what is read, and what it finds is
one of the matches, as the leftmost one is that a search prefers. Round brackets behind which a
question mark and a colon stand group an expression, whatever it consists of. -/
structure Engine.Lawful (engine : Engine) (read? : List Char → Option Expression) : Prop where
  finds : ∀ {source recognizer}, engine.compile source = .ok recognizer →
    ∃ expression, read? source.toList = some expression ∧
      ∀ text captures, recognizer.captures? text = some captures →
        expression.Matches text.toList.toArray captures.whole.start captures.whole.stop
  counts : ∀ {source recognizer}, engine.compile source = .ok recognizer → recognizer.Counted
  groups : ∀ {source body expression}, read? source.toList = some body →
    read? (anchored source).toList = some expression → expression = .spanning [.group none body]

/-! ## The ends around a source -/

theorem anchored_eq (source : String) : (anchored source).toList =
    '\\' :: 'A' :: '(' :: '?' :: ':' :: (source.toList ++ ending) := by
  have opening : "\\A(?:".toList = ['\\', 'A', '(', '?', ':'] := String.toList_ofList
  have closing : ")\\z".toList = ending := String.toList_ofList
  unfold anchored
  rw [String.toList_append, String.toList_append, opening, closing]
  rfl

/-- The start of the text and the group are read as such; what follows the group does so behind its
closing bracket. -/
theorem alternatives?_anchored (allowance : Nat) (text : List Char) :
    alternatives? (allowance + 2) ⟨{}, 0, []⟩ [] []
        ('\\' :: 'A' :: '(' :: '?' :: ':' :: text) =
      (alternatives? allowance ⟨{}, 0, []⟩ [] [] text).bind fun body =>
        match body.2.2 with
        | ')' :: rest =>
          alternatives? allowance { body.2.1 with flags := {} } []
            [.expression (.group none body.1), .expression (.anchor .textStart)] rest
        | _ => none := rfl

theorem alternatives?_textEnd (allowance : Nat) (groups : Nat) (names : List (List Char))
    (body : Expression) :
    alternatives? (allowance + 2) ⟨{}, groups, names⟩ []
        [.expression (.group none body), .expression (.anchor .textStart)] ['\\', 'z'] =
      some (.spanning [.group none body], ⟨{}, groups, names⟩, []) := rfl

/-- A source that is an expression by itself is read as one part between the ends, if anything is
read at all: a comment at its end may take the end of the text with it. -/
theorem read?_anchored {source : String} {body expression : Expression}
    (standsAlone : Expression.read? source.toList = some body)
    (read : Expression.read? (anchored source).toList = some expression) :
    expression = .spanning [.group none body] := by
  unfold Expression.read? at standsAlone read
  split at standsAlone
  next body reached alone =>
    split at standsAlone
    · cases standsAlone
      rcases alternatives?_ended (by omega : source.toList.length + 1 ≤ source.toList.length + 7)
        (.behind source.toList) alone with ⟨others, inside, left⟩
      have length : (anchored source).toList.length + 1 = source.toList.length + 7 + 2 := by
        simp [anchored_eq, ending]
      rw [length, anchored_eq, alternatives?_anchored, inside, Option.bind_some] at read
      rcases left.of_nil with rfl | rfl
      · simp only [ending] at read
        rw [alternatives?_textEnd] at read
        dsimp only at read
        split at read
        · cases read
          rfl
        · cases read
      · cases read
    · cases standsAlone
  next => cases standsAlone

/-! ## The engine that is built in -/

theorem exists_of_ofSource {source : String} {recognizer : Recognizer}
    (compiled : Recognizer.ofSource source = .ok recognizer) :
    ∃ expression program, Expression.read? source.toList = some expression ∧
      Program.ofExpression? expression = some program ∧ recognizer = program.recognizer := by
  unfold Recognizer.ofSource at compiled
  split at compiled
  next program made =>
    cases compiled
    obtain ⟨expression, read, made⟩ := Option.bind_eq_some_iff.mp made
    exact ⟨expression, program, read, made, rfl⟩
  next => cases compiled

theorem Engine.lawful_builtIn : Engine.builtIn.Lawful Expression.read? where
  finds compiled := by
    obtain ⟨expression, program, read, made, rfl⟩ := exists_of_ofSource compiled
    refine ⟨expression, read, fun text captures captured => ?_⟩
    obtain ⟨found, finds, rfl⟩ := Option.map_eq_some_iff.mp captured
    exact Program.matches_of_search? (Expression.wellFormed_of_read? read) made finds
  counts compiled text captures captured := by
    obtain ⟨expression, program, -, -, rfl⟩ := exists_of_ofSource compiled
    obtain ⟨found, -, rfl⟩ := Option.map_eq_some_iff.mp captured
    simp [Match.captures, Captures.size, Program.recognizer]
  groups := read?_anchored

end Destructure.Regex
