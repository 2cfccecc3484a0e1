import Destructure.Decomposition.Decomposer
import Destructure.Proofs.Regex.Engines

/-!
Which regular expressions only accept whole texts. The source is put into a group between the two
ends of the text before it is compiled, so all depends on how the source reads in there. A source
that is an expression by itself stays inside its group, and then only whole texts are accepted. A
source that closes the group may let an alternative reach beyond one of the ends.

Main statement: `Decomposer.regex_whole_text`.
-/

namespace Destructure

open Regex

def Regex.Spans (read? : List Char → Option Expression) (source : String) : Prop :=
  ∃ parts, read? (anchored source).toList = some (.spanning parts)

namespace Decomposer

variable {α : Type}

/-- A value that a regular expression takes apart is a text in which it is found. -/
theorem exists_captures_of_regex {regex : Regex} {value : Value α} {parts : List (Value α)}
    (accepted : Decomposer.regex regex value = some parts) :
    ∃ text captures, (value = .string text ∨ value = .symbol text) ∧
      regex.captures? text = some captures ∧
      (captures.size = 1 → parts = [.string (captures.whole.content text)]) := by
  unfold Decomposer.regex at accepted
  simp only [Option.bind_eq_bind, Option.bind_eq_some_iff] at accepted
  obtain ⟨text, isText, texts, divided, made⟩ := accepted
  obtain ⟨captures, captured, rfl⟩ := Option.map_eq_some_iff.mp divided
  refine ⟨text, captures, ?_, captured, fun single => ?_⟩
  · cases value with
    | string text => cases isText; exact .inl rfl
    | symbol text => cases isText; exact .inr rfl
    | _ => cases isText
  · rw [if_pos single] at made
    cases made
    rfl

theorem content_whole (text : String) : (⟨0, text.length⟩ : Span).content text = text := by
  have size : text.length = text.toList.toArray.size := String.length_toList.symm
  rw [Span.content, size, Array.extract_size, List.toList_toArray, String.ofList_toList]

/-- A regular expression only accepts whole texts if its source is an expression by itself, or at
least reads as a row between the ends of the text. -/
theorem regex_whole_text [engine : Engine] {read? : List Char → Option Expression}
    (lawful : engine.Lawful read?) {source : String} {regex : Regex} {value : Value α}
    {parts : List (Value α)} (compiled : Regex.compile source = .ok regex)
    (enclosed : (read? source.toList).isSome ∨ Spans read? source)
    (accepted : Decomposer.regex regex value = some parts) :
    ∃ text captures, (value = .string text ∨ value = .symbol text) ∧
      regex.captures? text = some captures ∧ captures.whole = ⟨0, text.length⟩ ∧
      captures.whole.content text = text ∧
      (regex.captureCount = 1 → parts = [.string text]) := by
  obtain ⟨-, made⟩ := compile_eq_ok_iff.mp compiled
  obtain ⟨expression, read, finds⟩ := lawful.finds made
  obtain ⟨row, rfl⟩ : ∃ row, expression = .spanning row := by
    rcases enclosed with standsAlone | ⟨row, spans⟩
    · obtain ⟨body, alone⟩ := Option.isSome_iff_exists.mp standsAlone
      exact ⟨_, lawful.groups alone read⟩
    · exact ⟨row, Option.some.inj (read.symm.trans spans)⟩
  obtain ⟨text, captures, isText, captured, single⟩ := exists_captures_of_regex accepted
  obtain ⟨starts, stops⟩ := Expression.whole_of_spanning (finds text captures captured)
  have whole : captures.whole = ⟨0, text.length⟩ := by
    cases captures with
    | mk whole groups =>
        cases whole
        simp_all [String.length_toList]
  have content : captures.whole.content text = text := whole ▸ content_whole text
  refine ⟨text, captures, isText, captured, whole, content, fun ungrouped => ?_⟩
  rw [single (lawful.counts made text captures captured ▸ ungrouped), content]

/-- The first alternative would be the preferred one, but it does not reach the end. -/
theorem regex_whole_text_alternatives :
    ∃ regex, @Regex.compile .builtIn "a|ab" = .ok regex ∧
      Engine.builtIn.Lawful Expression.read? ∧ (Expression.read? "a|ab".toList).isSome ∧
      Decomposer.regex regex (.string "ab" : Value Empty) = some [.string "ab"] ∧
      ∃ text captures, ((.string "ab" : Value Empty) = .string text ∨
          (.string "ab" : Value Empty) = .symbol text) ∧
        regex.captures? text = some captures ∧ captures.whole = ⟨0, text.length⟩ ∧
        captures.whole.content text = text ∧
        (regex.captureCount = 1 → [(.string "ab" : Value Empty)] = [.string text]) := by
  have computed : (@Regex.compile .builtIn "a|ab").toOption.map (fun regex => regex.parts? "ab") =
      some (some [some "ab"]) := by decide +kernel
  obtain ⟨regex, made, found⟩ := Option.map_eq_some_iff.mp computed
  have compiled := @Regex.compile_of_toOption .builtIn _ _ made
  have alone : (Expression.read? "a|ab".toList).isSome := by decide +kernel
  have accepted : Decomposer.regex regex (.string "ab" : Value Empty) = some [.string "ab"] := by
    simp [Decomposer.regex, Value.text?, found]
  exact ⟨regex, compiled, Engine.lawful_builtIn, alone, accepted,
    @regex_whole_text Empty .builtIn _ Engine.lawful_builtIn _ _ _ _ compiled (.inl alone) accepted⟩

/-- A source that closes its group and opens another one accepts what only starts as it says. -/
theorem alternative_misses_end :
    ∃ regex, @Regex.compile .builtIn "a)|(?:b" = .ok regex ∧ regex.captureCount = 1 ∧
      Decomposer.regex regex (.string "ax" : Value Empty) = some [.string "a"] := by
  have computed : (@Regex.compile .builtIn "a)|(?:b").toOption.map
      (fun regex => (regex.captureCount, regex.parts? "ax")) = some (1, some [some "a"]) := by
    decide +kernel
  obtain ⟨regex, made, results⟩ := Option.map_eq_some_iff.mp computed
  obtain ⟨count, found⟩ := Prod.mk.inj results
  exact ⟨regex, @Regex.compile_of_toOption .builtIn _ _ made, count,
    by simp [Decomposer.regex, Value.text?, found]⟩

/-- So does one that hides the end of the text in a comment. -/
example : (@Regex.compile .builtIn "a)(?x)b#").toOption.map (fun regex => regex.parts? "abc") =
    some (some [some "ab"]) := by
  decide +kernel

end Decomposer

end Destructure
