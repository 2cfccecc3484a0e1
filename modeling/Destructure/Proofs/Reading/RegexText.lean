import Mathlib.Data.List.Induction
import Destructure.Proofs.Reading.PatternText
import Destructure.Regex.Search

/-!
The text of a regular expression, read as a lexeme. Reading takes a backslash with the character
behind it, while the printer guards each slash by itself, so a slash that stands behind an odd
number of backslashes takes the last of them away from what it belongs to. This never happens in a
source that was read, but a source may be given otherwise.

Main statement: `Token.printed_regex_read_back_iff`.
-/

namespace Destructure

open Text

namespace Lexeme

/-! ## Backslashes in pairs -/

def backslashesAtEnd (text : List Char) : Nat := (text.reverse.takeWhile (· == '\\')).length

theorem backslashesAtEnd_concat_backslash (text : List Char) :
    backslashesAtEnd (text ++ ['\\']) = backslashesAtEnd text + 1 := by
  simp [backslashesAtEnd]

theorem backslashesAtEnd_concat_of_ne {character : Char} (notBackslash : character ≠ '\\')
    (text : List Char) : backslashesAtEnd (text ++ [character]) = 0 := by
  simp [backslashesAtEnd, notBackslash]

def PairsBackslashes (text : List Char) : Prop :=
  ∀ before after, text = before ++ after → (∀ next ∈ after.head?, next = '/') →
    backslashesAtEnd before % 2 = 0

/-- Behind backslashes in pairs, or none, backslashes are counted as if the text started there. -/
theorem backslashesAtEnd_append {front : List Char} (paired : backslashesAtEnd front % 2 = 0)
    (text : List Char) :
    backslashesAtEnd (front ++ text) % 2 = backslashesAtEnd text % 2 := by
  induction text using List.reverseRecOn with
  | nil =>
      rw [List.append_nil, paired]
      rfl
  | append_singleton text last induction =>
      rw [← List.append_assoc]
      by_cases isBackslash : last = '\\'
      · rw [isBackslash, backslashesAtEnd_concat_backslash, backslashesAtEnd_concat_backslash]
        omega
      · rw [backslashesAtEnd_concat_of_ne isBackslash, backslashesAtEnd_concat_of_ne isBackslash]

theorem PairsBackslashes.of_append {front text : List Char}
    (pairs : PairsBackslashes (front ++ text)) (paired : backslashesAtEnd front % 2 = 0) :
    PairsBackslashes text := by
  intro before after split next
  rw [← backslashesAtEnd_append paired before]
  exact pairs (front ++ before) after (by rw [split, List.append_assoc]) next

theorem backslashesAtEnd_plain {character : Char} (notBackslash : character ≠ '\\') :
    backslashesAtEnd [character] % 2 = 0 := by
  have none := backslashesAtEnd_concat_of_ne notBackslash []
  rw [List.nil_append] at none
  rw [none]

theorem backslashesAtEnd_pair (escaped : Char) :
    backslashesAtEnd ['\\', escaped] % 2 = 0 := by
  by_cases isBackslash : escaped = '\\'
  · rw [isBackslash]
    rfl
  · have none := backslashesAtEnd_concat_of_ne isBackslash ['\\']
    rw [List.singleton_append] at none
    rw [none]

theorem pairsBackslashes_of_isSource {source : List Char} (isSource : IsSource source) :
    PairsBackslashes source := by
  induction isSource with
  | nil =>
      intro before after split next
      rw [(List.append_eq_nil_iff.mp split.symm).1]
      rfl
  | @pair escaped source notSlash isSource induction =>
      intro before after split next
      rcases before with - | ⟨first, before⟩
      · rfl
      · injection split with isFirst split
        subst isFirst
        rcases before with - | ⟨second, before⟩
        · -- What a backslash stands before is no slash, so the text is not cut behind it.
          subst split
          exact absurd (next escaped rfl) notSlash
        · injection split with isSecond split
          subst isSecond
          exact (backslashesAtEnd_append (backslashesAtEnd_pair escaped) before).trans
            (induction before after split next)
  | @cons character source notBackslash isSource induction =>
      intro before after split next
      rcases before with - | ⟨first, before⟩
      · rfl
      · injection split with isFirst split
        subst isFirst
        exact (backslashesAtEnd_append (backslashesAtEnd_plain notBackslash) before).trans
          (induction before after split next)

theorem isSource_of_pairsBackslashes (source : List Char) (pairs : PairsBackslashes source) :
    IsSource source := by
  induction source using List.twoStepInduction with
  | nil => exact .nil
  | singleton character =>
      refine .cons ?_ .nil
      rintro rfl
      have odd := pairs ['\\'] [] rfl fun next member => by cases member
      cases odd
  | cons_cons first second rest behindBoth behindFirst =>
      by_cases isBackslash : first = '\\'
      · subst isBackslash
        refine .pair ?_ (behindBoth (pairs.of_append (backslashesAtEnd_pair second)))
        rintro rfl
        have odd := pairs ['\\'] ('/' :: rest) rfl fun next member => by cases member; rfl
        cases odd
      · exact .cons isBackslash
          (behindFirst second (pairs.of_append (backslashesAtEnd_plain isBackslash)))

theorem isSource_iff (source : List Char) : IsSource source ↔ PairsBackslashes source :=
  ⟨pairsBackslashes_of_isSource, isSource_of_pairsBackslashes source⟩

end Lexeme

namespace Token

open Lexeme

theorem scan_regex {regex : Regex} (isSource : IsSource regex.source.toList) :
    scan regex.render = .ok [⟨.regex regex.source, 0⟩] := by
  have read := read_regex false isSource []
  rw [List.append_nil] at read
  have spelled : regex.render = '/' :: (regex.source.toList.flatMap guardSlash ++ ['/']) := rfl
  rw [scan, spelled, List.length_cons, scanFrom_visible _ _ _ (by decide), ← spelled, read]
  rfl

/-- A regular expression is read back from its text exactly if its source has its backslashes in
pairs in front of slashes and at its end, as every source that was read has. -/
theorem printed_regex_read_back_iff [Regex.Engine] {source : String} {regex : Regex}
    (compiled : Regex.compile source = .ok regex) :
    (scan (Shape.regex regex).render = .ok [⟨.regex source, 0⟩] ↔
      PairsBackslashes source.toList) ∧
    ∀ text tokens position, scan text = .ok tokens → ⟨.regex source, position⟩ ∈ tokens →
      scan (Shape.regex regex).render = .ok [⟨.regex source, 0⟩] := by
  have readBack : IsSource source.toList →
      scan (Shape.regex regex).render = .ok [⟨.regex source, 0⟩] := by
    rw [← Regex.source_of_compile compiled]
    exact scan_regex
  refine ⟨⟨fun scanned => ?_, fun pairs => readBack ((isSource_iff _).mpr pairs)⟩, ?_⟩
  · exact (isSource_iff _).mp (scan_isReadable scanned (.regex source) (by simp))
  · intro text tokens position scanned member
    exact readBack (scan_isReadable scanned (.regex source) (List.mem_map_of_mem member))

section BuiltIn

attribute [local instance] Regex.Engine.builtIn

/-- A slash between letters, and a backslash that stays with its letter. -/
theorem guarded_slash_read_back :
    ∃ regex, Regex.compile "a/b\\d" = .ok regex ∧
      scan "x /a\\/b\\d/".toList = .ok [⟨.name "x", 0⟩, ⟨.regex "a/b\\d", 2⟩] ∧
      scan (Shape.regex regex).render = .ok [⟨.regex "a/b\\d", 0⟩] ∧
      PairsBackslashes "a/b\\d".toList := by
  have compiles : (Regex.compile "a/b\\d").toOption.isSome := by decide +kernel
  have scanned : scan "x /a\\/b\\d/".toList = .ok [⟨.name "x", 0⟩, ⟨.regex "a/b\\d", 2⟩] := by
    decide +kernel
  obtain ⟨regex, made⟩ := Option.isSome_iff_exists.mp compiles
  have compiled := Regex.compile_of_toOption made
  obtain ⟨iff, readBack⟩ := printed_regex_read_back_iff compiled
  have printed := readBack _ _ 2 scanned (by simp)
  exact ⟨regex, compiled, scanned, printed, iff.mp printed⟩

/-- The guard before a slash that has a backslash already leaves the slash without one. -/
theorem escaped_slash_not_read_back :
    ∃ regex, Regex.compile "\\/" = .ok regex ∧
      (Shape.regex regex).render = "/\\\\//".toList ∧
      scan (Shape.regex regex).render = .error ⟨4, .unterminatedRegex⟩ := by
  have computed : (Regex.compile "\\/").toOption.map (fun regex => (Shape.regex regex).render) =
      some "/\\\\//".toList := by decide +kernel
  obtain ⟨regex, made, rendered⟩ := Option.map_eq_some_iff.mp computed
  exact ⟨regex, Regex.compile_of_toOption made, rendered, by rw [rendered]; decide +kernel⟩

end BuiltIn

end Token

end Destructure
