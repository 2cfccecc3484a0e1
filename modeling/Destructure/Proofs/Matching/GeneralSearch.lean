import Destructure.Proofs.Matching.Settlement

/-!
The search that takes every unit for one that may branch. It never walks along the values; every
unit is tried anew for every count. It comes to the same bindings and asks the same questions.
-/

namespace Destructure.Matcher

variable {α : Type}

open Outline (leadingRepetition?)

def general (matcher : Matcher α) : Matcher α :=
  { matcher with branching := matcher.branching.map fun _ => true }

theorem branches_general (matcher : Matcher α) (id : Nat) : matcher.general.branches id = true := by
  rw [branches, general]
  cases present : matcher.branching[id]? <;> simp [present]

/-- Where every unit counts as branching, nothing is asked of the matcher. -/
theorem settled_general [BEq α] (matcher : Matcher α) : Outline.Compositional
    matcher.general.Settled matcher.general.SettledRow where
  node _ _ _ ofChildren := ofChildren
  nil := trivial
  cons item items ofItem ofItems := by
    refine ⟨ofItem, ?_, ofItems⟩
    intro _ _ plain
    rw [branches_general] at plain
    cases plain

/-- What is offered does not depend on the nodes that count as branching. -/
theorem turns_general [BEq α] (matcher : Matcher α) : Outline.Inductive
    (fun item => matcher.general.itemTurns item = matcher.itemTurns item ∧
      matcher.general.partTurns item = matcher.partTurns item)
    (fun items => matcher.general.rowTurns items = matcher.rowTurns items) where
  node id kind children ofChildren ofRow := by
    have all : matcher.general.allTurns children = matcher.allTurns children := by
      clear ofRow
      induction children with
      | nil => rfl
      | cons child children induction =>
          funext value contents
          rw [allTurns, allTurns, (ofChildren child List.mem_cons_self).1,
            induction fun other member => ofChildren other (List.mem_cons_of_mem _ member)]
    have any : matcher.general.anyTurns children = matcher.anyTurns children := by
      clear ofRow all
      induction children with
      | nil => rfl
      | cons child children induction =>
          funext value contents
          rw [anyTurns, anyTurns, (ofChildren child List.mem_cons_self).1,
            induction fun other member => ofChildren other (List.mem_cons_of_mem _ member)]
    have part : matcher.general.partTurns (.node id kind children) =
        matcher.partTurns (.node id kind children) := by
      funext values contents
      rw [partTurns, partTurns, ofRow]
    refine ⟨?_, part⟩
    funext value contents
    rw [itemTurns.eq_def, itemTurns.eq_def]
    simp only [ofRow, all, any]
    rfl
  nil := rfl
  repeated unit repetition minimum greed parts items ofUnit ofItems := by
    funext values contents
    rw [rowTurns, rowTurns, ofUnit.1, ofUnit.2, ofItems]
    rfl
  plain item items leads ofItem ofItems := by
    funext values contents
    rw [rowTurns_plain _ leads, rowTurns_plain _ leads, ofItem.1, ofItem.2, ofItems]
    rfl

theorem searchTrial_general [BEq α] (matcher : Matcher α) (guard : Option (Bindings α → Bool))
    (value : Value α) :
    matcher.general.searchTrial guard value = matcher.searchTrial guard value := by
  have row := matcher.turns_general.row [matcher.outline]
  simp only [searchTrial, show matcher.general.outline = matcher.outline from rfl, row]
  rfl

/-- Walking along the values is as good as trying units anew for every count: the search ends with
the same bindings, or without any, and has asked the same questions. -/
theorem general_search_agrees [BEq α] {pattern : Pattern α} {registry : Registry α}
    {options : Options} {matcher : Matcher α}
    (compiled : compile pattern registry options = .ok matcher)
    (guard : Option (Bindings α → Bool)) (value : Value α) :
    bindingsOf (matcher.general.search guard value) = bindingsOf (matcher.search guard value) ∧
      consultationsOf (matcher.general.search guard value) =
        consultationsOf (matcher.search guard value) := by
  have general := search_eq (matcher.settled_general.item matcher.outline) guard value
  have settled := search_eq (compiled_of_compile compiled).settled guard value
  rw [matcher.searchTrial_general] at general
  exact ⟨general.1.trans settled.1.symm, general.2.trans settled.2.symm⟩

theorem general_search_of_run : ∃ matcher : Matcher Nat,
    compile (.list [.bind "x", .repetition 0 none, .bind "y", .repetition 0 none]) .standard {} =
      .ok matcher ∧
    bindingsOf (matcher.general.search (some fun bindings => bindings.get? "x" == some (.list []))
        (.list [.symbol "a"])) =
      some ⟨[("x", .list []), ("y", .list [.symbol "a"])]⟩ ∧
    (consultationsOf (matcher.general.search
        (some fun bindings => bindings.get? "x" == some (.list []))
        (.list [.symbol "a"]))).map Consultation.accepted = [false, true] := by
  obtain ⟨matcher, compiled⟩ : ∃ matcher : Matcher Nat,
      compile (.list [.bind "x", .repetition 0 none, .bind "y", .repetition 0 none])
        .standard {} = .ok matcher := ⟨_, rfl⟩
  refine ⟨matcher, compiled, ?_, ?_⟩
  · rw [(general_search_agrees compiled _ _).1]
    cases compiled
    rfl
  · rw [(general_search_agrees compiled _ _).2]
    cases compiled
    rfl

end Destructure.Matcher
