import Destructure.Proofs.Pattern.Verdict

/-!
What the repetitions of a pattern without mistakes repeat. Each of them stands directly behind an
item that is no repetition itself, so a row that is read from the front, every repetition together
with the item before it, never comes to start with a repetition.
-/

namespace Destructure.Pattern

variable {α : Type}

def Founded (items : List (Pattern α)) : Prop :=
  ∀ place repetition, items[place]? = some repetition → repetition.isRepetition →
    ∃ before unit, place = before + 1 ∧ items[before]? = some unit ∧ unit.isRepetition = false

section Founded

variable {item : Pattern α} {items : List (Pattern α)}

theorem Founded.isRepetition_eq_false (founded : Founded (item :: items)) :
    item.isRepetition = false := by
  cases leads : item.isRepetition with
  | false => rfl
  | true =>
      rcases founded 0 item rfl leads with ⟨before, unit, impossible, -⟩
      cases impossible

theorem Founded.repeated {minimum : Nat} {greed : Option Greed}
    (founded : Founded (item :: .repetition minimum greed :: items)) : Founded items := by
  intro place repetition present isRepetition
  rcases founded (place + 2) repetition present isRepetition with
    ⟨before, unit, equal, there, plain⟩
  cases Nat.succ.inj equal
  cases place with
  | zero =>
      cases there
      cases plain
  | succ place => exact ⟨place, unit, rfl, there, plain⟩

theorem Founded.plain (founded : Founded (item :: items)) (leads : repetitionLeads items = false) :
    Founded items := by
  intro place repetition present isRepetition
  rcases founded (place + 1) repetition present isRepetition with
    ⟨before, unit, equal, there, plain⟩
  cases Nat.succ.inj equal
  cases place with
  | zero =>
      rw [repetitionLeads, List.head?_eq_getElem?, present, Option.any_some] at leads
      rw [isRepetition] at leads
      cases leads
  | succ place => exact ⟨place, unit, rfl, there, plain⟩

theorem founded_of_takesValue (alone : ∀ item ∈ items, item.takesValue) : Founded items := by
  intro place repetition present isRepetition
  have takes := alone repetition (List.mem_of_getElem? present)
  rw [takesValue, isRepetition] at takes
  cases takes

theorem founded_singleton (takes : item.takesValue) : Founded [item] :=
  founded_of_takesValue (List.forall_mem_singleton.mpr takes)

end Founded

def Steady (pattern : Pattern α) : Prop :=
  ∀ path node, pattern.at? path = some node → Founded node.parts

theorem Steady.founded {pattern : Pattern α} (steady : pattern.Steady) : Founded pattern.parts :=
  steady [] pattern rfl

theorem Steady.part {pattern part : Pattern α} (steady : pattern.Steady)
    (member : part ∈ pattern.parts) : part.Steady := by
  rcases List.getElem?_of_mem member with ⟨place, present⟩
  intro path node there
  apply steady (place :: path)
  rw [at?, present, Option.bind_some, there]

theorem not_amongItems_nil (root : Pattern α) : ¬root.AmongItems [] := by
  rintro ⟨above, place, holder, empty, -⟩
  exact absurd empty.symm (List.append_ne_nil_of_right_ne_nil above (List.cons_ne_nil _ _))

section

variable [BEq α] {options : Options} {root : Pattern α}

theorem WellFormed.steady (formed : root.WellFormed options) : root.Steady := by
  intro above holder atAbove place repetition present isRepetition
  cases repetition with
  | repetition minimum greed =>
      have there : root.at? (above ++ [place]) = some (.repetition minimum greed) := by
        rw [at?_concat, atAbove, Option.bind_some, present]
      rcases formed.repetitions _ _ _ there with ⟨-, above', before, unit, equal, atUnit, plain⟩
      rcases List.append_inj' equal rfl with ⟨rfl, same⟩
      cases same
      rw [at?_concat, atAbove, Option.bind_some] at atUnit
      exact ⟨before, unit, rfl, atUnit, plain⟩
  | _ => cases isRepetition

/-- The whole pattern stands by itself. -/
theorem WellFormed.takesValue (formed : root.WellFormed options) : root.takesValue := by
  cases root with
  | repetition minimum greed =>
      exact absurd (formed.repetitions [] _ _ rfl).1 (not_amongItems_nil _)
  | sequence items => exact absurd (formed.sequences [] _ rfl).1 (not_amongItems_nil _)
  | condition accepts => exact absurd (formed.conditions [] _ rfl).1 (not_amongItems_nil _)
  | _ => rfl

end

end Destructure.Pattern
