import Destructure.Proofs.Matching.Repetition

/-!
Matching a unit once along the values, and going back from place to place. The marks that are kept
for the places belong to states of the slots each of which extends the one before, so taking back
to a mark restores what was held at that place.
-/

namespace Destructure

variable {α : Type}

open Slots (Same Extends)

namespace Step

/-- Marks that lead back from a state of the slots through places that were reached, the latest
place first, none of them before a first state. -/
inductive LeadsBack (first : Slots α) : Slots α → List (Rest α) → List (Place α) → Prop where
  | nil (current : Slots α) : LeadsBack first current [] []
  | cons {current slots : Slots α} {rests : List (Rest α)} {places : List (Place α)}
      (left : List (Value α)) (since : Extends first slots) (further : Extends slots current)
      (before : LeadsBack first slots rests places) :
      LeadsBack first current ((slots.mark, left) :: rests) (⟨slots.entries, left⟩ :: places)

namespace LeadsBack

variable {first current later : Slots α} {rests : List (Rest α)} {places : List (Place α)}

theorem extend (leads : LeadsBack first current rests places) (extended : Extends current later) :
    LeadsBack first later rests places := by
  cases leads with
  | nil => exact .nil later
  | cons left since further before => exact .cons left since (further.trans extended) before

theorem length_eq (leads : LeadsBack first current rests places) :
    rests.length = places.length := by
  induction leads with
  | nil => rfl
  | cons left since further before induction => simp [induction]

theorem take (leads : LeadsBack first current rests places) (count : Nat) :
    LeadsBack first current (rests.take count) (places.take count) := by
  induction leads generalizing count with
  | nil => simpa using LeadsBack.nil _
  | cons left since further before induction =>
      cases count with
      | zero => exact .nil _
      | succ count => exact .cons left since further (induction count)

end LeadsBack

theorem concludes_retreat {next : Continuation α}
    {goal : List (Value α) → Contents α → Trial α (Ending α)}
    (realizes : ∀ left, Realizes Same (next left) (goal left))
    {slots : Slots α} {rests : List (Rest α)} {places : List (Place α)}
    {state current : SearchState α}
    (leads : LeadsBack state.slots slots rests places) (here : Same slots current.slots)
    (extended : Extends state.slots current.slots) (found : current.found = state.found)
    (consultations : current.consultations = state.consultations) :
    Concludes Extends state
      (.explore (fun place => goal place.left place.contents) (places.map .reached))
      (retreat next rests current) := by
  generalize origin : state.slots = first at leads
  induction leads generalizing state current with
  | nil =>
      exact .of_extends extended found consultations (Concludes.failure (.refl current)).loosely
  | @cons slots' slots rests places left since further before induction =>
      subst origin
      have back : Same slots (current.rollBack slots.mark).slots :=
        (further.undo_of_same here).symm
      have concludes := realizes left (current.rollBack slots.mark)
      rw [← back.entries] at concludes
      have returned : Extends state.slots (current.rollBack slots.mark).slots :=
        since.trans (.of_same back)
      simp only [List.map_cons, Trial.explore_reached, retreat]
      rcases ended : next left (current.rollBack slots.mark) with ⟨matched, later⟩
      rw [ended] at concludes
      have first : Concludes Extends state _ _ :=
        concludes.loosely.of_extends returned found consultations
      cases matched with
      | true => exact first.orElse_of_matched
      | false =>
          have similar := concludes.similar_of_failed
          apply first.orElse_of_failed
          exact induction (back.trans similar.slots) (returned.trans (.of_same similar.slots))
            (similar.found.trans found) rfl rfl

theorem exists_places (unit : Value α → Step α) (values : List (Value α))
    (reached : List (Rest α)) (state : SearchState α) : ∃ count ≤ values.length,
    (stretch unit values reached state).1.map Prod.snd =
      ((List.range count).map fun passed => values.drop (passed + 1)).reverse ++
        reached.map Prod.snd := by
  induction values generalizing reached state with
  | nil => exact ⟨0, Nat.le_refl _, rfl⟩
  | cons value values induction =>
      rw [stretch]
      rcases unit value state with ⟨_ | _, later⟩
      · exact ⟨0, Nat.zero_le _, rfl⟩
      · rcases induction ((later.mark, values) :: reached) later with ⟨count, within, places⟩
        refine ⟨count + 1, Nat.succ_le_succ within, ?_⟩
        simp [places, List.range_succ_eq_map, Function.comp_def]

/-- The places that a unit reaches along the values lie before or behind one of them. -/
theorem stretch_places (unit : Value α → Step α) (values : List (Value α)) (state : SearchState α) :
    ∃ count ≤ values.length, (stretch unit values [(state.mark, values)] state).1.map Prod.snd =
      ((List.range (count + 1)).map fun passed => values.drop passed).reverse := by
  rcases exists_places unit values [(state.mark, values)] state with ⟨count, within, places⟩
  refine ⟨count, within, ?_⟩
  simp [places, List.range_succ_eq_map, Function.comp_def]

def OneWay (unit : Value α → Step α) (way : Value α → Contents α → Option (Contents α)) : Prop :=
  ∀ value, Realizes Same (unit value) fun contents =>
    .explore (fun reached => .success (reached, none)) (.ofOption (way value contents))

theorem OneWay.of_realizesItem {unit : Value α → Step α → Step α}
    {turns : Value α → Contents α → Turns α (Contents α)} (realizes : RealizesItem unit turns)
    {way : Value α → Contents α → Option (Contents α)}
    (oneWay : ∀ value contents, turns value contents = .ofOption (way value contents)) :
    OneWay (fun value => unit value accept) way := by
  intro value
  have concludes := realizes value accept _ realizes_accept
  simpa only [oneWay] using concludes

variable {unit : Value α → Step α} {way : Value α → Contents α → Option (Contents α)}

/-- Matching a value fails without a trace, or leads on to the next place. -/
theorem OneWay.cases (oneWay : OneWay unit way) (value : Value α) (state : SearchState α) :
    (way value state.slots.entries = none ∧
        ∃ later, unit value state = (false, later) ∧ SearchState.Similar state later) ∨
      ∃ contents later, way value state.slots.entries = some contents ∧
        unit value state = (true, later) ∧ later.slots.entries = contents ∧
        Extends state.slots later.slots ∧ later.found = state.found ∧
        later.consultations = state.consultations := by
  have concludes := oneWay value state
  rcases ended : unit value state with ⟨matched, later⟩
  rw [ended] at concludes
  cases possible : way value state.slots.entries with
  | none =>
      obtain ⟨asked, failed, same, found⟩ := by
        simpa [possible, Turns.ofOption, Concludes, Trial.failure] using concludes
      exact .inl ⟨rfl, later, by rw [failed], same, found, asked⟩
  | some contents =>
      obtain ⟨asked, matches_, reached, extended, found⟩ := by
        simpa [possible, Turns.ofOption, Concludes, Trial.success, Trial.orElse] using concludes
      exact .inr ⟨contents, later, rfl, by rw [matches_], reached, extended, found, asked⟩

/-- Going along the values reaches the places behind each of them, with marks that lead back. -/
theorem stretch_leadsBack (oneWay : OneWay unit way) {first : Slots α} (values : List (Value α))
    (reached : List (Rest α)) (places : List (Place α)) (state : SearchState α)
    (leads : LeadsBack first state.slots reached places) (since : Extends first state.slots) :
    ∃ rests later, stretch unit values reached state = (rests, later) ∧
      LeadsBack first later.slots rests
        ((Turns.onward way values state.slots.entries).reverse ++ places) ∧
      Extends first later.slots ∧ later.found = state.found ∧
      later.consultations = state.consultations := by
  induction values generalizing reached places state with
  | nil => exact ⟨reached, state, rfl, by simpa [Turns.onward] using leads, since, rfl, rfl⟩
  | cons value values induction =>
      rcases oneWay.cases value state with
        ⟨impossible, later, failed, similar⟩ |
        ⟨contents, later, possible, matched, held, extended, found, consultations⟩
      · refine ⟨reached, later, by simp [stretch, failed], ?_, since.trans (.of_same similar.slots),
          similar.found, similar.consultations⟩
        simpa [Turns.onward, impossible] using leads.extend (.of_same similar.slots)
      · subst held
        obtain ⟨rests, last, stretched, leads', since', found', consultations'⟩ :=
          induction ((later.mark, values) :: reached)
            (⟨later.slots.entries, values⟩ :: places) later
            (.cons values (since.trans extended) (.refl _) (leads.extend extended))
            (since.trans extended)
        refine ⟨rests, last, by simp [stretch, matched, stretched], ?_, since',
          found'.trans found, consultations'.trans consultations⟩
        simpa [Turns.onward, possible] using leads'

variable {next : Continuation α} {goal : List (Value α) → Contents α → Trial α (Ending α)}

/-- The longest stretch first: the places from the last one back to the minimum. -/
theorem realizes_flatGreedy (oneWay : OneWay unit way)
    (realizes : ∀ left, Realizes Same (next left) (goal left)) (minimum : Nat)
    (values : List (Value α)) :
    Realizes Extends (flatGreedy unit minimum values next) fun contents =>
      .explore (fun place => goal place.left place.contents)
        ((Greed.greedy.walk
          ((⟨contents, values⟩ :: Turns.onward way values contents).drop minimum)).map
            .reached) := by
  intro state
  obtain ⟨rests, later, stretched, leads, since, found, consultations⟩ :=
    stretch_leadsBack oneWay values [(state.mark, values)] [⟨state.slots.entries, values⟩] state
      (.cons values (.refl _) (.refl _) (.nil _)) (.refl _)
  rw [← List.reverse_cons] at leads
  have kept := leads.take (rests.length - minimum)
  -- The latest places come first, so those before the minimum are left out at the end.
  have latest : ((⟨state.slots.entries, values⟩ ::
        Turns.onward way values state.slots.entries).reverse.take (rests.length - minimum)) =
      Greed.greedy.walk
        ((⟨state.slots.entries, values⟩ :: Turns.onward way values state.slots.entries).drop
          minimum) := by
    rw [leads.length_eq, Greed.walk, List.take_reverse, List.length_reverse]
    congr 1
    rcases Nat.le_total minimum
        (⟨state.slots.entries, values⟩ :: Turns.onward way values state.slots.entries).length
      with within | beyond
    · rw [Nat.sub_sub_self within]
    · rw [Nat.sub_eq_zero_of_le beyond, Nat.sub_zero, List.drop_length,
        List.drop_of_length_le beyond]
  rw [latest] at kept
  simp only [flatGreedy, stretched]
  exact concludes_retreat realizes kept (.refl _) since found consultations

theorem realizes_orTry {first rest : Step α} {goal goal' : Contents α → Trial α (Ending α)}
    (realizes : Realizes Same first goal) (realizes' : Realizes Extends rest goal') :
    Realizes Extends
      (fun state =>
        match first state with
        | (true, later) => (true, later)
        | (false, later) => rest later)
      fun contents => (goal contents).orElse (goal' contents) := by
  intro state
  have concludes := realizes state
  rcases ended : first state with ⟨matched, later⟩
  rw [ended] at concludes
  simp only [ended]
  cases matched with
  | true => exact concludes.loosely.orElse_of_matched
  | false =>
      have similar := concludes.similar_of_failed
      have others := realizes' later
      rw [← similar.slots.entries] at others
      exact concludes.orElse_of_failed (others.of_similar similar)

/-- The shortest stretch first: the places from the minimum on. -/
theorem realizes_flatLazy (oneWay : OneWay unit way)
    (realizes : ∀ left, Realizes Same (next left) (goal left)) (required : Nat)
    (values : List (Value α)) :
    Realizes Extends (flatLazy unit next required values) fun contents =>
      .explore (fun place => goal place.left place.contents)
        ((Greed.lazy.walk
          ((⟨contents, values⟩ :: Turns.onward way values contents).drop required)).map
            .reached) := by
  induction values generalizing required with
  | nil =>
      have rest : Realizes Extends (fun state => (false, state)) fun _ : Contents α => .failure :=
        fun state => (Concludes.failure (.refl state)).loosely
      intro state
      cases required with
      | zero =>
          have here := realizes_orRollBack (realizes []).loosely
          rw [flatLazy]
          exact realizes_orTry here rest state
      | succ required =>
          rw [flatLazy]
          simpa [Greed.walk, Turns.onward] using rest state
  | cons value values induction =>
      -- What is tried behind the value does not depend on whether it was tried before the value.
      have rest (required : Nat) : Realizes Extends
          (fun state =>
            match unit value state with
            | (true, state) => flatLazy unit next required values state
            | (false, state) => (false, state))
          fun contents => .explore (fun place => goal place.left place.contents)
            (((Turns.onward way (value :: values) contents).drop required).map .reached) := by
        intro state
        rcases oneWay.cases value state with
          ⟨impossible, later, failed, similar⟩ |
          ⟨contents, later, possible, matched, held, extended, found, consultations⟩
        · simpa [failed, Turns.onward, impossible] using (Concludes.failure similar).loosely
        · subst held
          simp only [matched, Turns.onward, possible]
          exact (induction required later).of_extends extended found consultations
      intro state
      cases required with
      | zero =>
          have here := realizes_orRollBack (realizes (value :: values)).loosely
          rw [flatLazy]
          exact realizes_orTry here (rest 0) state
      | succ required =>
          rw [flatLazy]
          exact rest required state

end Step

end Destructure
