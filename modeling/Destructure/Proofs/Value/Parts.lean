import Mathlib.Data.List.Forall2
import Mathlib.Data.List.Induction
import Destructure.Value.Basic

/-!
The parts of composite values. Equality is decided part by part; the entries of a map are set one
after another, which keeps their number exactly if no key comes twice; and what a value is made of
in the end are its atoms.
-/

namespace Destructure.Value

variable {α : Type}

/-! ## Equality -/

section Equality

variable [BEq α]

theorem beq_eq (first second : Value α) : (first == second) = first.equals second := rfl

theorem itemsEqual_iff {firsts seconds : List (Value α)} :
    itemsEqual firsts seconds ↔
      List.Forall₂ (fun first second => first == second) firsts seconds := by
  induction firsts generalizing seconds with
  | nil => cases seconds <;> simp [itemsEqual]
  | cons first firsts induction =>
      cases seconds with
      | nil => simp [itemsEqual]
      | cons second seconds =>
          rw [itemsEqual, Bool.and_eq_true, induction, List.forall₂_cons, beq_eq]

theorem entriesEqual_iff {firsts seconds : List (Value α × Value α)} :
    entriesEqual firsts seconds ↔
      List.Forall₂ (fun first second => first.1 == second.1 ∧ first.2 == second.2)
        firsts seconds := by
  induction firsts generalizing seconds with
  | nil => cases seconds <;> simp [entriesEqual]
  | cons first firsts induction =>
      cases seconds with
      | nil => simp [entriesEqual]
      | cons second seconds =>
          rw [entriesEqual, Bool.and_eq_true, Bool.and_eq_true, induction, List.forall₂_cons,
            beq_eq, beq_eq]

theorem fieldsEqual_iff {firsts seconds : List (String × Value α)} :
    fieldsEqual firsts seconds ↔
      List.Forall₂ (fun first second => first.1 = second.1 ∧ first.2 == second.2)
        firsts seconds := by
  induction firsts generalizing seconds with
  | nil => cases seconds <;> simp [fieldsEqual]
  | cons first firsts induction =>
      cases seconds with
      | nil => simp [fieldsEqual]
      | cons second seconds =>
          rw [fieldsEqual, Bool.and_eq_true, Bool.and_eq_true, induction, List.forall₂_cons,
            beq_eq, beq_iff_eq]

theorem exists_of_beq_list {first : Value α} {seconds : List (Value α)}
    (equal : first == .list seconds) :
    ∃ firsts, first = .list firsts ∧
      List.Forall₂ (fun first second => first == second) firsts seconds := by
  cases first with
  | list firsts => exact ⟨firsts, rfl, itemsEqual_iff.mp equal⟩
  | _ => cases equal

theorem exists_of_beq_map {first : Value α} {seconds : List (Value α × Value α)}
    (equal : first == .map seconds) :
    ∃ firsts, first = .map firsts ∧
      List.Forall₂ (fun first second => first.1 == second.1 ∧ first.2 == second.2)
        firsts seconds := by
  cases first with
  | map firsts => exact ⟨firsts, rfl, entriesEqual_iff.mp equal⟩
  | _ => cases equal

theorem exists_of_beq_record {first : Value α} {tag : String} {seconds : List (String × Value α)}
    (equal : first == .record tag seconds) :
    ∃ firsts, first = .record tag firsts ∧
      List.Forall₂ (fun first second => first.1 = second.1 ∧ first.2 == second.2)
        firsts seconds := by
  cases first with
  | record tag' firsts =>
      rw [beq_eq, equals, Bool.and_eq_true, fieldsEqual_iff] at equal
      cases eq_of_beq equal.1
      exact ⟨firsts, rfl, equal.2⟩
  | _ => cases equal

theorem forall_mem_of_forall₂ {First Second : Type} {relation : First → Second → Prop}
    {property : First → Prop} {propertyToo : Second → Prop} {firsts : List First}
    {seconds : List Second} (related : List.Forall₂ relation firsts seconds)
    (holds : ∀ first ∈ firsts, property first)
    (implies : ∀ first, property first → ∀ second ∈ seconds, relation first second →
      propertyToo second) :
    ∀ second ∈ seconds, propertyToo second := by
  induction related with
  | nil => exact List.forall_mem_nil _
  | @cons first second firsts seconds here later induction =>
      rcases List.forall_mem_cons.mp holds with ⟨holdsHere, holdsLater⟩
      refine List.forall_mem_cons.mpr ⟨implies first holdsHere second List.mem_cons_self here, ?_⟩
      exact induction holdsLater fun other otherHolds inner member =>
        implies other otherHolds inner (List.mem_cons_of_mem _ member)

end Equality

/-! ## Tables -/

section Tables

variable [BEq α]

def DistinctKeys (entries : List (Value α × Value α)) : Prop :=
  entries.Pairwise fun first second => (first.1 == second.1) = false

def tableOf (entries : List (Value α × Value α)) : List (Value α × Value α) :=
  entries.foldl (fun table entry => setEntry entry.1 entry.2 table) []

theorem mapOf_eq (entries : List (Value α × Value α)) : mapOf entries = .map (tableOf entries) :=
  rfl

theorem setEntry_of_absent {key : Value α} (content : Value α) {table : List (Value α × Value α)}
    (absent : ∀ entry ∈ table, (entry.1 == key) = false) :
    setEntry key content table = table ++ [(key, content)] := by
  induction table with
  | nil => rfl
  | cons entry table induction =>
      rcases List.forall_mem_cons.mp absent with ⟨here, later⟩
      rw [setEntry, here, induction later]
      rfl

theorem setEntry_cases (key content : Value α) (table : List (Value α × Value α)) :
    setEntry key content table = table ++ [(key, content)] ∨
      (setEntry key content table).length = table.length := by
  induction table with
  | nil => exact .inl rfl
  | cons entry table induction =>
      rw [setEntry]
      split
      · exact .inr rfl
      · rcases induction with appended | replaced
        · exact .inl (congrArg _ appended)
        · exact .inr (congrArg (· + 1) replaced)

theorem forall_mem_setEntry (keys contents : Value α → Prop) {key content : Value α}
    (holdsKey : keys key) (holdsContent : contents content) {table : List (Value α × Value α)}
    (holds : ∀ entry ∈ table, keys entry.1 ∧ contents entry.2) :
    ∀ entry ∈ setEntry key content table, keys entry.1 ∧ contents entry.2 := by
  induction table with
  | nil => exact List.forall_mem_singleton.mpr ⟨holdsKey, holdsContent⟩
  | cons entry table induction =>
      rcases List.forall_mem_cons.mp holds with ⟨here, later⟩
      rw [setEntry]
      split
      · exact List.forall_mem_cons.mpr ⟨⟨here.1, holdsContent⟩, later⟩
      · exact List.forall_mem_cons.mpr ⟨here, induction later⟩

theorem distinctKeys_setEntry (key content : Value α) {table : List (Value α × Value α)}
    (distinct : DistinctKeys table) : DistinctKeys (setEntry key content table) := by
  induction table with
  | nil => exact List.pairwise_singleton _ _
  | cons entry table induction =>
      rcases List.pairwise_cons.mp distinct with ⟨here, later⟩
      rw [setEntry]
      split
      next => exact List.pairwise_cons.mpr ⟨here, later⟩
      next other =>
        refine List.pairwise_cons.mpr ⟨?_, induction later⟩
        intro found member
        have kept : ∀ found ∈ setEntry key content table, (entry.1 == found.1) = false ∧ True :=
          forall_mem_setEntry (fun later => (entry.1 == later) = false) (fun _ => True)
            (Bool.eq_false_iff.mpr other) trivial fun present member =>
              ⟨here present member, trivial⟩
        exact (kept found member).1

theorem tableOf_append_singleton (entries : List (Value α × Value α)) (entry : Value α × Value α) :
    tableOf (entries ++ [entry]) = setEntry entry.1 entry.2 (tableOf entries) := by
  rw [tableOf, List.foldl_append]
  rfl

theorem distinctKeys_tableOf (entries : List (Value α × Value α)) :
    DistinctKeys (tableOf entries) := by
  induction entries using List.reverseRecOn with
  | nil => exact .nil
  | append_singleton entries entry induction =>
      rw [tableOf_append_singleton]
      exact distinctKeys_setEntry _ _ induction

theorem forall_mem_tableOf (keys contents : Value α → Prop) {entries : List (Value α × Value α)}
    (holds : ∀ entry ∈ entries, keys entry.1 ∧ contents entry.2) :
    ∀ entry ∈ tableOf entries, keys entry.1 ∧ contents entry.2 := by
  induction entries using List.reverseRecOn with
  | nil => exact List.forall_mem_nil _
  | append_singleton entries entry induction =>
      rcases List.forall_mem_append.mp holds with ⟨before, last⟩
      rcases List.forall_mem_singleton.mp last with ⟨key, content⟩
      rw [tableOf_append_singleton]
      exact forall_mem_setEntry keys contents key content (induction before)

/-- Entries with distinct keys are a table already. -/
theorem tableOf_of_distinctKeys {entries : List (Value α × Value α)}
    (distinct : DistinctKeys entries) : tableOf entries = entries := by
  induction entries using List.reverseRecOn with
  | nil => rfl
  | append_singleton entries entry induction =>
      rcases List.pairwise_append.mp distinct with ⟨before, -, apart⟩
      rw [tableOf_append_singleton, induction before]
      exact setEntry_of_absent _ fun present member => apart present member entry List.mem_cons_self

theorem length_tableOf_le (entries : List (Value α × Value α)) :
    (tableOf entries).length ≤ entries.length := by
  induction entries using List.reverseRecOn with
  | nil => exact Nat.le_refl 0
  | append_singleton entries entry induction =>
      rw [tableOf_append_singleton, List.length_append, List.length_singleton]
      rcases setEntry_cases entry.1 entry.2 (tableOf entries) with appended | replaced
      · rw [appended, List.length_append, List.length_singleton]
        omega
      · omega

/-- A table as long as the entries is the entries: no key came twice. -/
theorem tableOf_of_length {entries : List (Value α × Value α)}
    (long : (tableOf entries).length = entries.length) : tableOf entries = entries := by
  induction entries using List.reverseRecOn with
  | nil => rfl
  | append_singleton entries entry induction =>
      rw [tableOf_append_singleton, List.length_append, List.length_singleton] at long
      rw [tableOf_append_singleton]
      have short := length_tableOf_le entries
      rcases setEntry_cases entry.1 entry.2 (tableOf entries) with appended | replaced
      · rw [appended, List.length_append, List.length_singleton] at long
        rw [appended, induction (by omega)]
      · omega

end Tables

/-! ## Atoms -/

mutual
def atoms : Value α → List (Value α)
  | .list items => atomsOfItems items
  | .map entries => atomsOfEntries entries
  | .record _ fields => atomsOfFields fields
  | atom => [atom]
termination_by structural value => value

def atomsOfItems : List (Value α) → List (Value α)
  | [] => []
  | item :: items => item.atoms ++ atomsOfItems items
termination_by structural items => items

def atomsOfEntries : List (Value α × Value α) → List (Value α)
  | [] => []
  | (key, content) :: entries => key.atoms ++ content.atoms ++ atomsOfEntries entries
termination_by structural entries => entries

def atomsOfFields : List (String × Value α) → List (Value α)
  | [] => []
  | (_, content) :: fields => content.atoms ++ atomsOfFields fields
termination_by structural fields => fields
end

theorem forall_mem_atoms_list {items : List (Value α)} {property : Value α → Prop} :
    (∀ atom ∈ atoms (.list items), property atom) ↔
      ∀ item ∈ items, ∀ atom ∈ item.atoms, property atom := by
  rw [atoms]
  induction items with
  | nil => simp [atomsOfItems]
  | cons item items induction =>
      rw [atomsOfItems, List.forall_mem_append, induction, List.forall_mem_cons]

theorem forall_mem_atoms_map {entries : List (Value α × Value α)} {property : Value α → Prop} :
    (∀ atom ∈ atoms (.map entries), property atom) ↔
      ∀ entry ∈ entries, (∀ atom ∈ entry.1.atoms, property atom) ∧
        ∀ atom ∈ entry.2.atoms, property atom := by
  rw [atoms]
  induction entries with
  | nil => simp [atomsOfEntries]
  | cons entry entries induction =>
      rw [atomsOfEntries, List.forall_mem_append, List.forall_mem_append, induction,
        List.forall_mem_cons]

theorem forall_mem_atoms_record {tag : String} {fields : List (String × Value α)}
    {property : Value α → Prop} :
    (∀ atom ∈ atoms (.record tag fields), property atom) ↔
      ∀ field ∈ fields, ∀ atom ∈ field.2.atoms, property atom := by
  rw [atoms]
  induction fields with
  | nil => simp [atomsOfFields]
  | cons field fields induction =>
      rw [atomsOfFields, List.forall_mem_append, induction, List.forall_mem_cons]

end Destructure.Value
