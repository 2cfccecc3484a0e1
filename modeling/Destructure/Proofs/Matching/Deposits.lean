import Destructure.Proofs.Matching.Ways
import Destructure.Proofs.Matching.Prospect

/-!
Recording for several variables. A way binds values under names; the search puts entries under
numbers. What passes of a repetition record one after another, below the lists that the repetition
has started, amounts to recording one list for each variable.
-/

namespace Destructure

variable {α : Type}

namespace Entry

/-- An entry below the latest element of a list is put into that element. -/
theorem push?_push? (entry : Entry α) (entries : List (Entry α)) (levels : Nat) (record : Entry α) :
    (push? (.repetitions entries) levels record).bind (push? entry (levels + 1)) =
      push? (.repetitions (entry :: entries)) levels record := by
  induction levels generalizing record with
  | zero => cases record <;> rfl
  | succ levels induction =>
      rcases record with value | ⟨_ | ⟨latest, earlier⟩⟩
      · rfl
      · rfl
      · have below := induction latest
        simp only [push?, updateLatest?] at below ⊢
        rw [← below]
        cases updateLatest? (fun others => some (.repetitions entries :: others)) levels latest <;>
          rfl

theorem push?_eq_none {entry : Entry α} {levels : Nat} {record : Entry α}
    (missing : push? entry levels record = none) (other : Entry α) :
    push? other levels record = none := by
  induction levels generalizing record with
  | zero =>
      cases record with
      | scalar value => rfl
      | repetitions entries => cases missing
  | succ levels induction =>
      rcases record with value | ⟨_ | ⟨latest, earlier⟩⟩
      · rfl
      · rfl
      · have below := induction (Option.map_eq_none_iff.mp missing)
        simp only [push?] at below ⊢
        rw [updateLatest?, below, Option.map_none]

theorem push?_succ_eq_none {entry : Entry α} {levels : Nat} {record : Entry α}
    (missing : push? entry levels record = none) (deeper : Entry α) :
    push? deeper (levels + 1) record = none := by
  induction levels generalizing record with
  | zero =>
      cases record with
      | scalar value => rfl
      | repetitions entries => cases missing
  | succ levels induction =>
      rcases record with value | ⟨_ | ⟨latest, earlier⟩⟩
      · rfl
      · rfl
      · have below := induction (Option.map_eq_none_iff.mp missing)
        simp only [push?] at below ⊢
        rw [updateLatest?, below, Option.map_none]

theorem toValues_eq (entries : List (Entry α)) (values : List (Value α)) :
    toValues entries values = (entries.map toValue).reverse ++ values := by
  induction entries generalizing values with
  | nil => rfl
  | cons entry entries induction => simp [toValues, induction]

theorem toValue_repetitions (latestFirst : List (Entry α)) :
    toValue (.repetitions latestFirst) = .list (latestFirst.map toValue).reverse := by
  rw [toValue, toValues_eq, List.append_nil]

end Entry

namespace Contents

def placed (depth : Nat) (entry : Entry α) (former : Option (Entry α)) : Option (Entry α) :=
  match depth with
  | 0 => some entry
  | outer + 1 => (former.bind (Entry.push? entry outer)).or former

theorem put_eq (contents : Contents α) (id depth : Nat) (entry : Entry α) :
    contents.put id depth entry =
      contents.setIfInBounds id (placed depth entry (contents.record? id)) := by
  cases depth with
  | zero => rfl
  | succ outer =>
      rw [put, placed]
      cases (contents.record? id).bind (Entry.push? entry outer) with
      | none => exact (contents.setIfInBounds_record? id).symm
      | some record => rfl

theorem placed_placed (depth : Nat) (entry : Entry α) (entries : List (Entry α))
    (former : Option (Entry α)) :
    placed (depth + 1) entry (placed depth (.repetitions entries) former) =
      placed depth (.repetitions (entry :: entries)) former := by
  cases depth with
  | zero => rfl
  | succ outer =>
      cases former with
      | none => rfl
      | some record =>
          have pushed := Entry.push?_push? entry entries outer record
          simp only [placed, Option.bind_some]
          cases here : Entry.push? (.repetitions entries) outer record with
          | none =>
              rw [here, Option.bind_none] at pushed
              simp [← pushed, Entry.push?_succ_eq_none here]
          | some changed =>
              rw [here, Option.bind_some] at pushed
              cases later : Entry.push? (.repetitions (entry :: entries)) outer record with
              | none => cases here.symm.trans (Entry.push?_eq_none later _)
              | some final => simp [pushed, later]

theorem record?_setIfInBounds_of_ne (contents : Contents α) {id id' : Nat} (different : id ≠ id')
    (record : Option (Entry α)) :
    record? (contents.setIfInBounds id record) id' = contents.record? id' := by
  rw [record?, record?, Array.getElem?_setIfInBounds_ne different]

theorem put_put (contents : Contents α) (id depth : Nat) (entry : Entry α)
    (entries : List (Entry α)) :
    (contents.put id depth (.repetitions entries)).put id (depth + 1) entry =
      contents.put id depth (.repetitions (entry :: entries)) := by
  simp only [put_eq]
  by_cases inside : id < contents.size
  · have record : record? (contents.setIfInBounds id
        (placed depth (.repetitions entries) (contents.record? id))) id =
          placed depth (.repetitions entries) (contents.record? id) := by
      simp [record?, inside]
    rw [record, placed_placed, Array.setIfInBounds_setIfInBounds]
  · have outside : contents.size ≤ id := Nat.le_of_not_lt inside
    simp [Array.setIfInBounds_eq_of_size_le, outside]

theorem put_comm (contents : Contents α) {id id' : Nat} (different : id ≠ id') (depth depth' : Nat)
    (entry entry' : Entry α) :
    (contents.put id depth entry).put id' depth' entry' =
      (contents.put id' depth' entry').put id depth entry := by
  simp only [put_eq, record?_setIfInBounds_of_ne _ different,
    record?_setIfInBounds_of_ne _ (Ne.symm different)]
  exact Array.setIfInBounds_comm _ _ different

end Contents

/-! ## Several variables -/

structure Deposit (α : Type) where
  name : String
  id : Nat
  entry : Entry α

namespace Deposit

def place (deposit : Deposit α) : String × Nat := (deposit.name, deposit.id)

def pair (deposit : Deposit α) : String × Value α := (deposit.name, deposit.entry.toValue)

def named (deposits : List (Deposit α)) : Named (Deposit α) :=
  deposits.map fun deposit => (deposit.name, deposit)

theorem map_place_eq (deposits : List (Deposit α)) :
    deposits.map place = (named deposits).map fun pair => (pair.1, pair.2.id) := by
  rw [named, List.map_map]
  rfl

theorem map_pair_eq (deposits : List (Deposit α)) :
    deposits.map pair = (named deposits).map fun pair => (pair.1, pair.2.entry.toValue) := by
  rw [named, List.map_map]
  rfl

theorem mem_of_mem_named {deposits : List (Deposit α)} {pair : String × Deposit α}
    (member : pair ∈ named deposits) : pair.2 ∈ deposits := by
  rcases List.mem_map.mp member with ⟨deposit, among, rfl⟩
  exact among

def collect : List (String × Nat) → List (List (Deposit α)) → List (Deposit α)
  | [], _ => []
  | (name, id) :: places, passes =>
    ⟨name, id, .repetitions (passes.filterMap fun pass => pass.head?.map Deposit.entry)⟩ ::
      collect places (passes.map List.tail)

theorem map_place_collect (places : List (String × Nat)) (passes : List (List (Deposit α))) :
    (collect places passes).map place = places := by
  induction places generalizing passes with
  | nil => rfl
  | cons first places induction => rw [collect, List.map_cons, induction]; rfl

/-- The lists that passes leave bind what the passes bind together. -/
theorem map_pair_collect (places : List (String × Nat)) (passes : List (List (Deposit α))) :
    (collect places passes).map pair =
      Way.gather (places.map Prod.fst) (passes.reverse.map (·.map pair)) := by
  induction places generalizing passes with
  | nil => rfl
  | cons first places induction =>
      have heads : (passes.filterMap fun pass => pass.head?.map Deposit.entry).map
            Entry.toValue =
          (passes.map fun pass => pass.map pair).filterMap fun bound =>
            bound.head?.map Prod.snd := by
        rw [List.filterMap_map, List.map_filterMap]
        congr 1
        funext pass
        cases pass <;> rfl
      have tails : ((passes.map List.tail).reverse.map fun pass => pass.map pair) =
          (passes.reverse.map fun pass => pass.map pair).map List.tail := by
        rw [← List.map_reverse, List.map_map, List.map_map]
        apply List.map_congr_left
        intro pass _
        cases pass <;> rfl
      rw [collect, List.map_cons, List.map_cons, Way.gather, induction, tails, pair,
        Entry.toValue_repetitions, heads, ← List.filterMap_reverse, ← List.map_reverse]

end Deposit

namespace Contents

def deposit (contents : Contents α) (depth : Nat) (deposits : List (Deposit α)) : Contents α :=
  deposits.foldl (fun contents deposit => contents.put deposit.id depth deposit.entry) contents

theorem deposit_append (contents : Contents α) (depth : Nat) (deposits others : List (Deposit α)) :
    contents.deposit depth (deposits ++ others) =
      (contents.deposit depth deposits).deposit depth others :=
  List.foldl_append

theorem deposit_put (contents : Contents α) {id : Nat} (depth depth' : Nat) (entry : Entry α)
    {deposits : List (Deposit α)} (elsewhere : ∀ deposit ∈ deposits, deposit.id ≠ id) :
    (contents.deposit depth deposits).put id depth' entry =
      (contents.put id depth' entry).deposit depth deposits := by
  induction deposits generalizing contents with
  | nil => rfl
  | cons first others induction =>
      have different := elsewhere first List.mem_cons_self
      have later := induction (contents.put first.id depth first.entry)
        fun deposit member => elsewhere deposit (List.mem_cons_of_mem _ member)
      rw [deposit, List.foldl_cons, ← deposit, later, deposit, deposit, List.foldl_cons,
        put_comm contents different]

/-- A pass puts its entries into the lists. -/
theorem deposit_collect (contents : Contents α) (depth : Nat) {places : List (String × Nat)}
    (distinct : (places.map Prod.snd).Nodup) (passes : List (List (Deposit α)))
    {pass : List (Deposit α)} (covers : pass.map Deposit.place = places) :
    (contents.deposit depth (Deposit.collect places passes)).deposit (depth + 1) pass =
      contents.deposit depth (Deposit.collect places (pass :: passes)) := by
  induction places generalizing contents passes pass with
  | nil =>
      rw [List.map_eq_nil_iff.mp covers]
      rfl
  | cons first places induction =>
      rcases first with ⟨name, id⟩
      rcases List.map_eq_cons_iff.mp covers with ⟨here, others, rfl, equal, coversOthers⟩
      rcases Prod.mk.inj equal with ⟨rfl, rfl⟩
      rcases List.nodup_cons.mp distinct with ⟨fresh, distinctOthers⟩
      have elsewhere : ∀ deposit ∈ Deposit.collect places (passes.map List.tail),
          deposit.id ≠ here.id := by
        intro deposit member same
        apply fresh
        rw [← Deposit.map_place_collect places (passes.map List.tail), List.map_map, ← same]
        exact List.mem_map_of_mem (f := fun deposit => deposit.id) member
      -- The entry passes the lists of the other variables and goes into its own.
      rw [Deposit.collect, deposit, deposit, List.foldl_cons, List.foldl_cons, ← deposit, ← deposit,
        deposit_put _ _ _ _ elsewhere, put_put, induction _ distinctOthers _ coversOthers]
      rfl

theorem size_put (contents : Contents α) (id depth : Nat) (entry : Entry α) :
    (contents.put id depth entry).size = contents.size := by
  rw [put_eq, Array.size_setIfInBounds]

theorem record?_deposit_of_not_mem (contents : Contents α) (depth : Nat) {id : Nat}
    {deposits : List (Deposit α)} (elsewhere : ∀ deposit ∈ deposits, deposit.id ≠ id) :
    (contents.deposit depth deposits).record? id = contents.record? id := by
  induction deposits generalizing contents with
  | nil => rfl
  | cons first others induction =>
      have later := induction (contents.put first.id depth first.entry)
        fun deposit member => elsewhere deposit (List.mem_cons_of_mem _ member)
      rw [deposit, List.foldl_cons, ← deposit, later, put_eq,
        record?_setIfInBounds_of_ne _ (elsewhere first List.mem_cons_self)]

theorem record?_deposit_of_mem (contents : Contents α) {deposits : List (Deposit α)}
    (distinct : (deposits.map Deposit.id).Nodup)
    (inside : ∀ deposit ∈ deposits, deposit.id < contents.size) {deposit : Deposit α}
    (member : deposit ∈ deposits) :
    (contents.deposit 0 deposits).record? deposit.id = some deposit.entry := by
  induction deposits generalizing contents with
  | nil => cases member
  | cons first others induction =>
      rw [List.map_cons, List.nodup_cons] at distinct
      rw [Contents.deposit, List.foldl_cons, ← Contents.deposit]
      rcases List.mem_cons.mp member with rfl | later
      · have elsewhere : ∀ other ∈ others, other.id ≠ deposit.id :=
          fun other among same => distinct.1 (same ▸ List.mem_map_of_mem among)
        rw [record?_deposit_of_not_mem _ 0 elsewhere]
        simp [put, record?, inside deposit List.mem_cons_self]
      · apply induction _ distinct.2 _ later
        intro other among
        rw [size_put]
        exact inside other (List.mem_cons_of_mem _ among)

end Contents

end Destructure
