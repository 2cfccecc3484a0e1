import Destructure.Matching.Matcher

/-!
Things under names, in order. A name may occur several times; what counts is its first occurrence,
and what stands under it later may have to agree with that.
-/

namespace Destructure

abbrev Named (β : Type) := List (String × β)

namespace Named

variable {β γ : Type}

def names (pairs : Named β) : List String := pairs.map Prod.fst

def under (name : String) (pairs : Named β) : List β :=
  pairs.filterMap fun pair => if pair.1 = name then some pair.2 else none

def firsts : Named β → Named β
  | [] => []
  | pair :: pairs => pair :: (firsts pairs).filter fun other => other.1 != pair.1

def agree [BEq β] (pairs : Named β) : Bool :=
  (firsts pairs).all fun pair => (under pair.1 pairs).tail.all fun other => pair.2 == other

/-! ## First occurrences -/

theorem firsts_filter (keeps : String → Bool) (pairs : Named β) :
    firsts (pairs.filter fun pair => keeps pair.1) =
      (firsts pairs).filter fun pair => keeps pair.1 := by
  induction pairs with
  | nil => rfl
  | cons pair pairs induction =>
      rw [firsts, List.filter_cons, List.filter_cons]
      cases kept : keeps pair.1 with
      | true =>
          simp only [if_true, firsts, induction, List.filter_filter]
          congr 2
          funext other
          exact Bool.and_comm _ _
      | false =>
          simp only [Bool.false_eq_true, if_false, induction, List.filter_filter]
          apply List.filter_congr
          intro other _
          by_cases same : other.1 = pair.1
          · simp [same, kept]
          · simp [same]

theorem names_firsts : ∀ pairs : Named β, names (firsts pairs) = (names pairs).eraseDups
  | [] => rfl
  | pair :: pairs => by
      have others := names_firsts (pairs.filter fun other => other.1 != pair.1)
      rw [firsts, ← firsts_filter (· != pair.1)]
      simp only [names, List.map_cons, List.eraseDups_cons] at others ⊢
      rw [others, List.filter_map]
      rfl
termination_by pairs => pairs.length
decreasing_by exact Nat.lt_succ_of_le (List.length_filter_le _ _)

theorem nodup_names_firsts (pairs : Named β) : (names (firsts pairs)).Nodup := by
  induction pairs with
  | nil => exact List.nodup_nil
  | cons pair pairs induction =>
      rw [firsts, names, List.map_cons, List.nodup_cons]
      refine ⟨?_, (List.filter_sublist.map Prod.fst).nodup induction⟩
      intro member
      rcases List.mem_map.mp member with ⟨other, kept, same⟩
      simpa [same] using (List.mem_filter.mp kept).2

theorem mem_names_firsts {name : String} {pairs : Named β} :
    name ∈ names (firsts pairs) ↔ name ∈ names pairs := by
  rw [names_firsts, List.mem_eraseDups]

theorem mem_of_mem_firsts {pairs : Named β} {pair : String × β} (member : pair ∈ firsts pairs) :
    pair ∈ pairs := by
  induction pairs with
  | nil => exact member
  | cons first others induction =>
      rcases List.mem_cons.mp member with rfl | later
      · exact List.mem_cons_self
      · exact List.mem_cons_of_mem _ (induction (List.mem_filter.mp later).1)

theorem firsts_sublist (pairs : Named β) : (firsts pairs).Sublist pairs := by
  induction pairs with
  | nil => exact .slnil
  | cons pair pairs induction => exact (List.filter_sublist.trans induction).cons_cons pair

/-- Of numbers in ascending order, the first one under a name is the least. -/
theorem mem_firsts_iff {pairs : Named Nat}
    (ascending : pairs.Pairwise fun one other => one.2 < other.2) {name : String} {id : Nat} :
    (name, id) ∈ firsts pairs ↔ (name, id) ∈ pairs ∧ ∀ earlier < id, (name, earlier) ∉ pairs := by
  induction pairs with
  | nil => simp [firsts]
  | cons pair pairs induction =>
      obtain ⟨before, ascending⟩ := List.pairwise_cons.mp ascending
      rw [firsts, List.mem_cons, List.mem_filter, induction ascending]
      constructor
      · rintro (rfl | ⟨⟨member, least⟩, different⟩)
        · refine ⟨List.mem_cons_self, ?_⟩
          intro earlier lt member
          rcases List.mem_cons.mp member with same | later
          · exact Nat.ne_of_lt lt (Prod.mk.inj same).2
          · exact Nat.lt_asymm lt (before _ later)
        · refine ⟨List.mem_cons_of_mem _ member, ?_⟩
          intro earlier lt among
          rcases List.mem_cons.mp among with rfl | later
          · simp at different
          · exact least earlier lt later
      · rintro ⟨member, least⟩
        rcases List.mem_cons.mp member with same | later
        · exact .inl same
        · refine .inr ⟨⟨later, fun earlier lt among => ?_⟩, ?_⟩
          · exact least earlier lt (List.mem_cons_of_mem _ among)
          · have earlier := least pair.2 (before _ later)
            rw [bne_iff_ne]
            rintro rfl
            exact earlier List.mem_cons_self

theorem firsts_append (pairs others : Named β) :
    firsts (pairs ++ others) =
      firsts pairs ++ (firsts others).filter fun other => !(names pairs).contains other.1 := by
  induction pairs with
  | nil => exact (List.filter_eq_self.mpr fun _ _ => rfl).symm
  | cons pair pairs induction =>
      rw [List.cons_append, firsts, induction, firsts, List.filter_append, List.filter_filter,
        List.cons_append]
      congr 3
      funext other
      change _ = !(pair.1 :: pairs.map Prod.fst).contains other.1
      rw [List.contains_cons, Bool.not_or]
      rfl

theorem firsts_map (change : β → γ) (pairs : Named β) :
    firsts (pairs.map fun pair => (pair.1, change pair.2)) =
      (firsts pairs).map fun pair => (pair.1, change pair.2) := by
  induction pairs with
  | nil => rfl
  | cons pair pairs induction =>
      rw [List.map_cons, firsts, firsts, induction, List.map_cons, List.filter_map]
      rfl

theorem under_append (name : String) (pairs others : Named β) :
    under name (pairs ++ others) = under name pairs ++ under name others :=
  List.filterMap_append

theorem under_eq_nil {name : String} {pairs : Named β} (absent : name ∉ names pairs) :
    under name pairs = [] := by
  apply List.filterMap_eq_nil_iff.mpr
  intro pair member
  rw [if_neg]
  rintro rfl
  exact absent (List.mem_map_of_mem member)

theorem mem_of_mem_under {name : String} {pairs : Named β} {thing : β}
    (member : thing ∈ under name pairs) : (name, thing) ∈ pairs := by
  rcases List.mem_filterMap.mp member with ⟨pair, among, kept⟩
  rcases Option.ite_none_right_eq_some.mp kept with ⟨rfl, same⟩
  exact Option.some.inj same ▸ among

theorem under_map (change : β → γ) (name : String) (pairs : Named β) :
    under name (pairs.map fun pair => (pair.1, change pair.2)) = (under name pairs).map change := by
  rw [under, under, List.filterMap_map, List.map_filterMap]
  congr 1
  funext pair
  by_cases same : pair.1 = name <;> simp [same]

theorem under_of_mem_firsts {pairs : Named β} {pair : String × β} (member : pair ∈ firsts pairs) :
    ∃ others, under pair.1 pairs = pair.2 :: others := by
  induction pairs with
  | nil => cases member
  | cons first others induction =>
      rcases List.mem_cons.mp member with rfl | later
      · exact ⟨_, by rw [under, List.filterMap_cons, if_pos rfl]⟩
      · rcases List.mem_filter.mp later with ⟨inside, different⟩
        rcases induction inside with ⟨rest, equal⟩
        refine ⟨rest, ?_⟩
        rw [← equal, under, List.filterMap_cons, if_neg]
        · rfl
        · exact fun same => by simp [same] at different

/-! ## Grouping -/

open Matcher (addOccurrence)

def grouped (pairs : Named β) : Named (List β) :=
  (firsts pairs).map fun pair => (pair.1, under pair.1 pairs)

theorem names_grouped (pairs : Named β) : names (grouped pairs) = names (firsts pairs) := by
  rw [names, names, grouped, List.map_map]
  rfl

theorem addOccurrence_of_not_mem {name : String} {id : Nat} {groups : Named (List Nat)}
    (absent : name ∉ names groups) :
    addOccurrence name id groups = groups ++ [(name, [id])] := by
  induction groups with
  | nil => rfl
  | cons group groups induction =>
      simp only [names, List.map_cons, List.mem_cons, not_or] at absent
      rw [addOccurrence, if_neg (Ne.symm absent.1), induction absent.2, List.cons_append]

theorem addOccurrence_of_mem {name : String} {id : Nat} {groups : Named (List Nat)}
    (distinct : (names groups).Nodup) (present : name ∈ names groups) :
    addOccurrence name id groups =
      groups.map fun group => (group.1, group.2 ++ if group.1 = name then [id] else []) := by
  induction groups with
  | nil => cases present
  | cons group groups induction =>
      simp only [names, List.map_cons, List.nodup_cons] at distinct
      rw [addOccurrence, List.map_cons]
      split
      case isTrue same =>
        have kept : ∀ other ∈ groups,
            (other.1, other.2 ++ if other.1 = name then [id] else []) = other := by
          intro other member
          rw [if_neg, List.append_nil]
          intro equal
          exact distinct.1 (same ▸ equal ▸ List.mem_map_of_mem member)
        rw [List.map_congr_left kept, List.map_id']
      case isFalse different =>
        have later : name ∈ names groups :=
          (List.mem_cons.mp present).resolve_left (Ne.symm different)
        rw [induction distinct.2 later, List.append_nil]

theorem grouped_append (pairs : Named Nat) (name : String) (id : Nat) :
    grouped (pairs ++ [(name, id)]) = addOccurrence name id (grouped pairs) := by
  have extended : ∀ pair : String × Nat, under pair.1 (pairs ++ [(name, id)]) =
      under pair.1 pairs ++ if pair.1 = name then [id] else [] := by
    intro pair
    rw [under_append]
    congr 1
    by_cases same : pair.1 = name
    · simp [under, same]
    · simp [under, same, Ne.symm same]
  rw [grouped, firsts_append, List.map_append]
  simp only [extended]
  by_cases present : name ∈ names pairs
  · have presentGroup : name ∈ names (grouped pairs) := by
      rwa [names_grouped, mem_names_firsts]
    have distinct : (names (grouped pairs)).Nodup := by
      rw [names_grouped]
      exact nodup_names_firsts pairs
    rw [addOccurrence_of_mem distinct presentGroup, grouped, List.map_map]
    simp [firsts, present]
  · have absentGroup : name ∉ names (grouped pairs) := by
      rwa [names_grouped, mem_names_firsts]
    rw [addOccurrence_of_not_mem absentGroup, grouped]
    congr 1
    · apply List.map_congr_left
      intro pair member
      rw [if_neg, List.append_nil]
      rintro rfl
      exact present (List.mem_map_of_mem (mem_of_mem_firsts member))
    · simp [firsts, present, under_eq_nil present]

end Named

end Destructure
