import Destructure.Proofs.Value.Equality

/-!
Maps as associations. Setting the entries one after another keeps of each key the first one that
was set and of its contents the last one. Keys are values, so what counts as the same key is their
equality; symmetry and transitivity of it are all that is needed.

Main statement: `Value.mapOf_keeps_first_keys_and_last_contents`.
-/

namespace Destructure.Value

variable {α : Type} [BEq α]

def firstKeys (entries : List (Value α × Value α)) : List (Value α) :=
  entries.zipIdx.filterMap fun (entry, place) =>
    if (entries.take place).any fun earlier => earlier.1 == entry.1 then none else some entry.1

theorem firstKeys_append_singleton (entries : List (Value α × Value α))
    (entry : Value α × Value α) :
    firstKeys (entries ++ [entry]) =
      firstKeys entries ++
        if entries.any fun earlier => earlier.1 == entry.1 then [] else [entry.1] := by
  rw [firstKeys, List.zipIdx_append, List.filterMap_append]
  congr 1
  · apply List.filterMap_congr
    rintro ⟨earlier, place⟩ member
    have inside : place < entries.length := List.snd_lt_of_mem_zipIdx member
    dsimp only
    rw [List.take_append_of_le_length (Nat.le_of_lt inside)]
  · simp only [List.zipIdx_singleton, Nat.zero_add, List.take_left, List.filterMap_cons,
      List.filterMap_nil]
    cases entries.any fun earlier => earlier.1 == entry.1 <;> rfl

/-! ## One entry -/

/-- Setting an entry adds its key only if no key of the table equals it. -/
theorem keys_setEntry (key content : Value α) (table : List (Value α × Value α)) :
    (setEntry key content table).map Prod.fst =
      table.map Prod.fst ++
        if table.any fun entry => entry.1 == key then [] else [key] := by
  induction table with
  | nil => rfl
  | cons entry table induction =>
      rw [setEntry, List.any_cons]
      cases same : entry.1 == key with
      | true => simp
      | false =>
          rw [if_neg Bool.false_ne_true, List.map_cons, induction, Bool.false_or]
          rfl

theorem get?_cons (entry : Value α × Value α) (table : List (Value α × Value α))
    (wanted : Value α) :
    (map (entry :: table)).get? wanted =
      if entry.1 == wanted then some entry.2 else (map table).get? wanted := by
  rw [get?, List.find?_cons]
  cases entry.1 == wanted <;> rfl

variable [PartialEquivBEq α]

/-- What is under a key is what has been set last under an equal one. -/
theorem get?_setEntry (key content : Value α) (table : List (Value α × Value α))
    (wanted : Value α) :
    (map (setEntry key content table)).get? wanted =
      if key == wanted then some content else (map table).get? wanted := by
  induction table with
  | nil => exact get?_cons (key, content) [] wanted
  | cons entry table induction =>
      rw [setEntry]
      split
      next same =>
        rw [get?_cons, get?_cons, BEq.congr_left same]
        split <;> rfl
      next other =>
        rw [get?_cons, get?_cons, induction]
        -- Both keys cannot equal the wanted one: they would equal each other.
        cases here : entry.1 == wanted with
        | false => rfl
        | true =>
            have different : (key == wanted) = false := by
              rw [← BEq.congr_right here, BEq.comm]
              exact Bool.eq_false_iff.mpr other
            rw [different]
            rfl

/-! ## All entries -/

/-- Among the keys of the table is one that equals a key exactly if such a key has been set. -/
theorem any_tableOf (entries : List (Value α × Value α)) (wanted : Value α) :
    ((tableOf entries).any fun entry => entry.1 == wanted) =
      entries.any fun entry => entry.1 == wanted := by
  induction entries using List.reverseRecOn with
  | nil => rfl
  | append_singleton entries entry induction =>
      have keys := congrArg (List.any · (· == wanted))
        (keys_setEntry entry.1 entry.2 (tableOf entries))
      simp only [List.any_map, List.any_append, Function.comp_def, induction] at keys
      rw [tableOf_append_singleton, keys, List.any_append, List.any_cons, List.any_nil,
        Bool.or_false]
      cases present : (tableOf entries).any fun earlier => earlier.1 == entry.1 with
      | false => simp
      | true =>
          rw [if_pos rfl, List.any_nil, Bool.or_false]
          cases same : entry.1 == wanted with
          | false => rw [Bool.or_false]
          | true =>
              rw [Bool.or_true, ← induction, ← present]
              simp only [BEq.congr_right same]

theorem keys_tableOf (entries : List (Value α × Value α)) :
    (tableOf entries).map Prod.fst = firstKeys entries := by
  induction entries using List.reverseRecOn with
  | nil => rfl
  | append_singleton entries entry induction =>
      rw [tableOf_append_singleton, keys_setEntry, induction, any_tableOf,
        firstKeys_append_singleton]

theorem get?_tableOf (entries : List (Value α × Value α)) (wanted : Value α) :
    (map (tableOf entries)).get? wanted =
      (entries.findRev? fun entry => entry.1 == wanted).map Prod.snd := by
  induction entries using List.reverseRecOn with
  | nil => rfl
  | append_singleton entries entry induction =>
      rw [tableOf_append_singleton, get?_setEntry, induction, List.findRev?_eq_find?_reverse,
        List.findRev?_eq_find?_reverse, List.reverse_concat, List.find?_cons]
      cases entry.1 == wanted <;> rfl

/-- A map has no key twice. Of equal keys it has the first, in the order in which they first occur,
and with it the content of the last; and it is the map of its own entries. -/
theorem mapOf_keeps_first_keys_and_last_contents (entries : List (Value α × Value α)) :
    ∃ table, mapOf entries = .map table ∧ DistinctKeys table ∧
      table.map Prod.fst = firstKeys entries ∧
      (∀ wanted, (mapOf entries).get? wanted =
        (entries.findRev? fun entry => entry.1 == wanted).map Prod.snd) ∧
      mapOf table = .map table := by
  have distinct := distinctKeys_tableOf entries
  refine ⟨tableOf entries, rfl, distinct, keys_tableOf entries, get?_tableOf entries, ?_⟩
  rw [mapOf_eq, tableOf_of_distinctKeys distinct]

/-- The two zeros are one key: the first of them stays, with what comes last. -/
theorem zeros_share_entry : ∃ entries table : List (Value Nat × Value Nat),
    entries = [(.float (.zero false), .symbol "first"), (.list [.foreign 7], .nil),
      (.float (.zero true), .symbol "last")] ∧
    mapOf entries = .map table ∧ DistinctKeys table ∧
    table.map Prod.fst = [.float (.zero false), .list [.foreign 7]] ∧
    (mapOf entries).get? (.float (.zero true)) = some (.symbol "last") ∧
    mapOf table = .map table := by
  rcases mapOf_keeps_first_keys_and_last_contents [(.float (.zero false), .symbol "first"),
    (.list [.foreign 7], .nil), (.float (.zero true), .symbol "last")] with
    ⟨table, equal, distinct, keys, contents, again⟩
  exact ⟨_, table, rfl, equal, distinct, keys, contents _, again⟩

end Destructure.Value
