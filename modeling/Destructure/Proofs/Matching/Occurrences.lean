import Mathlib.Data.List.Induction
import Destructure.Proofs.Pattern.Names

/-!
Telling the occurrences of a name apart. If each occurrence after the first is given a name of its
own, then nothing has to agree any more: what stands under the names from before is what is bound
first, and whether all occurrences agree can be asked of what stands under all names.
-/

namespace Destructure

variable {α : Type}

/-! ## Bindings -/

namespace Value

theorem isSome_fieldOf? {name : String} {fields : Named (Value α)} :
    (fieldOf? name fields).isSome ↔ name ∈ Named.names fields := by
  simp [fieldOf?, Named.names]

theorem fieldOf?_eq_none {name : String} {fields : Named (Value α)}
    (absent : name ∉ Named.names fields) : fieldOf? name fields = none := by
  rwa [← isSome_fieldOf?, Option.not_isSome_iff_eq_none] at absent

theorem fieldOf?_append (name : String) (fields others : Named (Value α)) :
    fieldOf? name (fields ++ others) = (fieldOf? name fields).or (fieldOf? name others) := by
  rw [fieldOf?, List.find?_append, Option.map_or]
  rfl

theorem fieldOf?_append_of_mem {name : String} {fields : Named (Value α)}
    (present : name ∈ Named.names fields) (others : Named (Value α)) :
    fieldOf? name (fields ++ others) = fieldOf? name fields := by
  rw [fieldOf?_append]
  exact Option.or_of_isSome (isSome_fieldOf?.mpr present)

theorem fieldOf?_append_singleton {name : String} {fields : Named (Value α)}
    (absent : name ∉ Named.names fields) (value : Value α) :
    fieldOf? name (fields ++ [(name, value)]) = some value := by
  rw [fieldOf?_append, fieldOf?_eq_none absent, Option.none_or]
  simp [fieldOf?]

end Value

namespace Named

theorem all_firsts_eq (name : String) (accepts : Value α → Bool) (pairs : Named (Value α)) :
    ((firsts pairs).all fun pair => if pair.1 = name then accepts pair.2 else true) =
      (Value.fieldOf? name pairs).all accepts := by
  induction pairs with
  | nil => rfl
  | cons pair pairs induction =>
      rw [firsts, List.all_cons, List.all_filter]
      by_cases same : pair.1 = name
      · have others : ((firsts pairs).all fun other =>
            !(other.1 != pair.1) || if other.1 = name then accepts other.2 else true) = true := by
          rw [List.all_eq_true]
          intro other _
          by_cases again : other.1 = name <;> simp [again, same]
        rw [others]
        simp [Value.fieldOf?, same]
      · have others : ((firsts pairs).all fun other =>
            !(other.1 != pair.1) || if other.1 = name then accepts other.2 else true) =
            (firsts pairs).all fun other => if other.1 = name then accepts other.2 else true := by
          congr 1
          funext other
          by_cases again : other.1 = name
          · simp [again, Ne.symm same]
          · simp [again]
        rw [others, induction]
        simp [Value.fieldOf?, same]

/-- One more occurrence has to agree with the first one. -/
theorem agree_append_singleton [BEq α] (pairs : Named (Value α)) (name : String)
    (value : Value α) :
    agree (pairs ++ [(name, value)]) =
      (agree pairs && (Value.fieldOf? name pairs).all fun first => first == value) := by
  have earlier : ∀ pair ∈ firsts pairs,
      (under pair.1 (pairs ++ [(name, value)])).tail.all (fun other => pair.2 == other) =
        ((under pair.1 pairs).tail.all (fun other => pair.2 == other) &&
          if pair.1 = name then pair.2 == value else true) := by
    intro pair member
    rcases under_of_mem_firsts member with ⟨others, equal⟩
    rw [under_append, equal]
    by_cases same : pair.1 = name
    · simp [under, same]
    · simp [under, same, Ne.symm same]
  have last : ∀ pair ∈ (firsts [(name, value)]).filter fun other =>
        !(names pairs).contains other.1,
      (under pair.1 (pairs ++ [(name, value)])).tail.all (fun other => pair.2 == other) = true := by
    intro pair member
    rcases List.mem_filter.mp member with ⟨only, fresh⟩
    cases List.mem_singleton.mp only
    rw [under_append, under_eq_nil (by simpa using fresh)]
    simp [under]
  rw [agree, firsts_append, List.all_append, List.all_eq_true.mpr last, Bool.and_true, agree,
    ← all_firsts_eq, Bool.eq_iff_iff, Bool.and_eq_true, List.all_eq_true, List.all_eq_true,
    List.all_eq_true, ← forall₂_and]
  apply forall₂_congr
  intro pair member
  rw [earlier pair member, Bool.and_eq_true]

end Named

namespace Bindings

def restrict (names : List String) (bindings : Bindings α) : Bindings α :=
  ⟨bindings.pairs.filter fun pair => names.contains pair.1⟩

def placesAgree [BEq α] (names names' : List String) (bindings : Bindings α) : Bool :=
  (names.zip names').all fun (name, name') =>
    name == name' || bindings.get? name == bindings.get? name'

end Bindings

/-! ## Occurrences -/

structure Distinguished (names names' : List String) : Prop where
  length_eq : names'.length = names.length
  nodup : names'.Nodup
  first : ∀ place name, names[place]? = some name → name ∉ names.take place →
    names'[place]? = some name

/-- What is bound at a place of a pattern, with the name that stands there and the name that is
given to the place. -/
structure Occurrence (α : Type) where
  name : String
  ownName : String
  value : Value α

namespace Occurrence

def pair (occurrence : Occurrence α) : String × Value α := (occurrence.name, occurrence.value)

def ownPair (occurrence : Occurrence α) : String × Value α :=
  (occurrence.ownName, occurrence.value)

def agrees [BEq α] (bindings : Bindings α) (occurrence : Occurrence α) : Bool :=
  occurrence.name == occurrence.ownName ||
    bindings.get? occurrence.name == bindings.get? occurrence.ownName

/-- Occurrences one after another, with a name of its own for each that is not the first. -/
inductive Apart : List (Occurrence α) → Prop
  | nil : Apart []
  | first {occurrences : List (Occurrence α)} {name : String} (value : Value α)
      (before : Apart occurrences) (fresh : name ∉ occurrences.map ownName) :
      Apart (occurrences ++ [⟨name, name, value⟩])
  | again {occurrences : List (Occurrence α)} {name ownName : String} (value : Value α)
      (before : Apart occurrences) (present : name ∈ occurrences.map Occurrence.name)
      (fresh : ownName ∉ occurrences.map Occurrence.ownName) :
      Apart (occurrences ++ [⟨name, ownName, value⟩])

variable {occurrences : List (Occurrence α)}

theorem names_map_pair : Named.names (occurrences.map pair) = occurrences.map name := by
  simp [Named.names, pair, Function.comp_def]

theorem names_map_ownPair : Named.names (occurrences.map ownPair) = occurrences.map ownName := by
  simp [Named.names, ownPair, Function.comp_def]

theorem fieldOf?_pair_append {name : String} (present : name ∈ occurrences.map Occurrence.name)
    (others : List (Occurrence α)) :
    Value.fieldOf? name ((occurrences ++ others).map pair) =
      Value.fieldOf? name (occurrences.map pair) := by
  rw [List.map_append, Value.fieldOf?_append_of_mem]
  rwa [names_map_pair]

theorem fieldOf?_ownPair_append {name : String} (present : name ∈ occurrences.map ownName)
    (others : List (Occurrence α)) :
    Value.fieldOf? name ((occurrences ++ others).map ownPair) =
      Value.fieldOf? name (occurrences.map ownPair) := by
  rw [List.map_append, Value.fieldOf?_append_of_mem]
  rwa [names_map_ownPair]

theorem fieldOf?_pair_last (last : Occurrence α) (absent : last.name ∉ occurrences.map name) :
    Value.fieldOf? last.name ((occurrences ++ [last]).map pair) = some last.value := by
  rw [← names_map_pair] at absent
  rw [List.map_append]
  exact Value.fieldOf?_append_singleton absent last.value

theorem fieldOf?_ownPair_last (last : Occurrence α)
    (absent : last.ownName ∉ occurrences.map ownName) :
    Value.fieldOf? last.ownName ((occurrences ++ [last]).map ownPair) = some last.value := by
  rw [← names_map_ownPair] at absent
  rw [List.map_append]
  exact Value.fieldOf?_append_singleton absent last.value

theorem agree_append [BEq α] (last : Occurrence α) :
    Named.agree ((occurrences ++ [last]).map pair) =
      (Named.agree (occurrences.map pair) &&
        (Value.fieldOf? last.name (occurrences.map pair)).all fun first =>
          first == last.value) := by
  rw [List.map_append]
  exact Named.agree_append_singleton _ last.name last.value

theorem apart_of_distinguished
    (distinguished : Distinguished (occurrences.map name) (occurrences.map ownName)) :
    Apart occurrences := by
  induction occurrences using List.reverseRecOn with
  | nil => exact .nil
  | append_singleton others last induction =>
      rcases distinguished with ⟨length, nodup, kept⟩
      simp only [List.map_append, List.map_cons, List.map_nil] at length nodup kept
      rw [List.nodup_append] at nodup
      have fresh : last.ownName ∉ others.map ownName := fun member =>
        nodup.2.2 _ member _ (List.mem_singleton_self _) rfl
      have before : Apart others := by
        apply induction
        refine ⟨by simp, nodup.1, ?_⟩
        intro place first found unseen
        have inside := (List.getElem?_eq_some_iff.mp found).1
        have inside' : place < (others.map ownName).length := by simpa using inside
        have keptHere := kept place first
        rw [List.getElem?_append_left inside, List.take_append_of_le_length (Nat.le_of_lt inside),
          List.getElem?_append_left inside'] at keptHere
        exact keptHere found unseen
      by_cases present : last.name ∈ others.map name
      · exact .again last.value before present fresh
      · have own := kept others.length last.name (by simp) (by simpa using present)
        have same : last.ownName = last.name := by simpa using own
        rcases last with ⟨name, ownName, value⟩
        cases same
        exact .first value before fresh

namespace Apart

theorem name_subset (apart : Apart occurrences) :
    occurrences.map name ⊆ occurrences.map ownName := by
  induction apart with
  | nil => exact List.nil_subset _
  | first value before fresh induction =>
      simp only [List.map_append, List.map_cons, List.map_nil]
      apply List.append_subset.mpr
      exact ⟨List.subset_append_of_subset_left _ induction, List.subset_append_right _ _⟩
  | again value before present fresh induction =>
      simp only [List.map_append, List.map_cons, List.map_nil]
      apply List.append_subset.mpr
      refine ⟨List.subset_append_of_subset_left _ induction, ?_⟩
      rintro _ ⟨⟩
      · exact List.mem_append_left _ (induction present)
      · contradiction

/-- Under its name from before stands what is bound first. -/
theorem fieldOf?_ownPair (apart : Apart occurrences) {name : String}
    (present : name ∈ occurrences.map Occurrence.name) :
    Value.fieldOf? name (occurrences.map ownPair) = Value.fieldOf? name (occurrences.map pair) := by
  induction apart with
  | nil => cases present
  | @first others last value before fresh induction =>
      by_cases earlier : name ∈ others.map Occurrence.name
      · rw [fieldOf?_ownPair_append (before.name_subset earlier), fieldOf?_pair_append earlier]
        exact induction earlier
      · obtain rfl : name = last := by simpa [earlier] using present
        exact (fieldOf?_ownPair_last ⟨name, name, value⟩ fresh).trans
          (fieldOf?_pair_last ⟨name, name, value⟩ earlier).symm
  | @again others last ownName value before seen fresh induction =>
      have earlier : name ∈ others.map Occurrence.name := by
        rw [List.map_append, List.mem_append] at present
        rcases present with earlier | here
        · exact earlier
        · cases List.mem_singleton.mp here
          exact seen
      rw [fieldOf?_ownPair_append (before.name_subset earlier), fieldOf?_pair_append earlier]
      exact induction earlier

/-- Without the names that are given to places, there are the first occurrences. -/
theorem restrict_ownPair (apart : Apart occurrences) :
    Bindings.restrict (occurrences.map name) ⟨occurrences.map ownPair⟩ =
      ⟨Named.firsts (occurrences.map pair)⟩ := by
  rw [Bindings.restrict, Bindings.mk.injEq]
  induction apart with
  | nil => rfl
  | @first others name value before fresh induction =>
      have absent : name ∉ others.map Occurrence.name :=
        fun member => fresh (before.name_subset member)
      have earlier : ∀ pair ∈ others.map ownPair,
          (others.map Occurrence.name ++ [name]).contains pair.1 =
            (others.map Occurrence.name).contains pair.1 := by
        intro pair member
        have different : pair.1 ≠ name := by
          rintro rfl
          apply fresh
          rw [← names_map_ownPair]
          exact List.mem_map_of_mem member
        simp [different]
      have added : (others.map Occurrence.name).contains name = false := by simpa using absent
      simp only [List.map_append, List.map_cons, List.map_nil, List.filter_append,
        Named.firsts_append, names_map_pair, List.filter_congr earlier, pair, ownPair,
        Named.firsts, List.filter_nil, List.filter_cons, added, induction]
      simp
  | @again others name ownName value before present fresh induction =>
      have absent : ownName ∉ others.map Occurrence.name :=
        fun member => fresh (before.name_subset member)
      have same : ∀ other, (others.map Occurrence.name ++ [name]).contains other =
          (others.map Occurrence.name).contains other := by
        intro other
        by_cases equal : other = name
        · rw [equal]
          simpa using present
        · simp [equal]
      have seen : (others.map Occurrence.name).contains name = true := by simpa using present
      have added : (others.map Occurrence.name).contains ownName = false := by simpa using absent
      simp only [List.map_append, List.map_cons, List.map_nil, List.filter_append,
        Named.firsts_append, names_map_pair, same, pair, ownPair,
        Named.firsts, List.filter_nil, List.filter_cons, added, seen, induction]
      simp

theorem placesAgree_eq [BEq α] (bindings : Bindings α) :
    Bindings.placesAgree (occurrences.map name) (occurrences.map ownName) bindings =
      occurrences.all fun occurrence => occurrence.agrees bindings := by
  rw [Bindings.placesAgree, List.zip_map', List.all_map]
  rfl

theorem all_agrees_append [BEq α] (apart : Apart occurrences) (others : List (Occurrence α)) :
    (occurrences.all fun occurrence =>
        occurrence.agrees ⟨(occurrences ++ others).map ownPair⟩) =
      occurrences.all fun occurrence => occurrence.agrees ⟨occurrences.map ownPair⟩ := by
  rw [Bool.eq_iff_iff, List.all_eq_true, List.all_eq_true]
  apply forall₂_congr
  intro occurrence member
  simp only [agrees, Bindings.get?]
  rw [fieldOf?_ownPair_append (apart.name_subset (List.mem_map_of_mem member)),
    fieldOf?_ownPair_append (List.mem_map_of_mem member)]

/-- All occurrences of each name agree if each place agrees with the first one. -/
theorem placesAgree_ownPair [BEq α] (apart : Apart occurrences) :
    Bindings.placesAgree (occurrences.map name) (occurrences.map ownName)
        ⟨occurrences.map ownPair⟩ =
      Named.agree (occurrences.map pair) := by
  rw [placesAgree_eq]
  induction apart with
  | nil => rfl
  | @first others name value before fresh induction =>
      have absent : name ∉ Named.names (others.map pair) := by
        rw [names_map_pair]
        exact fun member => fresh (before.name_subset member)
      rw [List.all_append, before.all_agrees_append, induction, agree_append,
        Value.fieldOf?_eq_none absent]
      simp [agrees]
  | @again others name ownName value before present fresh induction =>
      have different : (name == ownName) = false := by
        rw [beq_eq_false_iff_ne]
        rintro rfl
        exact fresh (before.name_subset present)
      have found :
          Value.fieldOf? name ((others ++ [Occurrence.mk name ownName value]).map ownPair) =
            Value.fieldOf? name (others.map pair) := by
        rw [fieldOf?_ownPair_append (before.name_subset present), before.fieldOf?_ownPair present]
      have own := fieldOf?_ownPair_last ⟨name, ownName, value⟩ fresh
      have isSome : (Value.fieldOf? name (others.map pair)).isSome := by
        rw [Value.isSome_fieldOf?, names_map_pair]
        exact present
      rcases Option.isSome_iff_exists.mp isSome with ⟨first, isFirst⟩
      rw [List.all_append, before.all_agrees_append, induction, agree_append, isFirst]
      simp only [List.all_cons, List.all_nil, agrees, Bindings.get?, own, found, isFirst, different,
        Bool.false_or, Bool.and_true, Option.all_some]
      rfl

end Apart

end Occurrence

end Destructure
