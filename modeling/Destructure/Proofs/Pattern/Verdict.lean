import Mathlib.Data.List.Basic
import Destructure.Proofs.Pattern.Locations
import Destructure.Proofs.Pattern.WellFormedness

/-!
Validation accepts the well-formed patterns and reports the first offence in preorder of the
others. What it finds in the table at the number of a node is what is wrong with the node to which
the path leads; so the first number with a mistake is the number of the first node that offends.
-/

namespace Destructure

variable {α : Type}

namespace Tree

/-! ## Names and keys seen before -/

def namesBefore (tree : Tree α) (id : Nat) : List String :=
  (List.range id).filterMap tree.boundName?

def offence? [BEq α] (tree : Tree α) (options : Options) (id : Nat) :
    Option (Nat × Malformed.Cause α) :=
  match tree.mistakeAt? id with
  | some mistake => some mistake
  | none => tree.nameMistake? options (tree.namesBefore id) id

theorem mem_namesBefore_succ {tree : Tree α} {id : Nat} {name : String} :
    name ∈ tree.namesBefore (id + 1) ↔
      name ∈ tree.namesBefore id ∨ tree.boundName? id = some name := by
  rw [namesBefore, List.range_succ, List.filterMap_append, List.mem_append, ← namesBefore]
  simp

theorem mem_seenAfter {tree : Tree α} {seen : List String} {id : Nat} {name : String} :
    name ∈ tree.seenAfter seen id ↔ name ∈ seen ∨ tree.boundName? id = some name := by
  rw [seenAfter, boundName?]
  cases tree.kind? id with
  | none => simp
  | some kind =>
      cases kind with
      | bind other =>
          rw [Option.bind_some, NodeKind.boundName?, List.mem_cons, Option.some.injEq, or_comm,
            eq_comm]
      | _ => simp [NodeKind.boundName?]

theorem nameMistake?_congr {tree : Tree α} {options : Options} {seen seen' : List String}
    (same : ∀ name, name ∈ seen ↔ name ∈ seen') (id : Nat) :
    tree.nameMistake? options seen id = tree.nameMistake? options seen' id := by
  have contains : ∀ name, seen.contains name = seen'.contains name := by
    intro name
    rw [Bool.eq_iff_iff, List.contains_iff_mem, List.contains_iff_mem, same]
  simp only [nameMistake?, contains]

theorem nameMistake?_eq_some_iff {tree : Tree α} {options : Options} {seen : List String}
    {id : Nat} {found : Nat × Malformed.Cause α} :
    tree.nameMistake? options seen id = some found ↔
      ∃ name, tree.kind? id = some (.bind name) ∧ options.repeatedNames = .rejected ∧
        name ∈ seen ∧ (id, .duplicateVariable name) = found := by
  rw [nameMistake?]
  constructor
  · intro equal
    split at equal
    next name isBind rejected =>
      split at equal
      next occurs =>
        exact ⟨name, isBind, rejected, List.contains_iff_mem.mp occurs, Option.some.inj equal⟩
      next => cases equal
    next => cases equal
  · rintro ⟨name, isBind, rejected, occurs, rfl⟩
    rw [isBind, rejected]
    exact if_pos (List.contains_iff_mem.mpr occurs)

/-- The search from a number on remembers the names at smaller numbers. -/
theorem firstMistake?_range' [BEq α] {tree : Tree α} {options : Options} {seen : List String}
    {first count : Nat} (remembered : ∀ name, name ∈ seen ↔ name ∈ tree.namesBefore first) :
    tree.firstMistake? options seen (List.range' first count) =
      (List.range' first count).findSome? (tree.offence? options) := by
  induction count generalizing first seen with
  | zero => rfl
  | succ count induction =>
      have onward : ∀ name, name ∈ tree.seenAfter seen first ↔
          name ∈ tree.namesBefore (first + 1) := by
        intro name
        rw [mem_seenAfter, mem_namesBefore_succ, remembered]
      rw [List.range'_succ, List.findSome?_cons, firstMistake?, offence?, induction onward,
        nameMistake?_congr remembered]
      cases tree.mistakeAt? first with
      | some mistake => rfl
      | none => cases tree.nameMistake? options (tree.namesBefore first) first <;> rfl

theorem firstRepeated?_eq_some_iff {Element Key : Type} [BEq Key] {key : Element → Key}
    {earlier : List Key} {elements : List Element} {element : Element} :
    firstRepeated? key earlier elements = some element ↔
      ∃ before after, elements = before ++ element :: after ∧
        (before.Pairwise fun first second => (key first == key second) = false) ∧
        (∀ present ∈ earlier, ∀ other ∈ before, (present == key other) = false) ∧
        ((∃ present ∈ earlier, present == key element) ∨
          ∃ other ∈ before, key other == key element) := by
  induction elements generalizing earlier with
  | nil =>
      constructor
      · intro found
        cases found
      · rintro ⟨before, after, equal, -⟩
        cases before <;> cases equal
  | cons head elements induction =>
      rw [firstRepeated?]
      by_cases seen : ∃ present ∈ earlier, present == key head
      · rw [if_pos (List.any_eq_true.mpr seen), Option.some.injEq]
        constructor
        · rintro rfl
          exact ⟨[], elements, rfl, .nil, fun _ _ => List.forall_mem_nil _, .inl seen⟩
        · rintro ⟨_ | ⟨other, before⟩, after, equal, -, fresh, -⟩
          · exact (List.cons.inj equal).1
          · rcases seen with ⟨present, member, same⟩
            rw [(List.cons.inj equal).1, fresh present member other List.mem_cons_self] at same
            cases same
      · rw [if_neg fun found => seen (List.any_eq_true.mp found), induction]
        have unseen : ∀ present ∈ earlier, (present == key head) = false := by
          intro present member
          exact Bool.eq_false_iff.mpr fun same => seen ⟨present, member, same⟩
        constructor
        · rintro ⟨before, after, rfl, apart, fresh, repeats⟩
          rcases List.forall_mem_cons.mp fresh with ⟨ofHead, ofEarlier⟩
          refine ⟨head :: before, after, rfl, List.pairwise_cons.mpr ⟨ofHead, apart⟩, ?_, ?_⟩
          · intro present member
            exact List.forall_mem_cons.mpr ⟨unseen present member, ofEarlier present member⟩
          · simpa [or_assoc, or_comm, or_left_comm] using repeats
        · rintro ⟨_ | ⟨other, before⟩, after, equal, apart, fresh, repeats⟩
          · rw [(List.cons.inj equal).1] at seen
            simp [seen] at repeats
          · rcases List.cons.inj equal with ⟨rfl, rfl⟩
            rcases List.pairwise_cons.mp apart with ⟨ofHead, apart⟩
            refine ⟨before, after, rfl, apart, ?_, ?_⟩
            · intro present member
              rcases List.mem_cons.mp member with equal | member
              · rw [equal]
                exact ofHead
              · exact (List.forall_mem_cons.mp (fresh present member)).2
            · simpa [or_assoc, or_comm, or_left_comm] using repeats

theorem firstRepeated?_nil_eq_some_iff {Element Key : Type} [BEq Key] {key : Element → Key}
    {elements : List Element} {element : Element} :
    firstRepeated? key [] elements = some element ↔
      Pattern.FirstRepeated (fun first second => key first == key second) elements element := by
  rw [firstRepeated?_eq_some_iff, Pattern.FirstRepeated]
  simp

theorem keyMistake?_map_eq_some_iff [BEq α] {keys : List (Value α)} {cause : Malformed.Cause α}
    (some : keys ≠ []) :
    keyMistake? .map keys = .some cause ↔
      ∃ key, Pattern.FirstRepeated Pattern.sameKey keys key ∧ .duplicateKey key = cause := by
  have isEmpty : keys.isEmpty = false := by simpa using some
  simp only [keyMistake?, isEmpty, Bool.false_eq_true, if_false, Option.map_eq_some_iff,
    firstRepeated?_nil_eq_some_iff]
  rfl

/-- The first key that names no field. -/
theorem firstNameless_iff {keys : List (Value α)} {key : Value α} :
    keys.find? (fun key => key.text?.isNone) = .some key ↔
      ∃ before after, keys = before ++ key :: after ∧ key.text? = none ∧
        ∀ earlier ∈ before, earlier.text?.isSome := by
  rw [List.find?_eq_some_iff_append]
  constructor
  · rintro ⟨noText, before, after, equal, texts⟩
    refine ⟨before, after, equal, Option.isNone_iff_eq_none.mp noText, ?_⟩
    intro earlier member
    simpa [Option.isSome_iff_ne_none] using texts earlier member
  · rintro ⟨before, after, equal, noText, texts⟩
    refine ⟨Option.isNone_iff_eq_none.mpr noText, before, after, equal, ?_⟩
    intro earlier member
    simpa [Option.isSome_iff_ne_none] using texts earlier member

theorem keyMistake?_record_eq_some_iff [BEq α] {tag : String} {keys : List (Value α)}
    {cause : Malformed.Cause α} (some : keys ≠ []) :
    keyMistake? (.record tag) keys = .some cause ↔
      (∃ before key after, keys = before ++ key :: after ∧ key.text? = none ∧
        (∀ earlier ∈ before, earlier.text?.isSome) ∧ .badFieldKey key = cause) ∨
      (∀ key ∈ keys, key.text?.isSome) ∧
        ∃ key, Pattern.FirstRepeated Pattern.sameText keys key ∧ .duplicateKey key = cause := by
  have isEmpty : keys.isEmpty = false := by simpa using some
  simp only [keyMistake?, isEmpty, Bool.false_eq_true, if_false]
  cases found : keys.find? fun key => key.text?.isNone with
  | none =>
      have texts : ∀ key ∈ keys, key.text?.isSome := by
        simpa [List.find?_eq_none, Option.isSome_iff_ne_none] using found
      simp only [Option.map_eq_some_iff, firstRepeated?_nil_eq_some_iff]
      constructor
      · intro twice
        exact .inr ⟨texts, twice⟩
      · rintro (⟨before, key, after, equal, noText, texts, -⟩ | ⟨-, twice⟩)
        · rw [firstNameless_iff.mpr ⟨before, after, equal, noText, texts⟩] at found
          cases found
        · exact twice
  | some bad =>
      rcases firstNameless_iff.mp found with ⟨before, after, equal, noText, texts⟩
      constructor
      · intro same
        cases same
        exact .inl ⟨before, bad, after, equal, noText, texts, rfl⟩
      · rintro (⟨before, key, after, equal, noText, texts, rfl⟩ | ⟨texts, -⟩)
        · cases found.symm.trans (firstNameless_iff.mpr ⟨before, after, equal, noText, texts⟩)
          rfl
        · have text := texts bad (equal ▸ List.mem_append_right _ List.mem_cons_self)
          rw [noText] at text
          cases text

theorem conditionMistake?_eq_some {tree : Tree α} {id : Nat} {cause : Malformed.Cause α}
    (wrong : tree.conditionMistake? id = some cause) : cause = .misplacedCondition := by
  rw [conditionMistake?] at wrong
  split at wrong
  · cases wrong
  · exact (Option.some.inj wrong).symm

/-! ## Looking around -/

section Around

variable {tree : Tree α} {defaultGreed : Greed} {root node : Pattern α} {path : List Nat}
variable (seats : tree.Seats defaultGreed none none none root 0)
include seats

theorem amongItems_at (present : root.at? path = some node) :
    tree.amongItems (root.numberAt 0 path) ↔ root.AmongItems path := by
  rcases List.eq_nil_or_concat' path with rfl | ⟨above, place, rfl⟩
  · rw [amongItems, Pattern.numberAt_nil, parent?_eq seats.node?_eq]
    constructor
    · intro among
      cases among
    · rintro ⟨above, place, holder, equal, -⟩
      cases above <;> cases equal
  · rcases Pattern.exists_holder present with ⟨holder, atAbove, atPlace⟩
    rw [amongItems, parent?_at seats atAbove atPlace, Option.any_some,
      isKind_at seats atAbove, Pattern.holdsItems_nodeKind]
    constructor
    · intro holds
      exact ⟨above, place, holder, rfl, atAbove, holds⟩
    · intro among
      rcases among.holder with ⟨other, atAbove', holds⟩
      cases atAbove.symm.trans atAbove'
      exact holds

theorem amongItems_eq_true (present : root.at? path = some node)
    (among : root.AmongItems path) : tree.amongItems (root.numberAt 0 path) = true :=
  (amongItems_at seats present).mpr among

theorem amongItems_eq_false (present : root.at? path = some node)
    (outside : ¬root.AmongItems path) : tree.amongItems (root.numberAt 0 path) = false :=
  Bool.eq_false_iff.mpr fun holds => outside ((amongItems_at seats present).mp holds)

theorem atTail_at (present : root.at? path = some node) :
    tree.atTail (root.numberAt 0 path) ↔
      ∀ other, root.FollowedBy path other → other.isCondition := by
  rcases List.eq_nil_or_concat' path with rfl | ⟨above, place, rfl⟩
  · rw [atTail, Pattern.numberAt_nil, next?_eq seats.node?_eq]
    constructor
    · rintro - other ⟨above, place, holder, equal, -⟩
      cases above <;> cases equal
    · intro _
      rfl
  · rcases Pattern.exists_holder present with ⟨holder, atAbove, atPlace⟩
    have followed : ∀ other, root.FollowedBy (above ++ [place]) other ↔
        holder.isOrdered ∧ holder.parts[place + 1]? = some other := by
      intro other
      constructor
      · rintro ⟨above', place', holder', equal, atAbove', ordered, behind⟩
        rcases List.append_inj' equal rfl with ⟨rfl, places⟩
        cases places
        cases atAbove.symm.trans atAbove'
        exact ⟨ordered, behind⟩
      · rintro ⟨ordered, behind⟩
        exact ⟨above, place, holder, rfl, atAbove, ordered, behind⟩
    simp only [followed]
    by_cases last : holder.isOrdered → holder.parts[place + 1]? = none
    · rw [atTail, next?_at_eq_none seats atAbove atPlace last]
      constructor
      · rintro - other ⟨ordered, behind⟩
        rw [last ordered] at behind
        cases behind
      · intro _
        rfl
    · rw [Classical.not_imp, ← ne_eq, Option.ne_none_iff_exists'] at last
      rcases last with ⟨ordered, other, behind⟩
      have atBehind : root.at? (above ++ [place + 1]) = some other := by
        rw [Pattern.at?_concat, atAbove, Option.bind_some, behind]
      rw [atTail, next?_at seats atAbove ordered atPlace behind, Option.all_some,
        isKind_at seats atBehind, Pattern.isCondition_nodeKind]
      simp [ordered, behind]

theorem conditionMistake?_at (descends : tree.Descends) {accepts : Bindings α → Bool}
    (present : root.at? path = some (.condition accepts)) :
    tree.conditionMistake? (root.numberAt 0 path) = none ↔ root.ConditionFits path := by
  have here : tree.isKind NodeKind.isAlternative (root.numberAt 0 path) = false := by
    rw [isKind_at seats present]
    rfl
  have noAlternative : (∀ id ∈ tree.ancestors (root.numberAt 0 path),
      tree.isKind NodeKind.isAlternative id = false) ↔ root.OutsideAlternatives path := by
    have upwards := forall_mem_lineage seats descends present
      fun id => tree.isKind NodeKind.isAlternative id = false
    rw [lineage, List.forall_mem_cons, and_iff_right here] at upwards
    rw [upwards]
    constructor
    · intro outside above holder leads atAbove
      have isAlternative := outside above leads
      rwa [isKind_at seats atAbove, Pattern.isAlternative_nodeKind] at isAlternative
    · intro outside above leads
      rcases Pattern.exists_of_prefix leads present with ⟨holder, atAbove⟩
      rw [isKind_at seats atAbove, Pattern.isAlternative_nodeKind]
      exact outside above holder leads atAbove
  have last : (∀ id ∈ tree.lineage (root.numberAt 0 path), tree.atTail id) ↔
      ∀ above other, above <+: path → root.FollowedBy above other → other.isCondition := by
    rw [forall_mem_lineage seats descends present fun id => tree.atTail id]
    constructor
    · intro tails above other leads follows
      rcases Pattern.exists_of_prefix leads present with ⟨holder, atAbove⟩
      exact (atTail_at seats atAbove).mp (tails above leads) other follows
    · intro tails above leads
      rcases Pattern.exists_of_prefix leads present with ⟨holder, atAbove⟩
      exact (atTail_at seats atAbove).mpr fun other => tails above other leads
  rw [conditionMistake?]
  simp only [ite_eq_left_iff, reduceCtorEq, imp_false, Decidable.not_not, Bool.and_eq_true,
    Bool.not_eq_true', List.any_eq_false, Bool.not_eq_true, List.all_eq_true]
  rw [noAlternative, amongItems_at seats present]
  constructor
  · rintro ⟨⟨among, outside⟩, tails⟩
    exact ⟨among, outside, last.mp tails⟩
  · intro fits
    exact ⟨⟨fits.among, fits.outside⟩, last.mpr fits.last⟩

end Around

/-! ## What is found at a node -/

section Findings

variable [BEq α] {tree : Tree α} {options : Options} {root node : Pattern α} {path : List Nat}

def bindingMistake? (tree : Tree α) (operator : String) (id : Nat) :
    Option (Nat × Malformed.Cause α) :=
  (tree.binders id).head?.map fun (binder, name) => (binder, .bindingInAlternative name operator)

def finding? (tree : Tree α) (options : Options) (id : Nat) : Option (Malformed α) :=
  (tree.offence? options id).map fun (reported, cause) => ⟨tree.path reported, cause⟩

theorem malformed?_build (options : Options) (root : Pattern α) :
    (build root options).malformed? options =
      (List.range' 0 root.extent).findSome? ((build root options).finding? options) := by
  have size : (build root options).size = root.extent := by
    rw [Tree.size, build, ofOutline, List.size_toArray, length_link.item, Outline.ofPattern,
      Outline.length_number]
  rw [malformed?, ids, size, List.range_eq_range', firstMistake?_range', List.map_findSome?]
  · rfl
  · intro name
    simp [namesBefore]

/-- A mistake is in the structure of a node, or it is a name that has occurred before. -/
theorem finding?_eq_some_iff {id : Nat} {mistake : Malformed α} :
    tree.finding? options id = some mistake ↔
      (∃ reported, tree.mistakeAt? id = some (reported, mistake.cause) ∧
        tree.path reported = mistake.path) ∨
      ∃ name, tree.kind? id = some (.bind name) ∧ options.repeatedNames = .rejected ∧
        name ∈ tree.namesBefore id ∧ mistake = ⟨tree.path id, .duplicateVariable name⟩ := by
  rw [finding?, offence?, Option.map_eq_some_iff]
  cases found : tree.mistakeAt? id with
  | some known =>
      rcases known with ⟨reported, cause⟩
      rcases mistake with ⟨path, cause'⟩
      constructor
      · rintro ⟨_, equal, same⟩
        cases equal
        cases same
        exact .inl ⟨reported, rfl, rfl⟩
      · rintro (⟨other, equal, same⟩ | ⟨name, isBind, -⟩)
        · cases equal
          cases same
          exact ⟨_, rfl, rfl⟩
        · rw [mistakeAt?, isBind] at found
          cases found
  | none =>
      simp only [nameMistake?_eq_some_iff, reduceCtorEq, false_and, exists_false, false_or]
      constructor
      · rintro ⟨_, ⟨name, isBind, rejected, occurs, rfl⟩, rfl⟩
        exact ⟨name, isBind, rejected, occurs, rfl⟩
      · rintro ⟨name, isBind, rejected, occurs, rfl⟩
        exact ⟨_, ⟨name, isBind, rejected, occurs, rfl⟩, rfl⟩

variable {defaultGreed : Greed} (seats : tree.Seats defaultGreed none none none root 0)
include seats

omit [BEq α] in
theorem mem_namesBefore_at (present : root.at? path = some node) {name : String} :
    name ∈ tree.namesBefore (root.numberAt 0 path) ↔
      ∃ earlier < path, root.at? earlier = some (.bind name) := by
  rw [namesBefore, List.mem_filterMap]
  constructor
  · rintro ⟨id, before, isBound⟩
    have lt := List.mem_range.mp before
    rcases Pattern.exists_path.item root 0 id (Nat.zero_le _)
      (Nat.lt_trans lt (Pattern.numberAt_lt present 0)) with ⟨earlier, other, present', rfl⟩
    rw [boundName?_at seats present'] at isBound
    refine ⟨earlier, (Pattern.lt_iff_numberAt_lt present' present 0).mpr lt, ?_⟩
    cases other <;> cases isBound
    exact present'
  · rintro ⟨earlier, before, present'⟩
    refine ⟨_, List.mem_range.mpr (Pattern.numberAt_lt_numberAt before present' present 0), ?_⟩
    rw [boundName?_at seats present']
    rfl

/-! ## The mistake of each kind of node -/

omit [BEq α] in
theorem isEmpty_children_at (present : root.at? path = some node) :
    (tree.children (root.numberAt 0 path)).isEmpty = node.parts.isEmpty := by
  rw [children_at seats present]
  cases node.parts <;> simp

omit [BEq α] in
theorem length_children_at (present : root.at? path = some node) :
    (tree.children (root.numberAt 0 path)).length = node.parts.length := by
  rw [children_at seats present, List.length_map, List.length_range]

theorem mistakeAt?_repetition {minimum : Nat} {greed : Option Greed}
    (present : root.at? path = some (.repetition minimum greed)) :
    tree.mistakeAt? (root.numberAt 0 path) =
      (tree.repetitionMistake? (root.numberAt 0 path)).map
        fun cause => (root.numberAt 0 path, cause) := by
  simp only [mistakeAt?, kind?_at seats present, Pattern.nodeKind]

theorem mistakeAt?_sequence {items : List (Pattern α)}
    (present : root.at? path = some (.sequence items)) :
    tree.mistakeAt? (root.numberAt 0 path) =
      if !tree.amongItems (root.numberAt 0 path) then
        some (root.numberAt 0 path, .misplacedSequence)
      else if items.isEmpty then some (root.numberAt 0 path, .emptySequence)
      else none := by
  simp only [mistakeAt?, kind?_at seats present, Pattern.nodeKind,
    isEmpty_children_at seats present, Pattern.parts]

theorem mistakeAt?_and {operands : List (Pattern α)}
    (present : root.at? path = some (.and operands)) :
    tree.mistakeAt? (root.numberAt 0 path) =
      if operands.isEmpty then some (root.numberAt 0 path, .emptyComposite "And") else none := by
  simp only [mistakeAt?, kind?_at seats present, Pattern.nodeKind,
    isEmpty_children_at seats present, Pattern.parts]

theorem mistakeAt?_or {operands : List (Pattern α)}
    (present : root.at? path = some (.or operands)) :
    tree.mistakeAt? (root.numberAt 0 path) =
      if operands.isEmpty then some (root.numberAt 0 path, .emptyComposite "Or")
      else tree.bindingMistake? "Or" (root.numberAt 0 path) := by
  simp only [mistakeAt?, kind?_at seats present, Pattern.nodeKind,
    isEmpty_children_at seats present, Pattern.parts, bindingMistake?]

theorem mistakeAt?_not {operands : List (Pattern α)}
    (present : root.at? path = some (.not operands)) :
    tree.mistakeAt? (root.numberAt 0 path) =
      if operands.isEmpty then some (root.numberAt 0 path, .emptyComposite "Not")
      else if 1 < operands.length then
        some (root.numberAt 0 path, .notArity operands.length)
      else tree.bindingMistake? "Not" (root.numberAt 0 path) := by
  simp only [mistakeAt?, kind?_at seats present, Pattern.nodeKind,
    isEmpty_children_at seats present, length_children_at seats present, Pattern.parts,
    bindingMistake?]

theorem mistakeAt?_keyed {shape : KeyedShape} {entries : List (Value α × Pattern α)}
    (present : root.at? path = some (.keyed shape entries)) :
    tree.mistakeAt? (root.numberAt 0 path) =
      (keyMistake? shape (entries.map Prod.fst)).map
        fun cause => (root.numberAt 0 path, cause) := by
  simp only [mistakeAt?, kind?_at seats present, Pattern.nodeKind]

theorem mistakeAt?_condition {accepts : Bindings α → Bool}
    (present : root.at? path = some (.condition accepts)) :
    tree.mistakeAt? (root.numberAt 0 path) =
      (tree.conditionMistake? (root.numberAt 0 path)).map
        fun cause => (root.numberAt 0 path, cause) := by
  simp only [mistakeAt?, kind?_at seats present, Pattern.nodeKind]

/-! ## Findings are offences -/

theorem repetition_offends {minimum : Nat} {greed : Option Greed} {cause : Malformed.Cause α}
    (present : root.at? path = some (.repetition minimum greed))
    (found : tree.repetitionMistake? (root.numberAt 0 path) = some cause) :
    root.Offends options path path cause := by
  rw [repetitionMistake?] at found
  by_cases among : root.AmongItems path
  · rw [amongItems_eq_true seats present among] at found
    rcases among with ⟨above, place, holder, rfl, atAbove, holds⟩
    have among : root.AmongItems (above ++ [place]) := ⟨above, place, holder, rfl, atAbove, holds⟩
    rcases Pattern.exists_holder present with ⟨_, atAbove', atPlace⟩
    cases atAbove.symm.trans atAbove'
    cases place with
    | zero =>
        rw [previous?_at_zero seats atAbove atPlace] at found
        cases found
        exact .danglingQuantifier present among
    | succ place =>
        rcases Pattern.exists_before present with ⟨item, atItem⟩
        have atBefore := atItem
        rw [Pattern.at?_concat, atAbove, Option.bind_some] at atBefore
        rw [previous?_at_succ seats atAbove (Pattern.isOrdered_of_holdsItems holds) atBefore
          atPlace] at found
        simp only [isKind_at seats atItem, Pattern.isRepetition_nodeKind] at found
        cases item with
        | repetition minimum' greed' =>
            cases found
            exact .stackedQuantifier present among atItem
        | _ => cases found
  · rw [amongItems_eq_false seats present among] at found
    cases found
    exact .misplacedQuantifier present among

omit seats in
theorem keys_offend {shape : KeyedShape} {entries : List (Value α × Pattern α)}
    {cause : Malformed.Cause α} (present : root.at? path = some (.keyed shape entries))
    (found : keyMistake? shape (entries.map Prod.fst) = some cause) :
    root.Offends options path path cause := by
  cases entries with
  | nil =>
      cases found
      exact .keyedArity present
  | cons entry entries =>
      cases shape with
      | map =>
          rcases (keyMistake?_map_eq_some_iff (List.cons_ne_nil _ _)).mp found with
            ⟨key, twice, rfl⟩
          exact .duplicateKey present twice
      | record tag =>
          rcases (keyMistake?_record_eq_some_iff (List.cons_ne_nil _ _)).mp found with
            ⟨before, key, after, keys, noText, texts, rfl⟩ | ⟨texts, key, twice, rfl⟩
          · exact .badFieldKey present keys noText texts
          · exact .duplicateField present texts twice

omit [BEq α] in
theorem firstVariable_of_bindingMistake? {operator : String} {reported : Nat}
    {cause : Malformed.Cause α} (present : root.at? path = some node)
    (found : tree.bindingMistake? operator (root.numberAt 0 path) = some (reported, cause)) :
    ∃ below name, tree.path reported = path ++ below ∧
      cause = .bindingInAlternative name operator ∧ root.FirstVariable path below name := by
  rcases Option.map_eq_some_iff.mp found with ⟨⟨binder, name⟩, isFirst, equal⟩
  cases equal
  rcases (head?_binders_at seats present).mp isFirst with ⟨below, numbered, isBound, none⟩
  dsimp only at numbered isBound
  have isBound' : root.at? (path ++ below) = some (.bind name) := by
    rw [Pattern.at?_append_of_eq present, isBound]
  refine ⟨below, name, ?_, rfl, isBound', ?_⟩
  · rw [← numbered, path_at seats isBound']
  · intro earlier before other
    rw [Pattern.at?_append_of_eq present]
    exact none earlier before other

theorem offends_of_mistakeAt? (descends : tree.Descends) {reported : Nat}
    {cause : Malformed.Cause α} (present : root.at? path = some node)
    (found : tree.mistakeAt? (root.numberAt 0 path) = some (reported, cause)) :
    root.Offends options path (tree.path reported) cause := by
  have onPath := path_at seats present
  cases node with
  | repetition minimum greed =>
      rw [mistakeAt?_repetition seats present] at found
      rcases Option.map_eq_some_iff.mp found with ⟨_, wrong, equal⟩
      cases equal
      rw [onPath]
      exact repetition_offends seats present wrong
  | sequence items =>
      rw [mistakeAt?_sequence seats present] at found
      by_cases among : root.AmongItems path
      · rw [amongItems_eq_true seats present among] at found
        cases items with
        | nil =>
            cases found
            rw [onPath]
            exact .emptySequence present among
        | cons item items => cases found
      · rw [amongItems_eq_false seats present among] at found
        cases found
        rw [onPath]
        exact .misplacedSequence present among
  | and operands =>
      rw [mistakeAt?_and seats present] at found
      cases operands with
      | nil =>
          cases found
          rw [onPath]
          exact .emptyConjunction present
      | cons operand operands => cases found
  | or operands =>
      rw [mistakeAt?_or seats present] at found
      cases operands with
      | nil =>
          cases found
          rw [onPath]
          exact .emptyDisjunction present
      | cons operand operands =>
          rcases firstVariable_of_bindingMistake? seats present found with
            ⟨below, name, leads, rfl, isBound⟩
          rw [leads]
          exact .boundInDisjunction present isBound
  | not operands =>
      rw [mistakeAt?_not seats present] at found
      rcases operands with _ | ⟨operand, _ | ⟨other, others⟩⟩
      · cases found
        rw [onPath]
        exact .emptyNegation present
      · rcases firstVariable_of_bindingMistake? seats present found with
          ⟨below, name, leads, rfl, isBound⟩
        rw [leads]
        exact .boundInNegation present isBound
      · have several : 1 < (operand :: other :: others).length :=
          Nat.succ_lt_succ (Nat.succ_pos _)
        rw [if_neg (by simp), if_pos several] at found
        cases found
        rw [onPath]
        exact .notArity present several
  | keyed shape entries =>
      rw [mistakeAt?_keyed seats present] at found
      rcases Option.map_eq_some_iff.mp found with ⟨_, wrong, equal⟩
      cases equal
      rw [onPath]
      exact keys_offend present wrong
  | condition accepts =>
      rw [mistakeAt?_condition seats present] at found
      rcases Option.map_eq_some_iff.mp found with ⟨_, wrong, equal⟩
      cases equal
      have unfit : ¬root.ConditionFits path := by
        intro fits
        rw [(conditionMistake?_at seats descends present).mpr fits] at wrong
        cases wrong
      rw [onPath]
      cases conditionMistake?_eq_some wrong
      exact .misplacedCondition present unfit
  | _ =>
      simp only [mistakeAt?, kind?_at seats present] at found
      cases found

/-! ## Offences are found -/

theorem finding?_here {cause : Malformed.Cause α} (present : root.at? path = some node)
    (found : tree.mistakeAt? (root.numberAt 0 path) = some (root.numberAt 0 path, cause)) :
    tree.finding? options (root.numberAt 0 path) = some ⟨path, cause⟩ :=
  finding?_eq_some_iff.mpr (.inl ⟨_, found, path_at seats present⟩)

omit [BEq α] in
theorem repetitionMistake?_stacked {above : List Nat} {place : Nat}
    {minimum minimum' : Nat} {greed greed' : Option Greed}
    (present : root.at? (above ++ [place + 1]) = some (.repetition minimum greed))
    (among : root.AmongItems (above ++ [place + 1]))
    (before : root.at? (above ++ [place]) = some (.repetition minimum' greed')) :
    tree.repetitionMistake? (root.numberAt 0 (above ++ [place + 1])) =
      some .stackedQuantifier := by
  rcases among.holder with ⟨holder, atAbove, holds⟩
  have atPlace := before
  have behind := present
  rw [Pattern.at?_concat, atAbove, Option.bind_some] at atPlace behind
  have isRepetition := isKind_at seats before NodeKind.isRepetition
  simp only [repetitionMistake?, amongItems_eq_true seats present among,
    previous?_at_succ seats atAbove (Pattern.isOrdered_of_holdsItems holds) atPlace behind,
    isRepetition]
  rfl

omit [BEq α] in
theorem repetitionMistake?_dangling {above : List Nat} {minimum : Nat} {greed : Option Greed}
    (present : root.at? (above ++ [0]) = some (.repetition minimum greed))
    (among : root.AmongItems (above ++ [0])) :
    tree.repetitionMistake? (root.numberAt 0 (above ++ [0])) = some .danglingQuantifier := by
  rcases Pattern.exists_holder present with ⟨holder, atAbove, atPlace⟩
  simp only [repetitionMistake?, amongItems_eq_true seats present among,
    previous?_at_zero seats atAbove atPlace]
  rfl

omit [BEq α] in
theorem bindingMistake?_of_firstVariable {below : List Nat} {name : String} (operator : String)
    (present : root.at? path = some node) (isBound : root.FirstVariable path below name) :
    tree.bindingMistake? operator (root.numberAt 0 path) =
      some (root.numberAt 0 (path ++ below), .bindingInAlternative name operator) := by
  rcases isBound with ⟨atBelow, none⟩
  simp only [Pattern.at?_append_of_eq present] at atBelow none
  have isFirst : (tree.binders (root.numberAt 0 path)).head? =
      some (root.numberAt 0 (path ++ below), name) :=
    (head?_binders_at seats present).mpr ⟨below, rfl, atBelow, none⟩
  rw [bindingMistake?, isFirst]
  rfl

theorem finding?_bound {below : List Nat} {name operator : String}
    (isBound : root.FirstVariable path below name)
    (found : tree.mistakeAt? (root.numberAt 0 path) =
      some (root.numberAt 0 (path ++ below), .bindingInAlternative name operator)) :
    tree.finding? options (root.numberAt 0 path) =
      some ⟨path ++ below, .bindingInAlternative name operator⟩ :=
  finding?_eq_some_iff.mpr (.inl ⟨_, found, path_at seats isBound.1⟩)

theorem finding?_of_offends (descends : tree.Descends) {reported : List Nat}
    {cause : Malformed.Cause α} (offends : root.Offends options path reported cause) :
    tree.finding? options (root.numberAt 0 path) = some ⟨reported, cause⟩ := by
  cases offends with
  | misplacedQuantifier present outside =>
      apply finding?_here seats present
      rw [mistakeAt?_repetition seats present, repetitionMistake?,
        amongItems_eq_false seats present outside]
      rfl
  | danglingQuantifier present among =>
      apply finding?_here seats present
      rw [mistakeAt?_repetition seats present, repetitionMistake?_dangling seats present among]
      rfl
  | stackedQuantifier present among before =>
      apply finding?_here seats present
      rw [mistakeAt?_repetition seats present,
        repetitionMistake?_stacked seats present among before]
      rfl
  | misplacedSequence present outside =>
      apply finding?_here seats present
      rw [mistakeAt?_sequence seats present, amongItems_eq_false seats present outside]
      rfl
  | emptySequence present among =>
      apply finding?_here seats present
      rw [mistakeAt?_sequence seats present, amongItems_eq_true seats present among]
      rfl
  | emptyConjunction present =>
      apply finding?_here seats present
      exact mistakeAt?_and seats present
  | emptyDisjunction present =>
      apply finding?_here seats present
      exact mistakeAt?_or seats present
  | emptyNegation present =>
      apply finding?_here seats present
      exact mistakeAt?_not seats present
  | @notArity _ operands present several =>
      apply finding?_here seats present
      have some : ¬operands.isEmpty := by
        intro none
        rw [List.isEmpty_iff.mp none] at several
        cases several
      rw [mistakeAt?_not seats present, if_neg some, if_pos several]
  | @boundInDisjunction _ _ operands _ present isBound =>
      apply finding?_bound seats isBound
      have some : ¬operands.isEmpty := fun none =>
        isBound.operands_ne_nil present (List.isEmpty_iff.mp none)
      rw [mistakeAt?_or seats present, if_neg some]
      exact bindingMistake?_of_firstVariable seats "Or" present isBound
  | boundInNegation present isBound =>
      apply finding?_bound seats isBound
      rw [mistakeAt?_not seats present]
      exact bindingMistake?_of_firstVariable seats "Not" present isBound
  | keyedArity present =>
      apply finding?_here seats present
      exact mistakeAt?_keyed seats present
  | badFieldKey present keys noText texts =>
      apply finding?_here seats present
      rw [mistakeAt?_keyed seats present, (keyMistake?_record_eq_some_iff (by simp [keys])).mpr
        (.inl ⟨_, _, _, keys, noText, texts, rfl⟩)]
      rfl
  | duplicateField present texts twice =>
      apply finding?_here seats present
      rw [mistakeAt?_keyed seats present, (keyMistake?_record_eq_some_iff twice.ne_nil).mpr
        (.inr ⟨texts, _, twice, rfl⟩)]
      rfl
  | duplicateKey present twice =>
      apply finding?_here seats present
      rw [mistakeAt?_keyed seats present,
        (keyMistake?_map_eq_some_iff twice.ne_nil).mpr ⟨_, twice, rfl⟩]
      rfl
  | misplacedCondition present unfit =>
      apply finding?_here seats present
      rw [mistakeAt?_condition seats present]
      cases wrong : tree.conditionMistake? (root.numberAt 0 path) with
      | none => exact absurd ((conditionMistake?_at seats descends present).mp wrong) unfit
      | some cause =>
          cases conditionMistake?_eq_some wrong
          rfl
  | duplicateVariable rejected present before present' =>
      rw [finding?_eq_some_iff]
      right
      refine ⟨_, kind?_at seats present, rejected,
        (mem_namesBefore_at seats present).mpr ⟨_, before, present'⟩, ?_⟩
      rw [path_at seats present]

/-- What is found at the number of a node is what is wrong with the node. -/
theorem finding?_eq_some_iff_offends (descends : tree.Descends) {mistake : Malformed α}
    (present : root.at? path = some node) :
    tree.finding? options (root.numberAt 0 path) = some mistake ↔
      root.Offends options path mistake.path mistake.cause := by
  constructor
  · intro found
    rcases finding?_eq_some_iff.mp found with ⟨reported, wrong, leads⟩ |
      ⟨name, isBind, rejected, before, rfl⟩
    · rw [← leads]
      exact offends_of_mistakeAt? seats descends present wrong
    · rcases (mem_namesBefore_at seats present).mp before with ⟨earlier, lt, present'⟩
      rw [kind?_at seats present] at isBind
      rw [path_at seats present]
      cases node <;> cases isBind
      exact .duplicateVariable rejected present lt present'
  · exact finding?_of_offends seats descends

end Findings

end Tree

namespace Pattern

theorem Offends.exists_node [BEq α] {options : Options} {root : Pattern α}
    {path reported : List Nat} {cause : Malformed.Cause α}
    (offends : root.Offends options path reported cause) : ∃ node, root.at? path = some node := by
  cases offends <;> exact ⟨_, by assumption⟩

theorem malformed?_eq_some_iff [BEq α] (options : Options) (root : Pattern α)
    (mistake : Malformed α) :
    (Tree.build root options).malformed? options = some mistake ↔
      ∃ path, root.Offends options path mistake.path mistake.cause ∧
        ∀ earlier < path, ∀ reported cause, ¬root.Offends options earlier reported cause := by
  have descends : (Tree.build root options).Descends := Tree.descends_ofPattern _ root
  have seats : (Tree.build root options).Seats options.defaultGreed none none none root 0 :=
    Tree.lists_ofOutline _
  rw [Tree.malformed?_build, findSome?_numbers]
  constructor
  · rintro ⟨path, node, present, found, none⟩
    refine ⟨path, (Tree.finding?_eq_some_iff_offends seats descends present).mp found, ?_⟩
    intro earlier before reported cause offends
    rcases offends.exists_node with ⟨other, present'⟩
    have found' := Tree.finding?_of_offends seats descends offends
    rw [none earlier before other present'] at found'
    cases found'
  · rintro ⟨path, offends, none⟩
    rcases offends.exists_node with ⟨node, present⟩
    refine ⟨path, node, present, Tree.finding?_of_offends seats descends offends, ?_⟩
    intro earlier before other present'
    rw [Option.eq_none_iff_forall_ne_some]
    intro mistake' found
    exact none earlier before _ _
      ((Tree.finding?_eq_some_iff_offends seats descends present').mp found)

/-- Where a node offends, there is a first one that does. -/
theorem malformed?_eq_none_iff [BEq α] (options : Options) (root : Pattern α) :
    (Tree.build root options).malformed? options = none ↔ root.WellFormed options := by
  rw [wellFormed_iff_not_offends, Option.eq_none_iff_forall_ne_some]
  constructor
  · intro accepted path reported cause offends
    rcases offends.exists_node with ⟨node, present⟩
    rcases exists_first_path (fun path => ∃ reported cause,
      root.Offends options path reported cause) present ⟨reported, cause, offends⟩ with
      ⟨path', _, -, ⟨reported', cause', offends'⟩, none⟩
    apply accepted ⟨reported', cause'⟩
    rw [malformed?_eq_some_iff]
    refine ⟨path', offends', ?_⟩
    intro earlier before reported cause offends
    rcases offends.exists_node with ⟨other, present'⟩
    exact none earlier before other present' ⟨reported, cause, offends⟩
  · intro sound mistake found
    rcases (malformed?_eq_some_iff options root mistake).mp found with ⟨path, offends, -⟩
    exact sound _ _ _ offends

/-- Validation accepts exactly the well-formed patterns. Of the others it reports the first node
in preorder that offends, for the cause for which it offends. -/
theorem malformed?_finds_first_offence [BEq α] (options : Options) (root : Pattern α) :
    ((Tree.build root options).malformed? options = none ↔ root.WellFormed options) ∧
      ∀ mistake, (Tree.build root options).malformed? options = some mistake ↔
        ∃ path, root.Offends options path mistake.path mistake.cause ∧
          ∀ earlier < path, ∀ reported cause, ¬root.Offends options earlier reported cause :=
  ⟨malformed?_eq_none_iff options root, malformed?_eq_some_iff options root⟩

end Pattern

end Destructure
