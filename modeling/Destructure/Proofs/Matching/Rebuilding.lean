import Destructure.Proofs.Matching.FirstSolution

/-!
Where a pattern writes down or names every value that it takes, a match loses nothing: putting the
bound values back into the pattern, for each pass of a repetition those of that pass, gives the
value that was matched.
-/

namespace Destructure

variable {α : Type}

namespace Value

/-- One and the same, equal, or lists of such items in the same order. Where every object equals
itself this is equality. -/
inductive Same [BEq α] : Value α → Value α → Prop where
  | refl (value : Value α) : Same value value
  | equal {first second : Value α} : (first == second) = true → Same first second
  | list {firsts seconds : List (Value α)} :
    List.Forall₂ Same firsts seconds → Same (.list firsts) (.list seconds)

namespace Same

variable [BEq α]

theorem forall₂_refl (items : List (Value α)) : List.Forall₂ Same items items :=
  List.forall₂_same.mpr fun item _ => refl item

theorem forall₂_of_itemsEqual {firsts seconds : List (Value α)}
    (equal : itemsEqual firsts seconds = true) : List.Forall₂ Same firsts seconds := by
  induction firsts generalizing seconds with
  | nil =>
      cases seconds with
      | nil => exact .nil
      | cons second seconds => cases equal
  | cons first firsts induction =>
      cases seconds with
      | nil => cases equal
      | cons second seconds =>
          rw [itemsEqual, Bool.and_eq_true] at equal
          exact .cons (.equal equal.1) (induction equal.2)

theorem exists_items {first : Value α} {items : List (Value α)} (same : Same first (.list items)) :
    ∃ firsts, first = .list firsts ∧ List.Forall₂ Same firsts items := by
  cases same with
  | refl => exact ⟨items, rfl, forall₂_refl items⟩
  | list related => exact ⟨_, rfl, related⟩
  | equal equal =>
      cases first with
      | list firsts => exact ⟨firsts, rfl, forall₂_of_itemsEqual equal⟩
      | _ => cases equal

mutual
/-- What is the same as a value that equals itself equals it. -/
theorem equals : ∀ {first second : Value α}, Same first second → second.equals second = true →
    first.equals second = true
  | _, _, .refl _, reflexive => reflexive
  | _, _, .equal same, _ => same
  | _, _, .list related, reflexive => itemsEqual_of_forall₂ related reflexive

theorem itemsEqual_of_forall₂ : ∀ {firsts seconds : List (Value α)},
    List.Forall₂ Same firsts seconds → itemsEqual seconds seconds = true →
    itemsEqual firsts seconds = true
  | _, _, .nil, _ => rfl
  | _, _, .cons same related, reflexive => by
      rw [itemsEqual, Bool.and_eq_true] at reflexive ⊢
      exact ⟨same.equals reflexive.1, itemsEqual_of_forall₂ related reflexive.2⟩
end

end Same

end Value

abbrev Assignment (α : Type) := String → Option (Value α)

namespace Assignment

def pass (assignment : Assignment α) (index : Nat) : Assignment α :=
  fun name => (assignment name).bind fun value => value.items?.bind fun items => items[index]?

def length? (assignment : Assignment α) (name : String) : Option Nat :=
  ((assignment name).bind Value.items?).map List.length

def count? (assignment : Assignment α) : List String → Option Nat
  | [] => none
  | name :: names =>
    (assignment.length? name).filter fun count =>
      names.all fun other => assignment.length? other == some count

end Assignment

namespace Pattern

mutual
def isTransparent : Pattern α → Bool
  | literal _ | bind _ | repetition _ _ => true
  | deconstruct (.named name) items => name == listShape && areTransparent items
  | sequence items => areTransparent items
  | _ => false
termination_by structural pattern => pattern

/-- The same for items; here a repeated item has to bind a name, or it would not be known how often
it was repeated. -/
def areTransparent : List (Pattern α) → Bool
  | [] => true
  | unit :: repetition _ _ :: items =>
    !unit.boundNames.isEmpty && isTransparent unit && areTransparent items
  | item :: items => isTransparent item && areTransparent items
termination_by structural items => items
end

def rebuildPasses (ofPass : Nat → Option (List (Value α))) : Nat → Option (List (Value α))
  | 0 => some []
  | count + 1 => do
    let first ← ofPass 0
    let others ← rebuildPasses (fun index => ofPass (index + 1)) count
    some (first ++ others)

mutual
def rebuild : Pattern α → Assignment α → Option (List (Value α))
  | literal value, _ => some [value]
  | bind name, assignment => (assignment name).map fun value => [value]
  | deconstruct _ items, assignment => (rebuildRow items assignment).map fun parts => [.list parts]
  | sequence items, assignment => rebuildRow items assignment
  | _, _ => none
termination_by structural pattern => pattern

/-- The values that items stand for. A repeated unit stands for its passes, as many as there are
items in the lists under its names. -/
def rebuildRow : List (Pattern α) → Assignment α → Option (List (Value α))
  | [], _ => some []
  | unit :: repetition _ _ :: items, assignment => do
    let count ← assignment.count? unit.boundNames
    let passes ← rebuildPasses (fun index => rebuild unit (assignment.pass index)) count
    let others ← rebuildRow items assignment
    some (passes ++ others)
  | item :: items, assignment => do
    let first ← rebuild item assignment
    let others ← rebuildRow items assignment
    some (first ++ others)
termination_by structural items => items
end

theorem areTransparent_plain {item : Pattern α} {items : List (Pattern α)}
    (leads : repetitionLeads items = false) :
    areTransparent (item :: items) = (item.isTransparent && areTransparent items) := by
  rcases items with _ | ⟨next, items⟩
  · rfl
  · cases next with
    | repetition minimum greed => cases leads
    | _ => rfl

theorem rebuildRow_plain {item : Pattern α} {items : List (Pattern α)}
    (leads : repetitionLeads items = false) (assignment : Assignment α) :
    rebuildRow (item :: items) assignment = (do
      let first ← rebuild item assignment
      let others ← rebuildRow items assignment
      some (first ++ others)) := by
  rcases items with _ | ⟨next, items⟩
  · rfl
  · cases next with
    | repetition minimum greed => cases leads
    | _ => rfl

end Pattern

/-! ## Assignments that cover what is bound -/

namespace Way

theorem exists_of_mem_single {item : Value α → Named (Value α) → List (Named (Value α))}
    {way later : Way α} (member : later ∈ single item way) :
    ∃ value, way.left = value :: later.left ∧ later.bound ∈ item value way.bound := by
  rcases way with ⟨bound, _ | ⟨value, left⟩⟩
  · cases member
  · rcases List.mem_map.mp member with ⟨bound, among, rfl⟩
    exact ⟨value, rfl, among⟩

theorem names_gather (names : List String) (passes : List (Named (Value α))) :
    Named.names (gather names passes) = names := by
  induction names generalizing passes with
  | nil => rfl
  | cons name names induction => exact congrArg (name :: ·) (induction _)

/-- What the passes bind in their first place, one thing in each. -/
theorem map_some_heads {name : String} {names : List String} {passes : List (Named (Value α))}
    (aligned : ∀ bound ∈ passes, Named.names bound = name :: names) :
    (passes.filterMap fun bound => bound.head?.map Prod.snd).map some =
      passes.map fun bound => bound.head?.map Prod.snd := by
  induction passes with
  | nil => rfl
  | cons bound passes induction =>
      have others := induction fun other member => aligned other (List.mem_cons_of_mem _ member)
      cases bound with
      | nil => cases aligned [] List.mem_cons_self
      | cons pair bound => exact congrArg (some pair.2 :: ·) others

theorem names_tail {name : String} {names : List String} {passes : List (Named (Value α))}
    (aligned : ∀ bound ∈ passes, Named.names bound = name :: names) :
    ∀ bound ∈ passes.map List.tail, Named.names bound = names := by
  intro bound member
  rcases List.mem_map.mp member with ⟨whole, among, rfl⟩
  rw [Named.names, List.map_tail, ← Named.names, aligned whole among, List.tail_cons]

end Way

namespace Assignment

variable {assignment : Assignment α}

theorem count?_eq {names : List String} (binds : names ≠ []) {count : Nat}
    (lengths : ∀ name ∈ names, assignment.length? name = some count) :
    assignment.count? names = some count := by
  cases names with
  | nil => exact absurd rfl binds
  | cons name names =>
      rw [count?, lengths name List.mem_cons_self, Option.filter_some, if_pos]
      rw [List.all_eq_true]
      intro other member
      rw [lengths other (List.mem_cons_of_mem _ member), beq_self_eq_true]

variable [BEq α]

def Covers (assignment : Assignment α) (bound : Named (Value α)) : Prop :=
  ∀ pair ∈ bound, ∃ value, assignment pair.1 = some value ∧ value.Same pair.2

theorem Covers.left {bound others : Named (Value α)}
    (covers : assignment.Covers (bound ++ others)) : assignment.Covers bound :=
  fun pair member => covers pair (List.mem_append_left _ member)

theorem Covers.right {bound others : Named (Value α)}
    (covers : assignment.Covers (bound ++ others)) : assignment.Covers others :=
  fun pair member => covers pair (List.mem_append_right _ member)

/-- What covers the gathered passes covers each pass by what it assigns in that pass. -/
theorem Covers.pass {names : List String} {passes : List (Named (Value α))}
    (aligned : ∀ bound ∈ passes, Named.names bound = names)
    (covers : assignment.Covers (Way.gather names passes)) {index : Nat} {bound : Named (Value α)}
    (there : passes[index]? = some bound) : (assignment.pass index).Covers bound := by
  induction names generalizing passes bound with
  | nil =>
      intro pair member
      rw [List.map_eq_nil_iff.mp (aligned bound (List.mem_of_getElem? there))] at member
      cases member
  | cons name names induction =>
      have names_eq := aligned bound (List.mem_of_getElem? there)
      cases bound with
      | nil => cases names_eq
      | cons pair bound =>
          rcases List.cons.inj names_eq with ⟨rfl, -⟩
          have rest : (passes.map List.tail)[index]? = some bound := by
            rw [List.getElem?_map, there]
            rfl
          have ofTail := induction (Way.names_tail aligned)
            (fun other member => covers other (List.mem_cons_of_mem _ member)) rest
          have head := congrArg (·[index]?) (Way.map_some_heads aligned)
          simp only [List.getElem?_map, there, Option.map_some, List.head?_cons,
            Option.map_eq_some_iff, Option.some.injEq, exists_eq_right] at head
          rcases covers _ List.mem_cons_self with ⟨value, assigned, same⟩
          rcases same.exists_items with ⟨items, rfl, related⟩
          rcases exists_getElem?_right related head with ⟨item, found, sameItem⟩
          intro other member
          rcases List.mem_cons.mp member with rfl | later
          · exact ⟨item, by rw [Assignment.pass, assigned]; exact found, sameItem⟩
          · exact ofTail other later

theorem length?_of_gather {names : List String} {passes : List (Named (Value α))}
    (aligned : ∀ bound ∈ passes, Named.names bound = names)
    (covers : assignment.Covers (Way.gather names passes)) {name : String} (member : name ∈ names) :
    assignment.length? name = some passes.length := by
  induction names generalizing passes with
  | nil => cases member
  | cons first names induction =>
      rcases List.mem_cons.mp member with rfl | later
      · have length := congrArg List.length (Way.map_some_heads aligned)
        rw [List.length_map, List.length_map] at length
        rcases covers _ List.mem_cons_self with ⟨value, assigned, same⟩
        rcases same.exists_items with ⟨items, rfl, related⟩
        rw [length?, assigned, ← length, ← related.length_eq]
        rfl
      · have ofTail := induction (Way.names_tail aligned)
          (fun other among => covers other (List.mem_cons_of_mem _ among)) later
        rw [ofTail, List.length_map]

end Assignment

/-! ## What ways account for -/

/-- Between two ways values have been taken and things bound, under these names in this order; and
as soon as the same stands for the names, the rebuilt values are the same as those taken. -/
def Way.Accounts [BEq α] (names : List String) (rebuilt : Assignment α → Option (List (Value α)))
    (way later : Way α) : Prop :=
  ∃ taken own, way.left = taken ++ later.left ∧ later.bound = way.bound ++ own ∧
    Named.names own = names ∧
    ∀ assignment : Assignment α, assignment.Covers own →
      ∃ values, rebuilt assignment = some values ∧ List.Forall₂ Value.Same values taken

namespace Way

variable [BEq α] {names names' : List String}
variable {rebuilt rebuilt' : Assignment α → Option (List (Value α))}

theorem Accounts.refl (way : Way α) : Accounts [] (fun _ => some []) way way :=
  ⟨[], [], rfl, (List.append_nil _).symm, rfl, fun _ _ => ⟨[], rfl, .nil⟩⟩

theorem Accounts.trans {way middle later : Way α} (first : Accounts names rebuilt way middle)
    (second : Accounts names' rebuilt' middle later) :
    Accounts (names ++ names')
      (fun assignment => do
        let values ← rebuilt assignment
        let others ← rebuilt' assignment
        some (values ++ others)) way later := by
  rcases first with ⟨taken, own, left, bound, rfl, values⟩
  rcases second with ⟨taken', own', left', bound', rfl, values'⟩
  refine ⟨taken ++ taken', own ++ own', ?_, ?_, List.map_append, ?_⟩
  · rw [left, left', List.append_assoc]
  · rw [bound', bound, List.append_assoc]
  · intro assignment covers
    rcases values assignment covers.left with ⟨here, found, same⟩
    rcases values' assignment covers.right with ⟨there, found', same'⟩
    refine ⟨here ++ there, ?_, List.rel_append same same'⟩
    simp only [found, found', Option.bind_eq_bind, Option.bind_some]

/-- Each pass accounts for its values by what is assigned in that pass. -/
theorem accounts_passes {unit : Way α → List (Way α)}
    (ofUnit : ∀ way, ∀ later ∈ unit way, Accounts names rebuilt way later) {count : Nat}
    {values left : List (Value α)} {bounds : List (Named (Value α))}
    (member : (bounds, left) ∈ passes unit count values) :
    bounds.length = count ∧ (∀ bound ∈ bounds, Named.names bound = names) ∧
      ∃ taken, values = taken ++ left ∧ ∀ assignments : Nat → Assignment α,
        (∀ index bound, bounds[index]? = some bound → (assignments index).Covers bound) →
        ∃ parts, Pattern.rebuildPasses (fun index => rebuilt (assignments index)) count =
            some parts ∧
          List.Forall₂ Value.Same parts taken := by
  induction count generalizing values bounds with
  | zero =>
      cases List.mem_singleton.mp member
      exact ⟨rfl, fun _ => (nomatch ·), [], rfl, fun _ _ => ⟨[], rfl, .nil⟩⟩
  | succ count induction =>
      rcases List.mem_flatMap.mp member with ⟨way, among, rest⟩
      rcases List.mem_map.mp rest with ⟨⟨others, last⟩, inside, equal⟩
      cases equal
      rcases ofUnit _ way among with ⟨taken, own, consumed, bound, aligned, values⟩
      rcases induction inside with ⟨length, alignedOthers, takenLater, consumedLater, later⟩
      rw [List.nil_append] at bound
      subst bound
      refine ⟨congrArg (· + 1) length, ?_, taken ++ takenLater, ?_, ?_⟩
      · exact List.forall_mem_cons.mpr ⟨aligned, alignedOthers⟩
      · rw [List.append_assoc, ← consumedLater]
        exact consumed
      · intro assignments covers
        rcases values (assignments 0) (covers 0 _ rfl) with ⟨first, found, same⟩
        rcases later (fun index => assignments (index + 1))
          fun index bound there => covers (index + 1) bound there with ⟨parts, found', same'⟩
        refine ⟨first ++ parts, ?_, List.rel_append same same'⟩
        rw [Pattern.rebuildPasses, found, found']
        rfl

/-- A repetition accounts for its values by what its names are assigned in each pass. -/
theorem accounts_repeated {unit : Way α → List (Way α)}
    (ofUnit : ∀ way, ∀ later ∈ unit way, Accounts names rebuilt way later) (binds : names ≠ [])
    {count : Nat} {way later : Way α} (member : later ∈ repeated names unit way count) :
    Accounts names
      (fun assignment => do
        let count ← assignment.count? names
        Pattern.rebuildPasses (fun index => rebuilt (assignment.pass index)) count) way later := by
  rcases List.mem_map.mp member with ⟨⟨bounds, left⟩, inside, rfl⟩
  rcases accounts_passes ofUnit inside with ⟨length, aligned, taken, consumed, values⟩
  refine ⟨taken, gather names bounds, consumed, rfl, names_gather names bounds, ?_⟩
  intro assignment covers
  have count? := Assignment.count?_eq binds fun name => Assignment.length?_of_gather aligned covers
  rcases values assignment.pass
    fun index bound there => covers.pass aligned there with ⟨parts, found, same⟩
  refine ⟨parts, ?_, same⟩
  simp only [count?, length, found, Option.bind_eq_bind, Option.bind_some]

end Way

namespace Pattern

variable [BEq α] (greed : Greed)

theorem accounts_literal {expected : Value α} {way later : Way α}
    (member : later ∈ (literal expected).unitWays .standard greed way) :
    Way.Accounts [] (literal expected).rebuild way later := by
  rcases Way.exists_of_mem_single member with ⟨value, taken, among⟩
  rcases List.mem_ite_nil_right.mp among with ⟨equal, same⟩
  refine ⟨[value], [], taken, ?_, rfl, fun assignment _ => ⟨[expected], rfl, ?_⟩⟩
  · rw [List.append_nil]
    exact List.mem_singleton.mp same
  · exact .cons (.equal equal) .nil

theorem accounts_bind {name : String} {way later : Way α}
    (member : later ∈ (bind name).unitWays .standard greed way) :
    Way.Accounts [name] (bind name).rebuild way later := by
  rcases Way.exists_of_mem_single member with ⟨value, taken, among⟩
  refine ⟨[value], [(name, value)], taken, List.mem_singleton.mp among, rfl, ?_⟩
  intro assignment covers
  rcases covers _ List.mem_cons_self with ⟨assigned, found, same⟩
  exact ⟨[assigned], congrArg (Option.map fun value => [value]) found, .cons same .nil⟩

theorem accounts_list {items : List (Pattern α)}
    (ofItems : ∀ way, ∀ later ∈ rowWays .standard greed items way,
      Way.Accounts (items.flatMap boundNames) (rebuildRow items) way later)
    {way later : Way α} (member : later ∈ (list items).unitWays .standard greed way) :
    Way.Accounts (items.flatMap boundNames) (list items).rebuild way later := by
  rcases Way.exists_of_mem_single member with ⟨value, taken, among⟩
  have decomposed : Registry.standard.decompose (.named listShape) value = .ok value.items? := rfl
  rw [list, itemWays, decomposed] at among
  cases value with
  | list parts =>
      rcases List.mem_map.mp among with ⟨last, ends, bound⟩
      rcases List.mem_filter.mp ends with ⟨inside, empty⟩
      rcases ofItems _ last inside with ⟨consumed, own, left, found, names, values⟩
      rw [List.isEmpty_iff.mp empty, List.append_nil] at left
      subst left
      refine ⟨[.list parts], own, taken, bound.symm.trans found, names, ?_⟩
      intro assignment covers
      rcases values assignment covers with ⟨rebuilt, row, same⟩
      refine ⟨[.list rebuilt], ?_, .cons (.list same) .nil⟩
      rw [list, rebuild, row]
      rfl
  | _ => cases among

theorem rowWays_transparent {item : Pattern α} (transparent : item.isTransparent = true)
    {items : List (Pattern α)} (leads : repetitionLeads items = false) (way : Way α) :
    rowWays .standard greed (item :: items) way =
      (item.unitWays .standard greed way).flatMap (rowWays .standard greed items) := by
  apply rowWays_unit .standard greed _ leads
  cases item with
  | condition accepts => cases transparent
  | _ => rfl

/-- A transparent pattern accounts for everything that it takes. -/
theorem transparent_accounts : Inductive (α := α)
    (fun pattern => pattern.isTransparent = true →
      ∀ way, ∀ later ∈ pattern.unitWays .standard greed way,
        Way.Accounts pattern.boundNames pattern.rebuild way later)
    (fun items => areTransparent items = true →
      ∀ way, ∀ later ∈ rowWays .standard greed items way,
        Way.Accounts (items.flatMap boundNames) (rebuildRow items) way later) where
  whole pattern ofParts ofRow transparent way later member := by
    rw [boundNames_eq]
    cases pattern with
    | literal expected => exact accounts_literal greed member
    | bind name => exact accounts_bind greed member
    | deconstruct shape items =>
        cases shape with
        | named name =>
            rcases (Bool.and_eq_true _ _).mp transparent with ⟨isList, items⟩
            cases eq_of_beq isList
            exact accounts_list greed (ofRow items) member
        | _ => cases transparent
    | sequence items => exact ofRow transparent way later member
    | repetition minimum order =>
        rcases Way.exists_of_mem_single member with ⟨value, taken, among⟩
        cases among
    | _ => cases transparent
  nil transparent way later member := by
    cases List.mem_singleton.mp member
    exact .refl way
  repeated unit minimum order items ofUnit ofItems transparent way later member := by
    simp only [areTransparent, Bool.and_eq_true] at transparent
    rcases transparent with ⟨⟨binds, ofUnit'⟩, ofItems'⟩
    rcases List.mem_flatMap.mp member with ⟨count, -, among⟩
    rcases List.mem_flatMap.mp among with ⟨middle, passed, rest⟩
    have first := Way.accounts_repeated (ofUnit ofUnit') (by simpa using binds) passed
    convert first.trans (ofItems ofItems' middle later rest) using 1
    · rfl
    · funext assignment
      simp only [rebuildRow, Option.bind_eq_bind, Option.bind_assoc]
  plain item items leads ofItem ofItems transparent way later member := by
    rw [areTransparent_plain leads, Bool.and_eq_true] at transparent
    rw [rowWays_transparent greed transparent.1 leads] at member
    rcases List.mem_flatMap.mp member with ⟨middle, first, rest⟩
    have onward := (ofItem transparent.1 way middle first).trans
      (ofItems transparent.2 middle later rest)
    rwa [← funext (rebuildRow_plain leads)] at onward

end Pattern

namespace Matcher

/-- The first occurrences cover everything, if the others agree with them. -/
theorem covers_firsts [BEq α] {bound : Named (Value α)} (agree : Named.agree bound = true) :
    Assignment.Covers (Bindings.get? ⟨Named.firsts bound⟩) bound := by
  intro pair member
  have present : pair.1 ∈ Named.names (Named.firsts bound) :=
    Named.mem_names_firsts.mpr (List.mem_map_of_mem member)
  rcases List.mem_map.mp present with ⟨first, firstIn, name⟩
  have exists_first : ((Named.firsts bound).find? fun field => field.1 == pair.1).isSome :=
    List.find?_isSome.mpr ⟨first, firstIn, beq_iff_eq.mpr name⟩
  rcases Option.isSome_iff_exists.mp exists_first with ⟨chosen, found⟩
  have chosenIn := List.mem_of_find?_eq_some found
  have sameName : chosen.1 = pair.1 := by simpa using List.find?_some found
  refine ⟨chosen.2, ?_, ?_⟩
  · rw [Bindings.get?, Value.fieldOf?, found]
    rfl
  · have under : pair.2 ∈ Named.under chosen.1 bound :=
      List.mem_filterMap.mpr ⟨pair, member, if_pos sameName.symm⟩
    have agreeing := List.all_eq_true.mp agree chosen chosenIn
    rcases Named.under_of_mem_firsts chosenIn with ⟨others, equal⟩
    rw [equal] at under agreeing
    rcases List.mem_cons.mp under with same | later
    · exact same ▸ .refl _
    · exact .equal (List.all_eq_true.mp agreeing _ later)

/-- A match of a transparent pattern loses nothing: putting the bound values back gives the
value. -/
theorem rebuild_eq_of_matches [BEq α] {pattern : Pattern α}
    (transparent : pattern.isTransparent = true) {options : Options} {matcher : Matcher α}
    (compiled : compile pattern .standard options = .ok matcher) {value : Value α}
    {bindings : Bindings α} (matched : matcher.matches? value = some bindings) :
    ∃ rebuilt, pattern.rebuild bindings.get? = some [rebuilt] ∧ rebuilt.Same value ∧
      ((value == value) = true → (rebuilt == value) = true) := by
  rw [matches?, (compiled_of_compile compiled).bindingsOf_search] at matched
  rcases List.mem_map.mp (List.mem_of_find?_eq_some matched) with ⟨bound, found, rfl⟩
  rcases List.mem_filter.mp found with ⟨complete, agree⟩
  rcases List.mem_map.mp complete with ⟨last, ends, rfl⟩
  rcases List.mem_filter.mp ends with ⟨inside, empty⟩
  rw [Pattern.rowWays_transparent _ transparent rfl] at inside
  rcases List.mem_flatMap.mp inside with ⟨middle, among, stays⟩
  cases List.mem_singleton.mp stays
  rcases (Pattern.transparent_accounts options.defaultGreed).item pattern transparent _ last among
      with ⟨taken, own, left, boundBy, -, values⟩
  rw [List.isEmpty_iff.mp empty, List.append_nil] at left
  cases left
  obtain rfl : last.bound = own := boundBy
  rcases values _ (covers_firsts agree) with ⟨rebuilt, found, same⟩
  cases same with
  | cons same rest =>
      cases rest
      exact ⟨_, found, same, same.equals⟩

theorem nested_passes_rebuilt : ∃ (matcher : Matcher Nat) (bindings : Bindings Nat),
    compile (.list [.sequence [.bind "key", .list [.bind "value", .repetition 0 none]],
        .repetition 1 (some .lazy), .literal (.symbol "in"),
        .list [.bind "key", .repetition 0 none]])
      .standard {} = .ok matcher ∧
    matcher.matches? (.list [.symbol "a", .list [.int 1, .int 2], .symbol "b", .list [],
      .symbol "in", .list [.symbol "a", .symbol "b"]]) = some bindings ∧
    ∃ rebuilt, Pattern.rebuild
        (.list [.sequence [.bind "key", .list [.bind "value", .repetition 0 none]],
          .repetition 1 (some .lazy), .literal (.symbol "in"),
          .list [.bind "key", .repetition 0 none]]) bindings.get? = some [rebuilt] ∧
      (rebuilt == .list [.symbol "a", .list [.int 1, .int 2], .symbol "b", .list [],
        .symbol "in", .list [.symbol "a", .symbol "b"]]) = true := by
  obtain ⟨matcher, compiled⟩ : ∃ matcher : Matcher Nat,
      compile (.list [.sequence [.bind "key", .list [.bind "value", .repetition 0 none]],
          .repetition 1 (some .lazy), .literal (.symbol "in"),
          .list [.bind "key", .repetition 0 none]])
        .standard {} = .ok matcher := ⟨_, rfl⟩
  obtain ⟨bindings, matched⟩ : ∃ bindings,
      matcher.matches? (.list [.symbol "a", .list [.int 1, .int 2], .symbol "b", .list [],
        .symbol "in", .list [.symbol "a", .symbol "b"]]) = some bindings := by
    rw [matches?, (compiled_of_compile compiled).bindingsOf_search]
    exact ⟨_, rfl⟩
  rcases rebuild_eq_of_matches rfl compiled matched with ⟨rebuilt, found, -, equal⟩
  exact ⟨matcher, bindings, compiled, matched, rebuilt, found, equal rfl⟩

end Matcher

end Destructure
