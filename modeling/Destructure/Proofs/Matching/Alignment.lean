import Destructure.Proofs.Matching.Courses

/-!
The lists that variables have recorded after a match. Their shape is that of the course of the
match: one level for each repetition around the variable, and on each level an element for each
pass. So variables below the same repetitions record lists of the same shape.
-/

namespace Destructure

variable {α : Type}

open Outline (Binder binders bindersOfRow leadingRepetition? surrounding?)

/-! ## Shapes -/

namespace Entry

def HasDepth : Nat → Entry α → Prop
  | 0, scalar _ => True
  | levels + 1, repetitions entries => ∀ entry ∈ entries, HasDepth levels entry
  | _, _ => False

def Aligned : Nat → Entry α → Entry α → Prop
  | 0, _, _ => True
  | levels + 1, repetitions entries, repetitions others =>
    List.Forall₂ (Aligned levels) entries others
  | _, _, _ => False

end Entry

namespace Course

/-- One level for each of the repetitions, outermost first, with an element for each pass. -/
def Shapes : List Nat → Course → Entry α → Prop
  | [], _, .scalar _ => True
  | repetition :: inner, course, .repetitions latestFirst =>
    ∃ passes, course.passes? repetition = some passes ∧
      List.Forall₂ (Shapes inner) passes latestFirst.reverse
  | _, _, _ => False

variable {course : Course} {entry entry' : Entry α} {repetitions : List Nat}

theorem Shapes.hasDepth (shapes : Shapes repetitions course entry) :
    entry.HasDepth repetitions.length := by
  induction repetitions generalizing course entry with
  | nil =>
      cases entry with
      | scalar value => trivial
      | repetitions entries => cases shapes
  | cons repetition inner induction =>
      cases entry with
      | scalar value => cases shapes
      | repetitions entries =>
          rcases shapes with ⟨passes, -, related⟩
          intro entry member
          rcases exists_of_mem_right related (List.mem_reverse.mpr member) with ⟨pass, -, shapes⟩
          exact induction shapes

/-- Entries of one course are aligned as far as the repetitions around them are the same. -/
theorem Shapes.aligned {inner inner' : List Nat}
    (shapes : Shapes (repetitions ++ inner) course entry)
    (shapes' : Shapes (repetitions ++ inner') course entry') :
    entry.Aligned repetitions.length entry' := by
  induction repetitions generalizing course entry entry' with
  | nil => cases entry <;> trivial
  | cons repetition outer induction =>
      cases entry with
      | scalar value => cases shapes
      | repetitions entries =>
          cases entry' with
          | scalar value => cases shapes'
          | repetitions entries' =>
              rcases shapes with ⟨passes, found, related⟩
              rcases shapes' with ⟨passes', found', related'⟩
              cases found.symm.trans found'
              have below : ∀ first second : Entry α, (∃ pass, Shapes (outer ++ inner) pass first ∧
                  Shapes (outer ++ inner') pass second) →
                    Entry.Aligned outer.length first second := by
                rintro first second ⟨pass, here, here'⟩
                exact induction here here'
              exact List.forall₂_reverse_iff.mp ((forall₂_of_common related related').imp below)

theorem straight_append (course : Course) : straight.append course = course := by
  cases course
  rfl

theorem Shapes.append_left (shapes : Shapes repetitions course entry) (later : Course) :
    Shapes repetitions (course.append later) entry := by
  cases repetitions with
  | nil => cases entry <;> exact shapes
  | cons repetition inner =>
      cases entry with
      | scalar value => cases shapes
      | repetitions entries =>
          rcases shapes with ⟨passes, found, related⟩
          refine ⟨passes, ?_, related⟩
          rw [passes?, append, List.lookup_append, ← passes?, found, Option.some_or]

theorem Shapes.append_right (shapes : Shapes repetitions course entry) {earlier : Course}
    (apart : ∀ passes ∈ earlier.repeated, passes.1 ∉ repetitions) :
    Shapes repetitions (earlier.append course) entry := by
  cases repetitions with
  | nil => cases entry <;> exact shapes
  | cons repetition inner =>
      cases entry with
      | scalar value => cases shapes
      | repetitions entries =>
          rcases shapes with ⟨passes, found, related⟩
          refine ⟨passes, ?_, related⟩
          have absent : earlier.repeated.lookup repetition = none := by
            rw [List.lookup_eq_none_iff]
            intro pair member
            rw [bne_iff_ne]
            rintro rfl
            exact apart pair member List.mem_cons_self
          rw [passes?, append, List.lookup_append, absent, Option.none_or]
          exact found

end Course

/-! ## Records -/

def Fills (course : Course) (binder : Binder) (deposit : Deposit α) : Prop :=
  deposit.place = (binder.name, binder.id) ∧ course.Shapes binder.repetitions deposit.entry

/-- From some contents to later ones each variable has recorded an entry of the shape of the
course, which has only made repetitions with these numbers. -/
def Traced (depth : Nat) (own : List Binder) (ids : List Nat) (course : Course)
    (contents later : Contents α) : Prop :=
  (∀ passes ∈ course.repeated, passes.1 ∈ ids) ∧ ∃ deposits : List (Deposit α),
    List.Forall₂ (Fills course) own deposits ∧ later = contents.deposit depth deposits

section

variable {depth : Nat} {own others : List Binder} {ids ids' : List Nat}
variable {course course' : Course} {contents later final : Contents α}

theorem Traced.refl (depth : Nat) (ids : List Nat) (contents : Contents α) :
    Traced depth [] ids .straight contents contents :=
  ⟨List.forall_mem_nil _, [], .nil, rfl⟩

theorem Traced.put (depth : Nat) (ids : List Nat) (name : String) (id : Nat) (value : Value α)
    (contents : Contents α) :
    Traced depth [⟨id, name, []⟩] ids .straight contents (contents.put id depth (.scalar value)) :=
  ⟨List.forall_mem_nil _, [⟨name, id, .scalar value⟩], .cons ⟨rfl, trivial⟩ .nil, rfl⟩

theorem Traced.widen (traced : Traced depth own ids course contents later) (subset : ids ⊆ ids') :
    Traced depth own ids' course contents later :=
  ⟨fun passes member => subset (traced.1 passes member), traced.2⟩

theorem Traced.trans (traced : Traced depth own ids course contents later)
    (traced' : Traced depth others ids' course' later final)
    (inside : ∀ binder ∈ others, ∀ repetition ∈ binder.repetitions, repetition ∈ ids')
    (apart : List.Disjoint ids ids') :
    Traced depth (own ++ others) (ids ++ ids') (course.append course') contents final := by
  rcases traced with ⟨keys, deposits, fills, rfl⟩
  rcases traced' with ⟨keys', deposits', fills', rfl⟩
  refine ⟨?_, deposits ++ deposits', ?_, ?_⟩
  · intro passes member
    rcases List.mem_append.mp member with here | there
    · exact List.mem_append_left _ (keys passes here)
    · exact List.mem_append_right _ (keys' passes there)
  · apply List.rel_append
    · exact fills.imp fun binder deposit fills => ⟨fills.1, fills.2.append_left course'⟩
    · apply forall₂_imp_of_mem fills'
      intro binder member deposit fills
      refine ⟨fills.1, fills.2.append_right fun passes earlier among => ?_⟩
      exact apart (keys passes earlier) (inside binder member _ among)
  · rw [Contents.deposit_append]

/-! ## Repetitions -/

def Outline.Binder.below (repetition : Nat) (binder : Binder) : Binder :=
  { binder with repetitions := repetition :: binder.repetitions }

theorem place_of_fills {deposits : List (Deposit α)}
    (fills : List.Forall₂ (Fills course) own deposits) :
    deposits.map Deposit.place = own.map fun binder => (binder.name, binder.id) := by
  induction fills with
  | nil => rfl
  | cons fills _ induction => rw [List.map_cons, List.map_cons, fills.1, induction]

/-- What passes have recorded for one variable has the shapes of their courses. -/
theorem shapes_of_heads {binder : Binder} {courses : List Course}
    {passes : List (List (Deposit α))}
    (fills : List.Forall₂ (fun course pass => List.Forall₂ (Fills course) (binder :: own) pass)
      courses passes) :
    List.Forall₂ (Course.Shapes binder.repetitions) courses
        (passes.filterMap fun pass => pass.head?.map Deposit.entry) ∧
      List.Forall₂ (fun course pass => List.Forall₂ (Fills course) own pass) courses
        (passes.map List.tail) := by
  induction fills with
  | nil => exact ⟨.nil, .nil⟩
  | cons pass _ induction =>
      cases pass with
      | cons first rest => exact ⟨.cons first.2 induction.1, .cons rest induction.2⟩

/-- The lists that passes leave have the shape of the course that consists of them. -/
theorem fills_collect (repetition : Nat) {courses : List Course}
    {passes : List (List (Deposit α))}
    (fills : List.Forall₂ (fun course pass => List.Forall₂ (Fills course) own pass) courses
      passes) :
    List.Forall₂ (Fills (.ofPasses repetition courses)) (own.map (Binder.below repetition))
      (Deposit.collect (own.map fun binder => (binder.name, binder.id)) passes.reverse) := by
  induction own generalizing passes with
  | nil => exact .nil
  | cons binder own induction =>
      rcases shapes_of_heads fills with ⟨heads, tails⟩
      have others := induction tails
      rw [← List.map_reverse] at others
      refine .cons ⟨rfl, courses, ?_, ?_⟩ others
      · rw [Course.passes?, Course.ofPasses, List.lookup_cons_self]
      · rwa [List.filterMap_reverse, List.reverse_reverse]

/-- Each pass records the latest elements of the lists, in the shape of its own course. -/
theorem traced_passing {unit : List (Value α) → Contents α → List (Course × Place α)}
    (distinct : (own.map Binder.id).Nodup)
    (ofUnit : ∀ values contents, ∀ offered ∈ unit values contents,
      Traced (depth + 1) own ids offered.1 contents offered.2.contents)
    {count : Nat} {values : List (Value α)} {earlier : List (List (Deposit α))}
    {offered : List Course × Place α}
    (member : offered ∈ Course.passing unit count values (contents.deposit depth
      (Deposit.collect (own.map fun binder => (binder.name, binder.id)) earlier))) :
    ∃ passes, List.Forall₂ (fun course pass => List.Forall₂ (Fills course) own pass) offered.1
        passes ∧
      offered.2.contents = contents.deposit depth
        (Deposit.collect (own.map fun binder => (binder.name, binder.id))
          (passes.reverse ++ earlier)) := by
  induction count generalizing values earlier offered with
  | zero =>
      cases List.mem_singleton.mp member
      exact ⟨[], .nil, rfl⟩
  | succ count induction =>
      rcases List.mem_flatMap.mp member with ⟨⟨course, place⟩, among, rest⟩
      rcases List.mem_map.mp rest with ⟨⟨others, final⟩, inside, rfl⟩
      rcases ofUnit _ _ _ among with ⟨-, pass, fills, here⟩
      have ids : ((own.map fun binder => (binder.name, binder.id)).map Prod.snd).Nodup := by
        rwa [List.map_map]
      rw [here, Contents.deposit_collect _ _ ids earlier (place_of_fills fills)] at inside
      rcases induction inside with ⟨passes, later, equal⟩
      refine ⟨pass :: passes, .cons fills later, ?_⟩
      rw [equal, List.reverse_cons, List.append_assoc]
      rfl

end

/-! ## Items and rows -/

def NodeKind.recordsParts : NodeKind α → Bool
  | deconstruct _ | keyed _ _ | sequence | and => true
  | _ => false

namespace Outline

structure Tidy (nodes : List (Outline α)) : Prop where
  distinct : (nodes.map Outline.id).Nodup
  silent : ∀ node ∈ nodes, node.kind.recordsParts = false → node.children.flatMap places = []

variable {nodes others : List (Outline α)}

theorem Tidy.left (tidy : Tidy (nodes ++ others)) : Tidy nodes where
  distinct := by
    have distinct := tidy.distinct
    rw [List.map_append] at distinct
    exact distinct.of_append_left
  silent node member := tidy.silent node (List.mem_append_left _ member)

theorem Tidy.right (tidy : Tidy (nodes ++ others)) : Tidy others where
  distinct := by
    have distinct := tidy.distinct
    rw [List.map_append] at distinct
    exact distinct.of_append_right
  silent node member := tidy.silent node (List.mem_append_right _ member)

theorem Tidy.disjoint (tidy : Tidy (nodes ++ others)) :
    List.Disjoint (nodes.map Outline.id) (others.map Outline.id) := by
  have distinct := tidy.distinct
  rw [List.map_append] at distinct
  exact List.disjoint_of_nodup_append distinct

theorem Tidy.of_cons {node : Outline α} (tidy : Tidy (node :: nodes)) : Tidy nodes :=
  @Tidy.right α [node] nodes tidy

theorem Tidy.places_eq_nil (tidy : Tidy nodes) {node : Outline α} (member : node ∈ nodes)
    (records : node.kind.recordsParts = false) (binds : node.kind.boundName? = none) :
    node.places = [] := by
  have silent := tidy.silent node member records
  rcases node with ⟨id, kind, children⟩
  rw [places_node, place?, binds, Option.map_none]
  exact silent

theorem binders_eq_nil {outline : Outline α} (unbound : outline.places = [])
    (repetitions : List Nat) : binders repetitions outline = [] :=
  List.map_eq_nil_iff.mp ((places_of_binders.item outline repetitions).trans unbound)

theorem bindersOfRow_eq_nil {outlines : List (Outline α)} (unbound : outlines.flatMap places = [])
    (ordered : Bool) (repetitions : List Nat) : bindersOfRow ordered repetitions outlines = [] :=
  List.map_eq_nil_iff.mp ((places_of_binders.row outlines ordered repetitions).trans unbound)

/-- What stands around an outline stands around each of its binders. -/
theorem binders_around : Compositional (α := α)
    (fun outline => ∀ repetitions, binders repetitions outline =
      (binders [] outline).map fun binder =>
        { binder with repetitions := repetitions ++ binder.repetitions })
    (fun outlines => ∀ ordered repetitions, bindersOfRow ordered repetitions outlines =
      (bindersOfRow ordered [] outlines).map fun binder =>
        { binder with repetitions := repetitions ++ binder.repetitions }) where
  node id kind children ofChildren repetitions := by
    rw [binders_node, binders_node, ofChildren, List.map_append, List.map_map]
    congr 2
    funext place
    rw [Function.comp_apply, List.append_nil]
  nil ordered repetitions := rfl
  cons item items ofItem ofItems ordered repetitions := by
    rw [bindersOfRow_eq, bindersOfRow_eq, ofItem, ofItem ([] ++ _), ofItems, List.map_append,
      List.map_map]
    congr 2
    funext binder
    simp

theorem repetitions_subset {ordered : Bool} {outlines : List (Outline α)} :
    ∀ binder ∈ bindersOfRow ordered [] outlines, ∀ repetition ∈ binder.repetitions,
      repetition ∈ (outlines.flatMap preorder).map id := by
  intro binder member repetition among
  rcases of_mem_binders.row outlines ordered [] binder member with ⟨-, inner, equal, inside⟩
  exact List.mem_of_mem_tail (inside repetition (by rwa [equal] at among))

end Outline

namespace Matcher

def TracesItem [BEq α] (matcher : Matcher α) (registry : Registry α) (item : Outline α) : Prop :=
  ∀ depth contents, matcher.Fits registry depth item → Outline.Tidy item.preorder →
    (∀ value, ∀ offered ∈ matcher.itemCourses item value contents,
      Traced depth (binders [] item) (item.preorder.map Outline.id) offered.1 contents offered.2) ∧
    (item.kind.isSequence → ∀ values, ∀ offered ∈ matcher.partCourses item values contents,
      Traced depth (binders [] item) (item.preorder.map Outline.id) offered.1 contents
        offered.2.contents)

def TracesRow [BEq α] (matcher : Matcher α) (registry : Registry α) (items : List (Outline α)) :
    Prop :=
  ∀ depth contents values, matcher.FitsRow registry depth true items →
    Outline.Tidy (items.flatMap Outline.preorder) →
    ∀ offered ∈ matcher.rowCourses items values contents,
      Traced depth (bindersOfRow true [] items) ((items.flatMap Outline.preorder).map Outline.id)
        offered.1 contents offered.2.contents

section

variable [BEq α] {matcher : Matcher α} {registry : Registry α}

/-- The items behind what has been matched record in turn. -/
theorem traced_andThen {items : List (Outline α)} (ofItems : matcher.TracesRow registry items)
    {depth : Nat} (fits : matcher.FitsRow registry depth true items) {nodes : List (Outline α)}
    (tidy : Outline.Tidy (nodes ++ items.flatMap Outline.preorder)) {own : List Binder}
    {contents : Contents α} {courses : List (Course × Place α)}
    (first : ∀ offered ∈ courses,
      Traced depth own (nodes.map Outline.id) offered.1 contents offered.2.contents) :
    ∀ offered ∈ Course.andThen courses
        (fun place => matcher.rowCourses items place.left place.contents),
      Traced depth (own ++ bindersOfRow true [] items)
        ((nodes ++ items.flatMap Outline.preorder).map Outline.id) offered.1 contents
        offered.2.contents := by
  intro offered member
  rcases List.mem_flatMap.mp member with ⟨⟨course, place⟩, among, rest⟩
  rcases List.mem_map.mp rest with ⟨⟨later, final⟩, inside, rfl⟩
  rw [List.map_append]
  exact (first _ among).trans (ofItems depth _ _ fits tidy.right _ inside)
    Outline.repetitions_subset tidy.disjoint

theorem traced_single {item : Outline α} {depth : Nat} {contents : Contents α} {own : List Binder}
    {ids : List Nat}
    (ofItem : ∀ value, ∀ offered ∈ matcher.itemCourses item value contents,
      Traced depth own ids offered.1 contents offered.2) (values : List (Value α)) :
    ∀ offered ∈ Course.single (matcher.itemCourses item) values contents,
      Traced depth own ids offered.1 contents offered.2.contents := by
  intro offered member
  cases values with
  | nil => cases member
  | cons value left =>
      rcases List.mem_map.mp member with ⟨⟨course, later⟩, among, rfl⟩
      exact ofItem value _ among

/-- A unit records in each pass, and the repetition as a whole in the shape of its passes. -/
theorem traced_repeated {unit : Outline α} (ofUnit : matcher.TracesItem registry unit)
    {repetition depth : Nat}
    (opens : matcher.openers.getD repetition [] =
      unit.places.map fun place => (place.2, depth))
    (fits : matcher.Fits registry (depth + 1) unit) (tidy : Outline.Tidy unit.preorder)
    (counts : List Nat) (values : List (Value α)) (contents : Contents α) :
    ∀ offered ∈ (counts.flatMap fun count => Course.passing
        (if unit.kind.isSequence then matcher.partCourses unit
          else Course.single (matcher.itemCourses unit)) count values
        (matcher.openContents repetition contents)).map
        (fun offered => (Course.ofPasses repetition offered.1, offered.2)),
      Traced depth ((binders [] unit).map (Binder.below repetition)) [repetition] offered.1 contents
        offered.2.contents := by
  have traced : ∀ values contents, ∀ offered ∈ (if unit.kind.isSequence then
        matcher.partCourses unit else Course.single (matcher.itemCourses unit)) values contents,
      Traced (depth + 1) (binders [] unit) (unit.preorder.map Outline.id) offered.1 contents
        offered.2.contents := by
    intro values contents
    rcases ofUnit (depth + 1) contents fits tidy with ⟨single, parts⟩
    cases sequence : unit.kind.isSequence with
    | true => exact parts sequence values
    | false => exact traced_single single values
  have places := Outline.places_of_binders.item unit []
  have distinct : ((binders [] unit).map Binder.id).Nodup := by
    have nodup : (unit.places.map Prod.snd).Nodup := Outline.nodup_ids_places tidy.distinct
    rwa [← places, List.map_map] at nodup
  intro offered member
  rcases List.mem_map.mp member with ⟨⟨courses, place⟩, among, rfl⟩
  rcases List.mem_flatMap.mp among with ⟨count, -, passed⟩
  rw [openContents_eq opens, ← places] at passed
  rcases traced_passing distinct traced passed with ⟨passes, fills, recorded⟩
  rw [List.append_nil] at recorded
  refine ⟨?_, _, fills_collect repetition fills, recorded⟩
  intro pair single
  cases List.mem_singleton.mp single
  exact List.mem_singleton_self repetition

theorem tracesRow_repeated {unit : Outline α} (repetition minimum : Nat) (greed : Greed)
    (parts : List (Outline α)) {items : List (Outline α)}
    (ofUnit : matcher.TracesItem registry unit) (ofItems : matcher.TracesRow registry items) :
    matcher.TracesRow registry
      (unit :: .node repetition (.repetition minimum greed) parts :: items) := by
  intro depth contents values fits tidy offered member
  rcases fits with ⟨⟨opens, fitsUnit⟩, -, fitsItems⟩
  have nodes : (unit :: .node repetition (.repetition minimum greed) parts :: items).flatMap
        Outline.preorder =
      (unit.preorder ++ (Outline.node repetition (.repetition minimum greed) parts).preorder) ++
        items.flatMap Outline.preorder := by
    rw [List.flatMap_cons, List.flatMap_cons, List.append_assoc]
  rw [nodes] at tidy ⊢
  have silent : (Outline.node repetition (.repetition minimum greed) parts).places = [] :=
    tidy.left.right.places_eq_nil (Outline.mem_preorder _) rfl rfl
  have own : bindersOfRow true []
        (unit :: .node repetition (.repetition minimum greed) parts :: items) =
      (binders [] unit).map (Binder.below repetition) ++ bindersOfRow true [] items := by
    have around : surrounding? true
        (.node repetition (.repetition minimum greed) parts :: items) = some repetition := rfl
    rw [Outline.bindersOfRow_eq, Outline.bindersOfRow_eq, around, Outline.binders_eq_nil silent,
      Outline.binders_around.item unit]
    rfl
  rw [own]
  apply traced_andThen ofItems fitsItems tidy _ offered member
  intro first among
  apply (traced_repeated ofUnit opens fitsUnit tidy.left.left _ values contents first among).widen
  intro id here
  cases List.mem_singleton.mp here
  rw [List.map_append]
  exact List.mem_append_right _ List.mem_cons_self

theorem tracesRow_plain {item : Outline α} {items : List (Outline α)}
    (leads : leadingRepetition? items = none) (ofItem : matcher.TracesItem registry item)
    (ofItems : matcher.TracesRow registry items) :
    matcher.TracesRow registry (item :: items) := by
  intro depth contents values fits tidy offered member
  have around : surrounding? true items = none := leads
  rcases fits with ⟨fitsItem, fitsItems⟩
  rw [around] at fitsItem
  rw [List.flatMap_cons] at tidy ⊢
  rw [Outline.bindersOfRow_eq, around]
  rcases ofItem depth contents fitsItem tidy.left with ⟨single, parts⟩
  have onward := traced_andThen ofItems fitsItems tidy (traced_single single values)
  rw [rowCourses_plain matcher leads] at member
  cases kind : item.kind with
  | condition accepts =>
      rw [kind] at member
      have unbound : item.places = [] := tidy.left.places_eq_nil item.mem_preorder
        (by rw [kind]; rfl) (by rw [kind]; rfl)
      have first := (Traced.refl depth (item.preorder.map Outline.id) contents).trans
        (ofItems depth contents values fitsItems tidy.right offered
          (List.mem_ite_nil_right.mp member).2)
        Outline.repetitions_subset tidy.disjoint
      rw [Course.straight_append] at first
      change Traced depth (binders [] item ++ _) _ _ _ _
      rw [Outline.binders_eq_nil unbound, List.map_append]
      exact first
  | repetition minimum greed =>
      rw [kind] at member
      cases member
  | sequence =>
      rw [kind] at member
      exact traced_andThen ofItems fitsItems tidy (parts (by rw [kind]; rfl) values) offered member
  | _ =>
      rw [kind] at member
      exact onward offered member

theorem traced_allCourses {items : List (Outline α)}
    (ofItems : ∀ item ∈ items, matcher.TracesItem registry item) {depth : Nat}
    (fits : matcher.FitsRow registry depth false items)
    (tidy : Outline.Tidy (items.flatMap Outline.preorder)) (value : Value α)
    (contents : Contents α) :
    ∀ offered ∈ matcher.allCourses items value contents,
      Traced depth (bindersOfRow false [] items) ((items.flatMap Outline.preorder).map Outline.id)
        offered.1 contents offered.2 := by
  induction items generalizing contents with
  | nil =>
      intro offered member
      cases List.mem_singleton.mp member
      exact .refl depth _ contents
  | cons item items induction =>
      intro offered member
      rcases fits with ⟨fitsItem, fitsItems⟩
      rw [List.flatMap_cons] at tidy ⊢
      rw [Outline.bindersOfRow_eq, List.map_append]
      rcases List.mem_flatMap.mp member with ⟨⟨course, between⟩, among, rest⟩
      rcases List.mem_map.mp rest with ⟨⟨later, final⟩, inside, rfl⟩
      have first := (ofItems item List.mem_cons_self depth contents fitsItem tidy.left).1 value _
        among
      have others := induction (fun other here => ofItems other (List.mem_cons_of_mem _ here))
        fitsItems tidy.right between _ inside
      exact first.trans others Outline.repetitions_subset tidy.disjoint

theorem tracesItem_node {id : Nat} {kind : NodeKind α} {children : List (Outline α)}
    (ofChildren : ∀ child ∈ children, matcher.TracesItem registry child)
    (ofRow : matcher.TracesRow registry children) :
    matcher.TracesItem registry (.node id kind children) := by
  intro depth contents fits tidy
  rcases fits with ⟨fitsBind, -, fitsChildren⟩
  have silent := tidy.places_eq_nil (Outline.mem_preorder _)
  have silentChildren : kind.recordsParts = false → children.flatMap Outline.places = [] :=
    tidy.silent _ (Outline.mem_preorder _)
  have nothing : kind.recordsParts = false → kind.boundName? = none →
      Traced depth (binders [] (.node id kind children))
        ((Outline.node id kind children).preorder.map Outline.id) .straight contents contents := by
    intro records unbound
    rw [Outline.binders_eq_nil (silent records unbound)]
    exact .refl depth _ contents
  rw [Outline.preorder_node] at tidy
  have parts : kind.boundName? = none → ∀ {course : Course} {later : Contents α},
      Traced depth (bindersOfRow kind.isOrdered [] children)
        ((children.flatMap Outline.preorder).map Outline.id) course contents later →
      Traced depth (binders [] (.node id kind children))
        ((Outline.node id kind children).preorder.map Outline.id) course contents later := by
    intro unbound course later traced
    rw [Outline.binders_node, Outline.preorder_node, Outline.place?, Outline.kind, unbound]
    exact traced.widen (List.subset_cons_self _ _)
  have ends : kind.isOrdered = true → ∀ {values : List (Value α)} {offered : Course × Contents α},
      offered ∈ Course.exhausted (matcher.rowCourses children values contents) →
      Traced depth (bindersOfRow kind.isOrdered [] children)
        ((children.flatMap Outline.preorder).map Outline.id) offered.1 contents offered.2 := by
    intro ordered values offered member
    rw [ordered] at fitsChildren ⊢
    rcases Course.exists_of_mem_exhausted member with ⟨left, among⟩
    exact ofRow depth contents values fitsChildren tidy.of_cons _ among
  refine ⟨fun value offered member => ?_, fun sequence values offered member => ?_⟩
  · cases kind with
    | test test =>
        cases List.mem_singleton.mp (List.mem_ite_nil_right.mp member).2
        exact nothing rfl rfl
    | wildcard =>
        cases List.mem_singleton.mp member
        exact nothing rfl rfl
    | bind name =>
        cases List.mem_singleton.mp member
        rw [fitsBind name rfl, Outline.binders_node,
          Outline.bindersOfRow_eq_nil (silentChildren rfl)]
        exact .put depth _ name id value contents
    | deconstruct shape =>
        rw [itemCourses] at member
        split at member
        · cases member
        · exact parts rfl (ends rfl member)
    | keyed shape keys =>
        rw [itemCourses] at member
        split at member
        · cases member
        · exact parts rfl (ends rfl member)
    | and =>
        exact parts rfl (traced_allCourses ofChildren fitsChildren tidy.of_cons value contents
          offered member)
    | or =>
        cases List.mem_singleton.mp (List.mem_ite_nil_left.mp member).2
        exact nothing rfl rfl
    | not =>
        cases List.mem_singleton.mp (List.mem_ite_nil_right.mp member).2
        exact nothing rfl rfl
    | _ => cases member
  · cases kind with
    | sequence => exact parts rfl (ofRow depth contents values fitsChildren tidy.of_cons _ member)
    | _ => cases sequence

theorem traces_items :
    Outline.Inductive (matcher.TracesItem registry) (matcher.TracesRow registry) where
  node _ _ _ ofChildren ofRow := tracesItem_node ofChildren ofRow
  nil depth contents values _ _ offered member := by
    cases List.mem_singleton.mp member
    exact .refl depth _ contents
  repeated _ repetition minimum greed parts _ ofUnit ofItems :=
    tracesRow_repeated repetition minimum greed parts ofUnit ofItems
  plain _ _ leads ofItem ofItems := tracesRow_plain leads ofItem ofItems

end

/-! ## Whole matches -/

theorem silent_numbers (defaultGreed : Greed) : Pattern.Compositional (α := α)
    (fun pattern => pattern.Orderly → ∀ first,
      ∀ node ∈ (Outline.number defaultGreed pattern first).1.preorder,
        node.kind.recordsParts = false → node.children.flatMap Outline.places = [])
    (fun patterns => (∀ pattern ∈ patterns, pattern.Orderly) → ∀ first,
      ∀ node ∈ (Outline.numberAll defaultGreed patterns first).1.flatMap Outline.preorder,
        node.kind.recordsParts = false → node.children.flatMap Outline.places = []) where
  whole pattern ofParts orderly first node member records := by
    rw [Outline.number_eq, Outline.preorder_node] at member
    rcases List.mem_cons.mp member with rfl | inside
    · have alternative : pattern.isAlternative →
          (Outline.numberAll defaultGreed pattern.parts (first + 1)).1.flatMap Outline.places =
            [] := by
        intro isAlternative
        have unbound := Outline.places_number_eq_nil defaultGreed
          (orderly.wellPlaced.unbound isAlternative) first
        rw [Outline.number_eq, Outline.places_node] at unbound
        exact (List.append_eq_nil_iff.mp unbound).2
      cases pattern with
      | or operands => exact alternative rfl
      | not operands => exact alternative rfl
      | deconstruct _ _ | keyed _ _ | sequence _ | and _ => cases records
      | _ => rfl
    · exact ofParts (fun part among => orderly.parts among) _ node inside records
  nil _ _ _ member := by cases member
  cons item items ofItem ofItems orderly first node member records := by
    rw [Outline.numberAll_cons, List.flatMap_cons] at member
    rcases List.mem_append.mp member with here | later
    · exact ofItem (orderly item List.mem_cons_self) _ node here records
    · exact ofItems (fun other among => orderly other (List.mem_cons_of_mem _ among)) _ node later
        records

section

variable [BEq α] {matcher : Matcher α} {pattern : Pattern α} {registry : Registry α}
variable {options : Options} (compiled : matcher.Compiled pattern registry options)
include compiled

theorem Compiled.tidy : Outline.Tidy matcher.outline.preorder where
  distinct := compiled.nodup_ids
  silent node member records := by
    rw [compiled.outline] at member
    exact (silent_numbers options.defaultGreed).item pattern compiled.orderly 0 node member records

/-- After a course every variable has a record, and the record has the shape of the course. -/
theorem Compiled.exists_record {value : Value α} {course : Course} {contents : Contents α}
    (offered : (course, contents) ∈ matcher.courses value) {binder : Binder}
    (member : binder ∈ binders [] matcher.outline) :
    ∃ record, contents.record? binder.id = some record ∧
      course.Shapes binder.repetitions record := by
  have tidy : Outline.Tidy ([matcher.outline].flatMap Outline.preorder) := by
    rw [List.flatMap_singleton]
    exact compiled.tidy
  rcases Course.exists_of_mem_exhausted offered with ⟨left, among⟩
  rcases traces_items.row [matcher.outline] 0 _ [value]
    ⟨compiled.fits, trivial⟩ tidy _ among with ⟨-, deposits, fills, recorded⟩
  have own : bindersOfRow true [] [matcher.outline] = binders [] matcher.outline :=
    List.append_nil _
  rw [own] at fills
  have covers : deposits.map Deposit.place = matcher.outline.places :=
    (place_of_fills fills).trans (Outline.places_of_binders.item matcher.outline [])
  have records := (compiled.record?_eq (List.append_nil _).symm covers).1
  rw [← recorded] at records
  rcases exists_of_mem_right (List.Forall₂.flip fills) member with ⟨deposit, here, fill⟩
  rcases fill with ⟨place, shapes⟩
  refine ⟨deposit.entry, ?_, shapes⟩
  have id : deposit.id = binder.id := congrArg Prod.snd place
  rw [← id]
  exact records deposit here

end

/-- Repetition lists are aligned. Every variable has a record of as many levels as repetitions stand
around it, with an element on each level for each pass that the accepted match made there; and two
records have the same shape down to the innermost repetition that stands around both variables. -/
theorem repetition_lists_aligned [BEq α] {pattern : Pattern α} {registry : Registry α}
    {options : Options} {matcher : Matcher α}
    (compiled : compile pattern registry options = .ok matcher)
    {guard : Option (Bindings α → Bool)} {value : Value α} {final : SearchState α}
    (searched : matcher.search guard value = (true, final)) :
    ∃ course, matcher.acceptedCourse? guard value = some (course, final.slots.entries) ∧
      (∀ binder ∈ matcher.outline.binders [], ∃ record,
        final.slots.get? binder.id = some record ∧
          record.HasDepth binder.repetitions.length ∧
          course.Shapes binder.repetitions record) ∧
      ∀ first ∈ matcher.outline.binders [], ∀ second ∈ matcher.outline.binders [],
        ∀ shared, shared <+: first.repetitions → shared <+: second.repetitions →
          ∃ record record', final.slots.get? first.id = some record ∧
            final.slots.get? second.id = some record' ∧
            record.Aligned shared.length record' := by
  have tables := compiled_of_compile compiled
  rcases exists_acceptedCourse tables.settled searched with ⟨course, accepted⟩
  have records := fun binder (member : binder ∈ binders [] matcher.outline) =>
    tables.exists_record (List.mem_of_find?_eq_some accepted) member
  refine ⟨course, accepted, ?_, ?_⟩
  · intro binder member
    rcases records binder member with ⟨record, found, shapes⟩
    exact ⟨record, found, shapes.hasDepth, shapes⟩
  · rintro first member second member' shared ⟨inner, split⟩ ⟨inner', split'⟩
    rcases records first member with ⟨record, found, shapes⟩
    rcases records second member' with ⟨record', found', shapes'⟩
    rw [← split] at shapes
    rw [← split'] at shapes'
    exact ⟨record, record', found, found', shapes.aligned shapes'⟩

theorem keys_and_contents_aligned : ∃ (matcher : Matcher Nat) (final : SearchState Nat),
    compile (.list [.sequence [.bind "key", .list [.bind "content", .repetition 0 none]],
      .repetition 0 none]) .standard {} = .ok matcher ∧
    matcher.search none (.list [.symbol "a", .list [.int 1, .int 2], .symbol "b", .list []]) =
      (true, final) ∧
    ∃ keys contents, final.slots.get? 2 = some keys ∧ final.slots.get? 4 = some contents ∧
      keys.Aligned 1 contents := by
  obtain ⟨matcher, compiled⟩ : ∃ matcher : Matcher Nat,
      compile (.list [.sequence [.bind "key", .list [.bind "content", .repetition 0 none]],
        .repetition 0 none]) .standard {} = .ok matcher := ⟨_, rfl⟩
  have matched : (bindingsOf (matcher.search none
      (.list [.symbol "a", .list [.int 1, .int 2], .symbol "b", .list []]))).isSome = true := by
    rw [(compiled_of_compile compiled).bindingsOf_search]
    rfl
  obtain ⟨final, searched⟩ : ∃ final, matcher.search none
      (.list [.symbol "a", .list [.int 1, .int 2], .symbol "b", .list []]) = (true, final) := by
    generalize matcher.search none _ = ended at matched
    rcases ended with ⟨_ | _, final⟩
    · cases matched
    · exact ⟨final, rfl⟩
  have listed : matcher.outline.binders [] =
      [⟨2, "key", [6]⟩, ⟨4, "content", [6, 5]⟩] := by
    cases compiled
    rfl
  rcases repetition_lists_aligned compiled searched with ⟨course, -, -, aligned⟩
  rw [listed] at aligned
  exact ⟨matcher, final, compiled, searched, aligned ⟨2, "key", [6]⟩ List.mem_cons_self
    ⟨4, "content", [6, 5]⟩ (List.mem_cons_of_mem _ List.mem_cons_self) [6] ⟨[], rfl⟩ ⟨[5], rfl⟩⟩

end Matcher

end Destructure
