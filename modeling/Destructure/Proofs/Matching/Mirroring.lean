import Destructure.Proofs.Matching.Deposits
import Destructure.Proofs.Matching.Repetition
import Mathlib.Data.List.Forall2

/-!
Turns and ways side by side. The outcomes that are offered in a search correspond one by one, and
in the same order, to the ways of the pattern: what has been put into the slots is what has been
bound, and the same values are left.
-/

namespace Destructure

variable {α : Type}

/-! ## Lists side by side -/

section

variable {β γ δ : Type} {related : β → γ → Prop} {related' : β → δ → Prop}

theorem exists_of_mem_right {firsts : List β} {seconds : List γ}
    (pairs : List.Forall₂ related firsts seconds) {second : γ} (member : second ∈ seconds) :
    ∃ first ∈ firsts, related first second := by
  induction pairs with
  | nil => cases member
  | cons relates _ induction =>
      rcases List.mem_cons.mp member with rfl | later
      · exact ⟨_, List.mem_cons_self, relates⟩
      · rcases induction later with ⟨first, among, relates'⟩
        exact ⟨first, List.mem_cons_of_mem _ among, relates'⟩

theorem exists_getElem?_right {firsts : List β} {seconds : List γ}
    (pairs : List.Forall₂ related firsts seconds) {index : Nat} {second : γ}
    (there : seconds[index]? = some second) :
    ∃ first, firsts[index]? = some first ∧ related first second := by
  induction pairs generalizing index with
  | nil => cases there
  | cons relates _ induction =>
      cases index with
      | zero => exact ⟨_, rfl, Option.some.inj there ▸ relates⟩
      | succ index => exact induction there

theorem forall₂_imp_of_mem {firsts : List β} {seconds : List γ} {related' : β → γ → Prop}
    (pairs : List.Forall₂ related firsts seconds)
    (imp : ∀ first ∈ firsts, ∀ second, related first second → related' first second) :
    List.Forall₂ related' firsts seconds := by
  induction pairs with
  | nil => exact .nil
  | cons relates _ induction =>
      exact .cons (imp _ List.mem_cons_self _ relates)
        (induction fun first member => imp first (List.mem_cons_of_mem _ member))

/-- What is related to the same things is related. -/
theorem forall₂_of_common {firsts : List β} {seconds : List γ} {thirds : List δ}
    (pairs : List.Forall₂ related firsts seconds) (pairs' : List.Forall₂ related' firsts thirds) :
    List.Forall₂ (fun second third => ∃ first, related first second ∧ related' first third)
      seconds thirds := by
  induction pairs generalizing thirds with
  | nil =>
      cases pairs'
      exact .nil
  | cons relates _ induction =>
      cases pairs' with
      | cons relates' others => exact .cons ⟨_, relates, relates'⟩ (induction others)

end

/-! ## Turns and ways -/

namespace Turns

variable {β β' γ γ' ι : Type} {asks : Consultation α → Prop}
variable {related : β → γ → Prop} {related' : β' → γ' → Prop}

structure Mirrors (asks : Consultation α → Prop) (related : β → γ → Prop) (turns : Turns α β)
    (listed : List γ) : Prop where
  outcomes : List.Forall₂ related (outcomes turns) listed
  questions : ∀ question ∈ questions turns, asks question

namespace Mirrors

theorem nil : Mirrors asks related ([] : Turns α β) [] := ⟨.nil, nofun⟩

theorem reached {outcome : β} {listed : γ} (relates : related outcome listed) :
    Mirrors asks related ([.reached outcome] : Turns α β) [listed] := ⟨.cons relates .nil, nofun⟩

theorem asked {consultation : Consultation α} (here : asks consultation) {turns : Turns α β}
    {listed : List γ} (mirrors : Mirrors asks related turns listed) :
    Mirrors asks related (.asked consultation :: turns) listed where
  outcomes := mirrors.outcomes
  questions := List.forall_mem_cons.mpr ⟨here, mirrors.questions⟩

theorem ite {turns : Turns α β} {listed : List γ} (mirrors : Mirrors asks related turns listed)
    (condition : Bool) :
    Mirrors asks related (if condition then turns else []) (if condition then listed else []) := by
  cases condition
  · exact .nil
  · exact mirrors

theorem append {first second : Turns α β} {listed listed' : List γ}
    (mirrors : Mirrors asks related first listed) (mirrors' : Mirrors asks related second listed') :
    Mirrors asks related (first ++ second) (listed ++ listed') where
  outcomes := by
    rw [outcomes_append]
    exact List.rel_append mirrors.outcomes mirrors'.outcomes
  questions := by
    rw [questions_append]
    exact List.forall_mem_append.mpr ⟨mirrors.questions, mirrors'.questions⟩

theorem imp {turns : Turns α β} {listed : List γ} {related' : β → γ → Prop}
    (mirrors : Mirrors asks related turns listed)
    (relates : ∀ outcome item, related outcome item → related' outcome item) :
    Mirrors asks related' turns listed := ⟨mirrors.outcomes.imp relates, mirrors.questions⟩

theorem map {turns : Turns α β} {listed : List γ} {change : γ → γ'} {related' : β → γ' → Prop}
    (mirrors : Mirrors asks related turns listed)
    (relates : ∀ outcome item, related outcome item → related' outcome (change item)) :
    Mirrors asks related' turns (listed.map change) :=
  ⟨List.forall₂_map_right_iff.mpr (mirrors.outcomes.imp relates), mirrors.questions⟩

theorem exists_of_mem {turns : Turns α β} {listed : List γ}
    (mirrors : Mirrors asks related turns listed) {outcome : β}
    (member : outcome ∈ Turns.outcomes turns) : ∃ item ∈ listed, related outcome item :=
  exists_of_mem_right mirrors.outcomes.flip member

theorem andThen {turns : Turns α β} {listed : List γ} {next : β → Turns α β'}
    {nextListed : γ → List γ'} (mirrors : Mirrors asks related turns listed)
    (mirrorsNext : ∀ outcome item, related outcome item →
      Mirrors asks related' (next outcome) (nextListed item)) :
    Mirrors asks related' (Turns.andThen turns next) (listed.flatMap nextListed) where
  outcomes := by
    rw [outcomes_andThen]
    exact List.rel_flatMap mirrors.outcomes
      fun outcome item relates => (mirrorsNext outcome item relates).outcomes
  questions := by
    apply forall_questions_andThen mirrors.questions
    intro outcome member
    rcases mirrors.exists_of_mem member with ⟨item, -, relates⟩
    exact (mirrorsNext outcome item relates).questions

theorem flatMap {choices : List ι} {turns : ι → Turns α β} {listed : ι → List γ}
    (mirrors : ∀ choice ∈ choices, Mirrors asks related (turns choice) (listed choice)) :
    Mirrors asks related (choices.flatMap turns) (choices.flatMap listed) := by
  induction choices with
  | nil => exact .nil
  | cons choice choices induction =>
      exact (mirrors choice List.mem_cons_self).append
        (induction fun other member => mirrors other (List.mem_cons_of_mem _ member))

theorem verdict {turns : Turns α β} {listed : List γ} (mirrors : Mirrors asks related turns listed)
    (expected : Bool) {outcome : β'} {item : γ'} (relates : related' outcome item) :
    Mirrors asks related' (Turns.verdict expected outcome turns)
      (if listed.isEmpty = expected then [] else [item]) where
  outcomes := by
    have same : (Turns.outcomes turns).isEmpty = listed.isEmpty := by
      have pairs := mirrors.outcomes
      generalize Turns.outcomes turns = reached at pairs ⊢
      cases pairs <;> rfl
    rw [outcomes_verdict, same]
    split
    · exact .nil
    · exact .cons relates .nil
  questions question member := by
    rw [questions_verdict] at member
    exact mirrors.questions question (mem_questions_of_mem_leading member)

end Mirrors

def single (item : Value α → Contents α → Turns α (Contents α)) (values : List (Value α))
    (contents : Contents α) : Turns α (Place α) :=
  match values with
  | [] => []
  | value :: left => Turns.andThen (item value contents) fun contents => [.reached ⟨contents, left⟩]

theorem andThen_single (item : Value α → Contents α → Turns α (Contents α))
    (values : List (Value α)) (contents : Contents α) (next : Place α → Turns α β) :
    Turns.andThen (single item values contents) next =
      match values with
      | [] => []
      | value :: left =>
        Turns.andThen (item value contents) fun contents => next ⟨contents, left⟩ := by
  cases values with
  | nil => rfl
  | cons value left => simp [single, andThen_assoc]

theorem passes_single (item : Value α → Contents α → Turns α (Contents α)) (count : Nat)
    (values : List (Value α)) (contents : Contents α) (enough : count ≤ values.length) :
    passes (single item) count values contents = repeated (.inr item) values contents count := by
  induction count generalizing values contents with
  | zero => rfl
  | succ count induction =>
      cases values with
      | nil => simp at enough
      | cons value values =>
          simp only [passes, single, andThen_assoc, repeated, List.take_succ_cons, eachValue,
            List.drop_succ_cons]
          congr 1
          funext later
          simpa [repeated] using induction values later (Nat.le_of_succ_le_succ enough)

end Turns

/-! ## What is recorded and bound -/

def Recorded (depth : Nat) (places : List (String × Nat)) (contents : Contents α)
    (bound : Named (Value α)) (laterContents : Contents α) (laterBound : Named (Value α)) : Prop :=
  ∃ deposits : List (Deposit α), deposits.map Deposit.place = places ∧
    laterContents = contents.deposit depth deposits ∧
    laterBound = bound ++ deposits.map Deposit.pair

structure Corresponds (depth : Nat) (places : List (String × Nat)) (contents : Contents α)
    (bound : Named (Value α)) (place : Place α) (way : Way α) : Prop where
  recorded : Recorded depth places contents bound place.contents way.bound
  left : place.left = way.left

section

variable {depth : Nat} {places places' : List (String × Nat)} {contents contents' : Contents α}
variable {bound bound' : Named (Value α)} {asks : Consultation α → Prop}

theorem Recorded.refl (depth : Nat) (contents : Contents α) (bound : Named (Value α)) :
    Recorded depth [] contents bound contents bound := ⟨[], rfl, rfl, (List.append_nil _).symm⟩

theorem Recorded.put (depth : Nat) (name : String) (id : Nat) (contents : Contents α)
    (bound : Named (Value α)) (value : Value α) :
    Recorded depth [(name, id)] contents bound (contents.put id depth (.scalar value))
      (bound ++ [(name, value)]) := ⟨[⟨name, id, .scalar value⟩], rfl, rfl, rfl⟩

theorem Recorded.trans {contents'' : Contents α} {bound'' : Named (Value α)}
    (recorded : Recorded depth places contents bound contents' bound')
    (recorded' : Recorded depth places' contents' bound' contents'' bound'') :
    Recorded depth (places ++ places') contents bound contents'' bound'' := by
  rcases recorded with ⟨deposits, covers, rfl, rfl⟩
  rcases recorded' with ⟨deposits', covers', rfl, rfl⟩
  refine ⟨deposits ++ deposits', ?_, ?_, ?_⟩
  · rw [List.map_append, covers, covers']
  · rw [Contents.deposit_append]
  · rw [List.map_append, List.append_assoc]

theorem Corresponds.refl (depth : Nat) (contents : Contents α) (bound : Named (Value α))
    (values : List (Value α)) :
    Corresponds depth [] contents bound ⟨contents, values⟩ ⟨bound, values⟩ :=
  ⟨.refl depth contents bound, rfl⟩

theorem Corresponds.after {place : Place α} {way : Way α}
    (corresponds : Corresponds depth places' contents' bound' place way)
    (recorded : Recorded depth places contents bound contents' bound') :
    Corresponds depth (places ++ places') contents bound place way :=
  ⟨recorded.trans corresponds.recorded, corresponds.left⟩

open Turns (Mirrors)

/-- The same at the end of a list of rows, one after another. -/
theorem mirrors_andThen {turns : Turns α (Place α)} {ways : List (Way α)}
    {next : Place α → Turns α (Place α)} {nextWays : Way α → List (Way α)}
    (mirrors : Mirrors asks (Corresponds depth places contents bound) turns ways)
    (mirrorsNext : ∀ contents' bound' left,
      Recorded depth places contents bound contents' bound' →
      Mirrors asks (Corresponds depth places' contents' bound') (next ⟨contents', left⟩)
        (nextWays ⟨bound', left⟩)) :
    Mirrors asks (Corresponds depth (places ++ places') contents bound) (Turns.andThen turns next)
      (ways.flatMap nextWays) := by
  apply mirrors.andThen
  rintro ⟨contents', left⟩ ⟨bound', left'⟩ ⟨recorded, same⟩
  obtain rfl : left = left' := same
  exact (mirrorsNext contents' bound' left recorded).imp fun place way corresponds =>
    corresponds.after recorded

theorem mirrors_single {item : Value α → Contents α → Turns α (Contents α)}
    {ways : Value α → Named (Value α) → List (Named (Value α))}
    (mirrors : ∀ value, Mirrors asks (Recorded depth places contents bound) (item value contents)
      (ways value bound)) (values : List (Value α)) :
    Mirrors asks (Corresponds depth places contents bound) (Turns.single item values contents)
      (Way.single ways ⟨bound, values⟩) := by
  cases values with
  | nil => exact .nil
  | cons value left =>
      rw [Turns.single, Way.single_cons, List.map_eq_flatMap]
      apply (mirrors value).andThen
      exact fun contents' bound' recorded => .reached ⟨recorded, rfl⟩

theorem mirrors_exhausted {turns : Turns α (Place α)} {ways : List (Way α)}
    (mirrors : Mirrors asks (Corresponds depth places contents bound) turns ways) :
    Mirrors asks (Recorded depth places contents bound) (Turns.exhausted turns)
      (Way.complete ways) := by
  rw [Way.complete_eq]
  apply mirrors.andThen
  intro place way corresponds
  rw [corresponds.left]
  exact Mirrors.ite (.reached corresponds.recorded) _

/-! ## Repetitions -/

/-- Passes record one after another what they bind, each as the latest elements of the lists. -/
theorem mirrors_passes {row : List (Value α) → Contents α → Turns α (Place α)}
    {unit : Way α → List (Way α)} (distinct : (places.map Prod.snd).Nodup)
    (mirrors : ∀ values contents,
      Mirrors asks (Corresponds (depth + 1) places contents []) (row values contents)
        (unit ⟨[], values⟩))
    (count : Nat) (values : List (Value α)) (earlier : List (List (Deposit α))) :
    Mirrors asks (fun place result => ∃ later : List (List (Deposit α)),
        later.map (·.map Deposit.pair) = result.1 ∧
          place.contents =
            contents.deposit depth (Deposit.collect places (later.reverse ++ earlier)) ∧
          place.left = result.2)
      (Turns.passes row count values (contents.deposit depth (Deposit.collect places earlier)))
      (Way.passes unit count values) := by
  induction count generalizing values earlier with
  | zero => exact .reached ⟨[], rfl, rfl, rfl⟩
  | succ count induction =>
      apply (mirrors values _).andThen
      rintro ⟨_, left⟩ ⟨_, left'⟩ ⟨⟨pass, covers, equal, rfl⟩, same⟩
      obtain rfl : left = left' := same
      rcases equal.trans (contents.deposit_collect depth distinct earlier covers) with rfl
      apply (induction left (pass :: earlier)).map
      rintro place ⟨others, left''⟩ ⟨later, bound, recorded, same⟩
      refine ⟨pass :: later, ?_, ?_, same⟩
      · rw [List.map_cons, bound]
        rfl
      · rw [recorded, List.reverse_cons, List.append_assoc]
        rfl

/-- A repetition as a whole records one list for each variable. -/
theorem mirrors_repeated {row : List (Value α) → Contents α → Turns α (Place α)}
    {unit : Way α → List (Way α)} (distinct : (places.map Prod.snd).Nodup)
    (mirrors : ∀ values contents,
      Mirrors asks (Corresponds (depth + 1) places contents []) (row values contents)
        (unit ⟨[], values⟩))
    (contents : Contents α) (bound : Named (Value α)) (values : List (Value α)) (count : Nat) :
    Mirrors asks (Corresponds depth places contents bound)
      (Turns.passes row count values (contents.deposit depth (Deposit.collect places [])))
      (Way.repeated (places.map Prod.fst) unit ⟨bound, values⟩ count) := by
  apply (mirrors_passes distinct mirrors count values []).map
  rintro place ⟨passes, left⟩ ⟨later, covers, recorded, same⟩
  refine ⟨⟨Deposit.collect places later.reverse, ?_, ?_, ?_⟩, same⟩
  · exact Deposit.map_place_collect places _
  · rw [recorded, List.append_nil]
  · rw [Deposit.map_pair_collect, List.reverse_reverse, covers]

end

theorem Matcher.openContents_eq {matcher : Matcher α} {repetition depth : Nat}
    {places : List (String × Nat)}
    (opens : matcher.openers.getD repetition [] = places.map fun place => (place.2, depth))
    (contents : Contents α) :
    matcher.openContents repetition contents =
      contents.deposit depth (Deposit.collect places []) := by
  rw [openContents, opens]
  clear opens
  induction places generalizing contents with
  | nil => rfl
  | cons place places induction => exact induction _

end Destructure
