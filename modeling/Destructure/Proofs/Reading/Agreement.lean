import Destructure.Proofs.Reading.Positions

/-!
How large an allowance is does not matter as long as there are fewer tokens. Readers are compared
on short lists of tokens only: what is built from readers that agree there agrees there too, since
a reader hands back what is behind the tokens that it took.
-/

namespace Destructure.Reading

variable {α Result Other : Type} {endPosition limit : Nat}

/-- The readers do the same with less than so many tokens. -/
def Agree (limit : Nat) (first second : Reader Result) : Prop :=
  ∀ tokens, tokens.length < limit → first tokens = second tokens

theorem agree_of_succ {first second : Reader Result}
    (agree : ∀ fewer, limit = fewer + 1 → Agree limit first second) :
    Agree limit first second := by
  cases limit with
  | zero => exact fun tokens below => absurd below (Nat.not_lt_zero _)
  | succ fewer => exact agree fewer rfl

/-- What is done with the rest matters only for what may be left of the tokens. -/
theorem Stays.bind_congr {tokens : List Token}
    {outcome : Except ReadFailure (Result × List Token)}
    (stays : Stays endPosition tokens outcome)
    {next nextToo : Result × List Token → Except ReadFailure (Other × List Token)}
    (same : ∀ answer, answer.2 <:+ tokens → next answer = nextToo answer) :
    outcome >>= next = outcome >>= nextToo := by
  cases outcome with
  | error failure => rfl
  | ok answer => exact same answer stays

theorem behind_bind_congr (lexeme : Lexeme) {tokens : List Token}
    {next nextToo : List Token → Except ReadFailure (Result × List Token)}
    (same : ∀ rest, rest.length < tokens.length → next rest = nextToo rest) :
    behind endPosition lexeme tokens >>= next = behind endPosition lexeme tokens >>= nextToo := by
  cases tokens with
  | nil => rfl
  | cons token rest =>
      rw [behind]
      split
      case isTrue => exact same rest (Nat.lt_succ_self _)
      case isFalse => rfl

/-! ## Rows -/

section Rows

variable {first second : Reader Result} {rounds roundsToo : Nat}

theorem agree_listUpTo (agree : Agree limit first second) (stays : Local endPosition first)
    (bracket : Bracket) (enough : limit ≤ rounds) (enoughToo : limit ≤ roundsToo) :
    Agree limit (listUpTo endPosition bracket first rounds)
      (listUpTo endPosition bracket second roundsToo) := by
  intro tokens below
  replace enough : tokens.length < rounds := by omega
  replace enoughToo : tokens.length < roundsToo := by omega
  induction rounds generalizing roundsToo tokens with
  | zero => omega
  | succ rounds induction =>
      cases roundsToo with
      | zero => omega
      | succ roundsToo =>
          rw [listUpTo_succ, listUpTo_succ, ← agree tokens below]
          congr 1
          apply (stays tokens).bind_congr
          intro answer within
          have shorter := within.length_le
          split
          case isTrue comma =>
            rcases exists_of_head_lexeme comma with ⟨position, rest, equal⟩
            rw [equal, List.length_cons] at shorter
            have others : listUpTo endPosition bracket first rounds rest =
                listUpTo endPosition bracket second roundsToo rest :=
              induction rest (by omega) (by omega) (by omega)
            rw [equal, List.tail_cons, others]
          case isFalse => rfl

theorem agree_operands (agree : Agree limit first second) (stays : Local endPosition first)
    (separator : Lexeme) (enough : limit ≤ rounds) (enoughToo : limit ≤ roundsToo) :
    Agree limit (operands separator first rounds) (operands separator second roundsToo) := by
  intro tokens below
  replace enough : tokens.length < rounds := by omega
  replace enoughToo : tokens.length < roundsToo := by omega
  induction rounds generalizing roundsToo tokens with
  | zero => omega
  | succ rounds induction =>
      cases roundsToo with
      | zero => omega
      | succ roundsToo =>
          rw [operands_succ, operands_succ, ← agree tokens below]
          apply (stays tokens).bind_congr
          intro answer within
          have shorter := within.length_le
          split
          case isTrue separated =>
            rcases exists_of_head_lexeme separated with ⟨position, rest, equal⟩
            rw [equal, List.length_cons] at shorter
            have others : operands separator first rounds rest =
                operands separator second roundsToo rest :=
              induction rest (by omega) (by omega) (by omega)
            rw [equal, List.tail_cons, others]
          case isFalse => rfl

end Rows

/-! ## Values -/

theorem agree_mapEntry {first second : Reader (Value α)} (agree : Agree limit first second)
    (stays : Local endPosition first) :
    Agree limit (mapEntry endPosition first) (mapEntry endPosition second) := by
  intro tokens below
  unfold mapEntry
  rw [← agree tokens below]
  apply (stays tokens).bind_congr
  intro key within
  apply behind_bind_congr
  intro rest shorter
  rw [agree rest (by have := within.length_le; omega)]

theorem agree_recordField {first second : Reader (Value α)} (agree : Agree limit first second) :
    Agree limit (recordField endPosition first) (recordField endPosition second) := by
  intro tokens below
  unfold recordField
  split
  case h_1 name position rest =>
    apply behind_bind_congr
    intro content shorter
    rw [agree content (by rw [List.length_cons] at below; omega)]
  case h_2 => rfl

theorem agree_value [BEq α] {allowance allowanceToo : Nat} (enough : limit ≤ allowance)
    (enoughToo : limit ≤ allowanceToo) :
    Agree limit (value endPosition allowance : Reader (Value α))
      (value endPosition allowanceToo) := by
  induction allowance generalizing limit allowanceToo with
  | zero =>
      intro tokens below
      omega
  | succ allowance induction =>
      intro tokens below
      obtain ⟨limit, rfl⟩ := Nat.exists_eq_add_one_of_ne_zero (Nat.ne_zero_of_lt below)
      obtain ⟨allowanceToo, rfl⟩ :=
        Nat.exists_eq_add_one_of_ne_zero (Nat.ne_zero_of_lt enoughToo)
      have inner : Agree limit (value endPosition allowance : Reader (Value α))
          (value endPosition allowanceToo) :=
        induction (Nat.le_of_succ_le_succ enough) (Nat.le_of_succ_le_succ enoughToo)
      have stays : Local endPosition (value endPosition allowance : Reader (Value α)) :=
        local_value endPosition allowance
      have rounds := Nat.le_of_succ_le enough
      have roundsToo := Nat.le_of_succ_le enoughToo
      unfold value
      split
      case h_5 position rest =>
        rw [List.length_cons] at below
        rw [agree_listUpTo inner stays .square rounds roundsToo rest (by omega)]
      case h_6 position rest =>
        rw [List.length_cons] at below
        rw [agree_listUpTo (agree_mapEntry inner stays) (local_mapEntry stays) .curly rounds
          roundsToo rest (by omega)]
      case h_10 tag position positionToo rest _ _ _ =>
        simp only [List.length_cons] at below
        rw [agree_listUpTo (agree_recordField inner) (local_recordField stays) .curly rounds
          roundsToo rest (by omega)]
      all_goals rfl

/-! ## Patterns -/

section Patterns

variable {first second : Reader (Pattern α)} {allowance allowanceToo : Nat}

theorem agree_keyedField (agree : Agree limit first second) :
    Agree limit (keyedField endPosition first) (keyedField endPosition second) := by
  intro tokens below
  unfold keyedField
  split
  case h_1 => rfl
  case h_2 name position rest =>
    apply behind_bind_congr
    intro content shorter
    rw [agree content (by rw [List.length_cons] at below; omega)]
  case h_3 => rfl

def negationOf (operand primary : Reader (Pattern α)) : Reader (Pattern α)
  | ⟨.bang, _⟩ :: rest => do
    let (operand, rest) ← operand rest
    return (.not [operand], rest)
  | tokens => primary tokens

theorem negated_eq_negationOf (primary : Reader (Pattern α)) :
    negated primary = negationOf (negated primary) primary := by
  funext tokens
  rcases tokens with _ | ⟨⟨lexeme, position⟩, rest⟩
  · rfl
  · cases lexeme <;> rfl

theorem agree_negationOf {operand operandToo : Reader (Pattern α)}
    (agree : Agree limit operand operandToo) (agreeToo : Agree (limit + 1) first second) :
    Agree (limit + 1) (negationOf operand first) (negationOf operandToo second) := by
  intro tokens below
  unfold negationOf
  split
  case h_1 position rest => rw [agree rest (Nat.lt_of_succ_lt_succ below)]
  case h_2 => exact agreeToo tokens below

theorem agree_conjunction (agree : Agree limit first second) (stays : Local endPosition first)
    (enough : limit ≤ allowance + 1) (enoughToo : limit ≤ allowanceToo + 1) :
    Agree limit (conjunction allowance first) (conjunction allowanceToo second) := by
  intro tokens below
  rw [conjunction, conjunction,
    agree_operands agree stays .ampersand enough enoughToo tokens below]

theorem agree_choice (agree : Agree limit first second) (stays : Local endPosition first)
    (enough : limit ≤ allowance + 1) (enoughToo : limit ≤ allowanceToo + 1) :
    Agree limit (choice allowance first) (choice allowanceToo second) := by
  intro tokens below
  rw [choice, choice, agree_operands agree stays .bar enough enoughToo tokens below]

variable [BEq α]

theorem agree_keyedEntry (agree : Agree limit first second)
    (enough : limit ≤ allowance) (enoughToo : limit ≤ allowanceToo) :
    Agree limit (keyedEntry endPosition allowance first)
      (keyedEntry endPosition allowanceToo second) := by
  intro tokens below
  have keys : value endPosition allowance tokens =
      (value endPosition allowanceToo tokens : Except ReadFailure (Value α × List Token)) :=
    agree_value enough enoughToo tokens below
  have stays : Local endPosition (value endPosition allowance : Reader (Value α)) :=
    local_value endPosition allowance
  have full : (value endPosition allowance tokens >>=
        fun key : Value α × List Token => behind endPosition .arrow key.2 >>= fun rest =>
          first rest >>= fun content =>
            (.ok ((key.1, content.1), content.2) : Except ReadFailure _)) =
      value endPosition allowanceToo tokens >>=
        fun key : Value α × List Token => behind endPosition .arrow key.2 >>= fun rest =>
          second rest >>= fun content => .ok ((key.1, content.1), content.2) := by
    rw [← keys]
    apply (stays tokens).bind_congr
    intro key within
    apply behind_bind_congr
    intro rest shorter
    rw [agree rest (by have := within.length_le; omega)]
  unfold keyedEntry
  dsimp only
  split
  case h_1 =>
    split
    case isTrue => rfl
    case isFalse => exact full
  case h_2 => exact full

theorem agree_primary [Regex.Engine] (agree : Agree limit first second) (stays : Local endPosition first)
    (enough : limit ≤ allowance) (enoughToo : limit ≤ allowanceToo) :
    Agree (limit + 1) (primary endPosition allowance first)
      (primary endPosition allowanceToo second) := by
  have rounds := Nat.le_succ_of_le enough
  have roundsToo := Nat.le_succ_of_le enoughToo
  have items := fun bracket => agree_listUpTo agree stays bracket rounds roundsToo
  have entries := agree_listUpTo (agree_keyedEntry agree enough enoughToo)
    (local_keyedEntry stays) .curly rounds roundsToo
  have fields := agree_listUpTo (agree_keyedField agree) (local_keyedField stays) .curly rounds
    roundsToo
  intro tokens below
  unfold primary
  dsimp only
  split
  case h_1 position rest =>
    rw [List.length_cons] at below
    rw [items .square rest (by omega)]
  case h_2 position rest =>
    rw [List.length_cons] at below
    rw [entries rest (by omega)]
  case h_3 position rest =>
    rw [List.length_cons] at below
    rw [agree rest (by omega)]
  case h_5 source position rest =>
    split
    case h_1 => rfl
    case h_2 =>
      split
      case h_1 positionToo rest =>
        simp only [List.length_cons] at below
        rw [items .round rest (by omega)]
      case h_2 => rfl
  case h_6 name position positionToo rest =>
    simp only [List.length_cons] at below
    rw [items .round rest (by omega)]
  case h_7 tag position positionToo rest =>
    simp only [List.length_cons] at below
    rw [fields rest (by omega)]
  all_goals rfl

end Patterns

end Destructure.Reading
