import Destructure.Proofs.Regex.Pieces

/-!
Texts with the closing bracket of a group and the end of the text behind them. What is read in a
text by itself is read in the same way there, and what is left is related as before: it goes on at
the bracket. The one way to miss the bracket is a comment that runs to the end of the text: it
takes the bracket with it, and nothing is left.

Main statements: `persists_count`, `Ended.groupOpening?` and `persists_escape`, which are about the
smallest parts of an expression.
-/

namespace Destructure.Regex

def ending : List Char := [')', '\\', 'z']

/-- The second text is what the first one becomes with the ending behind it: the ending follows, or
it has been skipped in a comment that runs to the end of the first text. -/
inductive Ended : List Char → List Char → Prop
  | behind (text : List Char) : Ended text (text ++ ending)
  | hidden : Ended [] []

namespace Ended

variable {text ended rest : List Char} {first : Char}

theorem of_nil (relation : Ended [] ended) : ended = ending ∨ ended = [] := by
  cases relation with
  | behind => exact .inl rfl
  | hidden => exact .inr rfl

theorem length_le (relation : Ended text ended) : text.length ≤ ended.length := by
  cases relation with
  | behind => simp
  | hidden => exact Nat.le_refl _

theorem of_cons (relation : Ended (first :: rest) ended) :
    ∃ others, ended = first :: others ∧ Ended rest others := by
  cases relation with
  | behind => exact ⟨rest ++ ending, rfl, .behind rest⟩

theorem ne_nil (relation : Ended text ended) (filled : text = [] → False) : ended = [] → False := by
  intro empty
  have := relation.length_le
  rw [empty, List.length_nil, Nat.le_zero, List.length_eq_zero_iff] at this
  exact filled this

theorem of_append (start : List Char) (filled : start ≠ [])
    (relation : Ended (start ++ rest) ended) :
    ∃ others, ended = start ++ others ∧ Ended rest others := by
  generalize same : start ++ rest = text at relation
  cases relation with
  | hidden => exact absurd (List.append_eq_nil_iff.mp same).1 filled
  | behind =>
      subst same
      exact ⟨rest ++ ending, List.append_assoc _ _ _, .behind rest⟩

/-- Nothing new stands at the front but what has the closing bracket in it. -/
theorem ne_append (relation : Ended text ended) (start : List Char)
    (other : ∀ rest, text = start ++ rest → False) (unclosed : ')' ∉ start) (rest : List Char) :
    ended = start ++ rest → False := by
  intro same
  cases relation with
  | hidden => exact other rest same
  | behind =>
      rcases List.append_eq_append_iff.mp same with ⟨between, rfl, behind⟩ | ⟨between, rfl, _⟩
      · cases between with
        | nil => exact other [] (by simp)
        | cons first others =>
            cases (List.cons.inj behind).1
            exact unclosed (by simp)
      · exact other between rfl

theorem skipComment (relation : Ended text ended) (inComment : Bool) :
    Ended (skipComment inComment text) (Regex.skipComment inComment ended) := by
  cases relation with
  | hidden => cases inComment <;> exact .hidden
  | behind text =>
      induction text generalizing inComment with
      | nil =>
          cases inComment with
          | false => exact .behind []
          | true => exact .hidden
      | cons first rest induction =>
          cases inComment with
          | true => exact induction _
          | false =>
              rw [List.cons_append, Regex.skipComment, Regex.skipComment]
              split
              · exact induction false
              · split
                · exact induction true
                · exact .behind (first :: rest)

theorem skip (relation : Ended text ended) (flags : Flags) :
    Ended (skip flags text) (Regex.skip flags ended) := by
  unfold Regex.skip
  split
  · exact relation.skipComment false
  · exact relation

theorem dropWhile (relation : Ended text ended) (property : Char → Bool)
    (stops : property ')' = false) :
    Ended (text.dropWhile property) (ended.dropWhile property) := by
  cases relation with
  | hidden => exact .hidden
  | behind text =>
      rw [List.dropWhile_append]
      split
      next empty =>
        rw [List.isEmpty_iff.mp empty, ending, List.dropWhile_cons_of_neg (by simp [stops])]
        exact .behind []
      next => exact .behind _

end Ended

/-! ## Runs of characters with layout behind each of them -/

theorem skipComment_length_le (inComment : Bool) (text : List Char) :
    (skipComment inComment text).length ≤ text.length := by
  induction text generalizing inComment with
  | nil => cases inComment <;> exact Nat.le_refl _
  | cons first rest induction =>
      cases inComment with
      | true => exact Nat.le_succ_of_le (induction _)
      | false =>
          rw [skipComment]
          split
          · exact Nat.le_succ_of_le (induction false)
          · split
            · exact Nat.le_succ_of_le (induction true)
            · exact Nat.le_refl _

theorem skip_length_le (flags : Flags) (text : List Char) :
    (skip flags text).length ≤ text.length := by
  unfold skip
  split
  · exact skipComment_length_le false text
  · exact Nat.le_refl _

def spell (property : Char → Bool) (flags : Flags) : Nat → List Char → List Char × List Char
  | 0, text => ([], text)
  | _ + 1, [] => ([], [])
  | allowance + 1, first :: rest =>
    if property first then
      let (others, behind) := spell property flags allowance (skip flags rest)
      (first :: others, behind)
    else ([], first :: rest)

theorem countDigits_eq_spell (flags : Flags) (allowance : Nat) (text : List Char) :
    countDigits flags allowance text = spell Text.isDigit flags allowance text := by
  induction allowance generalizing text with
  | zero => rfl
  | succ allowance induction =>
      cases text with
      | nil => rfl
      | cons first rest => rw [countDigits, spell, induction]

theorem boundaryName_eq_spell (flags : Flags) (allowance : Nat) (text : List Char) :
    boundaryName flags allowance text = spell namesBoundary flags allowance text := by
  induction allowance generalizing text with
  | zero => rfl
  | succ allowance induction =>
      cases text with
      | nil => rfl
      | cons first rest => rw [boundaryName, spell, induction]

theorem leadingMinuses_eq_spell (flags : Flags) (allowance : Nat) (text : List Char) :
    setOpening.leadingMinuses flags allowance text =
      ((spell (· == '-') flags allowance text).1.map (.single flags.ignoreCase),
        (spell (· == '-') flags allowance text).2) := by
  induction allowance generalizing text with
  | zero => rfl
  | succ allowance induction =>
      cases text with
      | nil => rfl
      | cons first rest =>
          by_cases minus : first = '-'
          · subst minus
            rw [setOpening.leadingMinuses, induction]
            rfl
          · rw [setOpening.leadingMinuses, spell, if_neg (by simpa using minus)]
            · rfl
            · intro allowance' rest' _ same
              exact minus (List.cons.inj same).1

theorem spell_nil (property : Char → Bool) (flags : Flags) (allowance : Nat) :
    spell property flags allowance [] = ([], []) := by
  cases allowance <;> rfl

theorem spell_ending {property : Char → Bool} (stops : property ')' = false) (flags : Flags)
    (allowance : Nat) : spell property flags allowance ending = ([], ending) := by
  cases allowance with
  | zero => rfl
  | succ allowance => rw [ending, spell, if_neg (by simp [stops])]

theorem Ended.spell_of_nil {property : Char → Bool} (stops : property ')' = false) (flags : Flags)
    {ended : List Char} (relation : Ended [] ended) (allowance further : Nat) :
    (Regex.spell property flags further ended).1 = (Regex.spell property flags allowance []).1 ∧
      Ended (Regex.spell property flags allowance []).2
        (Regex.spell property flags further ended).2 := by
  rw [spell_nil]
  rcases relation.of_nil with rfl | rfl
  · rw [spell_ending stops]
    exact ⟨rfl, .behind []⟩
  · rw [spell_nil]
    exact ⟨rfl, .hidden⟩

/-- Enough steps spell the same run in front of the ending, as long as it cannot go on there. -/
theorem Ended.spell {allowance further : Nat} {text ended : List Char}
    (relation : Ended text ended) (property : Char → Bool) (stops : property ')' = false)
    (flags : Flags) (enough : text.length ≤ allowance) (enoughEnded : ended.length ≤ further) :
    (Regex.spell property flags further ended).1 = (Regex.spell property flags allowance text).1 ∧
      Ended (Regex.spell property flags allowance text).2
        (Regex.spell property flags further ended).2 := by
  induction allowance generalizing further text ended with
  | zero =>
      cases List.length_eq_zero_iff.mp (Nat.le_zero.mp enough)
      exact relation.spell_of_nil stops flags 0 further
  | succ allowance induction =>
      cases text with
      | nil => exact relation.spell_of_nil stops flags (allowance + 1) further
      | cons first rest =>
          rcases relation.of_cons with ⟨others, rfl, following⟩
          cases further with
          | zero => cases enoughEnded
          | succ further =>
              rw [Regex.spell, Regex.spell]
              split
              · have short := Nat.le_trans (skip_length_le flags rest) (Nat.le_of_lt_succ enough)
                have shortEnded :=
                  Nat.le_trans (skip_length_le flags others) (Nat.le_of_lt_succ enoughEnded)
                have same := induction (following.skip flags) short shortEnded
                exact ⟨congrArg (first :: ·) same.1, same.2⟩
              · exact ⟨rfl, relation⟩

/-! ## Counts and flags -/

def Persists {α : Type} (read readEnded : List Char → Option (α × List Char)) : Prop :=
  ∀ ⦃text ended : List Char⦄ ⦃found : α⦄ ⦃rest : List Char⦄, Ended text ended →
    read text = some (found, rest) →
      ∃ others, readEnded ended = some (found, others) ∧ Ended rest others

theorem Persists.map {α β : Type} {read readEnded : List Char → Option (α × List Char)}
    (persists : Persists read readEnded) (transform : α → β) :
    Persists (fun text => (read text).map fun found => (transform found.1, found.2))
      (fun text => (readEnded text).map fun found => (transform found.1, found.2)) := by
  intro text ended found rest relation reads
  rw [Option.map_eq_some_iff] at reads
  rcases reads with ⟨⟨found, behind⟩, reads, made⟩
  cases made
  rcases persists relation reads with ⟨others, readsEnded, further⟩
  exact ⟨others, by simp [readsEnded], further⟩

theorem persists_count (flags : Flags) : Persists (count? flags) (count? flags) := by
  intro text ended number rest relation read
  have trimmed := relation.dropWhile Text.isBlank (by decide +kernel)
  have digits := trimmed.spell Text.isDigit (by decide +kernel) flags
    (List.dropWhile_sublist _).length_le (List.dropWhile_sublist _).length_le
  unfold count? at read ⊢
  simp only [countDigits_eq_spell] at read ⊢
  rw [digits.1]
  split at read
  · cases read
  next holds =>
    cases read
    rw [if_neg holds]
    exact ⟨_, rfl, (digits.2.dropWhile Text.isBlank (by decide +kernel)).skip flags⟩

def upperBound? (flags : Flags) (minimum : Nat) (text : List Char) :
    Option (Nat × Option Nat × List Char) :=
  match skip flags text with
  | '\x7d' :: rest => some (minimum, none, rest)
  | text =>
    (count? flags text).bind fun found =>
      match found.2 with
      | '\x7d' :: rest =>
        if minimum ≤ found.1 then some (minimum, some found.1, rest) else none
      | _ => none

theorem bounds?_eq (flags : Flags) (text : List Char) :
    bounds? flags text = (count? flags (skip flags text)).bind fun found =>
      match found.2 with
      | '\x7d' :: rest => some (found.1, some found.1, rest)
      | ',' :: rest => upperBound? flags found.1 rest
      | _ => none := rfl

section Bounds

variable {text ended rest : List Char} {lower minimum : Nat} {maximum : Option Nat}

theorem Ended.upperBound? (relation : Ended text ended) (flags : Flags)
    (read : upperBound? flags lower text = some (minimum, maximum, rest)) :
    ∃ others, Regex.upperBound? flags lower ended = some (minimum, maximum, others) ∧
      Ended rest others := by
  have skipped := relation.skip flags
  unfold Regex.upperBound? at read ⊢
  generalize Regex.skip flags text = text, Regex.skip flags ended = ended at read skipped ⊢
  split at read
  next =>
    cases read
    rcases skipped.of_cons with ⟨others, rfl, closed⟩
    exact ⟨others, rfl, closed⟩
  next unclosed =>
    rcases Option.bind_eq_some_iff.mp read with ⟨⟨greatest, behind⟩, counted, made⟩
    rcases persists_count flags skipped counted with ⟨following, counts, further⟩
    split
    next rest => exact (skipped.ne_append ['\x7d'] unclosed (by decide) rest rfl).elim
    next =>
      rw [counts, Option.bind_some]
      dsimp only at made ⊢
      split at made
      next =>
        rcases further.of_cons with ⟨others, rfl, closed⟩
        split at made
        next le =>
          cases made
          exact ⟨others, if_pos le, closed⟩
        next => cases made
      next => cases made

theorem Ended.bounds? (relation : Ended text ended) (flags : Flags)
    (read : bounds? flags text = some (minimum, maximum, rest)) :
    ∃ others, Regex.bounds? flags ended = some (minimum, maximum, others) ∧ Ended rest others := by
  rw [bounds?_eq, Option.bind_eq_some_iff] at read
  rcases read with ⟨⟨least, behind⟩, counted, made⟩
  rcases persists_count flags (relation.skip flags) counted with ⟨following, counts, further⟩
  rw [bounds?_eq, counts, Option.bind_some]
  dsimp only at made ⊢
  split at made
  next =>
    cases made
    rcases further.of_cons with ⟨others, rfl, closed⟩
    exact ⟨others, rfl, closed⟩
  next =>
    rcases further.of_cons with ⟨others, rfl, comma⟩
    exact comma.upperBound? flags made
  next => cases made

end Bounds

/-- Flags end at a colon or a bracket, so they do not reach the ending. -/
theorem Ended.flags? {flags inner : Flags} {seen letters text ended rest : List Char}
    {last : Char} (relation : Ended text ended)
    (read : flags? flags seen text = some (inner, letters, last, rest)) :
    ∃ others, Regex.flags? flags seen ended = some (inner, letters, last, others) ∧
      Ended rest others := by
  induction text generalizing flags seen ended with
  | nil => cases read
  | cons letter text induction =>
      rcases relation.of_cons with ⟨others, rfl, following⟩
      rw [Regex.flags?] at read ⊢
      split at read
      next closes =>
        rw [if_pos closes]
        split at read
        · cases read
        next signed =>
          cases read
          rw [if_neg signed]
          exact ⟨others, rfl, following⟩
      next goesOn =>
        rw [if_neg goesOn]
        split at read
        · cases read
        next new =>
          rw [if_neg new]
          split at read
          next minus =>
            rw [if_pos minus]
            exact induction following read
          next other =>
            rw [if_neg other]
            split at read
            · exact induction following read
            · cases read

theorem Ended.takeWhile {text ended rest : List Char} {character : Char}
    (relation : Ended text ended) {property : Char → Bool}
    (stops : text.drop (text.takeWhile property).length = character :: rest) :
    ended.takeWhile property = text.takeWhile property ∧
      ∃ others, ended.drop (text.takeWhile property).length = character :: others ∧
        Ended rest others := by
  cases relation with
  | hidden => cases stops
  | behind =>
      have short : (text.takeWhile property).length < text.length := by
        rcases Nat.lt_or_ge (text.takeWhile property).length text.length with short | long
        · exact short
        · rw [List.drop_eq_nil_of_le long] at stops
          cases stops
      rw [List.takeWhile_append, if_neg (Nat.ne_of_lt short),
        List.drop_append_of_le_length (Nat.le_of_lt short), stops]
      exact ⟨rfl, rest ++ ending, rfl, .behind rest⟩

theorem persists_groupName : Persists groupName? groupName? := by
  intro text ended name rest relation read
  unfold groupName? at read ⊢
  dsimp only at read ⊢
  split at read
  next first others behind named stops =>
    rcases relation.takeWhile stops with ⟨same, following, further, closed⟩
    split at read
    next starts =>
      cases read
      refine ⟨following, ?_, closed⟩
      rw [same, further, named]
      exact if_pos starts
    next => cases read
  next => cases read

/-! ## Openings of groups -/

inductive GroupMark.Ended : GroupMark → GroupMark → Prop
  | name {text ended : List Char} : Regex.Ended text ended → Ended (.name text) (.name ended)
  | flags {text ended : List Char} : Regex.Ended text ended → Ended (.flags text) (.flags ended)
  | plain {text ended : List Char} : Regex.Ended text ended → Ended (.plain text) (.plain ended)

section Openings

variable {progress counted : Progress} {opening : GroupOpening} {text ended rest : List Char}

theorem groupMark_plain (other : ∀ rest, text = '?' :: rest → False) :
    groupMark text = .plain text := by
  fun_cases groupMark text
  case case8 => rfl
  all_goals exact (other _ rfl).elim

/-- A group is opened by what stands in front of the ending: all that is missing there is missing
without the ending, too. -/
theorem Ended.groupMark (relation : Ended text ended)
    (read : openGroup? progress (groupMark text) = some (opening, counted, rest)) :
    (Regex.groupMark text).Ended (Regex.groupMark ended) := by
  fun_cases Regex.groupMark text
  case case5 rest =>
    rcases relation.of_append ['?', 'P', '<'] (List.cons_ne_nil _ _) with ⟨_, rfl, following⟩
    exact .name following
  case case6 rest behind ahead =>
    rcases relation.of_append ['?', '<'] (List.cons_ne_nil _ _) with ⟨others, rfl, following⟩
    have mark : Regex.groupMark ('?' :: '<' :: others) = .name others := by
      rw [Regex.groupMark]
      · exact following.ne_append ['='] behind (by decide)
      · exact following.ne_append ['!'] ahead (by decide)
    exact mark ▸ .name following
  case case7 rest ahead notAhead behind notBehind name angle =>
    rcases relation.of_cons with ⟨others, rfl, following⟩
    have mark : Regex.groupMark ('?' :: others) = .flags others := by
      rw [Regex.groupMark]
      · exact following.ne_append ['='] ahead (by decide)
      · exact following.ne_append ['!'] notAhead (by decide)
      · exact following.ne_append ['<', '='] behind (by decide)
      · exact following.ne_append ['<', '!'] notBehind (by decide)
      · exact following.ne_append ['P', '<'] name (by decide)
      · exact following.ne_append ['<'] angle (by decide)
    exact mark ▸ .flags following
  case case8 question =>
    exact groupMark_plain (relation.ne_append ['?'] question (by decide)) ▸ .plain relation
  all_goals cases read

theorem GroupMark.Ended.openGroup? {mark markEnded : GroupMark} (relation : mark.Ended markEnded)
    (read : openGroup? progress mark = some (opening, counted, rest)) :
    ∃ others, Regex.openGroup? progress markEnded = some (opening, counted, others) ∧
      Regex.Ended rest others := by
  cases relation with
  | name relation =>
      rw [Regex.openGroup?, Option.bind_eq_some_iff] at read
      rcases read with ⟨⟨name, behind⟩, spelled, read⟩
      rcases persists_groupName relation spelled with ⟨others, spells, further⟩
      rw [Regex.openGroup?, spells, Option.bind_some]
      split at read
      · cases read
      next new =>
        cases read
        exact ⟨others, if_neg new, further⟩
  | flags relation =>
      rw [Regex.openGroup?, Option.bind_eq_some_iff] at read
      rcases read with ⟨⟨inner, seen, last, behind⟩, spelled, read⟩
      rcases relation.flags? spelled with ⟨others, spells, further⟩
      rw [Regex.openGroup?, spells, Option.bind_some]
      split at read
      next closes =>
        split at read
        · cases read
        next lettered =>
          cases read
          exact ⟨others, (if_pos closes).trans (if_neg lettered), further⟩
      next goesOn =>
        cases read
        exact ⟨others, if_neg goesOn, further⟩
  | plain relation =>
      cases read
      exact ⟨_, rfl, relation⟩

theorem Ended.groupOpening? (relation : Ended text ended)
    (read : groupOpening? progress text = some (opening, counted, rest)) :
    ∃ others, Regex.groupOpening? progress ended = some (opening, counted, others) ∧
      Ended rest others := by
  rw [groupOpening?_eq] at read ⊢
  exact ((relation.skip progress.flags).groupMark read).openGroup? read

end Openings

/-! ## Escapes -/

theorem persists_hexDigits (flags : Flags) (count : Nat) :
    Persists (hexDigits? flags count) (hexDigits? flags count) := by
  induction count with
  | zero =>
      intro text ended digits rest relation read
      cases read
      exact ⟨ended, rfl, relation⟩
  | succ count induction =>
      intro text ended digits rest relation read
      cases text with
      | nil => cases read
      | cons first text =>
          rcases relation.of_cons with ⟨others, rfl, following⟩
          rw [hexDigits?] at read ⊢
          simp only [Option.bind_eq_bind, Option.bind_eq_some_iff] at read
          rcases read with ⟨digit, spelled, ⟨more, behind⟩, rest, read⟩
          cases read
          rcases induction (following.skip flags) rest with ⟨others, spells, further⟩
          exact ⟨others, by simp [spelled, spells], further⟩

theorem persists_bracketedHexDigits (flags : Flags) {allowance further : Nat}
    (enough : allowance ≤ further) :
    Persists (bracketedHexDigits? flags allowance) (bracketedHexDigits? flags further) := by
  induction allowance generalizing further with
  | zero =>
      intro text ended digits rest relation read
      cases read
  | succ allowance induction =>
      cases further with
      | zero => cases enough
      | succ further =>
          intro text ended digits rest relation read
          have skipped := relation.skip flags
          rw [bracketedHexDigits?] at read ⊢
          generalize skip flags text = text, skip flags ended = ended at read skipped ⊢
          split at read
          · cases read
          · cases read
            rcases skipped.of_cons with ⟨others, rfl, following⟩
            exact ⟨others, rfl, following⟩
          next first text other =>
            rcases skipped.of_cons with ⟨others, rfl, following⟩
            simp only [Option.bind_eq_bind, Option.bind_eq_some_iff] at read
            rcases read with ⟨digit, spelled, ⟨more, behind⟩, rest, read⟩
            cases read
            rcases induction (Nat.le_of_succ_le_succ enough) following rest with
              ⟨others, spells, further⟩
            exact ⟨others, by simp [spelled, spells], further⟩

theorem persists_hexEscape (flags : Flags) (digitCount : Nat) :
    Persists (hexEscape? flags digitCount) (hexEscape? flags digitCount) := by
  intro text ended character rest relation read
  have skipped := relation.skip flags
  unfold hexEscape? at read ⊢
  generalize skip flags text = text, skip flags ended = ended at read skipped ⊢
  split at read
  next inside =>
    rcases skipped.of_cons with ⟨others, rfl, following⟩
    simp only [Option.bind_eq_bind, Option.bind_eq_some_iff] at read
    rcases read with ⟨⟨digits, behind⟩, spelled, found, code, read⟩
    cases read
    rcases persists_bracketedHexDigits flags (Nat.succ_le_succ following.length_le) following
      spelled with ⟨others, spells, further⟩
    exact ⟨others, by simp [spells, code], further⟩
  next plain =>
    simp only [Option.bind_eq_bind, Option.bind_eq_some_iff] at read
    rcases read with ⟨⟨digits, behind⟩, spelled, found, code, read⟩
    cases read
    rcases persists_hexDigits flags digitCount skipped spelled with ⟨others, spells, further⟩
    refine ⟨others, ?_, further⟩
    split
    next inside => exact (skipped.ne_append ['\x7b'] plain (by decide) inside rfl).elim
    next => simp [spells, code]

def wordBoundaryNamed? (flags : Flags) (text : List Char) : Option (Anchor × List Char) :=
  match boundaryName flags text.length text with
  | (name, '\x7d' :: behind) =>
    (namedBoundary? (String.ofList name)).map fun anchor => (anchor, behind)
  | _ => none

theorem persists_wordBoundaryNamed (flags : Flags) :
    Persists (wordBoundaryNamed? flags) (wordBoundaryNamed? flags) := by
  intro text ended boundary rest relation read
  rcases relation.spell namesBoundary (by decide +kernel) flags (Nat.le_refl _) (Nat.le_refl _)
    with ⟨same, behind⟩
  unfold wordBoundaryNamed? at read ⊢
  rw [boundaryName_eq_spell] at read ⊢
  split at read
  next name left spelled =>
    rw [spelled] at same behind
    rcases behind.of_cons with ⟨left, spells, further⟩
    rcases Option.map_eq_some_iff.mp read with ⟨found, named, made⟩
    cases made
    rw [← Prod.eta (spell _ _ _ _), same, spells]
    exact ⟨left, congrArg (Option.map _) named, further⟩
  next => cases read

theorem wordBoundary?_bracket (flags : Flags) (inside : List Char) :
    wordBoundary? flags ('\x7b' :: inside) =
      match skip flags inside with
      | [] => none
      | first :: rest =>
        if namesBoundary first then wordBoundaryNamed? flags (first :: rest)
        else some (.wordBoundary .word, '\x7b' :: inside) := rfl

theorem persists_wordBoundary (flags : Flags) :
    Persists (wordBoundary? flags) (wordBoundary? flags) := by
  intro text ended boundary rest relation read
  by_cases bracket : ∃ inside, text = '\x7b' :: inside
  · rcases bracket with ⟨inside, rfl⟩
    rcases relation.of_cons with ⟨others, rfl, following⟩
    have skipped := following.skip flags
    rw [wordBoundary?_bracket] at read ⊢
    generalize skip flags inside = text, skip flags others = ended at read skipped ⊢
    cases text with
    | nil => cases read
    | cons first behind =>
        rcases skipped.of_cons with ⟨following, rfl, further⟩
        dsimp only at read ⊢
        split at read
        next names =>
          rw [if_pos names]
          exact persists_wordBoundaryNamed flags skipped read
        next other =>
          rw [if_neg other]
          cases read
          exact ⟨_, rfl, relation⟩
  · have plain {text : List Char} (other : ∀ inside, text = '\x7b' :: inside → False) :
        wordBoundary? flags text = some (.wordBoundary .word, text) := by
      rw [wordBoundary?]
      exact other
    have other := fun inside same => bracket ⟨inside, same⟩
    rw [plain other] at read
    cases read
    exact ⟨ended, plain (relation.ne_append ['\x7b'] other (by decide)), relation⟩

theorem persists_escape (flags : Flags) : Persists (escape? flags) (escape? flags) := by
  intro text ended escape rest relation read
  cases text with
  | nil => cases read
  | cons first text =>
      rcases relation.of_cons with ⟨others, rfl, following⟩
      unfold escape? at read ⊢
      dsimp only at read ⊢
      by_cases literal : isEscapable first
      · rw [if_pos literal] at read ⊢
        cases read
        exact ⟨others, rfl, following⟩
      · rw [if_neg literal] at read ⊢
        split at read
        case h_15 => exact (persists_wordBoundary flags).map Escape.anchor following read
        case h_19 => exact (persists_hexEscape flags 2).map Escape.literal following read
        case h_20 => exact (persists_hexEscape flags 4).map Escape.literal following read
        case h_21 => exact (persists_hexEscape flags 8).map Escape.literal following read
        case h_22 => cases read
        all_goals
          cases read
          exact ⟨others, rfl, following⟩

end Destructure.Regex
