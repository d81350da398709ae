import HornQuery.Proofs.Term.Occurrences
import HornQuery.Proofs.Token.Lexemes

namespace HornQuery.Term

open Token

/-! What may follow. -/

def Final (rest : List Token) : Prop :=
  ∀ token ∈ rest.head?, token.kind = .clauseEnd

/-- Nothing, the end of a clause or the closing bracket of what is read. -/
def Quiet (rest : List Token) : Prop :=
  ∀ token ∈ rest.head?, token.kind = .clauseEnd ∨ token.kind = .punctuation ')'

abbrev Alike (tokens others : List Token) : Prop :=
  others.map shape = tokens.map shape

section

variable {tokens others rest more : List Token} {taken size : Nat} {mark : Char}

theorem Final.quiet (final : Final rest) : Quiet rest :=
  fun token found => .inl (final token found)

theorem Alike.drop (alike : Alike tokens others) (count : Nat) :
    Alike (tokens.drop count) (others.drop count) := by
  rw [Alike, List.map_drop, List.map_drop, alike]

theorem Alike.length_eq (alike : Alike tokens others) : others.length = tokens.length := by
  rw [← List.length_map, alike, List.length_map]

theorem Alike.kinds (alike : Alike tokens others) :
    others.map Token.kind = tokens.map Token.kind := by
  have same := congrArg (List.map Prod.fst) alike
  rwa [List.map_map, List.map_map] at same

theorem Alike.exists_cons {token : Token} (alike : Alike (token :: tokens) others) :
    ∃ other later, others = other :: later ∧ shape other = shape token ∧ Alike tokens later := by
  obtain ⟨other, later, rfl, same, alike⟩ := List.map_eq_cons_iff.mp alike
  exact ⟨other, later, rfl, same, alike⟩

theorem drop_append_of_le (within : taken ≤ tokens.length) (rest : List Token) :
    (tokens ++ rest).drop taken = tokens.drop taken ++ rest :=
  List.drop_append_of_le_length within

/-- What is decided by the kind and the layout of the next token, and not by an end. -/
structure LooksAhead {β : Type} (look : List Token → β) (silent : β) : Prop where
  head : ∀ token other rest more, shape other = shape token →
    look (other :: more) = look (token :: rest)
  quiet : ∀ rest, Quiet rest → look rest = silent

theorem LooksAhead.eq {β : Type} {look : List Token → β} {silent : β}
    (looks : LooksAhead look silent) (alike : Alike tokens others) (quiet : Quiet rest)
    (quietMore : Quiet more) : look (others ++ more) = look (tokens ++ rest) := by
  cases tokens with
  | nil =>
      obtain rfl := List.map_eq_nil_iff.mp alike
      rw [List.nil_append, List.nil_append, looks.quiet _ quiet, looks.quiet _ quietMore]
  | cons token tokens =>
      obtain ⟨other, later, rfl, same, _⟩ := alike.exists_cons
      exact looks.head token other _ _ same

theorem LooksAhead.eq_drop {β : Type} {look : List Token → β} {silent : β}
    (looks : LooksAhead look silent) (within : taken ≤ tokens.length) (alike : Alike tokens others)
    (quiet : Quiet rest) (quietMore : Quiet more) :
    look ((others ++ more).drop taken) = look ((tokens ++ rest).drop taken) := by
  rw [drop_append_of_le within, drop_append_of_le (alike.length_eq ▸ within)]
  exact looks.eq (alike.drop taken) quiet quietMore

theorem isMark_congr {token other : Token} (same : shape other = shape token) (mark : Char) :
    other.isMark mark = token.isMark mark := by
  rw [Token.isMark, Token.isMark, (Prod.mk.inj same).1]

theorem joining?_congr {token other : Token} {bound : Nat} {left : Operand}
    (same : shape other = shape token) : joining? bound left other = joining? bound left token := by
  rw [joining?, joining?, infixName?, infixName?, (Prod.mk.inj same).1]

theorem looksAhead_startsWithMark (noBracket : mark ≠ ')') :
    LooksAhead (startsWithMark mark) false := by
  constructor
  · intro token other rest more same
    exact isMark_congr same mark
  · intro rest quiet
    cases rest with
    | nil => rfl
    | cons token rest =>
        rcases quiet token rfl with ends | closes
        · simp [startsWithMark, Token.isMark, ends]
        · simp [startsWithMark, Token.isMark, closes, noBracket.symm]

theorem looksAhead_argumentsFollow : LooksAhead argumentsFollow false := by
  constructor
  · intro token other rest more same
    simp [argumentsFollow, isMark_congr same, (Prod.mk.inj same).2]
  · intro rest quiet
    cases rest with
    | nil => rfl
    | cons token rest =>
        rcases quiet token rfl with ends | closes
        · simp [argumentsFollow, Token.isMark, ends]
        · simp [argumentsFollow, Token.isMark, closes]

theorem looksAhead_operandFollows : LooksAhead operandFollows false := by
  constructor
  · intro token other rest more same
    simp [operandFollows, (Prod.mk.inj same).1]
  · intro rest quiet
    cases rest with
    | nil => rfl
    | cons token rest =>
        rcases quiet token rfl with ends | closes
        · simp [operandFollows, ends]
        · simp [operandFollows, closes]

theorem looksAhead_readNegative? :
    LooksAhead (fun tokens => (readNegative? tokens).map Except.toOption) none := by
  constructor
  · intro token other rest more same
    obtain ⟨kind, layout⟩ := Prod.mk.inj same
    simp only [readNegative?, kind, layout]
    split
    case isTrue => rfl
    case isFalse =>
      split
      case h_1 => split <;> rfl
      case h_2 => rfl
      case h_3 => rfl
  · intro rest quiet
    cases rest with
    | nil => rfl
    | cons token rest =>
        rcases quiet token rfl with ends | closes
        · simp [readNegative?, ends]
        · simp [readNegative?, closes]

theorem stops_of_quiet (quiet : Quiet rest) (bound : Nat) : Stops bound rest := by
  refine ⟨looksAhead_argumentsFollow.quiet rest quiet, ?_⟩
  intro token found name operator named
  rcases quiet token found with ends | closes
  · simp [infixName?, ends] at named
  · simp [infixName?, closes] at named

/-- What a name begins: a compound in functional notation, a term that takes some of the tokens
after it but nothing that nests, or a prefix operator. -/
inductive NameUse
  | functional
  | leaf (term : Term) (taken : Nat)
  | applied (operator : PrefixOperator)
  | refused

def nameUse (name : String) (isQuoted : Bool) (tokens : List Token) : NameUse :=
  if argumentsFollow tokens then .functional
  else if isQuoted then .leaf (.atom name) 0
  else
    match (if name = "-" then readNegative? tokens else none).map Except.toOption with
    | some (some term) => .leaf term 1
    | some none => .refused
    | none =>
        match if operandFollows tokens then prefixOperator? name else none with
        | some operator => .applied operator
        | none => .leaf (.atom name) 0

theorem readName_of_use (size : Nat) (reader : OperandReader) (name : String) (isQuoted : Bool)
    (bound : Nat) (tokens : List Token) :
    match nameUse name isQuoted tokens with
    | .functional => readName size reader name isQuoted bound tokens = (do
        let (args, taken) ← readArguments reader (tokens.drop 1)
        expectMark size ')' (tokens.drop (1 + taken))
        .ok (⟨.compound name args, 0⟩, 1 + taken + 1))
    | .leaf term taken => readName size reader name isQuoted bound tokens = .ok (⟨term, 0⟩, taken)
    | .applied operator => readName size reader name isQuoted bound tokens = (do
        let (arg, taken) ← reader (operator.fixity.bound (min operator.priority bound)) tokens
        .ok (⟨.compound name [arg.term], min operator.priority bound⟩, taken))
    | .refused => ∃ cause, readName size reader name isQuoted bound tokens = .error cause := by
  unfold readName nameUse
  by_cases follows : argumentsFollow tokens = true
  · simp only [if_pos follows]
  simp only [if_neg follows]
  by_cases quoted : isQuoted = true
  · simp only [if_pos quoted]
  simp only [if_neg quoted]
  generalize (if name = "-" then readNegative? tokens else none) = negative?
  cases negative? with
  | some negative =>
      cases negative with
      | error cause => exact ⟨cause, rfl⟩
      | ok term => rfl
  | none =>
      generalize (if operandFollows tokens then prefixOperator? name else none) = operator?
      cases operator? with
      | some operator => rfl
      | none => rfl

theorem startsWithMark_of_functional {name : String} {isQuoted : Bool}
    (functional : nameUse name isQuoted tokens = .functional) :
    startsWithMark '(' tokens = true := by
  cases follows : argumentsFollow tokens with
  | true => exact startsWithMark_of_argumentsFollow follows
  | false =>
      simp only [nameUse, follows, Bool.false_eq_true, if_false] at functional
      split at functional
      case isTrue => cases functional
      case isFalse =>
        split at functional
        case h_1 => cases functional
        case h_2 => cases functional
        case h_3 => split at functional <;> cases functional

theorem taken_le_of_nameUse {name : String} {isQuoted : Bool} {term : Term}
    (leaf : nameUse name isQuoted tokens = .leaf term taken) : taken ≤ tokens.length := by
  unfold nameUse at leaf
  cases tokens with
  | nil =>
      have noNumber : (if name = "-" then readNegative? [] else none) = none := by
        split <;> rfl
      simp [argumentsFollow, operandFollows, noNumber] at leaf
      omega
  | cons token later =>
      split at leaf
      case isTrue => cases leaf
      case isFalse =>
        split at leaf
        case isTrue =>
          cases leaf
          exact Nat.zero_le _
        case isFalse =>
          split at leaf
          case h_1 =>
            cases leaf
            exact Nat.le_add_left 1 later.length
          case h_2 => cases leaf
          case h_3 =>
            split at leaf
            case h_1 => cases leaf
            case h_2 =>
              cases leaf
              exact Nat.zero_le _

theorem looksAhead_nameUse (name : String) (isQuoted : Bool) :
    LooksAhead (nameUse name isQuoted) (.leaf (.atom name) 0) := by
  have number : LooksAhead
      (fun tokens => (if name = "-" then readNegative? tokens else none).map Except.toOption)
      none := by
    split
    case isTrue => exact looksAhead_readNegative?
    case isFalse => exact ⟨fun _ _ _ _ _ => rfl, fun _ _ => rfl⟩
  constructor
  · intro token other rest more same
    have sameNumber := number.head token other rest more same
    simp only [nameUse, looksAhead_argumentsFollow.head token other rest more same, sameNumber,
      looksAhead_operandFollows.head token other rest more same]
  · intro rest quiet
    have noNumber := number.quiet rest quiet
    simp [nameUse, looksAhead_argumentsFollow.quiet rest quiet, noNumber,
      looksAhead_operandFollows.quiet rest quiet]

/-- A mark that is found among the tokens is there in another text, too, and so are the tokens
after it. -/
theorem exists_mark (final : Final rest) (within : taken ≤ tokens.length)
    (starts : startsWithMark mark ((tokens ++ rest).drop taken) = true) :
    ∃ later, taken + 1 + later.length = tokens.length ∧
      (∃ token, (tokens ++ rest).drop taken = token :: (later ++ rest) ∧
        token.isMark mark = true) ∧
      ∀ others more, Alike tokens others → ∃ other last,
        (others ++ more).drop taken = other :: (last ++ more) ∧ other.isMark mark = true ∧
          Alike later last := by
  rw [drop_append_of_le within] at starts ⊢
  cases remains : tokens.drop taken with
  | nil =>
      rw [remains, List.nil_append] at starts
      cases rest with
      | nil => cases starts
      | cons token rest => simp [startsWithMark, Token.isMark, final token rfl] at starts
  | cons token later =>
      have length := congrArg List.length remains
      rw [List.length_drop, List.length_cons] at length
      rw [remains] at starts
      refine ⟨later, by omega, ⟨token, rfl, starts⟩, ?_⟩
      intro others more alike
      obtain ⟨other, last, same, shaped, alikeLater⟩ :=
        (remains ▸ alike.drop taken : Alike (token :: later) _).exists_cons
      rw [drop_append_of_le (alike.length_eq ▸ within), same]
      exact ⟨other, last, rfl, (isMark_congr shaped mark).trans starts, alikeLater⟩

theorem expectMark_alike (final : Final rest) (within : taken ≤ tokens.length)
    (expected : expectMark size mark ((tokens ++ rest).drop taken) = .ok ()) :
    taken < tokens.length ∧ ∀ size others more, Alike tokens others →
      expectMark size mark ((others ++ more).drop taken) = .ok () := by
  obtain ⟨later, length, _, again⟩ :=
    exists_mark final within (startsWithMark_of_expectMark expected)
  refine ⟨by omega, ?_⟩
  intro size others more alike
  obtain ⟨other, last, next, isMark, _⟩ := again others more alike
  rw [next]
  exact if_pos isMark

end

/-! Readings that need a number of levels. -/

/-- The value is read from the tokens alone, and exactly if there are so many levels. -/
structure ReadsFrom {α : Type} (read : Nat → Nat → List Token → Except ReadError (α × Nat))
    (depth : Nat) (tokens : List Token) (value : α) (taken : Nat) : Prop where
  within : taken ≤ tokens.length
  again : ∀ size levels others rest, Alike tokens others → Quiet rest →
    ReadsIf (depth ≤ levels) (read size levels (others ++ rest)) (value, taken)

/-- Whatever is read with so many levels needs a number of them. -/
def Nests {α : Type} (levels : Nat)
    (read : Nat → Nat → List Token → Except ReadError (α × Nat)) : Prop :=
  ∀ {size tokens rest value taken}, Final rest →
    read size levels (tokens ++ rest) = .ok (value, taken) →
    ∃ depth ≤ levels, ReadsFrom read depth tokens value taken

/-- Two readings one after the other need the levels of both. -/
theorem ReadsAs.seq {α β : Type} {first second levels : Nat} {result : Except ReadError α}
    {value : α} {next : α → Except ReadError β} {found : β}
    (reads : ReadsIf (first ≤ levels) result value)
    (continues : ReadsIf (second ≤ levels) (next value) found) :
    ReadsIf (max first second ≤ levels) (result >>= next) found :=
  ((reads.bind next).trans fun _ => continues).congr Nat.max_le.symm

section

variable {levels : Nat}
  (operand : ∀ bound, Nests levels fun size levels => readOperand size levels bound)
include operand

theorem nests_readBracketed (mark : Char) :
    Nests levels fun size levels => readBracketed size mark (readOperand size levels) := by
  intro size tokens rest inner taken final read
  obtain ⟨⟨found, count⟩, isFound, continued⟩ := bind_eq_ok.mp read
  obtain ⟨_, closed, done⟩ := bind_eq_ok.mp continued
  cases done
  obtain ⟨depth, shallow, inside⟩ := operand clauseBound final isFound
  obtain ⟨closes, closedAgain⟩ := expectMark_alike final inside.within closed
  refine ⟨depth, shallow, closes, ?_⟩
  intro size levels others more alike quiet
  exact (inside.again size levels others more alike quiet).bind_ok
    (bind_eq_ok.mpr ⟨(), closedAgain size others more alike, rfl⟩)

theorem nests_readArguments :
    Nests levels fun size levels => readArguments (readOperand size levels) := by
  intro size tokens rest args taken final read
  -- The arguments after a comma are read from fewer tokens.
  induction counted : tokens.length using Nat.strongRecOn generalizing tokens args taken with
  | ind length induction =>
      simp only at read
      obtain ⟨⟨first, count⟩, found, _⟩ :=
        bind_eq_ok.mp ((readArguments.eq_def _ _).symm.trans read)
      obtain ⟨depth, shallow, inside⟩ := operand argumentBound final found
      have comma := @looksAhead_startsWithMark ',' (by decide)
      cases separated : startsWithMark ',' ((tokens ++ rest).drop count) with
      | false =>
          rw [readArguments_last found separated] at read
          cases read
          refine ⟨depth, shallow, inside.within, ?_⟩
          intro size levels others more alike quiet
          have again := inside.again size levels others more alike quiet
          have last : startsWithMark ',' ((others ++ more).drop taken) = false :=
            (comma.eq_drop inside.within alike final.quiet quiet).trans separated
          exact readsIf_arguments_last again last
      | true =>
          obtain ⟨later, length, ⟨token, next, isComma⟩, nextOther⟩ :=
            exists_mark final inside.within separated
          simp only [readArguments_more found next isComma] at read
          obtain ⟨⟨terms, more⟩, foundTerms, done⟩ := bind_eq_ok.mp read
          cases done
          obtain ⟨deeper, alsoShallow, afterwards⟩ :=
            induction later.length (by omega) foundTerms rfl
          have within := afterwards.within
          refine ⟨max depth deeper, Nat.max_le.mpr ⟨shallow, alsoShallow⟩, by omega, ?_⟩
          intro size levels others rest alike quiet
          obtain ⟨other, last, next, isComma, alikeLater⟩ := nextOther others rest alike
          have reads := inside.again size levels others rest alike quiet
          have readsLater := afterwards.again size levels last rest alikeLater quiet
          exact ReadsAs.congr (readsIf_arguments_more reads next isComma readsLater)
            Nat.max_le.symm

theorem nests_readList :
    Nests levels fun size levels => readList size (readOperand size levels) := by
  intro size tokens rest list taken final read
  have closing := @looksAhead_startsWithMark ']' (by decide)
  have bar := @looksAhead_startsWithMark '|' (by decide)
  simp only [readList] at read
  cases closed : startsWithMark ']' (tokens ++ rest) with
  | true =>
      rw [if_pos closed] at read
      cases read
      obtain ⟨later, length, _⟩ :=
        @exists_mark tokens rest 0 ']' final (Nat.zero_le _) closed
      refine ⟨0, Nat.zero_le _, by omega, ?_⟩
      intro size levels others more alike quiet
      refine .of_eq (Nat.zero_le levels) ?_
      simp only [readList]
      rw [closing.eq alike final.quiet quiet, if_pos closed]
  | false =>
      rw [if_neg (by rw [closed]; exact Bool.false_ne_true)] at read
      obtain ⟨⟨items, count⟩, foundItems, continued⟩ := bind_eq_ok.mp read
      obtain ⟨depth, shallow, inside⟩ := nests_readArguments operand final foundItems
      simp only at continued
      split at continued
      case isTrue separated =>
        obtain ⟨later, length, ⟨token, next, _⟩, nextOther⟩ :=
          exists_mark final inside.within separated
        rw [next, List.drop_succ_cons, List.drop_zero] at continued
        obtain ⟨⟨tail, more⟩, foundTail, continued⟩ := bind_eq_ok.mp continued
        obtain ⟨_, expected, done⟩ := bind_eq_ok.mp continued
        cases done
        obtain ⟨deeper, alsoShallow, afterwards⟩ := operand argumentBound final foundTail
        rw [Nat.add_comm 1, List.drop_succ_cons] at expected
        obtain ⟨closes, closedAgain⟩ := expectMark_alike final afterwards.within expected
        refine ⟨max depth deeper, Nat.max_le.mpr ⟨shallow, alsoShallow⟩, by omega, ?_⟩
        intro size levels others rest alike quiet
        obtain ⟨other, last, next, isBar, alikeLater⟩ := nextOther others rest alike
        have reads := inside.again size levels others rest alike quiet
        have readsLater := afterwards.again size levels last rest alikeLater quiet
        simp only [readList]
        rw [closing.eq alike final.quiet quiet, if_neg (by rw [closed]; exact Bool.false_ne_true)]
        refine reads.seq ?_
        have separated : startsWithMark '|' (other :: (last ++ rest)) = true := isBar
        simp only [next]
        rw [if_pos separated, List.drop_succ_cons, List.drop_zero]
        refine readsLater.bind_ok (bind_eq_ok.mpr ⟨(), ?_, rfl⟩)
        rw [Nat.add_comm 1, List.drop_succ_cons]
        exact closedAgain size last rest alikeLater
      case isFalse bare =>
        obtain ⟨_, expected, done⟩ := bind_eq_ok.mp continued
        cases done
        obtain ⟨closes, closedAgain⟩ := expectMark_alike final inside.within expected
        refine ⟨depth, shallow, closes, ?_⟩
        intro size levels others more alike quiet
        simp only [readList]
        rw [closing.eq alike final.quiet quiet, if_neg (by rw [closed]; exact Bool.false_ne_true)]
        refine (inside.again size levels others more alike quiet).bind_ok ?_
        rw [← bar.eq_drop inside.within alike final.quiet quiet] at bare
        exact (if_neg bare).trans
          (bind_eq_ok.mpr ⟨(), closedAgain size others more alike, rfl⟩)

theorem nests_functional {name : String} {isQuoted : Bool} {size bound taken : Nat}
    {tokens rest : List Token} {result : Operand} (final : Final rest)
    (functional : nameUse name isQuoted (tokens ++ rest) = .functional)
    (read : readName size (readOperand size levels) name isQuoted bound (tokens ++ rest) =
      .ok (result, taken)) :
    ∃ depth ≤ levels, ReadsFrom
      (fun size levels => readName size (readOperand size levels) name isQuoted bound) depth tokens
      result taken := by
  have form := fun size levels tokens =>
    readName_of_use size (readOperand size levels) name isQuoted bound tokens
  have looks := looksAhead_nameUse name isQuoted
  have here := form size levels (tokens ++ rest)
  simp only [functional] at here
  rw [here] at read
  obtain ⟨⟨args, count⟩, foundArgs, continued⟩ := bind_eq_ok.mp read
  obtain ⟨_, expected, done⟩ := bind_eq_ok.mp continued
  cases done
  have opens : startsWithMark '(' ((tokens ++ rest).drop 0) = true :=
    startsWithMark_of_functional functional
  obtain ⟨later, length, ⟨token, next, _⟩, nextOther⟩ :=
    exists_mark final (Nat.zero_le _) opens
  rw [List.drop_zero] at next
  rw [next, List.drop_succ_cons, List.drop_zero] at foundArgs
  rw [next, Nat.add_comm 1, List.drop_succ_cons] at expected
  obtain ⟨depth, shallow, inside⟩ := nests_readArguments operand final foundArgs
  obtain ⟨closes, closedAgain⟩ := expectMark_alike final inside.within expected
  refine ⟨depth, shallow, by omega, ?_⟩
  intro size levels others more alike quiet
  obtain ⟨other, last, next, _, alikeLater⟩ := nextOther others more alike
  have there := form size levels (others ++ more)
  simp only [looks.eq alike final.quiet quiet, functional] at there
  rw [List.drop_zero] at next
  simp only [there]
  rw [next, List.drop_succ_cons, List.drop_zero]
  refine (inside.again size levels last more alikeLater quiet).bind_ok
    (bind_eq_ok.mpr ⟨(), ?_, rfl⟩)
  rw [Nat.add_comm 1, List.drop_succ_cons]
  exact closedAgain size last more alikeLater

theorem nests_readName (name : String) (isQuoted : Bool) (bound : Nat) :
    Nests levels fun size levels =>
      readName size (readOperand size levels) name isQuoted bound := by
  intro size tokens rest result taken final read
  have form := fun size levels tokens =>
    readName_of_use size (readOperand size levels) name isQuoted bound tokens
  have looks := looksAhead_nameUse name isQuoted
  have here := form size levels (tokens ++ rest)
  cases use : nameUse name isQuoted (tokens ++ rest) with
  | functional => exact nests_functional operand final use read
  | leaf term count =>
      simp only [use] at here
      simp only [here] at read
      cases read
      have within : taken ≤ tokens.length := by
        have nothing : Quiet [] := nofun
        have alone := looks.eq (rfl : Alike tokens tokens) final.quiet nothing
        rw [List.append_nil] at alone
        exact taken_le_of_nameUse (alone.trans use)
      refine ⟨0, Nat.zero_le _, within, ?_⟩
      intro size levels others more alike quiet
      have there := form size levels (others ++ more)
      simp only [looks.eq alike final.quiet quiet, use] at there
      exact .of_eq (Nat.zero_le _) there
  | applied operator =>
      simp only [use] at here
      simp only [here] at read
      obtain ⟨⟨arg, count⟩, foundArg, done⟩ := bind_eq_ok.mp read
      cases done
      obtain ⟨depth, shallow, inside⟩ := operand _ final foundArg
      refine ⟨depth, shallow, inside.within, ?_⟩
      intro size levels others more alike quiet
      have there := form size levels (others ++ more)
      simp only [looks.eq alike final.quiet quiet, use] at there
      simp only [there]
      exact (inside.again size levels others more alike quiet).bind_ok rfl
  | refused =>
      simp only [use] at here
      obtain ⟨cause, refused⟩ := here
      simp only [refused] at read
      cases read

theorem nests_readMark {mark : Char} {size bound taken : Nat} {token : Token}
    {tokens rest : List Token} {result : Operand} (final : Final rest)
    (kind : token.kind = .punctuation mark)
    (read : readPrimary size (readOperand size levels) bound token (tokens ++ rest) =
      .ok (result, taken)) :
    ∃ depth ≤ levels, ∀ other : Token, other.kind = token.kind →
      ReadsFrom (fun size levels => readPrimary size (readOperand size levels) bound other) depth
        tokens result taken := by
  simp only [readPrimary, kind] at read
  split at read
  case isTrue round =>
    obtain ⟨⟨inner, count⟩, found, done⟩ := bind_eq_ok.mp read
    cases done
    obtain ⟨depth, shallow, inside⟩ := nests_readBracketed operand ')' final found
    refine ⟨depth, shallow, fun other same => ⟨inside.within, ?_⟩⟩
    intro size levels others more alike quiet
    simp only [readPrimary, same, kind, if_pos round]
    exact (inside.again size levels others more alike quiet).bind_ok rfl
  case isFalse noRound =>
    split at read
    case isTrue square =>
      obtain ⟨⟨items, count⟩, found, done⟩ := bind_eq_ok.mp read
      cases done
      obtain ⟨depth, shallow, inside⟩ := nests_readList operand final found
      refine ⟨depth, shallow, fun other same => ⟨inside.within, ?_⟩⟩
      intro size levels others more alike quiet
      simp only [readPrimary, same, kind, if_neg noRound, if_pos square]
      exact (inside.again size levels others more alike quiet).bind_ok rfl
    case isFalse noSquare =>
      split at read
      case isTrue curly =>
        have closing := @looksAhead_startsWithMark '\x7d' (by decide)
        split at read
        case isTrue closed =>
          cases read
          obtain ⟨later, length, _⟩ :=
            @exists_mark tokens rest 0 '\x7d' final (Nat.zero_le _) closed
          refine ⟨0, Nat.zero_le _, fun other same => ⟨by omega, ?_⟩⟩
          intro size levels others more alike quiet
          refine .of_eq (Nat.zero_le levels) ?_
          simp only [readPrimary, same, kind, if_neg noRound, if_neg noSquare, if_pos curly]
          rw [closing.eq alike final.quiet quiet, if_pos closed]
        case isFalse notClosed =>
          obtain ⟨⟨inner, count⟩, found, done⟩ := bind_eq_ok.mp read
          cases done
          obtain ⟨depth, shallow, inside⟩ := nests_readBracketed operand '\x7d' final found
          refine ⟨depth, shallow, fun other same => ⟨inside.within, ?_⟩⟩
          intro size levels others more alike quiet
          simp only [readPrimary, same, kind, if_neg noRound, if_neg noSquare, if_pos curly]
          rw [closing.eq alike final.quiet quiet, if_neg notClosed]
          exact (inside.again size levels others more alike quiet).bind_ok rfl
      case isFalse => cases read

theorem nests_readPrimary {size bound taken : Nat} {token : Token} {tokens rest : List Token}
    {result : Operand} (final : Final rest)
    (read : readPrimary size (readOperand size levels) bound token (tokens ++ rest) =
      .ok (result, taken)) :
    ∃ depth ≤ levels, ∀ other : Token, other.kind = token.kind →
      ReadsFrom (fun size levels => readPrimary size (readOperand size levels) bound other) depth
        tokens result taken := by
  have alone : ∀ {found : Operand × Nat} {term : Term},
      Except.ok (ε := ReadError) (⟨term, 0⟩, 0) = .ok found →
      (∀ other : Token, other.kind = token.kind → ∀ size levels rest,
        readPrimary size (readOperand size levels) bound other rest = .ok (⟨term, 0⟩, 0)) →
      ∃ depth ≤ levels, ∀ other : Token, other.kind = token.kind →
        ReadsFrom (fun size levels => readPrimary size (readOperand size levels) bound other)
          depth tokens found.1 found.2 := by
    intro found term same leaf
    cases same
    refine ⟨0, Nat.zero_le _, fun other same => ⟨Nat.zero_le _, ?_⟩⟩
    intro size levels others more _ _
    exact .of_eq (Nat.zero_le levels) (leaf other same size levels _)
  cases kind : token.kind with
  | integer magnitude =>
      simp only [readPrimary, kind] at read
      split at read
      case isTrue small =>
        refine kind ▸ alone read fun other same size levels rest => ?_
        simp only [readPrimary, same, kind, if_pos small]
      case isFalse => cases read
  | float value =>
      simp only [readPrimary, kind] at read
      refine kind ▸ alone read fun other same size levels rest => ?_
      simp only [readPrimary, same, kind]
  | var name =>
      simp only [readPrimary, kind] at read
      refine kind ▸ alone read fun other same size levels rest => ?_
      simp only [readPrimary, same, kind]
  | string text =>
      simp only [readPrimary, kind] at read
      refine kind ▸ alone read fun other same size levels rest => ?_
      simp only [readPrimary, same, kind]
  | clauseEnd =>
      simp only [readPrimary, kind] at read
      cases read
  | name name =>
      simp only [readPrimary, kind] at read
      obtain ⟨depth, shallow, inside⟩ := nests_readName operand name false bound final read
      refine ⟨depth, shallow, fun other same => ⟨inside.within, ?_⟩⟩
      simp only [readPrimary, same]
      exact inside.again
  | quoted name =>
      simp only [readPrimary, kind] at read
      obtain ⟨depth, shallow, inside⟩ := nests_readName operand name true bound final read
      refine ⟨depth, shallow, fun other same => ⟨inside.within, ?_⟩⟩
      simp only [readPrimary, same]
      exact inside.again
  | punctuation mark => exact kind ▸ nests_readMark operand final kind read

theorem nests_readInfix (bound : Nat) (left : Operand) :
    Nests levels fun size levels => readInfix (readOperand size levels) bound left := by
  intro size tokens rest result taken final read
  -- Each operator joins the term so far with its right operand and goes on with fewer tokens.
  induction counted : tokens.length using Nat.strongRecOn generalizing tokens left taken with
  | ind length induction =>
      simp only at read
      cases tokens with
      | nil =>
          rw [List.nil_append, readInfix_of_stops (stops_of_quiet final.quiet bound)] at read
          cases read
          refine ⟨0, Nat.zero_le _, Nat.zero_le _, ?_⟩
          intro size levels others more alike quiet
          obtain rfl := List.map_eq_nil_iff.mp alike
          exact .of_eq (Nat.zero_le _) (readInfix_of_stops (stops_of_quiet quiet bound) _ _)
      | cons token later =>
          simp only [List.cons_append, readInfix_cons] at read
          cases joins : joining? bound left token with
          | none =>
              rw [joins] at read
              cases read
              refine ⟨0, Nat.zero_le _, Nat.zero_le _, ?_⟩
              intro size levels others more alike quiet
              obtain ⟨other, last, rfl, shaped, _⟩ := alike.exists_cons
              refine .of_eq (Nat.zero_le _) ?_
              simp only [List.cons_append, readInfix_cons, joining?_congr shaped, joins]
          | some sign =>
              rw [joins] at read
              obtain ⟨⟨right, count⟩, foundRight, continued⟩ := bind_eq_ok.mp read
              obtain ⟨⟨last, more⟩, foundLast, done⟩ := bind_eq_ok.mp continued
              cases done
              obtain ⟨depth, shallow, inside⟩ := operand _ final foundRight
              have within := inside.within
              have fewer : (later.drop count).length < length := by
                rw [← counted, List.length_drop, List.length_cons]
                omega
              simp only at foundLast
              rw [drop_append_of_le within] at foundLast
              obtain ⟨deeper, alsoShallow, afterwards⟩ := induction _ fewer _ foundLast rfl
              have remaining := afterwards.within
              rw [List.length_drop] at remaining
              refine ⟨max depth deeper, Nat.max_le.mpr ⟨shallow, alsoShallow⟩,
                by rw [List.length_cons]; omega, ?_⟩
              intro size levels others rest alike quiet
              obtain ⟨other, latter, rfl, shaped, alikeLater⟩ := alike.exists_cons
              simp only [List.cons_append, readInfix_cons, joining?_congr shaped, joins]
              refine (inside.again size levels latter rest alikeLater quiet).seq ?_
              simp only
              rw [drop_append_of_le (alikeLater.length_eq ▸ within)]
              exact (afterwards.again size levels _ rest (alikeLater.drop count) quiet).bind_ok rfl

end

/-! Levels and whole texts. -/

theorem nests_readOperand (levels bound : Nat) :
    Nests levels fun size levels => readOperand size levels bound := by
  induction levels generalizing bound with
  | zero =>
      intro size tokens rest value taken final read
      cases read
  | succ levels induction =>
      intro size tokens rest value taken final read
      simp only [readOperand, readLevel] at read
      cases tokens with
      | nil =>
          cases rest with
          | nil => cases read
          | cons token rest =>
              obtain ⟨⟨first, count⟩, found, _⟩ := bind_eq_ok.mp read
              simp only [readPrimary, final token rfl] at found
              cases found
      | cons token later =>
          obtain ⟨⟨first, count⟩, foundFirst, continued⟩ := bind_eq_ok.mp read
          obtain ⟨⟨result, more⟩, foundLast, done⟩ := bind_eq_ok.mp continued
          cases done
          obtain ⟨depth, shallow, inside⟩ := nests_readPrimary induction final foundFirst
          have within := (inside token rfl).within
          simp only at foundLast
          rw [List.append_eq, drop_append_of_le within] at foundLast
          obtain ⟨deeper, alsoShallow, afterwards⟩ :=
            nests_readInfix induction bound first final foundLast
          have last := afterwards.within
          rw [List.length_drop] at last
          refine ⟨max depth deeper + 1, Nat.succ_le_succ (Nat.max_le.mpr ⟨shallow, alsoShallow⟩),
            by rw [List.length_cons]; omega, ?_⟩
          intro size levels others rest alike quiet
          obtain ⟨other, latter, rfl, shaped, alikeLater⟩ := alike.exists_cons
          cases levels with
          | zero => exact ⟨fun fits => absurd fits (Nat.not_succ_le_zero _), fun _ => ⟨_, rfl⟩⟩
          | succ levels =>
              simp only [readOperand, readLevel, List.cons_append]
              refine ReadsAs.congr (ReadsAs.seq ((inside other (Prod.mk.inj shaped).1).again
                size levels latter rest alikeLater quiet) ?_) Nat.add_le_add_iff_right.symm
              simp only
              rw [drop_append_of_le (alikeLater.length_eq ▸ within)]
              exact (afterwards.again size levels _ rest (alikeLater.drop count) quiet).bind_ok rfl

theorem taken_pos {size levels bound taken : Nat} {tokens : List Token} {result : Operand}
    (read : readOperand size levels bound tokens = .ok (result, taken)) : 0 < taken := by
  cases levels with
  | zero => cases read
  | succ levels =>
      simp only [readOperand, readLevel] at read
      cases tokens with
      | nil => cases read
      | cons token rest =>
          obtain ⟨_, _, continued⟩ := bind_eq_ok.mp read
          obtain ⟨_, _, done⟩ := bind_eq_ok.mp continued
          cases done
          omega

theorem ofTokens_afterLayout (size : Nat) (tokens : List Token) :
    ofTokens size (afterLayout tokens) = ofTokens size tokens := by
  cases tokens with
  | nil => rfl
  | cons token others =>
      have same := readOperand_afterLayout size maxDepth clauseBound (token :: others)
      rw [ofTokens, ofTokens, same]
      cases read : readOperand size maxDepth clauseBound (token :: others) with
      | error cause => rfl
      | ok found =>
          obtain ⟨count, more⟩ : ∃ count, found.2 = count + 1 :=
            ⟨found.2 - 1, (Nat.sub_add_cancel (taken_pos read)).symm⟩
          simp only [bind, Except.bind, more]
          rfl

/-! Tokens with or without white space before them. -/

theorem readOperand_spaced {all tokens : List Token}
    (same : all = tokens ∨ all = afterLayout tokens) (size levels bound : Nat) :
    readOperand size levels bound all = readOperand size levels bound tokens := by
  rcases same with rfl | rfl
  · rfl
  · exact readOperand_afterLayout size levels bound tokens

theorem ofTokens_spaced {all tokens : List Token}
    (same : all = tokens ∨ all = afterLayout tokens) (size : Nat) :
    ofTokens size all = ofTokens size tokens := by
  rcases same with rfl | rfl
  · rfl
  · exact ofTokens_afterLayout size tokens

theorem final_of_onlyEnds {rest : List Token} (ends : OnlyEnds rest) : Final rest :=
  fun token found => ends token (List.mem_of_mem_head? found)

/-- A text that is read whole is read from all its tokens but the end of its clause. -/
theorem exists_depth {size : Nat} {inside ends : List Token} {term : Term}
    (onlyEnds : OnlyEnds ends) (last : inside.getLast?.any isEnd = true → ends ≠ [])
    (read : ofTokens size (inside ++ ends) = .ok term) :
    ends.length ≤ 1 ∧ ∃ depth ≤ maxDepth, ∃ priority,
      ReadsFrom (fun size levels => readOperand size levels clauseBound) depth inside
        ⟨term, priority⟩ inside.length := by
  obtain ⟨result, taken, found, rfl, rest⟩ := ofTokens_eq_ok read
  obtain ⟨depth, shallow, reads⟩ :=
    nests_readOperand maxDepth clauseBound (final_of_onlyEnds onlyEnds) found
  have within := reads.within
  rw [drop_append_of_le within] at rest
  have whole : taken = inside.length ∧ ends.length ≤ 1 := by
    rcases rest with none | ⟨token, single, isEnd⟩
    · obtain ⟨all, rfl⟩ := List.append_eq_nil_iff.mp none
      exact ⟨Nat.le_antisymm within (List.drop_eq_nil_iff.mp all), Nat.zero_le 1⟩
    · rcases List.append_eq_singleton_iff.mp single with ⟨all, rfl⟩ | ⟨remains, rfl⟩
      · exact ⟨Nat.le_antisymm within (List.drop_eq_nil_iff.mp all), Nat.le_refl 1⟩
      · -- The end of the clause would be the last token inside.
        refine absurd rfl (last ?_)
        rw [← List.take_append_drop taken inside, remains, List.getLast?_concat]
        simp [Token.isEnd, isEnd]
  obtain ⟨rfl, single⟩ := whole
  exact ⟨single, depth, shallow, result.priority, reads⟩

theorem readsIf_ofTokens_end {fits : Prop} {size : Nat} {tokens : List Token} {token : Token}
    {result : Operand} (isEnd : token.kind = .clauseEnd)
    (reads : ReadsIf fits (readOperand size maxDepth clauseBound (tokens ++ [token]))
      (result, tokens.length)) :
    ReadsIf fits (ofTokens size (tokens ++ [token])) result.term := by
  have notEmpty : (tokens ++ [token]).isEmpty = false := by simp
  unfold ofTokens
  rw [notEmpty]
  apply reads.bind_ok
  obtain ⟨kind, start, stop, layout⟩ := token
  simp only at isEnd
  subst isEnd
  simp

/-- The same tokens are read as the same term in front of other ends of the clause. -/
theorem ofTokens_alike {size other : Nat} {inside latter ends fewer : List Token} {term : Term}
    (last : inside.getLast?.any isEnd = false) (onlyEnds : OnlyEnds ends)
    (read : ofTokens size (inside ++ ends) = .ok term) (alike : Alike inside latter)
    (onlyFewer : OnlyEnds fewer) (count : fewer.length ≤ ends.length) :
    ofTokens other (latter ++ fewer) = .ok term := by
  have goesOn : inside.getLast?.any isEnd = true → ends ≠ [] := by
    intro isEnd
    rw [last] at isEnd
    cases isEnd
  obtain ⟨single, depth, shallow, priority, reads⟩ := exists_depth onlyEnds goesOn read
  have again := reads.again other maxDepth latter fewer alike (final_of_onlyEnds onlyFewer).quiet
  rw [← alike.length_eq] at again
  cases fewer with
  | nil =>
      rw [List.append_nil] at again ⊢
      have some : latter ≠ [] := List.ne_nil_of_length_pos (taken_pos (again.same shallow))
      exact (readsIf_ofTokens some again).same shallow
  | cons token more =>
      obtain rfl : more = [] := by
        rw [List.length_cons] at count
        exact List.length_eq_zero_iff.mp (by omega)
      exact (readsIf_ofTokens_end (onlyFewer token List.mem_cons_self) again).same shallow

theorem ofTokens_ne_of_onlyEnds {size : Nat} {ends : List Token} {term : Term}
    (onlyEnds : OnlyEnds ends) : ofTokens size ends ≠ .ok term := by
  intro read
  rw [← List.nil_append ends] at read
  have none : ([] : List Token).getLast?.any isEnd = true → ends ≠ [] := nofun
  obtain ⟨_, depth, _, _, reads⟩ := exists_depth onlyEnds none read
  have none := (reads.again 0 depth [] [] rfl nofun).same (Nat.le_refl depth)
  exact absurd (taken_pos none) (Nat.lt_irrefl 0)

end HornQuery.Term
