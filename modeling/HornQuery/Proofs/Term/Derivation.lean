import HornQuery.Proofs.Term.Reading

namespace HornQuery.Term

open Token

section

variable {size taken bound : Nat} {operand : OperandReader} {tokens rest : List Token}
  {token : Token} {mark : Char}

theorem startsWithMark_of_expectMark (expected : expectMark size mark tokens = .ok ()) :
    startsWithMark mark tokens = true := by
  cases tokens with
  | nil => cases expected
  | cons token more =>
      by_cases isMark : token.isMark mark
      · exact isMark
      · simp [expectMark, isMark] at expected

theorem startsWithMark_of_argumentsFollow (follow : argumentsFollow tokens = true) :
    startsWithMark '(' tokens = true := by
  cases tokens with
  | nil => cases follow
  | cons token more => exact (Bool.and_eq_true_iff.mp follow).1

inductive ArgumentsRead (operand : OperandReader) : List Token → List Term → Nat → Prop
  | last {tokens : List Token} {arg : Operand} {taken : Nat}
      (found : operand argumentBound tokens = .ok (arg, taken)) :
      ArgumentsRead operand tokens [arg.term] taken
  | more {tokens rest : List Token} {arg : Operand} {comma : Token} {others : List Term}
      {count later : Nat} (found : operand argumentBound tokens = .ok (arg, count))
      (next : tokens.drop count = comma :: rest) (isComma : comma.isMark ',' = true)
      (read : ArgumentsRead operand rest others later) :
      ArgumentsRead operand tokens (arg.term :: others) (count + 1 + later)

theorem argumentsRead {args : List Term} (read : readArguments operand tokens = .ok (args, taken)) :
    ArgumentsRead operand tokens args taken := by
  -- The arguments after a comma are read from fewer tokens.
  induction counted : tokens.length using Nat.strongRecOn generalizing tokens args taken with
  | ind length induction =>
      rw [readArguments] at read
      obtain ⟨⟨first, count⟩, found, continued⟩ := bind_eq_ok.mp read
      simp only at continued
      split at continued
      case h_1 comma rest remains =>
        split at continued
        case isTrue isComma =>
          obtain ⟨⟨others, more⟩, foundOthers, done⟩ := bind_eq_ok.mp continued
          cases done
          have shorter : rest.length < length := by
            have := congrArg List.length remains
            simp only [List.length_drop, List.length_cons] at this
            omega
          exact .more found remains isComma (induction _ shorter foundOthers rfl)
        case isFalse =>
          cases continued
          exact .last found
      case h_2 =>
        cases continued
        exact .last found

inductive ListRead (operand : OperandReader) (tokens : List Token) : Term → Nat → Prop
  | empty (closed : startsWithMark ']' tokens = true) : ListRead operand tokens (.list []) 1
  | items {items : List Term} {count : Nat} (read : ArgumentsRead operand tokens items count)
      (closed : startsWithMark ']' (tokens.drop count) = true) :
      ListRead operand tokens (.list items) (count + 1)
  | withTail {items : List Term} {tail : Operand} {count more : Nat}
      (read : ArgumentsRead operand tokens items count)
      (separated : startsWithMark '|' (tokens.drop count) = true)
      (found : operand argumentBound (tokens.drop (count + 1)) = .ok (tail, more))
      (closed : startsWithMark ']' (tokens.drop (count + 1 + more)) = true) :
      ListRead operand tokens (listWithTail items (some tail.term)) (count + 1 + more + 1)

theorem listRead {list : Term} (read : readList size operand tokens = .ok (list, taken)) :
    ListRead operand tokens list taken := by
  unfold readList at read
  split at read
  case isTrue closed =>
    cases read
    exact .empty closed
  case isFalse =>
    obtain ⟨⟨items, count⟩, foundItems, continued⟩ := bind_eq_ok.mp read
    simp only at continued
    split at continued
    case isTrue separated =>
      obtain ⟨⟨tail, more⟩, foundTail, continued⟩ := bind_eq_ok.mp continued
      obtain ⟨_, closed, done⟩ := bind_eq_ok.mp continued
      cases done
      rw [List.drop_drop] at foundTail closed
      rw [← Nat.add_assoc] at closed
      exact .withTail (argumentsRead foundItems) separated foundTail
        (startsWithMark_of_expectMark closed)
    case isFalse =>
      obtain ⟨_, closed, done⟩ := bind_eq_ok.mp continued
      cases done
      exact .items (argumentsRead foundItems) (startsWithMark_of_expectMark closed)

inductive BracketedRead (close : Char) (operand : OperandReader) (tokens : List Token) :
    Term → Nat → Prop
  | closed {inner : Operand} {count : Nat} (found : operand clauseBound tokens = .ok (inner, count))
      (closed : startsWithMark close (tokens.drop count) = true) :
      BracketedRead close operand tokens inner.term (count + 1)

theorem bracketedRead {inner : Term}
    (read : readBracketed size mark operand tokens = .ok (inner, taken)) :
    BracketedRead mark operand tokens inner taken := by
  obtain ⟨⟨found, count⟩, isFound, continued⟩ := bind_eq_ok.mp read
  obtain ⟨_, closed, done⟩ := bind_eq_ok.mp continued
  cases done
  exact .closed isFound (startsWithMark_of_expectMark closed)

inductive NumberRead (token : Token) : Term → Prop
  | integer {magnitude : Nat} (kind : token.kind = .integer magnitude) (value : Int64) :
      NumberRead token (.integer value)
  | float {magnitude : Float} (kind : token.kind = .float magnitude) (value : Float) :
      NumberRead token (.float value)

theorem numberRead {term : Term} (read : readNegative? tokens = some (.ok term)) :
    ∃ token rest, tokens = token :: rest ∧ NumberRead token term := by
  cases tokens with
  | nil => cases read
  | cons token rest =>
      refine ⟨token, rest, rfl, ?_⟩
      simp only [readNegative?] at read
      split at read
      case isTrue => cases read
      case isFalse =>
        split at read
        case h_1 magnitude kind =>
          split at read
          case isTrue =>
            cases read
            exact .integer kind _
          case isFalse => cases read
        case h_2 value kind =>
          cases read
          exact .float kind _
        case h_3 => cases read

inductive NameRead (operand : OperandReader) (name : String) (bound : Nat) (tokens : List Token) :
    Operand → Nat → Prop
  | functional {args : List Term} {count : Nat} (opened : startsWithMark '(' tokens = true)
      (read : ArgumentsRead operand (tokens.drop 1) args count)
      (closed : startsWithMark ')' (tokens.drop (1 + count)) = true) :
      NameRead operand name bound tokens ⟨.compound name args, 0⟩ (1 + count + 1)
  | atom : NameRead operand name bound tokens ⟨.atom name, 0⟩ 0
  | negative {term : Term} (found : readNegative? tokens = some (.ok term)) (minus : name = "-") :
      NameRead operand name bound tokens ⟨term, 0⟩ 1
  | prefixed {operator : PrefixOperator} {priority : Nat} {arg : Operand} {count : Nat}
      (listed : prefixOperator? name = some operator)
      (lowered : priority = min operator.priority bound)
      (found : operand (operator.fixity.bound priority) tokens = .ok (arg, count)) :
      NameRead operand name bound tokens ⟨.compound name [arg.term], priority⟩ count

theorem nameRead {name : String} {isQuoted : Bool} {result : Operand}
    (read : readName size operand name isQuoted bound tokens = .ok (result, taken)) :
    NameRead operand name bound tokens result taken := by
  unfold readName at read
  split at read
  case isTrue follow =>
    obtain ⟨⟨args, count⟩, foundArgs, continued⟩ := bind_eq_ok.mp read
    obtain ⟨_, closed, done⟩ := bind_eq_ok.mp continued
    cases done
    exact .functional (startsWithMark_of_argumentsFollow follow) (argumentsRead foundArgs)
      (startsWithMark_of_expectMark closed)
  case isFalse =>
    split at read
    case isTrue =>
      cases read
      exact .atom
    case isFalse =>
      split at read
      case h_1 negative found =>
        obtain ⟨term, foundTerm, done⟩ := bind_eq_ok.mp read
        cases done
        subst foundTerm
        split at found
        case isTrue minus => exact .negative found minus
        case isFalse => cases found
      case h_2 =>
        split at read
        case h_1 operator isPrefix =>
          obtain ⟨⟨arg, count⟩, foundArg, done⟩ := bind_eq_ok.mp read
          cases done
          split at isPrefix
          case isTrue => exact .prefixed isPrefix rfl foundArg
          case isFalse => cases isPrefix
        case h_2 =>
          cases read
          exact .atom

inductive PrimaryRead (operand : OperandReader) (bound : Nat) (token : Token) (rest : List Token) :
    Operand → Nat → Prop
  | number {term : Term} (read : NumberRead token term) :
      PrimaryRead operand bound token rest ⟨term, 0⟩ 0
  | var {name : String} (kind : token.kind = .var name) :
      PrimaryRead operand bound token rest ⟨.var name, 0⟩ 0
  | string {text : String} (kind : token.kind = .string text) :
      PrimaryRead operand bound token rest ⟨.atom text, 0⟩ 0
  | name {name : String} {result : Operand} {taken : Nat}
      (kind : token.kind = .name name ∨ token.kind = .quoted name)
      (read : NameRead operand name bound rest result taken) :
      PrimaryRead operand bound token rest result taken
  | bracketed {inner : Term} {taken : Nat} (kind : token.kind = .punctuation '(')
      (read : BracketedRead ')' operand rest inner taken) :
      PrimaryRead operand bound token rest ⟨inner, 0⟩ taken
  | list {list : Term} {taken : Nat} (kind : token.kind = .punctuation '[')
      (read : ListRead operand rest list taken) :
      PrimaryRead operand bound token rest ⟨list, 0⟩ taken
  | noBraces (kind : token.kind = .punctuation '\x7b')
      (closed : startsWithMark '\x7d' rest = true) :
      PrimaryRead operand bound token rest ⟨.atom "\x7b\x7d", 0⟩ 1
  | braces {inner : Term} {taken : Nat} (kind : token.kind = .punctuation '\x7b')
      (read : BracketedRead '\x7d' operand rest inner taken) :
      PrimaryRead operand bound token rest ⟨.compound "\x7b\x7d" [inner], 0⟩ taken

theorem primaryRead {result : Operand}
    (read : readPrimary size operand bound token rest = .ok (result, taken)) :
    PrimaryRead operand bound token rest result taken := by
  unfold readPrimary at read
  split at read
  case h_1 magnitude kind =>
    split at read
    case isTrue =>
      cases read
      exact .number (.integer kind _)
    case isFalse => cases read
  case h_2 value kind =>
    cases read
    exact .number (.float kind _)
  case h_3 name kind =>
    cases read
    exact .var kind
  case h_4 text kind =>
    cases read
    exact .string kind
  case h_5 name kind => exact .name (.inl kind) (nameRead read)
  case h_6 name kind => exact .name (.inr kind) (nameRead read)
  case h_7 => cases read
  case h_8 mark kind =>
    split at read
    case isTrue opens =>
      obtain ⟨⟨inner, count⟩, found, done⟩ := bind_eq_ok.mp read
      cases done
      exact .bracketed (opens ▸ kind) (bracketedRead found)
    case isFalse =>
      split at read
      case isTrue opens =>
        obtain ⟨⟨items, count⟩, found, done⟩ := bind_eq_ok.mp read
        cases done
        exact .list (opens ▸ kind) (listRead found)
      case isFalse =>
        split at read
        case isTrue opens =>
          split at read
          case isTrue closed =>
            cases read
            exact .noBraces (opens ▸ kind) closed
          case isFalse =>
            obtain ⟨⟨inner, count⟩, found, done⟩ := bind_eq_ok.mp read
            cases done
            exact .braces (opens ▸ kind) (bracketedRead found)
        case isFalse => cases read

inductive InfixRead (operand : OperandReader) (bound : Nat) :
    Operand → List Token → Operand → Nat → Prop
  | stop {left : Operand} {tokens : List Token}
      (ends : ∀ token ∈ tokens.head?, joining? bound left token = none) :
      InfixRead operand bound left tokens left 0
  | join {left right result : Operand} {sign : Token} {rest : List Token} {name : String}
      {operator : InfixOperator} {count more : Nat}
      (joins : joining? bound left sign = some (name, operator))
      (found : operand operator.rightBound rest = .ok (right, count))
      (read : InfixRead operand bound ⟨.compound name [left.term, right.term], operator.priority⟩
        (rest.drop count) result more) :
      InfixRead operand bound left (sign :: rest) result (1 + count + more)

theorem infixRead {left result : Operand}
    (read : readInfix operand bound left tokens = .ok (result, taken)) :
    InfixRead operand bound left tokens result taken := by
  -- Each operator that joins leaves fewer tokens.
  induction counted : tokens.length using Nat.strongRecOn generalizing tokens left taken with
  | ind length induction =>
      cases tokens with
      | nil =>
          rw [readInfix] at read
          cases read
          exact .stop fun _ first => absurd first (Option.not_mem_none _)
      | cons token rest =>
          rw [readInfix_cons] at read
          cases joins : joining? bound left token with
          | none =>
              rw [joins] at read
              cases read
              exact .stop fun _ first => Option.mem_some_iff.mp first ▸ joins
          | some sign =>
              rw [joins] at read
              obtain ⟨⟨right, count⟩, foundRight, continued⟩ := bind_eq_ok.mp read
              obtain ⟨⟨last, more⟩, foundLast, done⟩ := bind_eq_ok.mp continued
              cases done
              have shorter : (rest.drop count).length < length := by
                rw [← counted, List.length_drop, List.length_cons]
                omega
              exact .join joins foundRight (induction _ shorter foundLast rfl)

inductive LevelRead (operand : OperandReader) (bound : Nat) : List Token → Operand → Nat → Prop
  | read {token : Token} {rest : List Token} {first result : Operand} {count more : Nat}
      (primary : PrimaryRead operand bound token rest first count)
      (others : InfixRead operand bound first (rest.drop count) result more) :
      LevelRead operand bound (token :: rest) result (1 + count + more)

theorem levelRead {result : Operand}
    (read : readLevel size operand bound tokens = .ok (result, taken)) :
    LevelRead operand bound tokens result taken := by
  unfold readLevel at read
  cases tokens with
  | nil => cases read
  | cons token rest =>
      obtain ⟨⟨first, count⟩, foundFirst, continued⟩ := bind_eq_ok.mp read
      obtain ⟨⟨last, more⟩, foundLast, done⟩ := bind_eq_ok.mp continued
      cases done
      exact .read (primaryRead foundFirst) (infixRead foundLast)

end

end HornQuery.Term
