import HornQuery.Term.Basic
import HornQuery.Term.Operators
import HornQuery.Term.Token.Scan
import HornQuery.Term.Variables

namespace HornQuery.Term

/-- A term that was read, with the priority of its outermost operator. -/
structure Operand where
  term : Term
  priority : Nat

abbrev OperandReader := Nat → List Token → Except ReadError (Operand × Nat)

/-- How deep arguments, operands and brackets may nest. -/
def maxDepth : Nat := 256

def argumentBound : Nat := 999

def clauseBound : Nat := 1200

def integerMax : Nat := Int64.maxValue.toInt.toNat

def position (size : Nat) (tokens : List Token) : Nat :=
  match tokens with
  | [] => size
  | token :: _ => token.start

def expectMark (size : Nat) (mark : Char) (tokens : List Token) : Except ReadError Unit :=
  match tokens with
  | [] => .error (.unexpectedEnd size)
  | token :: _ =>
      if token.isMark mark then .ok ()
      else .error ((SyntaxFault.missingMark mark).foundAt token.start)

def startsWithMark (mark : Char) (tokens : List Token) : Bool :=
  match tokens with
  | [] => false
  | token :: _ => token.isMark mark

def readArguments (operand : OperandReader) (tokens : List Token) :
    Except ReadError (List Term × Nat) := do
  let (first, taken) ← operand argumentBound tokens
  match _h : tokens.drop taken with
  | comma :: rest =>
      if comma.isMark ',' then do
        let (others, more) ← readArguments operand rest
        .ok (first.term :: others, taken + 1 + more)
      else .ok ([first.term], taken)
  | [] => .ok ([first.term], taken)
termination_by tokens.length
decreasing_by
  have shorter := congrArg List.length _h
  simp only [List.length_drop, List.length_cons] at shorter
  omega

/-- Items with a tail: a tail that is a list takes part in one list, and any other tail ends a
chain of cells. -/
def listWithTail (items : List Term) : Option Term → Term
  | none => .list items
  | some (.list rest) => .list (items ++ rest)
  | some tail => items.foldr (fun item rest => .compound listCell [item, rest]) tail

def readList (size : Nat) (operand : OperandReader) (tokens : List Token) :
    Except ReadError (Term × Nat) :=
  if startsWithMark ']' tokens then .ok (.list [], 1)
  else do
    let (items, taken) ← readArguments operand tokens
    let rest := tokens.drop taken
    if startsWithMark '|' rest then do
      let (tail, more) ← operand argumentBound (rest.drop 1)
      expectMark size ']' (rest.drop (1 + more))
      .ok (listWithTail items (some tail.term), taken + 1 + more + 1)
    else do
      expectMark size ']' rest
      .ok (listWithTail items none, taken + 1)

def readBracketed (size : Nat) (close : Char) (operand : OperandReader)
    (tokens : List Token) : Except ReadError (Term × Nat) := do
  let (inner, taken) ← operand clauseBound tokens
  expectMark size close (tokens.drop taken)
  .ok (inner.term, taken + 1)

/-- Whether a prefix operator has an operand: the next token can start a term and is no infix
operator that is not also a prefix operator. -/
def operandFollows (tokens : List Token) : Bool :=
  match tokens with
  | [] => false
  | token :: _ =>
      match token.kind with
      | .clauseEnd => false
      | .punctuation mark => mark = '(' || mark = '[' || mark = '\x7b'
      | .name name => (infixOperator? name).isNone || (prefixOperator? name).isSome
      | _ => true

/-- A number right after a minus sign takes the sign. -/
def readNegative? (tokens : List Token) : Option (Except ReadError Term) :=
  match tokens with
  | [] => none
  | token :: _ =>
      if token.layoutBefore then none
      else
        match token.kind with
        | .integer magnitude =>
            if magnitude ≤ integerMax + 1 then
              some (.ok (.integer (Int64.ofInt (-(magnitude : Int)))))
            else
              let fault := SyntaxFault.integerOutOfRange s!"-{magnitude}"
              some (.error (fault.foundAt token.start))
        | .float value => some (.ok (.float (Number.negate value)))
        | _ => none

/-- Whether an argument list follows: its bracket touches the name. -/
def argumentsFollow (tokens : List Token) : Bool :=
  match tokens with
  | [] => false
  | token :: _ => token.isMark '(' && !token.layoutBefore

/-- What a name begins: functional notation, a negative number, a prefix operator with its
operand, or just the atom. A quoted name is no operator. -/
def readName (size : Nat) (operand : OperandReader) (name : String) (isQuoted : Bool)
    (bound : Nat) (tokens : List Token) : Except ReadError (Operand × Nat) :=
  if argumentsFollow tokens then do
    let (args, taken) ← readArguments operand (tokens.drop 1)
    expectMark size ')' (tokens.drop (1 + taken))
    .ok (⟨.compound name args, 0⟩, 1 + taken + 1)
  else if isQuoted then .ok (⟨.atom name, 0⟩, 0)
  else
    match if name = "-" then readNegative? tokens else none with
    | some negative => do
        let term ← negative
        .ok (⟨term, 0⟩, 1)
    | none =>
        match if operandFollows tokens then prefixOperator? name else none with
        | some operator => do
            let priority := min operator.priority bound
            let (arg, taken) ← operand (operator.fixity.bound priority) tokens
            .ok (⟨.compound name [arg.term], priority⟩, taken)
        | none => .ok (⟨.atom name, 0⟩, 0)

def readPrimary (size : Nat) (operand : OperandReader) (bound : Nat) (token : Token)
    (rest : List Token) : Except ReadError (Operand × Nat) :=
  match token.kind with
  | .integer magnitude =>
      if magnitude ≤ integerMax then .ok (⟨.integer (Int64.ofNat magnitude), 0⟩, 0)
      else .error ((SyntaxFault.integerOutOfRange s!"{magnitude}").foundAt token.start)
  | .float value => .ok (⟨.float value, 0⟩, 0)
  | .var name => .ok (⟨.var name, 0⟩, 0)
  | .string text => .ok (⟨.atom text, 0⟩, 0)
  | .name name => readName size operand name false bound rest
  | .quoted name => readName size operand name true bound rest
  | .clauseEnd => .error (SyntaxFault.unexpectedClauseEnd.foundAt token.start)
  | .punctuation mark =>
      if mark = '(' then do
        let (inner, taken) ← readBracketed size ')' operand rest
        .ok (⟨inner, 0⟩, taken)
      else if mark = '[' then do
        let (items, taken) ← readList size operand rest
        .ok (⟨items, 0⟩, taken)
      else if mark = '\x7b' then
        if startsWithMark '\x7d' rest then .ok (⟨.atom "\x7b\x7d", 0⟩, 1)
        else do
          let (inner, taken) ← readBracketed size '\x7d' operand rest
          .ok (⟨.compound "\x7b\x7d" [inner], 0⟩, taken)
      else .error ((SyntaxFault.unexpectedMark mark).foundAt token.start)

def infixName? (token : Token) : Option String :=
  match token.kind with
  | .name name => some name
  | .punctuation mark =>
      if mark = ',' then some "," else if mark = '|' then some "|" else none
  | _ => none

/-- The infix operators after a term, as long as they bind at least as strongly as the bound
asks and the term so far fits on their left. -/
def readInfix (operand : OperandReader) (bound : Nat) (left : Operand) (tokens : List Token) :
    Except ReadError (Operand × Nat) :=
  match tokens with
  | [] => .ok (left, 0)
  | token :: rest =>
      match infixName? token with
      | none => .ok (left, 0)
      | some name =>
          match infixOperator? name with
          | none => .ok (left, 0)
          | some operator =>
              if bound < operator.priority || operator.leftBound < left.priority then
                .ok (left, 0)
              else do
                let (right, taken) ← operand operator.rightBound rest
                let joined : Operand :=
                  ⟨.compound name [left.term, right.term], operator.priority⟩
                let (result, more) ← readInfix operand bound joined (rest.drop taken)
                .ok (result, 1 + taken + more)
termination_by tokens.length
decreasing_by
  simp only [List.length_drop, List.length_cons]
  omega

def readLevel (size : Nat) (operand : OperandReader) : OperandReader :=
  fun bound tokens =>
    match tokens with
    | [] => .error (.unexpectedEnd size)
    | token :: rest => do
        let (first, taken) ← readPrimary size operand bound token rest
        let (result, more) ← readInfix operand bound first (rest.drop taken)
        .ok (result, 1 + taken + more)

def readOperand (size : Nat) : Nat → OperandReader
  | 0 => fun _ tokens =>
      .error ((SyntaxFault.nestedTooDeep maxDepth).foundAt (position size tokens))
  | levels + 1 => readLevel size (readOperand size levels)

/-- The one term that the tokens of a text hold, with or without the end of a clause. -/
def ofTokens (size : Nat) (tokens : List Token) : Except ReadError Term :=
  if tokens.isEmpty then .error (.unexpectedEnd 0)
  else do
    let (result, taken) ← readOperand size maxDepth clauseBound tokens
    let rest := tokens.drop taken
    let rest :=
      match rest with
      | ⟨.clauseEnd, _, _, _⟩ :: more => more
      | more => more
    match rest with
    | [] => .ok result.term
    | token :: _ => .error (.trailingInput token.start)

def ofText (text : List Char) : Except ReadError Term := do
  let tokens ← Token.scan text
  ofTokens (Text.byteLength text) tokens

def parse (text : String) : Except ReadError Term :=
  ofText text.toList

/-- The goal that a text spells: the arrow of a query in front of it is dropped. -/
def parseGoal (text : String) : Except ReadError Term := do
  match ← parse text with
  | .compound functor [goal] =>
      if functor = "?-" then .ok goal else .ok (.compound functor [goal])
  | term => .ok term

end HornQuery.Term

namespace HornQuery.Token

def variableNames (tokens : List Token) : List String :=
  tokens.filterMap fun token =>
    match token.kind with
    | .var name => some name
    | _ => none

def scanVariables (text : String) : Except ReadError (List String) := do
  let tokens ← scan text.toList
  .ok (reportedNames (variableNames tokens))

end HornQuery.Token
