import HornQuery.Proofs.Goal.Operands
import HornQuery.Proofs.Operator.Combining
import HornQuery.Proofs.Theory.Log
import HornQuery.Theory.Script

namespace HornQuery

open Term Token

def declaration (name : Term) (arity : Int64) : Term :=
  .compound ":-" [.compound "dynamic" [.compound "/" [name, .integer arity]]]

namespace Theory

/-! The directive as text. -/

def declarationText (indicator : List Char) : List Char :=
  ":-".toList ++ ' ' :: ("dynamic".toList ++ '(' :: (indicator ++ [')']))

theorem toList_indicator (indicator : Indicator) :
    indicator.text.toList =
      writeName indicator.name ++ ("/".toList ++ Nat.toDigits 10 indicator.arity) := by
  have name : (Term.atom indicator.name).text.toList = writeName indicator.name :=
    String.toList_ofList
  have arity : (toString indicator.arity).toList = Nat.toDigits 10 indicator.arity :=
    String.toList_ofList
  rw [Indicator.text, String.toList_append, String.toList_append, name, arity, List.append_assoc]

theorem toList_dynamicDirective (indicator : Indicator) :
    (dynamicDirective indicator).toList = declarationText indicator.text.toList ++ ['.'] := by
  have opening : ":- dynamic(".toList = ":-".toList ++ ' ' :: ("dynamic".toList ++ ['(']) := by
    decide
  have closing : ").".toList = [')', '.'] := by decide
  simp only [dynamicDirective, toString, String.toList_append, opening, closing, declarationText]
  simp

/-! Names apart from the slash. -/

theorem scans_predicate {name : Term} {value : Int64} (low : name.height = 1)
    (positive : 0 ≤ value.toInt) (before : ∀ rest, Scans name.write ('/' :: rest) (Spells · name))
    (rest : List Char) :
    Scans (name.write ++ ("/".toList ++ writeInteger value.toInt)) (')' :: rest)
      (ReadsArguments 2 [.compound "/" [name, .integer value]]) := by
  have listed : infixOperator? "/" = some ⟨400, .yfx⟩ := by decide
  have symbols : ∀ c ∈ "/".toList, Text.isSymbol c = true := Text.forall_mem_of_all (by decide)
  have closing := delimited_cons (by decide : ')' ∈ delimiters) rest
  have stops : ∀ c ∈ (writeInteger value.toInt ++ ')' :: rest).head?, Text.isSymbol c = false := by
    obtain ⟨first, more, digits, isDigit⟩ := startsWithDigit_toDigits value.toInt.natAbs
    have written : writeInteger value.toInt = first :: more := by
      rw [writeInteger, if_neg (Int.not_lt.mpr positive), digits]
    rw [written]
    intro c found
    cases found
    exact isSymbol_of_isDigit isDigit
  have number : Scans (writeInteger value.toInt) (')' :: rest) (Spells · (.integer value)) :=
    scans_writeInteger value closing.ended
  apply (scans_operands listed symbols (before _) stops number).imp
  rintro tokens ⟨former, sign, latter, isName, isInfix, isNumber, rfl⟩
  intro size levels later ends last
  have alone := operandFollows_of_isInfix listed isInfix (by decide) (latter ++ later)
  have height : max name.height ((Term.integer value).height + 1) = 2 := by
    rw [low]
    rfl
  have reads : ReadsIf (max name.height ((Term.integer value).height + 1) ≤ levels) _ _ :=
    readsIf_infix size listed isInfix isName isNumber (by decide : 400 ≤ argumentBound) ends
      fun _ _ => .inr alone
  rw [height] at reads
  have whole : former ++ sign :: latter ++ later = former ++ sign :: (latter ++ later) := by simp
  rw [whole]
  refine readsIf_arguments_last reads ?_
  rw [← whole, List.drop_left]
  exact last

theorem scans_declaration {name : Term} (value : Int64) (low : name.height = 1)
    (positive : 0 ≤ value.toInt)
    (before : ∀ rest, Scans name.write ('/' :: rest) (Spells · name)) (rest : List Char) :
    Scans (declarationText (name.write ++ ("/".toList ++ writeInteger value.toInt))) rest
      (Reads 4 clauseBound (declaration name value)) := by
  have bare : IsBare "dynamic" = true := by decide +kernel
  have call := scans_applied bare (by decide) (scans_predicate low positive before rest)
  have arrow : prefixOperator? ":-" = some ⟨1200, .fx⟩ := by decide
  exact scans_prefixed arrow (call.imp fun _ reads => reads.mono (Nat.zero_le _))

theorem parse_declarationText {name : Term} (value : Int64) (low : name.height = 1)
    (positive : 0 ≤ value.toInt)
    (before : ∀ rest, Scans name.write ('/' :: rest) (Spells · name)) :
    parse (String.ofList (declarationText
      (name.write ++ ("/".toList ++ writeInteger value.toInt)) ++ ['.'])) =
        .ok (declaration name value) :=
  (readsIf_clause (List.forall_mem_nil _) (scans_declaration value low positive before ['.'])).same
    (by decide)

theorem scans_apart {name : String} (proper : name ≠ "[]")
    (apart : (writeName name).getLast?.any Text.isSymbol = false) (rest : List Char) :
    Scans (Term.atom name).write ('/' :: rest) (Spells · (.atom name)) := by
  apply scans_writeName proper
  constructor
  · intro c found
    cases found
    exact mem_enders_of_isSymbol (by decide) (by decide)
  · rintro ⟨c, last, symbol⟩
    rw [Option.mem_def.mp last, Option.any_some, symbol] at apart
    cases apart

theorem scans_emptyList (rest : List Char) :
    Scans (Term.list []).write rest (Spells · (.list [])) := by
  apply ((scans_mark (by decide : ']' ∈ marks) rest).afterMark (by decide : '[' ∈ marks)).imp
  rintro tokens ⟨opening, others, opens, _, ⟨closing, closes, _, rfl⟩, rfl⟩
  exact .noItems opens closes

/-! Names that go on with the slash. -/

theorem isSymbol_of_isNameCharacter {c : Char} (inName : Text.isNameCharacter c = true) :
    Text.isSymbol c = false := by
  by_contra symbol
  have noName : Text.isNameCharacter c = false := by
    by_cases point : c = '.'
    · rw [point]
      decide
    · exact isNameCharacter_of_mem_enders c
        (mem_enders_of_isSymbol (Bool.not_eq_false _ ▸ symbol) point)
  rw [noName] at inName
  cases inName

theorem exists_symbols {name : String}
    (joins : (writeName name).getLast?.any Text.isSymbol = true) :
    ∃ first more, name.toList = first :: more ∧ writeName name = first :: more ∧
      (∀ c ∈ first :: more, Text.isSymbol c = true) ∧ ¬(first = '/' ∧ more.head? = some '*') := by
  unfold writeName at joins ⊢
  split at joins
  case isTrue quotes =>
    rw [quoteName, ← List.cons_append, List.getLast?_concat] at joins
    exact absurd joins (by decide)
  case isFalse bare =>
    rw [if_neg bare]
    have noQuotes := Bool.not_eq_true _ ▸ bare
    unfold needsQuotes at noQuotes
    split at noQuotes
    case isTrue listed =>
      have apart : ∀ name ∈ bareNames, name.toList.getLast?.any Text.isSymbol = false :=
        Text.forall_mem_of_all (by decide)
      rw [apart name (List.contains_iff_mem.mp listed)] at joins
      cases joins
    case isFalse =>
      split at noQuotes
      case h_1 => cases noQuotes
      case h_2 first more text =>
        rw [text] at joins ⊢
        split at noQuotes
        case isTrue small =>
          have inName : ∀ c ∈ first :: more, Text.isNameCharacter c = true := by
            rw [List.forall_mem_cons]
            refine ⟨?_, by simpa [List.all_eq_true] using noQuotes⟩
            simp [Text.isNameCharacter, Text.isAlphanumeric, Text.isAlphabetic_of_isLowercase small]
          have last := List.getLast_mem (List.cons_ne_nil first more)
          rw [List.getLast?_eq_some_getLast (List.cons_ne_nil first more), Option.any_some,
            isSymbol_of_isNameCharacter (inName _ last)] at joins
          cases joins
        case isFalse =>
          split at noQuotes
          case isTrue symbol =>
            simp only [Bool.or_eq_false_iff, Bool.not_eq_false', List.all_eq_true,
              Bool.and_eq_false_imp, decide_eq_true_eq, decide_eq_false_iff_not] at noQuotes
            exact ⟨first, more, rfl, rfl, noQuotes.1.1,
              fun opening => noQuotes.2 opening.1 opening.2⟩
          case isFalse => cases noQuotes

/-- Two tokens stand where one argument should: a name that ends in a slash, and a number. -/
def Joined (name : String) (number : Nat) (tokens : List Token) : Prop :=
  ∃ word count : Token, word.kind = .name (name ++ "/") ∧ count.kind = .integer number ∧
    tokens = [word, count]

theorem scans_joined {name : String} {number : Nat}
    (joins : (writeName name).getLast?.any Text.isSymbol = true) (small : number ≤ integerMax)
    (rest : List Char) :
    Scans (writeName name ++ ("/".toList ++ Nat.toDigits 10 number)) (')' :: rest)
      (Joined name number) := by
  obtain ⟨first, more, text, written, symbols, noComment⟩ := exists_symbols joins
  have closing := delimited_cons (by decide : ')' ∈ delimiters) rest
  have whole : (name ++ "/").toList = first :: (more ++ ['/']) := by
    rw [String.toList_append, text]
    rfl
  have all : ∀ c ∈ first :: (more ++ ['/']), Text.isSymbol c = true := by
    rw [← List.cons_append, List.forall_mem_append]
    exact ⟨symbols, List.forall_mem_singleton.mpr (by decide)⟩
  have noPoint : name ++ "/" ≠ "." := by
    intro same
    have letters := congrArg String.toList same
    rw [whole] at letters
    simp at letters
  have noOpening : ¬(first = '/' ∧ (more ++ ['/']).head? = some '*') := by
    rintro ⟨slash, star⟩
    cases more with
    | nil => exact absurd star (by decide)
    | cons second others => exact noComment ⟨slash, star⟩
  have stops : ∀ c ∈ (Nat.toDigits 10 number ++ ')' :: rest).head?, Text.isSymbol c = false := by
    obtain ⟨digit, others, digits, isDigit⟩ := startsWithDigit_toDigits number
    rw [digits]
    intro c found
    cases found
    exact isSymbol_of_isDigit isDigit
  have limit : number < integerLimit := Nat.lt_of_le_of_lt small (by decide)
  have joined : Scans ((name ++ "/").toList ++ Nat.toDigits 10 number) (')' :: rest)
      (Joined name number) := by
    apply (scans_symbols whole all noPoint noOpening stops).append
      (scans_toDigits limit closing.ended)
    rintro _ _ ⟨word, isWord, _, rfl⟩ ⟨count, isCount, _, rfl⟩
    exact ⟨word, count, isWord, isCount, rfl⟩
  rwa [String.toList_append, text, List.append_assoc, ← written] at joined

/-- Tokens that are read as no term, whatever follows them. -/
def Refused (tokens : List Token) : Prop :=
  ∀ size levels bound rest, ∃ cause,
    readOperand size levels bound (tokens ++ rest) = .error cause

theorem prefixOperator?_slash (name : String) : prefixOperator? (name ++ "/") = none := by
  have all : ∀ group ∈ prefixGroups, ∀ name ∈ group.2, name.toList.getLast? ≠ some '/' :=
    Text.forall_mem_of_all (by decide)
  cases listed : prefixOperator? (name ++ "/") with
  | none => rfl
  | some operator =>
      obtain ⟨names, member, isName⟩ := exists_prefixGroup listed
      refine absurd ?_ (all _ member _ isName)
      rw [String.toList_append]
      exact List.getLast?_concat

theorem readArguments_joined {name : String} {number size levels : Nat} {tokens : List Token}
    (joined : Joined name number tokens) (rest : List Token) :
    (∃ cause, readArguments (readOperand size levels) (tokens ++ rest) = .error cause) ∨
      readArguments (readOperand size levels) (tokens ++ rest) =
        .ok ([.atom (name ++ "/")], 1) := by
  obtain ⟨word, count, isWord, isCount, rfl⟩ := joined
  cases levels with
  | zero => exact .inl ⟨_, readArguments_error rfl⟩
  | succ levels =>
      have stops : Stops argumentBound (count :: rest) := by
        constructor
        · simp [argumentsFollow, Token.isMark, isCount]
        · intro token found other operator named
          cases found
          simp [infixName?, isCount] at named
      refine .inr (@readArguments_last _ _ ⟨.atom (name ++ "/"), 0⟩ 1 ?_ ?_)
      · have primary : readName size (readOperand size levels) (name ++ "/") false argumentBound
            (count :: rest) = .ok (⟨.atom (name ++ "/"), 0⟩, 0) :=
          readName_atom size argumentBound stops.noArguments (.inl (prefixOperator?_slash name))
        simp [readOperand, readLevel, readPrimary, isWord, primary, readInfix_of_stops stops, bind,
          Except.bind]
      · simp [startsWithMark, Token.isMark, isCount]

theorem refused_call {name functor : String} {number : Nat} {head opening closing : Token}
    {tokens : List Token} (joined : Joined name number tokens) (kind : head.kind = .name functor)
    (opens : opening.kind = .punctuation '(') (touches : opening.layoutBefore = false) :
    Refused (head :: opening :: (tokens ++ [closing])) := by
  intro size levels bound rest
  cases levels with
  | zero => exact ⟨_, rfl⟩
  | succ levels =>
      have follow : argumentsFollow (opening :: (tokens ++ closing :: rest)) = true := by
        simp [argumentsFollow, isMark_of_kind opens, touches]
      have whole : head :: opening :: (tokens ++ [closing]) ++ rest =
          head :: opening :: (tokens ++ closing :: rest) := by
        simp
      rw [whole, readOperand, readLevel]
      simp only [readPrimary, kind, readName, if_pos follow, List.drop_one, List.tail_cons]
      rcases readArguments_joined joined (closing :: rest) with ⟨cause, refused⟩ | read
      · exact ⟨cause, by rw [refused]; rfl⟩
      · obtain ⟨word, count, _, isCount, rfl⟩ := joined
        refine ⟨(SyntaxFault.missingMark ')').foundAt count.start, ?_⟩
        rw [read]
        simp [expectMark, Token.isMark, isCount, bind, Except.bind]

theorem Refused.prefixed {name : String} {operator : PrefixOperator} {sign token : Token}
    {others : List Token} (refused : Refused (token :: others))
    (listed : prefixOperator? name = some operator) (isName : sign.kind = .name name)
    (starts : ∀ rest, operandFollows (token :: others ++ rest) = true) :
    Refused (sign :: Token.afterLayout (token :: others)) := by
  intro size levels bound rest
  cases levels with
  | zero => exact ⟨_, rfl⟩
  | succ levels =>
      have spaced : Token.afterLayout (token :: others) ++ rest =
          Token.afterLayout (token :: (others ++ rest)) := rfl
      have noArguments :
          argumentsFollow (Token.afterLayout (token :: (others ++ rest))) = false := by
        simp [argumentsFollow, Token.afterLayout]
      have noNegative : (if name = "-" then
          readNegative? (Token.afterLayout (token :: (others ++ rest))) else none) = none := by
        simp [readNegative?, Token.afterLayout]
      have follows : operandFollows (Token.afterLayout (token :: (others ++ rest))) = true :=
        starts rest
      obtain ⟨cause, failed⟩ :=
        refused size levels (operator.fixity.bound (min operator.priority bound)) rest
      refine ⟨cause, ?_⟩
      rw [List.cons_append, spaced, readOperand, readLevel]
      simp only [readPrimary, isName, readName, noArguments, noNegative, follows, listed,
        Bool.false_eq_true, if_false, if_true, readOperand_afterLayout]
      rw [List.cons_append] at failed
      rw [failed]
      rfl

theorem scans_joinedDeclaration {name : String} {number : Nat} {text : List Char}
    (inside : ∀ rest, Scans text (')' :: rest) (Joined name number)) (rest : List Char) :
    Scans (declarationText text) rest fun tokens =>
      Refused tokens ∧ tokens ≠ [] ∧ ∀ token ∈ tokens, token.kind ≠ .clauseEnd := by
  have bare : IsBare "dynamic" = true := by decide +kernel
  have noInfix : infixOperator? "dynamic" = none := by decide
  have arrow : prefixOperator? ":-" = some ⟨1200, .fx⟩ := by decide
  have call : Scans ("dynamic".toList ++ '(' :: (text ++ [')'])) rest fun tokens =>
      ∃ token others, tokens = token :: others ∧ Refused tokens ∧
        (∀ rest, operandFollows (tokens ++ rest) = true) ∧
          ∀ token ∈ tokens, token.kind ≠ .clauseEnd := by
    apply (scans_of_isBare bare (delimited_cons (by decide) _)).append
      (scans_enclosed (inside rest))
    rintro _ _ ⟨head, kind, _, rfl⟩ ⟨opening, inner, closing, opens, touches, joined, closes, rfl⟩
    refine ⟨head, _, rfl, refused_call joined kind opens touches, ?_, ?_⟩
    · intro rest
      simp [operandFollows, kind, noInfix]
    · obtain ⟨word, count, isWord, isCount, rfl⟩ := joined
      simp [kind, opens, isWord, isCount, closes]
  apply (scans_prefixName arrow (delimited_cons (by decide) _)).append (call.space ?_)
  · rintro _ _ ⟨sign, kind, _, rfl⟩ ⟨_, ⟨token, others, rfl, refused, starts, noEnd⟩, rfl⟩
    refine ⟨refused.prefixed arrow kind starts, by simp, ?_⟩
    simpa [kind, Token.afterLayout] using noEnd
  · rintro _ ⟨token, others, rfl, _⟩
    exact List.cons_ne_nil token others

theorem parse_joined {name : String} {number : Nat} {text : List Char}
    (inside : ∀ rest, Scans text (')' :: rest) (Joined name number)) :
    ∃ cause, parse (String.ofList (declarationText text ++ ['.'])) = .error cause := by
  obtain ⟨tokens, token, ⟨refused, _⟩, _, scanned⟩ :=
    (scans_joinedDeclaration inside ['.']).clause (List.forall_mem_nil _)
  obtain ⟨cause, failed⟩ := refused (Text.byteLength (declarationText text ++ ['.'])) maxDepth
    clauseBound [token]
  have some : (tokens ++ [token]).isEmpty = false := by simp
  refine ⟨cause, ?_⟩
  rw [parse_ofList scanned, ofTokens, some, failed]
  rfl

/-! All names. -/

theorem writeInteger_ofNat {number : Nat} (small : number ≤ integerMax) :
    (Int64.ofNat number).toInt = number ∧
      writeInteger (Int64.ofNat number).toInt = Nat.toDigits 10 number := by
  have limit : integerMax = 9223372036854775807 := rfl
  have same : (Int64.ofNat number).toInt = number := Int64.toInt_ofNat_of_lt (by omega)
  refine ⟨same, ?_⟩
  rw [same, writeInteger, if_neg (by omega)]
  rfl

theorem writeName_emptyList : writeName "[]" = (Term.list []).write := by
  decide +kernel

/-- A line that is read as the directive which declares the predicate. -/
def Declares (line : String) (indicator : Indicator) : Prop :=
  ∃ arity : Int64, arity.toInt = indicator.arity ∧
    parse line = .ok (declaration (.atom indicator.name) arity)

/-- The line for a predicate declares it exactly if the text of the name does not end in an operator
character, the name is not that of the empty list, and the number of arguments is an integer that
can be read. -/
theorem declares_dynamicDirective_iff (indicator : Indicator) :
    Declares (dynamicDirective indicator) indicator ↔
      (writeName indicator.name).getLast?.any Text.isSymbol = false ∧ indicator.name ≠ "[]" ∧
        indicator.arity ≤ integerMax := by
  have text : dynamicDirective indicator = String.ofList (declarationText
      (writeName indicator.name ++ ("/".toList ++ Nat.toDigits 10 indicator.arity)) ++ ['.']) := by
    rw [← toList_indicator, ← toList_dynamicDirective, String.ofList_toList]
  constructor
  · rintro ⟨arity, same, read⟩
    have small : indicator.arity ≤ integerMax := by
      have limit : integerMax = 9223372036854775807 := rfl
      have greatest := Int64.toInt_lt arity
      omega
    obtain ⟨value, digits⟩ := writeInteger_ofNat small
    rw [text] at read
    refine ⟨?_, ?_, small⟩
    · by_contra joins
      obtain ⟨cause, refused⟩ :=
        parse_joined (scans_joined (Bool.not_eq_false _ ▸ joins) small)
      rw [refused] at read
      cases read
    · intro empty
      have list := parse_declarationText (Int64.ofNat indicator.arity) rfl (by omega)
        fun rest => scans_emptyList ('/' :: rest)
      rw [digits, ← writeName_emptyList, ← empty, read] at list
      simp [declaration] at list
  · rintro ⟨apart, proper, small⟩
    obtain ⟨value, digits⟩ := writeInteger_ofNat small
    refine ⟨Int64.ofNat indicator.arity, value, ?_⟩
    have read := parse_declarationText (Int64.ofNat indicator.arity) rfl (by omega)
      (scans_apart proper apart)
    rw [digits] at read
    rw [text]
    exact read

/-- Asserted facts whose predicates are not declared: an operator runs into the slash, and the name
of the empty list loses its quotes. -/
theorem not_declares_dynamicDirective_all :
    (⟨"+", 2⟩ ∈ (run [.assertFact "a + b"]).dynamic ∧
        ¬Declares (dynamicDirective ⟨"+", 2⟩) ⟨"+", 2⟩) ∧
      ⟨"[]", 1⟩ ∈ (run [.assertFact "'[]'(a)"]).dynamic ∧
        ¬Declares (dynamicDirective ⟨"[]", 1⟩) ⟨"[]", 1⟩ := by
  refine ⟨⟨by decide +kernel, ?_⟩, by decide +kernel, ?_⟩
  · rintro ⟨arity, _, read⟩
    have refused : (parse (dynamicDirective ⟨"+", 2⟩)).isOk = false := by decide +kernel
    rw [read] at refused
    cases refused
  · rintro ⟨arity, _, read⟩
    have list : parse (dynamicDirective ⟨"[]", 1⟩) = .ok (declaration (.list []) 1) :=
      (givesTerm_iff (by decide) _).mp (by decide +kernel)
    rw [list] at read
    simp [declaration] at read

end Theory

end HornQuery
