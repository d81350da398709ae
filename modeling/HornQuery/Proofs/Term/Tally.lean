import HornQuery.Proofs.Term.Derivation

namespace HornQuery.Term

open Token

/-- The names that a reading brings into a term or leaves out of it. -/
def silentNames : List String := [",", "|", "-", listCell, "\x7b\x7d"]

structure Tally (α : Type) where
  ofKind : TokenKind → List α
  ofTerm : Term → List α
  mark : ∀ mark, ofKind (.punctuation mark) = []
  magnitude : ∀ n, ofKind (.integer n) = []
  fraction : ∀ value, ofKind (.float value) = []
  quoted : ∀ name, ofKind (.quoted name) = ofKind (.name name)
  string : ∀ text, ofKind (.string text) = ofKind (.name text)
  silent : ∀ name ∈ silentNames, ofKind (.name name) = []
  /-- An operator stands behind its left operand, and its name in front of it. -/
  commutes : ∀ name found, ofKind (.name name) ++ found = found ++ ofKind (.name name)
  integer : ∀ value, ofTerm (.integer value) = []
  float : ∀ value, ofTerm (.float value) = []
  var : ∀ name, ofTerm (.var name) = ofKind (.var name)
  atom : ∀ name, ofTerm (.atom name) = ofKind (.name name)
  list : ∀ items, ofTerm (.list items) = items.flatMap ofTerm
  compound : ∀ functor args,
    ofTerm (.compound functor args) = ofKind (.name functor) ++ args.flatMap ofTerm

namespace Tally

variable {α : Type} (tally : Tally α)

def ofTokens (tokens : List Token) : List α :=
  tokens.flatMap fun token => tally.ofKind token.kind

theorem ofTokens_cons (token : Token) (rest : List Token) :
    tally.ofTokens (token :: rest) = tally.ofKind token.kind ++ tally.ofTokens rest :=
  List.flatMap_cons

theorem ofTokens_append (former latter : List Token) :
    tally.ofTokens (former ++ latter) = tally.ofTokens former ++ tally.ofTokens latter :=
  List.flatMap_append

theorem ofTokens_take_add (tokens : List Token) (first second : Nat) :
    tally.ofTokens (tokens.take (first + second)) =
      tally.ofTokens (tokens.take first) ++ tally.ofTokens ((tokens.drop first).take second) := by
  rw [List.take_add, ofTokens_append]

/-- What is collected depends on the kinds of tokens only. -/
theorem ofTokens_congr {tokens others : List Token}
    (same : others.map Token.kind = tokens.map Token.kind) :
    tally.ofTokens others = tally.ofTokens tokens := by
  have mapped := congrArg (List.flatMap tally.ofKind) same
  rwa [List.flatMap_map, List.flatMap_map] at mapped

variable {tally}
variable {taken bound : Nat} {operand : OperandReader} {tokens rest : List Token}
  {token : Token} {mark : Char} {term : Term} {result : Operand}

theorem ofKind_mark (isMark : token.isMark mark = true) : tally.ofKind token.kind = [] := by
  cases kind : token.kind with
  | punctuation other => exact tally.mark other
  | _ => rw [Token.isMark, kind] at isMark; cases isMark

theorem ofTokens_take_mark (starts : startsWithMark mark tokens = true) :
    tally.ofTokens (tokens.take 1) = [] := by
  cases tokens with
  | nil => rfl
  | cons token more =>
      rw [List.take_succ_cons, List.take_zero, ofTokens_cons, ofKind_mark starts]
      rfl

theorem ofTerm_cells (items : List Term) (tail : Term) :
    tally.ofTerm (items.foldr (fun item rest => .compound listCell [item, rest]) tail) =
      items.flatMap tally.ofTerm ++ tally.ofTerm tail := by
  induction items with
  | nil => rfl
  | cons item items induction =>
      rw [List.foldr_cons, tally.compound, tally.silent _ (by decide), List.flatMap_cons,
        List.flatMap_singleton, induction, List.flatMap_cons, List.append_assoc]
      rfl

theorem ofTerm_listWithTail (items : List Term) (tail : Term) :
    tally.ofTerm (listWithTail items (some tail)) =
      items.flatMap tally.ofTerm ++ tally.ofTerm tail := by
  cases tail with
  | list rest => rw [listWithTail, tally.list, tally.list, List.flatMap_append]
  | _ => exact ofTerm_cells items _

/-- What is collected from what is read was collected from the tokens that it takes. -/
def KeptBy (tally : Tally α) (operand : OperandReader) : Prop :=
  ∀ {bound tokens result taken}, operand bound tokens = .ok (result, taken) →
    tally.ofTerm result.term = tally.ofTokens (tokens.take taken)

section

variable (keeps : tally.KeptBy operand)
include keeps

theorem ofArguments {args : List Term} (read : ArgumentsRead operand tokens args taken) :
    args.flatMap tally.ofTerm = tally.ofTokens (tokens.take taken) := by
  induction read with
  | last found => rw [List.flatMap_singleton, keeps found]
  | more found next isComma _ others =>
      rw [List.flatMap_cons, keeps found, others, Nat.add_assoc, ofTokens_take_add, next,
        Nat.add_comm 1, List.take_succ_cons, ofTokens_cons, ofKind_mark isComma]
      rfl

theorem ofBracketed (read : BracketedRead mark operand tokens term taken) :
    tally.ofTerm term = tally.ofTokens (tokens.take taken) := by
  cases read with
  | closed found closed =>
      rw [ofTokens_take_add, ofTokens_take_mark closed, List.append_nil]
      exact keeps found

theorem ofList (read : ListRead operand tokens term taken) :
    tally.ofTerm term = tally.ofTokens (tokens.take taken) := by
  cases read with
  | empty closed =>
      rw [tally.list, ofTokens_take_mark closed]
      rfl
  | items read closed =>
      rw [tally.list, ofTokens_take_add, ofTokens_take_mark closed, List.append_nil]
      exact ofArguments keeps read
  | withTail read separated found closed =>
      rw [ofTerm_listWithTail, ofArguments keeps read, keeps found, ofTokens_take_add,
        ofTokens_take_mark closed, ofTokens_take_add, ofTokens_take_add,
        ofTokens_take_mark separated, List.append_nil, List.append_nil]

end

theorem ofNumber (read : NumberRead token term) :
    tally.ofTerm term = [] ∧ tally.ofKind token.kind = [] := by
  cases read with
  | integer kind value => exact ⟨tally.integer value, by rw [kind, tally.magnitude]⟩
  | float kind value => exact ⟨tally.float value, by rw [kind, tally.fraction]⟩

section

variable (keeps : tally.KeptBy operand)
include keeps

theorem ofName {name : String} (read : NameRead operand name bound tokens result taken) :
    tally.ofTerm result.term
      = tally.ofKind (.name name) ++ tally.ofTokens (tokens.take taken) := by
  cases read with
  | functional opened read closed =>
      rw [tally.compound, ofArguments keeps read, ofTokens_take_add, ofTokens_take_add,
        ofTokens_take_mark opened, ofTokens_take_mark closed, List.append_nil, List.nil_append]
  | atom =>
      rw [tally.atom]
      exact (List.append_nil _).symm
  | negative found minus =>
      obtain ⟨token, rest, rfl, read⟩ := numberRead found
      rw [(ofNumber read).1, minus, tally.silent _ (by decide), List.take_succ_cons, List.take_zero,
        ofTokens_cons, (ofNumber read).2]
      rfl
  | prefixed _ _ found => rw [tally.compound, List.flatMap_singleton, keeps found]

theorem ofPrimary (read : PrimaryRead operand bound token rest result taken) :
    tally.ofTerm result.term = tally.ofKind token.kind ++ tally.ofTokens (rest.take taken) := by
  cases read with
  | number read =>
      rw [(ofNumber read).1, (ofNumber read).2]
      rfl
  | var kind => rw [tally.var, kind, List.take_zero]; exact (List.append_nil _).symm
  | string kind =>
      rw [tally.atom, kind, tally.string, List.take_zero]
      exact (List.append_nil _).symm
  | name kind read =>
      rw [ofName keeps read]
      rcases kind with named | quoted
      · rw [named]
      · rw [quoted, tally.quoted]
  | bracketed kind read =>
      rw [kind, tally.mark]
      exact ofBracketed keeps read
  | list kind read =>
      rw [kind, tally.mark]
      exact ofList keeps read
  | noBraces kind closed =>
      rw [kind, tally.mark, tally.atom, tally.silent _ (by decide), ofTokens_take_mark closed]
      rfl
  | braces kind read =>
      rw [kind, tally.mark, tally.compound, tally.silent _ (by decide), List.flatMap_singleton]
      exact ofBracketed keeps read

end

theorem ofKind_of_joining? {left : Operand} {name : String} {operator : InfixOperator}
    (joins : joining? bound left token = some (name, operator)) :
    tally.ofKind token.kind = tally.ofKind (.name name) := by
  obtain ⟨other, named, continued⟩ := Option.bind_eq_some_iff.mp joins
  obtain ⟨found, _, last⟩ := Option.bind_eq_some_iff.mp continued
  split at last
  case isTrue => cases last
  case isFalse =>
    cases last
    unfold infixName? at named
    split at named
    case h_1 kind => rw [kind, Option.some.inj named]
    case h_2 mark kind =>
      rw [kind, tally.mark]
      split at named
      case isTrue => rw [← Option.some.inj named, tally.silent _ (by decide)]
      case isFalse =>
        split at named
        case isTrue => rw [← Option.some.inj named, tally.silent _ (by decide)]
        case isFalse => cases named
    case h_3 => cases named

theorem ofInfix {left : Operand} (read : InfixRead operand bound left tokens result taken)
    (keeps : tally.KeptBy operand) :
    tally.ofTerm result.term = tally.ofTerm left.term ++ tally.ofTokens (tokens.take taken) := by
  induction read with
  | stop => exact (List.append_nil _).symm
  | join joins found _ joined =>
      rw [tally.compound, List.flatMap_cons, List.flatMap_singleton, keeps found,
        ← List.append_assoc, tally.commutes] at joined
      rw [joined, Nat.add_assoc, Nat.add_comm 1, List.take_succ_cons, ofTokens_cons,
        ofKind_of_joining? joins, ofTokens_take_add]
      simp only [List.append_assoc]

theorem keptBy_readOperand (tally : Tally α) (size levels : Nat) :
    tally.KeptBy (readOperand size levels) := by
  induction levels with
  | zero => exact nofun
  | succ levels keeps =>
      intro bound tokens result taken read
      cases levelRead read with
      | read primary others =>
          rw [ofInfix others keeps, ofPrimary keeps primary, Nat.add_assoc, Nat.add_comm 1,
            List.take_succ_cons, ofTokens_cons, ofTokens_take_add, List.append_assoc]

/-- Nothing of the tokens of a text is lost in its term, and nothing comes in. -/
theorem ofTerm_of_ofTokens (tally : Tally α) (clauseEnd : tally.ofKind .clauseEnd = [])
    {size : Nat} (read : Term.ofTokens size tokens = .ok term) :
    tally.ofTerm term = tally.ofTokens tokens := by
  obtain ⟨result, taken, found, rfl, rest⟩ := ofTokens_eq_ok read
  have none : tally.ofTokens (tokens.drop taken) = [] := by
    rcases rest with empty | ⟨token, single, isEnd⟩
    · rw [empty]
      rfl
    · rw [single, ofTokens_cons, isEnd, clauseEnd]
      rfl
  have whole := tally.ofTokens_append (tokens.take taken) (tokens.drop taken)
  rw [List.take_append_drop, none, List.append_nil] at whole
  rw [tally.keptBy_readOperand size maxDepth found, whole]

/-- Tokens from which something else is collected are not read as the same term. -/
theorem ofTokens_ne (tally : Tally α) (clauseEnd : tally.ofKind .clauseEnd = [])
    {size other : Nat} {tokens others : List Token} {term : Term}
    (differ : tally.ofTokens others ≠ tally.ofTokens tokens)
    (read : Term.ofTokens size tokens = .ok term) : Term.ofTokens other others ≠ .ok term :=
  fun again => differ ((tally.ofTerm_of_ofTokens clauseEnd again).symm.trans
    (tally.ofTerm_of_ofTokens clauseEnd read))

end Tally

/-! The ends of clauses. -/

def endTally : Tally Unit where
  ofKind
    | .clauseEnd => [()]
    | _ => []
  ofTerm _ := []
  mark _ := rfl
  magnitude _ := rfl
  fraction _ := rfl
  quoted _ := rfl
  string _ := rfl
  silent _ _ := rfl
  commutes _ found := (List.append_nil found).symm
  integer _ := rfl
  float _ := rfl
  var _ := rfl
  atom _ := rfl
  list _ := (List.flatMap_eq_nil_iff.mpr fun _ _ => rfl).symm
  compound _ _ := (List.flatMap_eq_nil_iff.mpr fun _ _ => rfl).symm

/-- No term goes on across the end of a clause. -/
theorem noEnd_of_readOperand {size levels bound taken : Nat} {tokens : List Token}
    {result : Operand} (read : readOperand size levels bound tokens = .ok (result, taken)) :
    ∀ token ∈ tokens.take taken, token.kind ≠ .clauseEnd := by
  intro token member ends
  have none : endTally.ofTokens (tokens.take taken) = [] :=
    (endTally.keptBy_readOperand size levels read).symm
  have silent : endTally.ofKind token.kind = [] := List.flatMap_eq_nil_iff.mp none token member
  rw [ends] at silent
  cases silent

/-! How often a term mentions a name. -/

def mention (name other : String) : List Unit :=
  if other = name then [()] else []

mutual
/-- One unit for each atom and functor of the name. -/
def mentions (name : String) : Term → List Unit
  | .atom other => mention name other
  | .compound functor args => mention name functor ++ mentionsAll name args
  | .list items => mentionsAll name items
  | _ => []

def mentionsAll (name : String) : List Term → List Unit
  | [] => []
  | term :: terms => mentions name term ++ mentionsAll name terms
end

theorem mentionsAll_eq_flatMap (name : String) (terms : List Term) :
    mentionsAll name terms = terms.flatMap (mentions name) := by
  induction terms with
  | nil => rfl
  | cons term terms induction => rw [mentionsAll, induction, List.flatMap_cons]

theorem mention_commutes (name other : String) (found : List Unit) :
    mention name other ++ found = found ++ mention name other := by
  unfold mention
  split
  case isTrue =>
    induction found with
    | nil => rfl
    | cons _ found induction => exact congrArg (() :: ·) induction
  case isFalse => exact (List.append_nil found).symm

def nameTally {name : String} (spoken : name ∉ silentNames) : Tally Unit where
  ofKind
    | .name other => mention name other
    | .quoted other => mention name other
    | .string other => mention name other
    | _ => []
  ofTerm := mentions name
  mark _ := rfl
  magnitude _ := rfl
  fraction _ := rfl
  quoted _ := rfl
  string _ := rfl
  silent other member := if_neg (by rintro rfl; exact spoken member)
  commutes := mention_commutes name
  integer _ := rfl
  float _ := rfl
  var _ := rfl
  atom _ := rfl
  list := mentionsAll_eq_flatMap name
  compound functor args := congrArg (mention name functor ++ ·) (mentionsAll_eq_flatMap name args)

end HornQuery.Term
