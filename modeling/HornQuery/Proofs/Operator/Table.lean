import HornQuery.Proofs.Token.Names
import HornQuery.Term.Reader

namespace HornQuery

variable {name other : String}

theorem exists_infixGroup {operator : InfixOperator}
    (listed : infixOperator? name = some operator) :
    ∃ names, (operator, names) ∈ infixGroups ∧ name ∈ names := by
  rw [infixOperator?, Option.map_eq_some_iff] at listed
  obtain ⟨group, found, same⟩ := listed
  refine ⟨group.2, ?_, ?_⟩
  · rw [← same]
    exact List.mem_of_find?_eq_some found
  · have contains := List.find?_some found
    exact List.contains_iff_mem.mp contains

theorem exists_prefixGroup {operator : PrefixOperator}
    (listed : prefixOperator? name = some operator) :
    ∃ names, (operator, names) ∈ prefixGroups ∧ name ∈ names := by
  rw [prefixOperator?, Option.map_eq_some_iff] at listed
  obtain ⟨group, found, same⟩ := listed
  refine ⟨group.2, ?_, ?_⟩
  · rw [← same]
    exact List.mem_of_find?_eq_some found
  · have contains := List.find?_some found
    exact List.contains_iff_mem.mp contains

namespace InfixOperator

variable {operator next : InfixOperator}

theorem priority_pos (listed : infixOperator? name = some operator) : 0 < operator.priority := by
  have all : ∀ group ∈ infixGroups, 0 < group.1.priority := Text.forall_mem_of_all (by decide)
  obtain ⟨names, member, _⟩ := exists_infixGroup listed
  exact all _ member

theorem priority_le (listed : infixOperator? name = some operator) :
    operator.priority ≤ Term.clauseBound := by
  have all : ∀ group ∈ infixGroups, group.1.priority ≤ Term.clauseBound :=
    Text.forall_mem_of_all (by decide)
  obtain ⟨names, member, _⟩ := exists_infixGroup listed
  exact all _ member

theorem leftBound_le (operator : InfixOperator) : operator.leftBound ≤ operator.priority := by
  unfold leftBound
  split
  · exact Nat.le_refl _
  · exact Nat.sub_le _ _

theorem rightBound_le (operator : InfixOperator) : operator.rightBound ≤ operator.priority := by
  unfold rightBound
  split
  · exact Nat.le_refl _
  · exact Nat.sub_le _ _

/-- The priorities of the operators that associate to the left are theirs alone. -/
theorem priority_of_yfx (listed : infixOperator? name = some operator)
    (leftward : operator.fixity = .yfx) : 400 ≤ operator.priority ∧ operator.priority ≤ 500 := by
  have all : ∀ group ∈ infixGroups, group.1.fixity = .yfx →
      400 ≤ group.1.priority ∧ group.1.priority ≤ 500 :=
    Text.forall_mem_of_all (by decide)
  obtain ⟨names, member, _⟩ := exists_infixGroup listed
  exact all _ member leftward

theorem priority_of_xfy (listed : infixOperator? name = some operator)
    (rightward : operator.fixity = .xfy) : operator.priority < 400 ∨ 500 < operator.priority := by
  have all : ∀ group ∈ infixGroups, group.1.fixity = .xfy →
      group.1.priority < 400 ∨ 500 < group.1.priority :=
    Text.forall_mem_of_all (by decide)
  obtain ⟨names, member, _⟩ := exists_infixGroup listed
  exact all _ member rightward

theorem leftBound_cases (operator : InfixOperator) :
    operator.leftBound = operator.priority - 1 ∨
      operator.fixity = .yfx ∧ operator.leftBound = operator.priority := by
  unfold leftBound
  split
  case h_1 leftward => exact Or.inr ⟨leftward, rfl⟩
  case h_2 => exact Or.inl rfl

theorem rightBound_cases (operator : InfixOperator) :
    operator.rightBound = operator.priority - 1 ∨
      operator.fixity = .xfy ∧ operator.rightBound = operator.priority := by
  unfold rightBound
  split
  case h_1 rightward => exact Or.inr ⟨rightward, rfl⟩
  case h_2 => exact Or.inl rfl

/-- What an operator takes in on its right ends before an operator that may follow it. -/
theorem rightBound_lt (listed : infixOperator? name = some operator)
    (follows : infixOperator? other = some next) (fits : operator.priority ≤ next.leftBound) :
    operator.rightBound < next.priority := by
  have positive := priority_pos listed
  have nextPositive := priority_pos follows
  rcases operator.rightBound_cases with below | ⟨rightward, same⟩
  · have := next.leftBound_le
    omega
  · rcases next.leftBound_cases with strict | ⟨leftward, _⟩
    · omega
    · have inside := priority_of_yfx follows leftward
      have outside := priority_of_xfy listed rightward
      have := next.leftBound_le
      omega

end InfixOperator

theorem PrefixFixity.bound_le (fixity : PrefixFixity) (priority : Nat) :
    fixity.bound priority ≤ priority := by
  cases fixity with
  | fx => exact Nat.sub_le _ _
  | fy => exact Nat.le_refl _

namespace PrefixOperator

variable {operator : PrefixOperator} {next : InfixOperator}

theorem priority_pos (listed : prefixOperator? name = some operator) : 0 < operator.priority := by
  have all : ∀ group ∈ prefixGroups, 0 < group.1.priority := Text.forall_mem_of_all (by decide)
  obtain ⟨names, member, _⟩ := exists_prefixGroup listed
  exact all _ member

theorem priority_le (listed : prefixOperator? name = some operator) :
    operator.priority ≤ Term.clauseBound := by
  have all : ∀ group ∈ prefixGroups, group.1.priority ≤ Term.clauseBound :=
    Text.forall_mem_of_all (by decide)
  obtain ⟨names, member, _⟩ := exists_prefixGroup listed
  exact all _ member

theorem priority_of_fy (listed : prefixOperator? name = some operator)
    (repeats : operator.fixity = .fy) : operator.priority < 400 ∨ 500 < operator.priority := by
  have all : ∀ group ∈ prefixGroups, group.1.fixity = .fy →
      group.1.priority < 400 ∨ 500 < group.1.priority :=
    Text.forall_mem_of_all (by decide)
  obtain ⟨names, member, _⟩ := exists_prefixGroup listed
  exact all _ member repeats

theorem bound_lt (listed : prefixOperator? name = some operator)
    (follows : infixOperator? other = some next) (fits : operator.priority ≤ next.leftBound) :
    operator.fixity.bound operator.priority < next.priority := by
  have positive := priority_pos listed
  have nextPositive := InfixOperator.priority_pos follows
  have bounded := next.leftBound_le
  cases fixity : operator.fixity with
  | fx =>
      simp only [PrefixFixity.bound]
      omega
  | fy =>
      simp only [PrefixFixity.bound]
      rcases next.leftBound_cases with strict | ⟨leftward, _⟩
      · omega
      · have inside := InfixOperator.priority_of_yfx follows leftward
        have outside := priority_of_fy listed fixity
        omega

end PrefixOperator

/-! Operators as tokens. -/

def IsBare (name : String) : Bool :=
  !Term.needsQuotes name && name != "[]" && name != "\x7b\x7d"

theorem scans_of_isBare {rest : List Char} (bare : IsBare name = true)
    (delimited : Token.Delimited rest) :
    Token.Scans name.toList rest (Token.IsToken (.name name)) := by
  simp only [IsBare, Bool.and_eq_true, Bool.not_eq_true', bne_iff_ne] at bare
  exact Token.scans_bareName bare.1.1 bare.1.2 bare.2 (delimited.parted _)

/-- A token that stands for an infix operator, which no argument list starts with. -/
def IsInfix (name : String) (token : Token) : Prop :=
  Term.infixName? token = some name ∧ token.isMark '(' = false

theorem scans_infixName {operator : InfixOperator} {rest : List Char}
    (listed : infixOperator? name = some operator) (delimited : Token.Delimited rest) :
    Token.Scans name.toList rest fun tokens => ∃ sign, IsInfix name sign ∧ tokens = [sign] := by
  have all : ∀ group ∈ infixGroups,
      group.2.all (fun name => name == "," || name == "|" || IsBare name) = true :=
    Text.forall_mem_of_all (by decide)
  obtain ⟨names, member, isName⟩ := exists_infixGroup listed
  have spelled := List.all_eq_true.mp (all _ member) name isName
  simp only [Bool.or_eq_true, beq_iff_eq] at spelled
  rcases spelled with (comma | bar) | bare
  · subst comma
    have scans : Token.Scans [','] rest _ := Token.scans_mark (by decide) rest
    apply scans.imp
    intro tokens isToken
    obtain ⟨token, kind, _, same⟩ := isToken
    exact ⟨token, by simp [IsInfix, Term.infixName?, Token.isMark, kind], same⟩
  · subst bar
    have scans : Token.Scans ['|'] rest _ := Token.scans_mark (by decide) rest
    apply scans.imp
    intro tokens isToken
    obtain ⟨token, kind, _, same⟩ := isToken
    exact ⟨token, by simp [IsInfix, Term.infixName?, Token.isMark, kind], same⟩
  · apply (scans_of_isBare bare delimited).imp
    intro tokens isToken
    obtain ⟨token, kind, _, same⟩ := isToken
    exact ⟨token, by simp [IsInfix, Term.infixName?, Token.isMark, kind], same⟩

/-- How infix operators are spelled: none holds a question mark, starts with a point or opens a
comment. -/
theorem exists_infixText {operator : InfixOperator} (listed : infixOperator? name = some operator) :
    ∃ first more, name.toList = first :: more ∧ first ≠ '.' ∧ '?' ∉ first :: more ∧
      ¬(first = '/' ∧ more.head? = some '*') := by
  have all : ∀ group ∈ infixGroups, ∀ name ∈ group.2, name.toList ≠ [] ∧
      name.toList.head? ≠ some '.' ∧ '?' ∉ name.toList ∧ name.toList.take 2 ≠ ['/', '*'] :=
    Text.forall_mem_of_all (by decide)
  obtain ⟨names, member, isName⟩ := exists_infixGroup listed
  obtain ⟨some, noPoint, noMark, noComment⟩ := all _ member name isName
  obtain ⟨first, more, text⟩ := List.exists_cons_of_ne_nil some
  rw [text] at noPoint noMark noComment
  refine ⟨first, more, text, fun point => noPoint (by rw [point]; rfl), noMark, ?_⟩
  rintro ⟨slash, star⟩
  obtain ⟨others, same⟩ := List.head?_eq_some_iff.mp star
  exact noComment (by rw [slash, same]; rfl)

/-- An operator of symbols is one token unless symbols follow it. -/
theorem scans_symbolInfix {operator : InfixOperator} {rest : List Char}
    (listed : infixOperator? name = some operator)
    (symbols : ∀ c ∈ name.toList, Text.isSymbol c = true)
    (stops : ∀ c ∈ rest.head?, Text.isSymbol c = false) :
    Token.Scans name.toList rest fun tokens => ∃ sign, IsInfix name sign ∧ tokens = [sign] := by
  obtain ⟨first, more, text, noPoint, _, noComment⟩ := exists_infixText listed
  have other : name ≠ "." := by
    intro point
    rw [point] at text
    cases text
    exact noPoint rfl
  rw [text] at symbols
  apply (Token.scans_symbols text symbols other noComment stops).imp
  intro tokens isToken
  obtain ⟨token, kind, _, same⟩ := isToken
  exact ⟨token, by simp [IsInfix, Term.infixName?, Token.isMark, kind], same⟩

theorem scans_prefixName {operator : PrefixOperator} {rest : List Char}
    (listed : prefixOperator? name = some operator) (delimited : Token.Delimited rest) :
    Token.Scans name.toList rest (Token.IsToken (.name name)) := by
  have all : ∀ group ∈ prefixGroups, group.2.all IsBare = true :=
    Text.forall_mem_of_all (by decide)
  obtain ⟨names, member, isName⟩ := exists_prefixGroup listed
  exact scans_of_isBare (List.all_eq_true.mp (all _ member) name isName) delimited

end HornQuery
