import HornQuery.Proofs.Term.Readable
import HornQuery.Proofs.Token.Numbers
import HornQuery.Term.Reader

namespace HornQuery.Term

open Token

inductive SpellsAll (spells : List Token → Term → Prop) : List Token → List Term → Prop
  | one {tokens : List Token} {term : Term} (spelled : spells tokens term) :
      SpellsAll spells tokens [term]
  | more {tokens others : List Token} {comma : Token} {term : Term} {terms : List Term}
      (spelled : spells tokens term) (separates : comma.kind = .punctuation ',')
      (remaining : SpellsAll spells others terms) :
      SpellsAll spells (tokens ++ comma :: others) (term :: terms)

/-- What follows the first item of a chain of cells. -/
inductive SpellsTail (spells : List Token → Term → Prop) : List Token → Term → Prop
  | last {bar : Token} {tokens : List Token} {term : Term}
      (noList : ∀ items, term ≠ .list items)
      (noCell : ∀ item tail, term ≠ .compound listCell [item, tail])
      (separates : bar.kind = .punctuation '|') (spelled : spells tokens term) :
      SpellsTail spells (bar :: tokens) term
  | more {comma : Token} {first others : List Token} {item tail : Term}
      (separates : comma.kind = .punctuation ',') (spelled : spells first item)
      (continued : SpellsTail spells others tail) :
      SpellsTail spells (comma :: (first ++ others)) (.compound listCell [item, tail])

/-- The tokens of a term. Only two places ask for tokens that touch: an argument list touches
its functor, and a negative number its sign. -/
inductive Spells : List Token → Term → Prop
  | name {token : Token} {name : String} (kind : token.kind = .name name) :
      Spells [token] (.atom name)
  | quoted {token : Token} {name : String} (kind : token.kind = .quoted name) :
      Spells [token] (.atom name)
  | noBraces {opening closing : Token} (opens : opening.kind = .punctuation '\x7b')
      (closes : closing.kind = .punctuation '\x7d') :
      Spells [opening, closing] (.atom "\x7b\x7d")
  | integer {token : Token} {n : Nat} (kind : token.kind = .integer n) (small : n ≤ integerMax) :
      Spells [token] (.integer (Int64.ofNat n))
  | negativeInteger {sign token : Token} {n : Nat} (minus : sign.kind = .name "-")
      (kind : token.kind = .integer n) (touches : token.layoutBefore = false)
      (small : n ≤ integerMax + 1) :
      Spells [sign, token] (.integer (Int64.ofInt (-(n : Int))))
  | float {token : Token} {value : Float} (kind : token.kind = .float value) :
      Spells [token] (.float value)
  | negativeFloat {sign token : Token} {value : Float} (minus : sign.kind = .name "-")
      (kind : token.kind = .float value) (touches : token.layoutBefore = false) :
      Spells [sign, token] (.float (Number.negate value))
  | var {token : Token} {name : String} (kind : token.kind = .var name) :
      Spells [token] (.var name)
  | functional {head opening closing : Token} {inside : List Token} {functor : String}
      {args : List Term} (plain : Functional functor args)
      (kind : head.kind = .name functor ∨ head.kind = .quoted functor)
      (opens : opening.kind = .punctuation '(') (touches : opening.layoutBefore = false)
      (spelled : SpellsAll Spells inside args) (closes : closing.kind = .punctuation ')') :
      Spells (head :: opening :: (inside ++ [closing])) (.compound functor args)
  | noItems {opening closing : Token} (opens : opening.kind = .punctuation '[')
      (closes : closing.kind = .punctuation ']') :
      Spells [opening, closing] (.list [])
  | list {opening closing : Token} {inside : List Token} {items : List Term}
      (opens : opening.kind = .punctuation '[') (spelled : SpellsAll Spells inside items)
      (closes : closing.kind = .punctuation ']') :
      Spells (opening :: (inside ++ [closing])) (.list items)
  | cells {opening closing : Token} {first others : List Token} {item tail : Term}
      (opens : opening.kind = .punctuation '[') (spelled : Spells first item)
      (continued : SpellsTail Spells others tail) (closes : closing.kind = .punctuation ']') :
      Spells (opening :: (first ++ (others ++ [closing]))) (.compound listCell [item, tail])
  | braces {opening closing : Token} {inside : List Token} {inner : Term}
      (opens : opening.kind = .punctuation '\x7b') (spelled : Spells inside inner)
      (closes : closing.kind = .punctuation '\x7d') :
      Spells (opening :: (inside ++ [closing])) (.compound "\x7b\x7d" [inner])

variable {rest : List Char}

/-! Leaves. -/

theorem scans_writeName {name : String} (proper : name ≠ "[]")
    (parted : Parted (writeName name) rest) :
    Scans (writeName name) rest (Spells · (.atom name)) := by
  unfold writeName at parted ⊢
  split at parted
  case isTrue quotes =>
    rw [if_pos quotes]
    apply (scans_quoteName name parted.ended).imp
    rintro tokens ⟨token, kind, _, rfl⟩
    exact .quoted kind
  case isFalse bare =>
    rw [if_neg bare]
    by_cases braces : name = "\x7b\x7d"
    · subst braces
      apply (scans_mark (by decide) _).append (scans_mark (by decide) rest)
      rintro former latter ⟨opening, opens, _, rfl⟩ ⟨closing, closes, _, rfl⟩
      exact .noBraces opens closes
    · apply (scans_bareName (Bool.not_eq_true _ ▸ bare) proper braces parted).imp
      rintro tokens ⟨token, kind, _, rfl⟩
      exact .name kind

theorem scans_writeInteger (value : Int64) (ended : Ended rest) :
    Scans (writeInteger value.toInt) rest (Spells · (.integer value)) := by
  have least := Int64.le_toInt value
  have greatest := Int64.toInt_lt value
  have limit : integerMax = 9223372036854775807 := rfl
  have small : value.toInt.natAbs < integerLimit := by
    have : integerLimit = 18446744073709551616 := rfl
    omega
  have scans : Scans (Nat.toDigits 10 value.toInt.natAbs) rest _ :=
    scans_toDigits small ended
  unfold writeInteger
  split
  case isTrue negative =>
    apply (scans_minus (startsWithDigit_toDigits _) scans).imp
    rintro tokens ⟨sign, token, minus, kind, touches, rfl⟩
    have spelled := Spells.negativeInteger minus kind touches (by omega)
    have same : Int64.ofInt (-(value.toInt.natAbs : Int)) = value := by
      rw [Int.ofNat_natAbs_of_nonpos (Int.le_of_lt negative), Int.neg_neg, Int64.ofInt_toInt]
    rw [same] at spelled
    exact spelled
  case isFalse positive =>
    apply scans.imp
    rintro tokens ⟨token, kind, _, rfl⟩
    have spelled := Spells.integer kind (by omega)
    have same : Int64.ofNat value.toInt.natAbs = value := by
      rw [← Int64.ofInt_eq_ofNat, Int.natAbs_of_nonneg (Int.not_lt.mp positive),
        Int64.ofInt_toInt]
    rw [same] at spelled
    exact spelled

theorem scans_writeFloat {value : Float} (number : value.isNaN = false)
    (ended : Ended rest) :
    Scans (floatLayout.write value) rest (Spells · (.float value)) := by
  obtain ⟨text, starts, written, scans⟩ := exists_magnitude number
  have bound := Number.magnitudeBits_le_of_isNaN_eq_false number
  have whole := Number.ofMagnitude_magnitudeBits value
  rw [written]
  split
  case isTrue negative =>
    apply (scans_minus starts (scans ended)).imp
    rintro tokens ⟨sign, token, minus, kind, touches, rfl⟩
    have spelled := Spells.negativeFloat minus kind touches
    rw [Number.negate_ofMagnitude bound, Bool.not_false, ← negative, whole] at spelled
    exact spelled
  case isFalse positive =>
    apply (scans ended).imp
    rintro tokens ⟨token, kind, _, rfl⟩
    rw [Bool.not_eq_true] at positive
    rw [positive] at whole
    rw [whole] at kind
    exact .float kind

theorem scans_writeVariable {name : String} (spelled : IsVariableName name)
    (ended : Ended rest) : Scans name.toList rest (Spells · (.var name)) := by
  apply (scans_variable spelled ended).imp
  rintro tokens ⟨token, kind, _, rfl⟩
  exact .var kind

/-- The token of a functor: a name that is quoted when it is written is no operator. -/
def functorKind (name : String) : TokenKind :=
  if name = "[]" || name = "\x7b\x7d" || needsQuotes name then .quoted name else .name name

theorem functorKind_cases (name : String) :
    functorKind name = .name name ∨ functorKind name = .quoted name := by
  unfold functorKind
  split
  case isTrue => exact .inr rfl
  case isFalse => exact .inl rfl

theorem scans_writeFunctor (name : String) (delimited : Delimited rest) :
    Scans (writeFunctor name) rest (IsToken (functorKind name)) := by
  have quoted := scans_quoteName name delimited.ended
  unfold writeFunctor writeName functorKind
  by_cases bracket : (name = "[]" || name = "\x7b\x7d") = true
  · rw [if_pos bracket, bracket, Bool.true_or, if_pos rfl]
    exact quoted
  · rw [if_neg bracket, Bool.eq_false_iff.mpr bracket, Bool.false_or]
    split
    case isTrue => exact quoted
    case isFalse bare =>
      simp only [Bool.or_eq_true, decide_eq_true_eq, not_or, Bool.not_eq_true] at bracket bare
      exact scans_bareName bare bracket.1 bracket.2 (delimited.parted _)

/-! Terms with parts. -/

theorem items_cons_cons (first second : Written) (others : List Written) :
    Written.items (first :: second :: others) =
      first.text ++ ',' :: Written.items (second :: others) := by
  simp [Written.items, Text.joinWith]

theorem written_functional {functor : String} {args : List Term}
    (plain : Functional functor args) :
    (Term.compound functor args).written = Written.functional functor (writtenAll args) := by
  rw [written]
  rcases args with _ | ⟨first, _ | ⟨second, _ | ⟨third, more⟩⟩⟩
  · rfl
  · have other : functor ≠ "\x7b\x7d" := fun same => plain.noBraces first same rfl
    simp [writtenAll, Written.ofCompound, other]
  · have other : functor ≠ listCell := fun same => plain.noCell first second same rfl
    simp [writtenAll, Written.ofCompound, other]
  · rfl

theorem written_cell (item tail : Term) :
    (Term.compound listCell [item, tail]).written =
      ⟨'[' :: (item.write ++ tail.written.asTail ++ [']']),
        ',' :: (item.write ++ tail.written.asTail)⟩ := by
  simp [written, writtenAll, Written.ofCompound, write]

theorem written_braces (inner : Term) :
    (Term.compound "\x7b\x7d" [inner]).written =
      Written.leaf ('\x7b' :: (inner.write ++ ['\x7d'])) := by
  simp [written, writtenAll, Written.ofCompound, write]

/-! What is written is made from what is written of the parts. -/

section

variable {α : Type} {wholes : List α} {first second : α → Written}

open Written

theorem written_list_map (wholes : List α) (term : α → Term) :
    (Term.list (wholes.map term)).written =
      ofList (wholes.map fun whole => (term whole).written) := by
  rw [written, writtenAll_eq_map, List.map_map]
  rfl

theorem written_compound_map (functor : String) (wholes : List α) (term : α → Term) :
    (Term.compound functor (wholes.map term)).written =
      ofCompound functor (wholes.map fun whole => (term whole).written) := by
  rw [written, writtenAll_eq_map, List.map_map]
  rfl

theorem items_map_congr (same : ∀ whole ∈ wholes, (first whole).text = (second whole).text) :
    items (wholes.map first) = items (wholes.map second) := by
  rw [items, items, List.map_map, List.map_map]
  exact congrArg (Text.joinWith [',']) (List.map_congr_left same)

theorem ofList_map_congr (same : ∀ whole ∈ wholes, (first whole).text = (second whole).text) :
    ofList (wholes.map first) = ofList (wholes.map second) := by
  rw [ofList, ofList, items_map_congr same, List.flatMap_map, List.flatMap_map]
  congr 1
  apply List.flatMap_congr
  intro whole member
  rw [same whole member]

theorem functional_map_congr (functor : String)
    (same : ∀ whole ∈ wholes, (first whole).text = (second whole).text) :
    functional functor (wholes.map first) = functional functor (wholes.map second) := by
  rw [functional, functional, items_map_congr same]

/-- A compound is written from the texts of its parts, but a list cell needs more of its tail. -/
theorem ofCompound_map_congr {functor : String}
    (same : ∀ whole ∈ wholes, (first whole).text = (second whole).text)
    (tails : functor = Term.listCell → ∀ item tail, wholes = [item, tail] →
      (first tail).asTail = (second tail).asTail) :
    ofCompound functor (wholes.map first) = ofCompound functor (wholes.map second) := by
  have functional := functional_map_congr functor same
  match wholes with
  | [] => exact functional
  | [inner] =>
      have inside := same inner List.mem_cons_self
      simp only [List.map_cons, List.map_nil, ofCompound, inside] at functional ⊢
      rw [functional]
  | [item, tail] =>
      have text := same item List.mem_cons_self
      simp only [List.map_cons, List.map_nil, ofCompound, text] at functional ⊢
      rw [functional]
      by_cases cell : functor = Term.listCell
      · rw [tails cell item tail rfl]
      · rw [if_neg cell, if_neg cell]
  | item :: next :: third :: more => exact functional

end

def WritesSpelled (term : Term) : Prop :=
  ∀ rest, Delimited rest → Scans term.write rest (Spells · term)

theorem scans_items {terms : List Term} (some : terms ≠ [])
    (all : ∀ term ∈ terms, WritesSpelled term) (delimited : Delimited rest) :
    Scans (Written.items (writtenAll terms)) rest (SpellsAll Spells · terms) := by
  induction terms with
  | nil => exact absurd rfl some
  | cons term terms induction =>
      have first := all term List.mem_cons_self
      cases terms with
      | nil =>
          apply (first rest delimited).imp
          exact fun tokens spelled => .one spelled
      | cons next others =>
          have remaining := induction (List.cons_ne_nil next others)
            (fun other member => all other (List.mem_cons_of_mem term member))
          have joined : Scans (term.write ++ ',' :: Written.items (writtenAll (next :: others)))
              rest (SpellsAll Spells · (term :: next :: others)) := by
            apply (first _ (delimited_cons (by decide) _)).append
              (remaining.afterMark (by decide))
            rintro former latter spelled ⟨comma, after, separates, _, isSpelled, rfl⟩
            exact .more spelled separates isSpelled
          rw [writtenAll, writtenAll, items_cons_cons]
          exact joined

theorem delimited_asTail (term : Term) (noList : ∀ items, term ≠ .list items)
    (after : List Char) : Delimited (term.written.asTail ++ after) := by
  cases term with
  | atom name => exact delimited_cons (by decide) _
  | integer value => exact delimited_cons (by decide) _
  | float value => exact delimited_cons (by decide) _
  | var name => exact delimited_cons (by decide) _
  | list items => exact absurd rfl (noList items)
  | compound functor args =>
      cases compoundForm functor args with
      | cell item tail =>
          rw [written_cell]
          exact delimited_cons (by decide) _
      | braces inner =>
          rw [written_braces]
          exact delimited_cons (by decide) _
      | functional plain =>
          rw [written_functional plain]
          exact delimited_cons (by decide) _

/-- Functional notation spells the compound, and starts with the functor and a bracket. -/
theorem scans_functional {functor : String} {args : List Term} (plain : Functional functor args)
    (some : args ≠ []) (all : ∀ arg ∈ args, WritesSpelled arg) (rest : List Char) :
    Scans (Term.compound functor args).write rest fun tokens =>
      Spells tokens (.compound functor args) ∧
        ∃ head more, head.kind = functorKind functor ∧ tokens = head :: more := by
  have inside := scans_items some all (delimited_cons (c := ')') (by decide) rest)
  rw [write, written_functional plain, Written.functional, Written.leaf]
  apply (scans_writeFunctor functor (delimited_cons (by decide) _)).append
    ((inside.beforeMark (by decide)).afterMark (by decide))
  rintro former latter ⟨head, kind, _, rfl⟩
    ⟨opening, others, opens, touches, ⟨tokens, closing, spelled, closes, rfl⟩, rfl⟩
  refine ⟨.functional plain ?_ opens touches spelled closes, head, _, kind, rfl⟩
  rw [kind]
  exact functorKind_cases functor

theorem scans_list {items : List Term} (all : ∀ item ∈ items, WritesSpelled item) :
    WritesSpelled (.list items) := by
  intro rest delimited
  cases items with
  | nil =>
      apply ((scans_mark (by decide) rest).afterMark (by decide)).imp
      rintro tokens ⟨opening, others, opens, _, ⟨closing, closes, _, rfl⟩, rfl⟩
      exact .noItems opens closes
  | cons item items =>
      have inside := scans_items (List.cons_ne_nil item items) all
        (delimited_cons (c := ']') (by decide) rest)
      apply ((inside.beforeMark (by decide)).afterMark (by decide)).imp
      rintro tokens
        ⟨opening, others, opens, _, ⟨tokens, closing, spelled, closes, rfl⟩, rfl⟩
      exact .list opens spelled closes

theorem scans_braces {inner : Term} (spelled : WritesSpelled inner) :
    WritesSpelled (.compound "\x7b\x7d" [inner]) := by
  intro rest delimited
  have inside := spelled ('\x7d' :: rest) (delimited_cons (by decide) rest)
  rw [write, written_braces, Written.leaf]
  apply ((inside.beforeMark (by decide)).afterMark (by decide)).imp
  rintro tokens ⟨opening, others, opens, _, ⟨tokens, closing, spelled, closes, rfl⟩, rfl⟩
  exact .braces opens spelled closes

def TailSpelled (term : Term) : Prop :=
  ∀ rest, Delimited rest → Scans term.written.asTail rest (SpellsTail Spells · term)

theorem scans_asTail_last {term : Term} (noList : ∀ items, term ≠ .list items)
    (noCell : ∀ item tail, term ≠ .compound listCell [item, tail])
    (apart : term.written = Written.leaf term.write) (spelled : WritesSpelled term) :
    TailSpelled term := by
  intro rest delimited
  rw [apart, Written.leaf]
  apply ((spelled rest delimited).afterMark (by decide)).imp
  rintro tokens ⟨bar, others, separates, _, isSpelled, rfl⟩
  exact .last noList noCell separates isSpelled

theorem scans_item_tail {item tail : Term} (first : WritesSpelled item)
    (noList : ∀ items, tail ≠ .list items) (continued : TailSpelled tail)
    (delimited : Delimited rest) :
    Scans (item.write ++ tail.written.asTail) rest fun tokens =>
      ∃ former latter, Spells former item ∧ SpellsTail Spells latter tail ∧
        tokens = former ++ latter := by
  apply (first _ (delimited_asTail tail noList rest)).append (continued rest delimited)
  exact fun former latter spelled tailSpelled => ⟨former, latter, spelled, tailSpelled, rfl⟩

theorem scans_cell {item tail : Term} (first : WritesSpelled item)
    (noList : ∀ items, tail ≠ .list items) (continued : TailSpelled tail) :
    WritesSpelled (.compound listCell [item, tail]) ∧
      TailSpelled (.compound listCell [item, tail]) := by
  constructor
  · intro rest delimited
    have inside := scans_item_tail first noList continued
      (delimited_cons (c := ']') (by decide) rest)
    rw [write, written_cell]
    apply ((inside.beforeMark (by decide)).afterMark (by decide)).imp
    rintro tokens ⟨opening, others, opens, _,
      ⟨tokens, closing, ⟨former, latter, spelled, tailSpelled, rfl⟩, closes, rfl⟩, rfl⟩
    rw [List.append_assoc]
    exact .cells opens spelled tailSpelled closes
  · intro rest delimited
    rw [written_cell]
    apply ((scans_item_tail first noList continued delimited).afterMark (by decide)).imp
    rintro tokens ⟨comma, others, separates, _, ⟨former, latter, spelled, tailSpelled, rfl⟩, rfl⟩
    exact .more separates spelled tailSpelled

theorem scans_written {term : Term} (readable : Readable term) :
    WritesSpelled term ∧ ((∀ items, term ≠ .list items) → TailSpelled term) := by
  induction readable with
  | atom proper =>
      have spelled : WritesSpelled (.atom _) := fun rest delimited =>
        scans_writeName proper (delimited.parted _)
      exact ⟨spelled, fun noList => scans_asTail_last noList nofun rfl spelled⟩
  | integer value =>
      have spelled : WritesSpelled (.integer value) := fun rest delimited =>
        scans_writeInteger value delimited.ended
      exact ⟨spelled, fun noList => scans_asTail_last noList nofun rfl spelled⟩
  | float number =>
      have spelled : WritesSpelled (.float _) := fun rest delimited =>
        scans_writeFloat number delimited.ended
      exact ⟨spelled, fun noList => scans_asTail_last noList nofun rfl spelled⟩
  | var isName =>
      have spelled : WritesSpelled (.var _) := fun rest delimited =>
        scans_writeVariable isName delimited.ended
      exact ⟨spelled, fun noList => scans_asTail_last noList nofun rfl spelled⟩
  | list all induction =>
      have spelled := scans_list fun item member => (induction item member).1
      exact ⟨spelled, fun noList => absurd rfl (noList _)⟩
  | @compound functor args some proper all induction =>
      cases compoundForm functor args with
      | cell item tail =>
          -- The items of a list as the tail would be written as items of this list.
          have noList : ∀ items, tail ≠ .list items := by
            intro items same
            exact proper item items rfl (by rw [same])
          have both := scans_cell (induction item (by simp)).1 noList
            ((induction tail (by simp)).2 noList)
          exact ⟨both.1, fun _ => both.2⟩
      | braces inner =>
          have spelled := scans_braces (induction inner (by simp)).1
          refine ⟨spelled, fun noList => scans_asTail_last noList ?_ ?_ spelled⟩
          · intro item tail same
            exact absurd (Term.compound.inj same).2 (by simp)
          · rw [write, written_braces]
            rfl
      | functional plain =>
          have spelled : WritesSpelled (.compound functor args) := fun rest _ =>
            (scans_functional plain some (fun arg member => (induction arg member).1) rest).imp
              fun _ => And.left
          refine ⟨spelled, fun noList => scans_asTail_last noList ?_ ?_ spelled⟩
          · intro item tail same
            cases same
            exact plain.noCell item tail rfl rfl
          · rw [write, written_functional plain]
            rfl

end HornQuery.Term
