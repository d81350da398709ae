import HornQuery.Proofs.Conversion.Standard
import HornQuery.Proofs.Goal.Pieces
import HornQuery.Proofs.Term.RoundTrip

namespace HornQuery

/-- A term with slots, which are told apart by their labels. Parts without slots may be left
whole. -/
inductive Frame (σ : Type) where
  | slot (label : σ)
  | whole (term : Term)
  | compound (functor : String) (args : List (Frame σ))
  | list (items : List (Frame σ))

/-- The pieces of a term with slots, alone and after the items of a list of which it is the
tail. -/
structure Marked (σ : Type) where
  alone : List (Piece σ)
  asTail : List (Piece σ)

namespace Marked

open Piece

variable {σ : Type}

def literal (written : Written) : Marked σ :=
  ⟨Piece.literal written.text, Piece.literal written.asTail⟩

def leaf (pieces : List (Piece σ)) : Marked σ :=
  ⟨pieces, .character '|' :: pieces⟩

def items : List (Marked σ) → List (Piece σ)
  | [] => []
  | [part] => part.alone
  | part :: next :: more => part.alone ++ .character ',' :: items (next :: more)

def ofList (parts : List (Marked σ)) : Marked σ where
  alone := .character '[' :: (items parts ++ [.character ']'])
  asTail := parts.flatMap fun part => .character ',' :: part.alone

def functional (functor : String) (parts : List (Marked σ)) : Marked σ :=
  leaf (Piece.literal (Term.writeFunctor functor) ++
    .character '(' :: (items parts ++ [.character ')']))

def ofCompound (functor : String) (parts : List (Marked σ)) : Marked σ :=
  match parts with
  | [item, tail] =>
      if functor = Term.listCell then
        ⟨.character '[' :: (item.alone ++ tail.asTail ++ [.character ']']),
          .character ',' :: (item.alone ++ tail.asTail)⟩
      else functional functor parts
  | [inner] =>
      if functor = "\x7b\x7d" then
        leaf (.character '\x7b' :: (inner.alone ++ [.character '\x7d']))
      else functional functor parts
  | _ => functional functor parts

end Marked

/-- Induction in which the parts of a frame are its arguments or items. -/
theorem Frame.induction {σ : Type} {motive : Frame σ → Prop}
    (slot : ∀ label, motive (.slot label))
    (whole : ∀ term, motive (.whole term))
    (compound : ∀ functor args, (∀ arg ∈ args, motive arg) → motive (.compound functor args))
    (list : ∀ items, (∀ item ∈ items, motive item) → motive (.list items)) :
    ∀ frame, motive frame
  | .slot label => slot label
  | .whole term => whole term
  | .compound functor args =>
      compound functor args fun arg _ => Frame.induction slot whole compound list arg
  | .list items => list items fun item _ => Frame.induction slot whole compound list item

namespace Frame

variable {σ : Type}

mutual
def fill (term : σ → Term) : Frame σ → Term
  | .slot label => term label
  | .whole inner => inner
  | .compound functor args => .compound functor (fillAll term args)
  | .list items => .list (fillAll term items)

def fillAll (term : σ → Term) : List (Frame σ) → List Term
  | [] => []
  | frame :: frames => frame.fill term :: fillAll term frames
end

mutual
def slots : Frame σ → List σ
  | .slot label => [label]
  | .whole _ => []
  | .compound _ args => slotsAll args
  | .list items => slotsAll items

def slotsAll : List (Frame σ) → List σ
  | [] => []
  | frame :: frames => frame.slots ++ slotsAll frames
end

mutual
def marked : Frame σ → Marked σ
  | .slot label => .leaf [.slot label]
  | .whole term => .literal term.written
  | .compound functor args => .ofCompound functor (markedAll args)
  | .list items => .ofList (markedAll items)

def markedAll : List (Frame σ) → List (Marked σ)
  | [] => []
  | frame :: frames => frame.marked :: markedAll frames
end

def pieces (frame : Frame σ) : List (Piece σ) :=
  frame.marked.alone

/-- No slot is the tail of a list. -/
inductive Proper : Frame σ → Prop
  | slot (label : σ) : Proper (.slot label)
  | whole (term : Term) : Proper (.whole term)
  | list {items : List (Frame σ)} (all : ∀ item ∈ items, Proper item) : Proper (.list items)
  | compound {functor : String} {args : List (Frame σ)}
      (noTail : ∀ item label, functor = Term.listCell → args ≠ [item, .slot label])
      (all : ∀ arg ∈ args, Proper arg) : Proper (.compound functor args)

theorem fillAll_eq_map (term : σ → Term) (frames : List (Frame σ)) :
    fillAll term frames = frames.map (fill term) := by
  induction frames with
  | nil => rfl
  | cons frame frames induction => rw [fillAll, induction, List.map_cons]

theorem slotsAll_eq_flatMap (frames : List (Frame σ)) : slotsAll frames = frames.flatMap slots := by
  induction frames with
  | nil => rfl
  | cons frame frames induction => rw [slotsAll, induction, List.flatMap_cons]

theorem markedAll_eq_map (frames : List (Frame σ)) : markedAll frames = frames.map marked := by
  induction frames with
  | nil => rfl
  | cons frame frames induction => rw [markedAll, induction, List.map_cons]

end Frame

/-! Filling the slots of a marked text. -/

namespace Marked

open Piece

variable {σ : Type} {parts : List (Marked σ)}

def filled (text : σ → List Char) (marked : Marked σ) : Written :=
  ⟨fill text marked.alone, fill text marked.asTail⟩

variable (text : σ → List Char)

theorem fill_items (parts : List (Marked σ)) :
    fill text (items parts) = Written.items (parts.map (filled text)) := by
  induction parts with
  | nil => rfl
  | cons part parts induction =>
      cases parts with
      | nil => rfl
      | cons next more =>
          rw [items, fill_append, fill_character, induction]
          exact (Term.items_cons_cons (part.filled text) (next.filled text)
            (more.map (filled text))).symm

theorem filled_ofList (parts : List (Marked σ)) :
    (ofList parts).filled text = Written.ofList (parts.map (filled text)) := by
  have tail : fill text (ofList parts).asTail =
      (Written.ofList (parts.map (filled text))).asTail := by
    simp only [ofList, Written.ofList]
    induction parts with
    | nil => rfl
    | cons part parts induction =>
        rw [List.flatMap_cons, fill_append, induction, List.map_cons, List.flatMap_cons]
        rfl
  rw [filled, tail, ofList, fill_character, fill_append, fill_items]
  rfl

theorem filled_functional (functor : String) (parts : List (Marked σ)) :
    (functional functor parts).filled text =
      Written.functional functor (parts.map (filled text)) := by
  simp only [filled, functional, leaf, fill_append, fill_character, fill_literal, fill_items,
    fill_nil, Written.functional, Written.leaf]

theorem filled_ofCompound (functor : String) (parts : List (Marked σ)) :
    (ofCompound functor parts).filled text =
      Written.ofCompound functor (parts.map (filled text)) := by
  have plain := filled_functional text functor parts
  match parts with
  | [] => exact plain
  | [inner] =>
      by_cases braces : functor = "\x7b\x7d"
      · simp [ofCompound, Written.ofCompound, braces, filled, leaf, Written.leaf]
      · simpa [ofCompound, Written.ofCompound, braces] using plain
  | [item, tail] =>
      by_cases cell : functor = Term.listCell
      · simp [ofCompound, Written.ofCompound, cell, filled]
      · simpa [ofCompound, Written.ofCompound, cell] using plain
  | item :: next :: third :: more => exact plain

/-! Every slot is followed by a mark of term text or by nothing. -/

/-- The slots keep their distance, also in front of what a list continues with. -/
structure Tidy (marked : Marked σ) : Prop where
  alone : Separated marked.alone
  asTail : Separated marked.asTail
  follows : Apart marked.asTail

theorem apart_mark {c : Char} (mark : c ∈ Token.delimiters) (pieces : List (Piece σ)) :
    Apart (.character c :: pieces) :=
  ⟨Text.forall_mem_of_all (p := (· ≠ '?')) (by decide) c mark,
    Token.isNameCharacter_of_mem_enders c (List.mem_append_left _ mark)⟩

theorem apart_literal {text : List Char} (delimited : Token.Delimited text) :
    Apart (Piece.literal text : List (Piece σ)) := by
  cases text with
  | nil => trivial
  | cons c text => exact apart_mark (delimited c rfl) _

theorem delimited_asTail (term : Term) : Token.Delimited term.written.asTail := by
  by_cases isList : ∃ items, term = .list items
  · obtain ⟨items, isList⟩ := isList
    subst isList
    cases items with
    | nil => exact Token.delimited_nil
    | cons item items => exact Token.delimited_cons (by decide) _
  · have delimited := Term.delimited_asTail term (fun items same => isList ⟨items, same⟩) []
    rwa [List.append_nil] at delimited

theorem tidy_literal (term : Term) : (literal term.written : Marked σ).Tidy :=
  ⟨separated_literal _, separated_literal _, apart_literal (delimited_asTail term)⟩

theorem tidy_leaf {pieces : List (Piece σ)} (separated : Separated pieces) : (leaf pieces).Tidy :=
  ⟨separated, separated, apart_mark (by decide) pieces⟩

theorem separated_items (all : ∀ part ∈ parts, Tidy part) : Separated (items parts) := by
  induction parts with
  | nil => trivial
  | cons part parts induction =>
      have first := (all part List.mem_cons_self).alone
      cases parts with
      | nil => exact first
      | cons next more =>
          have others := induction fun other member => all other (List.mem_cons_of_mem part member)
          exact first.append (apart_mark (by decide) _) others

theorem tidy_ofList (all : ∀ part ∈ parts, Tidy part) : (ofList parts).Tidy := by
  have tail : Separated (ofList parts).asTail ∧ Apart (ofList parts).asTail := by
    simp only [ofList]
    induction parts with
    | nil => exact ⟨trivial, trivial⟩
    | cons part parts induction =>
        have others := induction fun other member => all other (List.mem_cons_of_mem part member)
        exact ⟨(all part List.mem_cons_self).alone.append others.2 others.1,
          apart_mark (by decide) _⟩
  exact ⟨(separated_items all).append (apart_mark (by decide) []) trivial, tail.1, tail.2⟩

theorem tidy_functional (functor : String) (all : ∀ part ∈ parts, Tidy part) :
    (functional functor parts).Tidy := by
  apply tidy_leaf
  apply separated_literal_append
  exact (separated_items all).append (apart_mark (by decide) []) trivial

theorem tidy_ofCompound (functor : String) (all : ∀ part ∈ parts, Tidy part) :
    (ofCompound functor parts).Tidy := by
  have plain := tidy_functional functor all
  match parts with
  | [] => exact plain
  | [inner] =>
      by_cases braces : functor = "{}"
      · rw [ofCompound, if_pos braces]
        have inside := (all inner List.mem_cons_self).alone
        exact tidy_leaf (inside.append (apart_mark (by decide) []) trivial)
      · rwa [ofCompound, if_neg braces]
  | [item, tail] =>
      by_cases cell : functor = Term.listCell
      · rw [ofCompound, if_pos cell]
        have first := (all item List.mem_cons_self).alone
        have last := all tail (List.mem_cons_of_mem item List.mem_cons_self)
        have inside := first.append last.follows last.asTail
        exact ⟨inside.append (apart_mark (by decide) []) trivial, inside, apart_mark (by decide) _⟩
      · rwa [ofCompound, if_neg cell]
  | item :: next :: third :: more => exact plain

/-! Both texts of a compound or a list have the slots of its parts, in their order. -/

theorem labels_items (parts : List (Marked σ)) :
    labels (items parts) = parts.flatMap fun part => labels part.alone := by
  induction parts with
  | nil => rfl
  | cons part parts induction =>
      cases parts with
      | nil => simp [items]
      | cons next more =>
          rw [items, labels_append, labels_character, induction]
          rfl

structure HasSlots (marked : Marked σ) (slots : List σ) : Prop where
  alone : labels marked.alone = slots
  asTail : labels marked.asTail = slots

theorem hasSlots_ofList (parts : List (Marked σ)) :
    (ofList parts).HasSlots (parts.flatMap fun part => labels part.alone) := by
  constructor
  · simp [ofList, labels_items]
  · simp only [ofList]
    induction parts with
    | nil => rfl
    | cons part parts induction => simp [induction]

theorem hasSlots_functional (functor : String) (parts : List (Marked σ)) :
    (functional functor parts).HasSlots (parts.flatMap fun part => labels part.alone) := by
  constructor <;> simp [functional, leaf, labels_items]

theorem hasSlots_ofCompound (functor : String)
    (all : ∀ part ∈ parts, labels part.asTail = labels part.alone) :
    (ofCompound functor parts).HasSlots (parts.flatMap fun part => labels part.alone) := by
  have plain := hasSlots_functional functor parts
  match parts with
  | [] => exact plain
  | [inner] =>
      by_cases braces : functor = "{}"
      · rw [ofCompound, if_pos braces]
        constructor <;> simp [leaf]
      · rwa [ofCompound, if_neg braces]
  | [item, tail] =>
      by_cases cell : functor = Term.listCell
      · have last := all tail (List.mem_cons_of_mem item List.mem_cons_self)
        rw [ofCompound, if_pos cell]
        constructor <;> simp [last]
      · rwa [ofCompound, if_neg cell]
  | item :: next :: third :: more => exact plain

end Marked

namespace Frame

variable {σ : Type} {frame : Frame σ}

theorem tidy_marked (frame : Frame σ) : frame.marked.Tidy := by
  induction frame using Frame.induction with
  | slot label => exact Marked.tidy_leaf ⟨trivial, trivial⟩
  | whole term => exact Marked.tidy_literal term
  | compound functor args induction =>
      rw [marked, markedAll_eq_map]
      exact Marked.tidy_ofCompound functor (List.forall_mem_map.mpr induction)
  | list items induction =>
      rw [marked, markedAll_eq_map]
      exact Marked.tidy_ofList (List.forall_mem_map.mpr induction)

theorem separated_pieces (frame : Frame σ) : Piece.Separated frame.pieces :=
  frame.tidy_marked.alone

theorem hasSlots_marked (frame : Frame σ) : frame.marked.HasSlots frame.slots := by
  induction frame using Frame.induction with
  | slot label => exact ⟨rfl, rfl⟩
  | whole term => exact ⟨Piece.labels_literal _, Piece.labels_literal _⟩
  | compound functor args induction =>
      have slots : args.flatMap slots = args.flatMap fun arg => Piece.labels arg.marked.alone :=
        List.flatMap_congr fun arg member => (induction arg member).alone.symm
      have parts : ∀ part ∈ args.map marked,
          Piece.labels part.asTail = Piece.labels part.alone := by
        rw [List.forall_mem_map]
        intro arg member
        rw [(induction arg member).asTail, (induction arg member).alone]
      have whole := Marked.hasSlots_ofCompound functor parts
      rw [List.flatMap_map, ← slots] at whole
      rwa [marked, markedAll_eq_map, Frame.slots, slotsAll_eq_flatMap]
  | list items induction =>
      have slots : items.flatMap slots = items.flatMap fun item => Piece.labels item.marked.alone :=
        List.flatMap_congr fun item member => (induction item member).alone.symm
      have whole := Marked.hasSlots_ofList (items.map marked)
      rw [List.flatMap_map, ← slots] at whole
      rwa [marked, markedAll_eq_map, Frame.slots, slotsAll_eq_flatMap]

theorem labels_pieces (frame : Frame σ) : Piece.labels frame.pieces = frame.slots :=
  frame.hasSlots_marked.alone

/-- The text of a filled frame: as the tail of a list only a slot can be written otherwise, when
it is filled with a list. -/
theorem written_fill (term : σ → Term) (proper : frame.Proper) :
    (frame.fill term).write = Piece.fill (fun label => (term label).write) frame.pieces ∧
      ((∀ label, frame ≠ .slot label) → (frame.fill term).written.asTail =
        Piece.fill (fun label => (term label).write) frame.marked.asTail) := by
  induction proper with
  | slot label => exact ⟨(List.append_nil _).symm, fun noSlot => absurd rfl (noSlot label)⟩
  | whole inner => exact ⟨(Piece.fill_literal _ _).symm, fun _ => (Piece.fill_literal _ _).symm⟩
  | @list items all induction =>
      have whole : (fill term (.list items)).written =
          (marked (.list items)).filled fun label => (term label).write := by
        rw [fill, fillAll_eq_map, Term.written_list_map, marked, markedAll_eq_map,
          Marked.filled_ofList, List.map_map]
        exact Term.ofList_map_congr fun item member => (induction item member).1
      exact ⟨congrArg Written.text whole, fun _ => congrArg Written.asTail whole⟩
  | @compound functor args noTail all induction =>
      have whole : (fill term (.compound functor args)).written =
          (marked (.compound functor args)).filled fun label => (term label).write := by
        rw [fill, fillAll_eq_map, Term.written_compound_map, marked, markedAll_eq_map,
          Marked.filled_ofCompound, List.map_map]
        apply Term.ofCompound_map_congr
        · exact fun arg member => (induction arg member).1
        · -- The cell asks for more than the text of its tail, which is no slot.
          intro cell item tail pair
          have member : tail ∈ args := by simp [pair]
          refine (induction tail member).2 fun label isSlot => ?_
          exact noTail item label cell (isSlot ▸ pair)
      exact ⟨congrArg Written.text whole, fun _ => congrArg Written.asTail whole⟩

theorem fill_list_of_not_slot {term : σ → Term} (other : σ → Term) {items : List Term}
    (noSlot : ∀ label, frame ≠ .slot label) (isList : frame.fill term = .list items) :
    ∃ others, frame.fill other = .list others := by
  cases frame with
  | slot label => exact absurd rfl (noSlot label)
  | whole inner => exact ⟨items, isList⟩
  | compound functor args => exact nomatch isList
  | list items => exact ⟨fillAll other items, rfl⟩

theorem readable_fill {term other : σ → Term} (proper : frame.Proper)
    (readable : (frame.fill other).Readable) (each : ∀ label ∈ frame.slots, (term label).Readable) :
    (frame.fill term).Readable := by
  induction proper with
  | slot label => exact each label List.mem_cons_self
  | whole inner => exact readable
  | @list items all induction =>
      rw [fill, fillAll_eq_map] at readable ⊢
      rw [slots, slotsAll_eq_flatMap] at each
      cases readable with
      | list parts =>
          refine .list (List.forall_mem_map.mpr fun item member => ?_)
          apply induction item member (parts _ (List.mem_map_of_mem member))
          exact fun label isSlot => each label (List.mem_flatMap.mpr ⟨item, member, isSlot⟩)
  | @compound functor args noTail all induction =>
      rw [fill, fillAll_eq_map] at readable ⊢
      rw [slots, slotsAll_eq_flatMap] at each
      cases readable with
      | compound some proper parts =>
          refine .compound (by simpa using some) ?_ (List.forall_mem_map.mpr fun arg member => ?_)
          · intro item items cell pair
            obtain ⟨first, tails, rfl, _, tail⟩ := List.map_eq_cons_iff.mp pair
            obtain ⟨last, none, rfl, isList, empty⟩ := List.map_eq_cons_iff.mp tail
            obtain rfl := List.map_eq_nil_iff.mp empty
            -- A tail that is no slot is a list after filling only if it was one before.
            have noSlot : ∀ label, last ≠ .slot label :=
              fun label isSlot => noTail first label cell (isSlot ▸ rfl)
            obtain ⟨others, otherList⟩ := fill_list_of_not_slot other noSlot isList
            exact proper (first.fill other) others cell (by simp [otherList])
          · apply induction arg member (parts _ (List.mem_map_of_mem member))
            exact fun label isSlot => each label (List.mem_flatMap.mpr ⟨arg, member, isSlot⟩)

/-- A pattern made from the text of a readable term gives that term with its slots filled by
the terms of the values, each in its own slot. -/
theorem termPattern_eq_fill {policy : Policy} {name : σ → String} {value : σ → Value}
    {term : σ → Term} (proper : frame.Proper)
    (readable : (frame.fill fun label => .var (name label)).Readable)
    (converted : ∀ label ∈ frame.slots, policy.toTerm (value label) = .ok (term label))
    (each : ∀ label ∈ frame.slots, (term label).Readable)
    (shallow : (frame.fill term).height ≤ Term.maxDepth) :
    (frame.fill fun label => .var (name label)).write =
        Piece.fill (fun label => (name label).toList) frame.pieces ∧
      Piece.labels frame.pieces = frame.slots ∧
      policy.termPattern (String.ofList (Piece.patternText frame.pieces))
        (frame.slots.map value) = .ok (frame.fill term) := by
  have slots := frame.labels_pieces
  refine ⟨(written_fill (fun label => .var (name label)) proper).1, slots, ?_⟩
  have read : Term.parse
      (String.ofList (Piece.fill (fun label => (term label).write) frame.pieces)) =
      .ok (frame.fill term) := by
    rw [← (written_fill term proper).1]
    exact (Term.readsIf_parse_text (readable_fill proper readable each)).same shallow
  rw [← slots] at converted ⊢
  exact Policy.termPattern_pieces frame.separated_pieces converted read

def greeting : Frame Bool :=
  .compound "a?" [.list [.slot false, .whole (.atom "?")], .slot true]

theorem termPattern_greeting :
    Policy.standard.termPattern "'a??'([?,??],?)" [.string "?", .list [.int (-1)]] =
      .ok (.compound "a?" [.list [.atom "?", .atom "?"], .list [.integer (-1)]]) := by
  let value : Bool → Value := fun label => if label then .list [.int (-1)] else .string "?"
  let term : Bool → Term := fun label => if label then .list [.integer (-1)] else .atom "?"
  have mark : (Term.atom "?").Readable := .atom (by decide)
  have number : (Term.list [.integer (-1)]).Readable :=
    .list (List.forall_mem_singleton.mpr (.integer (-1)))
  have name : (Term.var "X").Readable :=
    .var ⟨'X', [], rfl, .inr (by decide), fun _ none => absurd none List.not_mem_nil⟩
  have readable : (greeting.fill fun _ => .var "X").Readable := by
    refine .compound (List.cons_ne_nil _ _) (fun _ _ cell => absurd cell (by decide)) ?_
    exact List.forall_mem_cons.mpr ⟨.list (List.forall_mem_cons.mpr
      ⟨name, List.forall_mem_singleton.mpr mark⟩), List.forall_mem_singleton.mpr name⟩
  have items : (Frame.list [.slot false, .whole (.atom "?")]).Proper :=
    .list (List.forall_mem_cons.mpr
      ⟨.slot false, List.forall_mem_singleton.mpr (.whole (.atom "?"))⟩)
  have proper : greeting.Proper := by
    refine .compound (fun _ _ cell => absurd cell (by decide)) ?_
    exact List.forall_mem_cons.mpr ⟨items, List.forall_mem_singleton.mpr (.slot true)⟩
  have listed : Policy.standard.toTerm (.list [.int (-1)]) =
      .ok (.list ([Value.int (-1)].map fun _ => .integer (-1))) :=
    Policy.standard_toTerm_list (List.forall_mem_singleton.mpr (Policy.standard_toTerm_int (-1)))
  have converted : ∀ label ∈ greeting.slots,
      Policy.standard.toTerm (value label) = .ok (term label) :=
    List.forall_mem_cons.mpr
      ⟨Policy.standard_toTerm_string "?", List.forall_mem_singleton.mpr listed⟩
  have each : ∀ label ∈ greeting.slots, (term label).Readable :=
    List.forall_mem_cons.mpr ⟨mark, List.forall_mem_singleton.mpr number⟩
  have pattern : Piece.patternText greeting.pieces = "'a??'([?,??],?)".toList := by
    decide +kernel
  have filled := (termPattern_eq_fill proper readable converted each (by decide)).2.2
  rw [pattern] at filled
  exact filled

end Frame

end HornQuery
