import HornQuery.Proofs.Operator.Reading
import HornQuery.Proofs.Term.Layered

namespace HornQuery.Term

/-! Heights. -/

mutual
/-- The height of a term: each step to a part of it counts, and a leaf has height 1. -/
def depth : Term → Nat
  | .compound _ args => 1 + depthAll args
  | .list items => 1 + depthAll items
  | _ => 1

def depthAll : List Term → Nat
  | [] => 0
  | term :: terms => max term.depth (depthAll terms)
end

def isCell : Term → Bool
  | .compound functor [_, _] => functor == listCell
  | _ => false

/-- The arguments that go on with a chain: the left operand of an infix operator, and a list cell
that is the tail of a list cell. -/
def linked (functor : String) : List Term → List Bool
  | [left, right] =>
      [(infixOperator? functor).isSome, (compound functor [left, right]).isCell && right.isCell]
  | args => args.map fun _ => false

def stepWeight (link step : Nat) (isLink : Bool) : Nat :=
  if isLink then link else step

mutual
/-- The greatest weight of a way down a term, for a weight of the links of chains and one of all
other steps. -/
def weight (link step : Nat) : Term → Nat
  | .compound functor args => max step (weightAll link step (linked functor args) args)
  | .list items => max step (weightAll link step (items.map fun _ => false) items)
  | _ => step

def weightAll (link step : Nat) : List Bool → List Term → Nat
  | isLink :: marks, part :: parts =>
      max (stepWeight link step isLink + part.weight link step) (weightAll link step marks parts)
  | _, _ => 0
end

def levels (term : Term) : Nat :=
  term.weight 0 1

/-- The greatest number of links of chains on a way down a term. -/
def links (term : Term) : Nat :=
  term.weight 1 0

def ways : Term → List (Bool × Term)
  | .compound functor args => (linked functor args).zip args
  | .list items => (items.map fun _ => false).zip items
  | _ => []

theorem length_linked (functor : String) (args : List Term) :
    (linked functor args).length = args.length := by
  unfold linked
  split
  case h_1 => rfl
  case h_2 => rw [List.length_map]

theorem map_snd_ways (term : Term) : term.ways.map Prod.snd = term.parts := by
  cases term with
  | compound functor args =>
      exact List.map_snd_zip (Nat.le_of_eq (length_linked functor args).symm)
  | list items => exact List.map_snd_zip (by rw [List.length_map])
  | atom name => rfl
  | integer value => rfl
  | float value => rfl
  | var name => rfl

theorem mem_parts_of_mem_ways {term : Term} {way : Bool × Term} (among : way ∈ term.ways) :
    way.2 ∈ term.parts :=
  map_snd_ways term ▸ List.mem_map_of_mem among

theorem exists_mem_ways {term part : Term} (among : part ∈ term.parts) :
    ∃ isLink, (isLink, part) ∈ term.ways := by
  have listed : part ∈ term.ways.map Prod.snd := by rwa [map_snd_ways]
  obtain ⟨way, found, rfl⟩ := List.mem_map.mp listed
  exact ⟨way.1, found⟩

theorem depthAll_le_iff {terms : List Term} {bound : Nat} :
    depthAll terms ≤ bound ↔ ∀ term ∈ terms, term.depth ≤ bound := by
  induction terms with
  | nil => simp [depthAll]
  | cons term terms induction => rw [depthAll, Nat.max_le, induction, List.forall_mem_cons]

theorem depth_le_iff {term : Term} {bound : Nat} :
    term.depth ≤ bound + 1 ↔ ∀ part ∈ term.parts, part.depth ≤ bound := by
  cases term with
  | compound functor args => rw [depth, Nat.add_comm, Nat.add_le_add_iff_right, depthAll_le_iff, parts]
  | list items => rw [depth, Nat.add_comm, Nat.add_le_add_iff_right, depthAll_le_iff, parts]
  | atom name => simp [depth, parts]
  | integer value => simp [depth, parts]
  | float value => simp [depth, parts]
  | var name => simp [depth, parts]

section

variable {link step bound : Nat}

theorem weightAll_le_iff {marks : List Bool} {parts : List Term} :
    weightAll link step marks parts ≤ bound ↔
      ∀ way ∈ marks.zip parts, stepWeight link step way.1 + way.2.weight link step ≤ bound := by
  induction parts generalizing marks with
  | nil => simp [weightAll]
  | cons part parts induction =>
      cases marks with
      | nil => simp [weightAll]
      | cons isLink marks =>
          rw [weightAll, Nat.max_le, induction, List.zip_cons_cons, List.forall_mem_cons]

theorem weight_le_iff {term : Term} :
    term.weight link step ≤ bound ↔ step ≤ bound ∧
      ∀ way ∈ term.ways, stepWeight link step way.1 + way.2.weight link step ≤ bound := by
  cases term with
  | compound functor args => rw [weight, Nat.max_le, weightAll_le_iff, ways]
  | list items => rw [weight, Nat.max_le, weightAll_le_iff, ways]
  | atom name => simp [weight, ways]
  | integer value => simp [weight, ways]
  | float value => simp [weight, ways]
  | var name => simp [weight, ways]

theorem stepWeight_add_weight_le {term : Term} {way : Bool × Term} (among : way ∈ term.ways) :
    stepWeight link step way.1 + way.2.weight link step ≤ term.weight link step :=
  (weight_le_iff.mp (Nat.le_refl _)).2 way among

end

theorem induction_parts {motive : Term → Prop}
    (step : ∀ term, (∀ part ∈ term.parts, motive part) → motive term) : ∀ term, motive term := by
  apply Term.induction
  · exact fun name => step (.atom name) nofun
  · exact fun value => step (.integer value) nofun
  · exact fun value => step (.float value) nofun
  · exact fun name => step (.var name) nofun
  · exact fun functor args => step (.compound functor args)
  · exact fun items => step (.list items)

theorem depth_le_levels_add_links (term : Term) : term.depth ≤ term.levels + term.links := by
  induction term using induction_parts with
  | step term induction =>
      have least : 1 ≤ term.levels := (weight_le_iff.mp (Nat.le_refl _)).1
      obtain ⟨bound, same⟩ := Nat.exists_eq_add_of_le' (Nat.le_add_right_of_le least)
      rw [same, depth_le_iff]
      intro part among
      obtain ⟨isLink, way⟩ := exists_mem_ways among
      have level : stepWeight 0 1 isLink + part.levels ≤ term.levels :=
        stepWeight_add_weight_le way
      have link : stepWeight 1 0 isLink + part.links ≤ term.links := stepWeight_add_weight_le way
      have once : stepWeight 0 1 isLink + stepWeight 1 0 isLink = 1 := by cases isLink <;> rfl
      have inside := induction part among
      omega

/-! Levels of what has been read. -/

theorem levels_le_iff {term : Term} {bound : Nat} :
    term.levels ≤ bound + 1 ↔
      ∀ way ∈ term.ways, stepWeight 0 1 way.1 + way.2.levels ≤ bound + 1 := by
  rw [levels, weight_le_iff]
  exact and_iff_right (Nat.le_add_left 1 bound)

theorem levels_pair_le_iff {functor : String} {left right : Term} {bound : Nat} :
    (compound functor [left, right]).levels ≤ bound + 1 ↔
      stepWeight 0 1 (infixOperator? functor).isSome + left.levels ≤ bound + 1 ∧
      stepWeight 0 1 ((compound functor [left, right]).isCell && right.isCell) + right.levels ≤
        bound + 1 := by
  simp [levels_le_iff, ways, linked]

theorem step_add_levels_le {part : Term} {bound : Nat} (inside : part.levels ≤ bound)
    (isLink : Bool) : stepWeight 0 1 isLink + part.levels ≤ bound + 1 := by
  have once : stepWeight 0 1 isLink ≤ 1 := by
    cases isLink with
    | false => exact Nat.le_refl 1
    | true => exact Nat.zero_le 1
  rw [Nat.add_comm bound]
  exact Nat.add_le_add once inside

theorem link_add_levels (part : Term) : stepWeight 0 1 true + part.levels = part.levels :=
  Nat.zero_add part.levels

theorem levels_le_succ {term : Term} {bound : Nat}
    (all : ∀ part ∈ term.parts, part.levels ≤ bound) : term.levels ≤ bound + 1 := by
  rw [levels_le_iff]
  intro way among
  exact step_add_levels_le (all way.2 (mem_parts_of_mem_ways among)) way.1

theorem levels_joined_le {name : String} {left right : Term} {bound : Nat}
    (isInfix : (infixOperator? name).isSome = true) (first : left.levels ≤ bound + 1)
    (second : right.levels ≤ bound) : (compound name [left, right]).levels ≤ bound + 1 := by
  rw [levels_pair_le_iff, isInfix, link_add_levels]
  exact ⟨first, step_add_levels_le second _⟩

theorem levels_cells_le {item next last : Term} {bound : Nat} (first : item.levels ≤ bound)
    (others : (compound listCell [next, last]).levels ≤ bound + 1) :
    (compound listCell [item, compound listCell [next, last]]).levels ≤ bound + 1 := by
  have isLink : ((compound listCell [item, compound listCell [next, last]]).isCell &&
      (compound listCell [next, last]).isCell) = true := by simp [isCell]
  rw [levels_pair_le_iff, isLink, link_add_levels]
  exact ⟨step_add_levels_le first _, others⟩

theorem Layered.levels_le {levels : Nat} {term : Term} (layered : Layered levels term) :
    term.levels ≤ levels := by
  induction layered with
  | atom name => exact levels_le_succ nofun
  | integer value => exact levels_le_succ nofun
  | float value => exact levels_le_succ nofun
  | var name => exact levels_le_succ nofun
  | bracketed _ inside => exact Nat.le_succ_of_le inside
  | compound _ _ all => exact levels_le_succ all
  | list _ all => exact levels_le_succ all
  | joined isInfix _ _ first second => exact levels_joined_le isInfix first second
  | cell _ _ first others => exact levels_cells_le first others

/-- What has been read has no more levels than the nesting limit allows, and its height exceeds the
limit by no more than the links of chains that are passed on a way down. -/
theorem levels_le_of_parse {text : String} {term : Term} (read : parse text = .ok term) :
    term.levels ≤ maxDepth ∧ term.depth ≤ maxDepth + term.links := by
  have within : term.levels ≤ maxDepth := (layered_of_ofText read).levels_le
  exact ⟨within, Nat.le_trans term.depth_le_levels_add_links (Nat.add_le_add_right within _)⟩

end HornQuery.Term

namespace HornQuery.Expression

/-- Ones that are subtracted one after the other: `1 - 1 - 1` is what stands for 2. -/
def decrements : Nat → Expression
  | 0 => number 1
  | count + 1 => difference (decrements count) (number 1)

theorem priority_decrements_le (count : Nat) : (decrements count).priority ≤ 500 := by
  cases count with
  | zero => exact Nat.zero_le 500
  | succ count => exact Nat.le_refl 500

theorem depth_decrements_le (count : Nat) : (decrements count).depth ≤ 2 := by
  induction count with
  | zero => decide
  | succ count induction =>
      have fits : ¬ 500 < (decrements count).priority :=
        Nat.not_lt.mpr (priority_decrements_le count)
      have bare : operandDepth 500 (decrements count).priority (decrements count).depth =
          (decrements count).depth := if_neg fits
      exact Nat.max_le.mpr ⟨bare.trans_le induction, by decide⟩

theorem parse_decrements (count : Nat) :
    Term.parse (decrements count).text = .ok (decrements count).term :=
  (readsIf_parse (decrements count)).same (Nat.le_trans (depth_decrements_le count) (by decide))

theorem depth_term_decrements (count : Nat) : (decrements count).term.depth = count + 1 := by
  induction count with
  | zero => rfl
  | succ count induction =>
      have whole : (decrements (count + 1)).term.depth =
          1 + max (decrements count).term.depth 1 := rfl
      rw [whole, induction]
      omega

end HornQuery.Expression

namespace HornQuery.Term

open Expression

theorem levels_le_of_parse_decrements :
    parse (decrements 300).text = .ok (decrements 300).term ∧
      (decrements 300).term.levels ≤ maxDepth ∧ 300 < maxDepth + (decrements 300).term.links := by
  have read := parse_decrements 300
  obtain ⟨within, high⟩ := levels_le_of_parse read
  rw [depth_term_decrements] at high
  exact ⟨read, within, high⟩

/-- The limit does not bound the height: 257 ones make a term of height 257. -/
theorem not_depth_le_maxDepth :
    ¬ ∀ (text : String) (term : Term), parse text = .ok term → term.depth ≤ maxDepth := by
  intro bounded
  have high := bounded _ _ (parse_decrements 256)
  rw [depth_term_decrements] at high
  exact absurd high (by decide)

end HornQuery.Term
