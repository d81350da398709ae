import HornQuery.Proofs.Term.Layered

namespace HornQuery.Term

inductive Applied : Term → Prop
  | atom (name : String) : Applied (.atom name)
  | integer (value : Int64) : Applied (.integer value)
  | float (value : Float) : Applied (.float value)
  | var (name : String) : Applied (.var name)
  | compound {functor : String} {args : List Term} (some : args ≠ [])
      (all : ∀ arg ∈ args, Applied arg) : Applied (.compound functor args)
  | list {items : List Term} (all : ∀ item ∈ items, Applied item) : Applied (.list items)

theorem Applied.two (functor : String) {left right : Term} (first : left.Applied)
    (second : right.Applied) : Applied (.compound functor [left, right]) :=
  .compound (List.cons_ne_nil _ _)
    (List.forall_mem_cons.mpr ⟨first, List.forall_mem_singleton.mpr second⟩)

theorem Applied.eq_apply {functor : String} {args : List Term}
    (applied : (Term.compound functor args).Applied) :
    .compound functor args = Term.apply functor args := by
  cases applied with
  | compound some all => rw [apply, if_neg (by simpa using some)]

theorem Layered.applied {levels : Nat} {term : Term} (layered : Layered levels term) :
    term.Applied := by
  induction layered with
  | atom name => exact .atom name
  | integer value => exact .integer value
  | float value => exact .float value
  | var name => exact .var name
  | bracketed _ inside => exact inside
  | compound nonempty _ all => exact .compound nonempty all
  | list _ all => exact .list all
  | joined _ _ _ first second => exact .two _ first second
  | cell _ _ first others => exact .two _ first others

theorem applied_of_ofText {text : List Char} {term : Term} (read : ofText text = .ok term) :
    term.Applied :=
  (layered_of_ofText read).applied

end HornQuery.Term
