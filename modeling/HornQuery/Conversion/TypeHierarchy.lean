import HornQuery.Value.Basic

namespace HornQuery

structure TypeDeclaration where
  tag : TypeTag
  supertype? : Option TypeTag
  interfaces : List TypeTag
deriving Inhabited

/-- At most one declaration counts for a type: the one found first. -/
structure TypeHierarchy where
  declarations : List TypeDeclaration
deriving Inhabited

namespace TypeHierarchy

def empty : TypeHierarchy := ⟨[]⟩

def declaration? (types : TypeHierarchy) (tag : TypeTag) : Option TypeDeclaration :=
  types.declarations.find? fun declaration => declaration.tag = tag

/-- Declares a type anew, in place of an earlier declaration. -/
def declare (types : TypeHierarchy) (declaration : TypeDeclaration) : TypeHierarchy :=
  ⟨declaration :: types.declarations.filter fun other => other.tag ≠ declaration.tag⟩

def supertype? (types : TypeHierarchy) (tag : TypeTag) : Option TypeTag :=
  (types.declaration? tag).bind TypeDeclaration.supertype?

def interfaces (types : TypeHierarchy) (tag : TypeTag) : List TypeTag :=
  ((types.declaration? tag).map TypeDeclaration.interfaces).getD []

def unlisted (types : TypeHierarchy) (listed : List TypeTag) : List TypeDeclaration :=
  types.declarations.filter fun declaration => !listed.contains declaration.tag

theorem unlisted_cons_lt {types : TypeHierarchy} {listed : List TypeTag} {tag above : TypeTag}
    (declared : types.supertype? tag = some above) (fresh : listed.contains tag = false) :
    (types.unlisted (tag :: listed)).length < (types.unlisted listed).length := by
  simp only [supertype?, declaration?, Option.bind_eq_some_iff] at declared
  obtain ⟨declaration, found, _⟩ := declared
  have member := List.mem_of_find?_eq_some found
  have named : declaration.tag = tag := by simpa using List.find?_some found
  have sublist :
      types.unlisted (tag :: listed)
        = (types.unlisted listed).filter fun other => other.tag != tag := by
    simp only [unlisted, List.filter_filter]
    apply List.filter_congr
    intro other _
    by_cases same : other.tag = tag <;> simp [same]
  rw [sublist]
  apply List.length_filter_lt_length_iff_exists.mpr
  refine ⟨declaration, ?_, by simp [named]⟩
  simp only [unlisted, List.mem_filter]
  refine ⟨member, ?_⟩
  rw [named, fresh]
  rfl

/-- A type and its supertypes, the nearest first, up to the first one already listed. -/
def ascend (types : TypeHierarchy) (listed : List TypeTag) (tag : TypeTag) : List TypeTag :=
  if _fresh : listed.contains tag then []
  else
    match _declared : types.supertype? tag with
    | none => [tag]
    | some above => tag :: types.ascend (tag :: listed) above
termination_by (types.unlisted listed).length
decreasing_by
  exact unlisted_cons_lt _declared (by simpa using _fresh)

def precedence (types : TypeHierarchy) (tag : TypeTag) : List TypeTag :=
  let chain := types.ascend [] tag
  let order :=
    (chain.flatMap types.interfaces).foldl
      (fun order interface => order ++ types.ascend order interface) chain
  if order.contains .any then order else order ++ [.any]

/-- Whole numbers and numbers with a fraction are numbers, numbers and strings are atomic,
lists are sequences. -/
def builtIn : TypeHierarchy where
  declarations := [
    ⟨.int, some .number, []⟩,
    ⟨.float, some .number, []⟩,
    ⟨.number, none, [.atomic]⟩,
    ⟨.string, none, [.atomic]⟩,
    ⟨.list, none, [.sequence]⟩]

end TypeHierarchy

end HornQuery
