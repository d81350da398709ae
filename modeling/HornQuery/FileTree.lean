import HornQuery.Text.Lines

/-! Paths, and the part of a file system that a session touches: which files there are with their
texts, and which directories. -/

namespace HornQuery

namespace Path

/-- A path under another one; an absolute path stays what it is. -/
def join (base part : String) : String :=
  if part.toList.head? = some '/' || base.isEmpty then part
  else if base.toList.getLast? = some '/' then base ++ part
  else base ++ "/" ++ part

/-- The text without the slashes and single points that end it and name nothing. -/
def trimEnd : List Char → List Char
  | '/' :: rest => trimEnd rest
  | '.' :: '/' :: rest => trimEnd rest
  | reversed => reversed

def parent? (path : String) : Option String :=
  let reversed := trimEnd path.toList.reverse
  if reversed.isEmpty then none
  else
    let above := reversed.dropWhile (· ≠ '/')
    let trimmed := trimEnd above
    if trimmed.isEmpty && !above.isEmpty then some "/"
    else some (String.ofList trimmed.reverse)

theorem length_trimEnd_le (reversed : List Char) :
    (trimEnd reversed).length ≤ reversed.length := by
  fun_induction trimEnd reversed with
  | case1 rest induction => simp only [List.length_cons]; omega
  | case2 rest induction => simp only [List.length_cons]; omega
  | case3 reversed => exact Nat.le_refl _

theorem trimEnd_ne_slash (reversed rest : List Char) : trimEnd reversed ≠ '/' :: rest := by
  fun_induction trimEnd reversed with
  | case1 _ induction => exact induction
  | case2 _ induction => exact induction
  | case3 reversed noSlash _ => exact fun same => noSlash rest same

theorem length_lt_of_parent? {path above : String} (found : parent? path = some above) :
    above.length < path.length := by
  have bound := length_trimEnd_le path.toList.reverse
  rw [List.length_reverse, String.length_toList] at bound
  unfold parent? at found
  cases names : trimEnd path.toList.reverse with
  | nil => simp [names] at found
  | cons last others =>
      have noSlash : last ≠ '/' := fun same =>
        trimEnd_ne_slash path.toList.reverse others (same ▸ names)
      have shorter := (List.dropWhile_suffix (l := others) (· ≠ '/')).length_le
      have trimmed := length_trimEnd_le (others.dropWhile (· ≠ '/'))
      rw [names, List.length_cons] at bound
      simp only [names, List.isEmpty_cons, Bool.false_eq_true, if_false,
        List.dropWhile_cons, ne_eq, noSlash, not_false_eq_true, decide_true, if_true] at found
      split at found
      case isTrue isRoot =>
        have size : 0 < (others.dropWhile (· ≠ '/')).length := by
          rw [List.length_pos_iff]
          exact fun empty => by rw [empty] at isRoot; simp at isRoot
        cases found
        exact Nat.lt_of_lt_of_le (Nat.lt_succ_of_le (Nat.le_trans size shorter)) bound
      case isFalse =>
        cases found
        rw [String.length_ofList, List.length_reverse]
        exact Nat.lt_of_lt_of_le (Nat.lt_succ_of_le (Nat.le_trans trimmed shorter)) bound

def ancestors (path : String) : List String :=
  match _h : parent? path with
  | some above => if above = "" then [path] else ancestors above ++ [path]
  | none => [path]
termination_by path.length
decreasing_by exact length_lt_of_parent? _h

end Path

/-- The names from the working directory, or from the root if the first of them is a slash, to
a file or directory. Names above the working directory are two points each. -/
abbrev Place := List String

namespace Place

def above (place : Place) : Place :=
  match place.getLast? with
  | none => [".."]
  | some name => if name = ".." then place ++ [".."] else if name = "/" then place
      else place.dropLast

def step (place : Place) (name : String) : Place :=
  if name = "" || name = "." then place
  else if name = ".." then place.above
  else place ++ [name]

end Place

structure FileTree where
  files : List (Place × String)
  directories : List Place
deriving Inhabited

inductive Obstacle where
  | missing
  /-- A file stands where a directory is needed, or no place can have such a name. -/
  | blocked
deriving DecidableEq, Inhabited

namespace FileTree

def empty : FileTree := ⟨[], []⟩

/-- The root, the working directory and those above it are always there. -/
def hasDirectory (tree : FileTree) (place : Place) : Bool :=
  place = ["/"] || place.all (· = "..") || tree.directories.contains place

def textAt? (tree : FileTree) (place : Place) : Option String :=
  tree.files.lookup place

def follow (tree : FileTree) (place : Place) : List String → Except Obstacle Place
  | [] => .ok place
  | name :: names =>
      if tree.hasDirectory place then
        if 255 < name.utf8ByteSize then .error .blocked
        else tree.follow (place.step name) names
      else if (tree.textAt? place).isSome then .error .blocked
      else .error .missing

/-- The place that a path leads to, at which there may be nothing yet. -/
def place (tree : FileTree) (path : String) : Except Obstacle Place :=
  if path = "" then .error .missing
  else if path.contains '\x00' || 4096 ≤ path.utf8ByteSize then .error .blocked
  else
    tree.follow (if path.toList.head? = some '/' then ["/"] else [])
      ((Text.pieces '/' path.toList).map String.ofList)

def read? (tree : FileTree) (path : String) : Option String :=
  (tree.place path).toOption.bind tree.textAt?

def isFile (tree : FileTree) (path : String) : Bool :=
  (tree.read? path).isSome

def isDirectory (tree : FileTree) (path : String) : Bool :=
  (tree.place path).toOption.any tree.hasDirectory

def has (tree : FileTree) (path : String) : Bool :=
  tree.isFile path || tree.isDirectory path

def makeDirectory? (tree : FileTree) (path : String) : Option FileTree :=
  match tree.place path with
  | .error _ => none
  | .ok place =>
      if tree.hasDirectory place then some tree
      else if (tree.textAt? place).isSome then none
      else some { tree with directories := tree.directories ++ [place] }

/-- Makes a directory and those above it; a file in the way makes that impossible. -/
def makeDirectories? (tree : FileTree) (path : String) : Option FileTree :=
  if path = "" then some tree
  else (Path.ancestors path).foldlM makeDirectory? tree

def write? (tree : FileTree) (path text : String) : Option FileTree :=
  match tree.place path with
  | .error _ => none
  | .ok place =>
      if tree.hasDirectory place then none
      else
        some { tree with files := (place, text) :: tree.files.filter fun file => file.1 ≠ place }

/-- Writes a file after making the directories that it lies in. -/
def put? (tree : FileTree) (path text : String) : Option FileTree := do
  let made ← tree.makeDirectories? ((Path.parent? path).getD "")
  made.write? path text

def ofFiles (files : List (String × String)) : FileTree :=
  files.foldl (fun tree file => (tree.put? file.1 file.2).getD tree) empty

end FileTree

end HornQuery
