import Mathlib

/-! # Path texts

Components and parents of a path text with `/` as the separator. -/

namespace PathText

inductive Component where
  | rootDir
  | curDir
  | parentDir
  | normal (name : String)
deriving DecidableEq

/-- The pieces of a path between its separators. -/
def segments (path : String) : List (List Char) := path.toList.splitOn '/'

/-- Empty pieces and `.` are no components of their own. -/
def isReal (segment : List Char) : Bool := segment ≠ [] && segment ≠ ['.']

def bodyComponents (segs : List (List Char)) : List Component :=
  (segs.filter isReal).map fun s => if s = ['.', '.'] then .parentDir else .normal (.ofList s)

def isAbsolute (path : String) : Bool := path.toList.head? = some '/'

def components (path : String) : List Component :=
  if isAbsolute path then .rootDir :: bodyComponents (segments path)
  else
    -- `.` is a component only where a relative path begins with it.
    match segments path with
    | ['.'] :: rest => .curDir :: bodyComponents rest
    | segs => bodyComponents segs

def join (segs : List (List Char)) : String := .ofList (['/'].intercalate segs)

/-- The parents above a path given by its pieces from the last to the first: each real piece has
as its parent what stands before it, without the separators and `.` in between. -/
def parentsOf : List (List Char) → List (List (List Char))
  | [] => []
  | s :: rest => if isReal s then rest.dropWhile (!isReal ·) :: parentsOf rest else parentsOf rest

/-- The parent of a path whose components are all names, that parent's parent and so on to the
empty path. -/
def parents (path : String) : List String :=
  (parentsOf (segments path).reverse).map fun segs => join segs.reverse

example : parents "a//b/./c" = ["a//b", "a", ""] := by decide +kernel

end PathText
