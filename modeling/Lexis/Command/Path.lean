/-
File paths.

A path is displayed without its empty and single-dot components, while double dots stay. What it
leads to is an `Entry`.
-/
namespace Lexis.Command

/-- What a path leads to. -/
inductive Entry where
  | missing
  | directory
  | unreadable
  | file (content : List UInt8)
  deriving DecidableEq, Repr

/-- The pieces of a text between its slashes. -/
def betweenSlashes : List Char → List (List Char)
  | [] => [[]]
  | c :: r =>
    match c, betweenSlashes r with
    | '/', pieces => [] :: pieces
    | c, piece :: pieces => (c :: piece) :: pieces
    | c, [] => [[c]]

/-- The components of a path, empty ones included. -/
def components (path : String) : List String :=
  (betweenSlashes path.toList).map String.ofList

/-- The components of a path that name something. -/
def namesIn (path : List Char) : List (List Char) :=
  (betweenSlashes path).filter fun c => c ≠ [] && c ≠ ['.']

/-- The slashes that a displayed path starts with: two stay two, more become one. -/
def rootOf : List Char → List Char
  | '/' :: '/' :: '/' :: _ => ['/']
  | '/' :: '/' :: _ => ['/', '/']
  | '/' :: _ => ['/']
  | _ => []

/-- The characters of a path as it is displayed. -/
def displayed (path : List Char) : List Char :=
  match rootOf path ++ ['/'].intercalate (namesIn path) with
  | [] => ['.']
  | shown => shown

/-- A path as it is displayed. -/
def displayPath (path : String) : String :=
  String.ofList (displayed path.toList)

end Lexis.Command
