/-
Trees of files and directories around a working directory.

A path is followed component by component. An empty component and a single dot stay, a double dot
goes one directory up, and a name goes down. Every component but the last has to be a directory,
and so has the last where something follows it. A path at which a directory or a file is made is
followed in the same way, and the directories on the way are made where they are missing.

Nothing is known of the directories above the working directory but what is made there, nor of
those that an absolute path leads to.
-/
import Lexis.Command.Path

namespace Lexis.Command

/-- A spot in the tree: so many directories up from the working directory, then down along
names. -/
structure Spot where
  up : Nat := 0
  names : List String := []
  deriving DecidableEq, Repr

namespace Spot

/-- Does a component stay in the directory or leave it upwards, whatever the directory holds? -/
def isDots (component : String) : Bool :=
  component ∈ ["", ".", ".."]

/-- The spot that a component leads to. -/
def enter (s : Spot) (component : String) : Spot :=
  if component ∈ ["", "."] then s
  else if component = ".." then
    if s.names.isEmpty then { s with up := s.up + 1 } else { s with names := s.names.dropLast }
  else { s with names := s.names ++ [component] }

/-- The spots on the way along a path from the working directory, the last one first. -/
def along (path : String) : List Spot :=
  (components path).foldl (fun way c => (way.headD {}).enter c :: way) []

end Spot

/-- The directories that were made, and the files with what they hold. Of two files at one spot
the first counts. -/
structure FileTree where
  directories : List Spot := []
  files : List (Spot × List UInt8) := []

namespace FileTree

/-- Is the spot a directory? The working directory and those above it are. -/
def isDirectory (tree : FileTree) (s : Spot) : Bool :=
  s.names.isEmpty || s ∈ tree.directories

/-- Makes a directory and those on the way to it. -/
def makeDirectory (tree : FileTree) (path : String) : FileTree :=
  { tree with directories := Spot.along path ++ tree.directories }

/-- Makes a file, and the directories on the way to it. -/
def makeFile (tree : FileTree) (path : String) (content : List UInt8) : FileTree :=
  match Spot.along path with
  | [] => tree
  | s :: way =>
    { directories := way ++ tree.directories, files := (s, content) :: tree.files }

/-- The tree with directories at some paths, and then files at others. -/
def ofPaths (directories : List String) (files : List (String × List UInt8)) : FileTree :=
  files.foldl (fun tree (path, content) => tree.makeFile path content)
    (directories.foldl makeDirectory {})

/-- What stands at the end of a part of a path. -/
inductive Place where
  | nowhere
  /-- A directory of which nothing is known. -/
  | elsewhere
  | directory (s : Spot)
  | file (content : List UInt8)

/-- The place that a component leads to. -/
def step (tree : FileTree) (place : Place) (component : String) : Place :=
  match place with
  | .nowhere => .nowhere
  | .file _ => .nowhere
  | .elsewhere => if Spot.isDots component then .elsewhere else .nowhere
  | .directory s =>
    let next := s.enter component
    if Spot.isDots component || tree.isDirectory next then .directory next
    else
      match tree.files.lookup next with
      | some content => .file content
      | none => .nowhere

/-- What a path leads to. An empty path leads nowhere. -/
def lookup (tree : FileTree) (path : String) : Entry :=
  if path.isEmpty then .missing
  else
    let start := if path.toList.head? = some '/' then .elsewhere else .directory {}
    match (components path).foldl tree.step start with
    | .nowhere => .missing
    | .elsewhere => .directory
    | .directory _ => .directory
    | .file content => .file content

end FileTree

end Lexis.Command
