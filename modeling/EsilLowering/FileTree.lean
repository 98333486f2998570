import EsilLowering.Text.Fields

/-! # File trees

Files and directories below a working directory, and what a path leads to. -/

namespace EsilLowering

/-- What stands at a path. -/
inductive FileEntry where
  | file (bytes : List UInt8)
  | directory
  deriving DecidableEq, Repr

/-- Files with their bytes, and directories, each by the names that lead to it. A directory also exists
if something in it does. -/
structure FileTree where
  files : List (List String × List UInt8) := []
  directories : List (List String) := []
  deriving DecidableEq, Repr

namespace FileTree

/-- The names on a path, without those that stay where they are. -/
def steps (path : String) : List String :=
  (Text.fields '/' path).filter fun name => name ≠ "" ∧ name ≠ "."

/-- A tree of files and directories given by their paths. -/
def ofPaths (files : List (String × List UInt8)) (directories : List String) : FileTree :=
  { files := files.map fun (path, bytes) => (steps path, bytes)
    directories := directories.map steps }

/-- What stands at the end of some names. -/
def entry? (tree : FileTree) (names : List String) : Option FileEntry :=
  match tree.files.lookup names with
  | some bytes => some (.file bytes)
  | none =>
    let places := tree.directories ++ tree.files.map Prod.fst
    if names = [] ∨ places.any names.isPrefixOf then some .directory else none

/-- Follows names from a place: `none` is a place outside the tree, where only the way up is known.
Every name but the last must lead to a directory. -/
def follow (tree : FileTree) : Option (List String) → List String → Option FileEntry
  | none, [] => some .directory
  | some place, [] => tree.entry? place
  | none, name :: rest =>
    if name = "" ∨ name = "." ∨ name = ".." then tree.follow none rest else none
  | some place, name :: rest =>
    if tree.entry? place ≠ some .directory then none
    else if name = "" ∨ name = "." then tree.follow (some place) rest
    else if name = ".." then
      tree.follow (if place = [] then none else some place.dropLast) rest
    else tree.follow (some (place ++ [name])) rest

/-- What a path leads to. The empty path leads nowhere, and a path that begins with a slash leads
outside the tree. -/
def find (tree : FileTree) (path : String) : Option FileEntry :=
  if path = "" then none
  else match Text.fields '/' path with
    | "" :: rest => tree.follow none rest
    | names => tree.follow (some []) names

end FileTree
end EsilLowering
