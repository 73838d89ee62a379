import DiagnosticLog.Failure

/-! Directories and the paths that lead to them. A path is followed name by name: an empty name or
a single dot stays, two dots go up, and at a file no name leads further, not even a dot. -/

namespace DiagnosticLog

/-- What a path leads to. -/
inductive Directory where
  | absent (fault : DirectoryFault)
  | present (entries : List String)
  deriving DecidableEq

/-- Files and directories, each under its name in the directory that holds it. -/
inductive FileTree where
  | file
  | directory (entries : List (String × FileTree))

namespace FileTree

/-- The directory with its entries, or the fault of looking for one. -/
def list : FileTree → Directory
  | .file => .absent .notDirectory
  | .directory entries => .present (entries.map Prod.fst)

/-- Follow names from a place in a tree. The directories above the place are given innermost
first, and the root is its own parent. -/
def follow (above : List FileTree) (place : FileTree) : List String → Directory
  | [] => place.list
  | name :: rest =>
    match place with
    | .file => .absent .notDirectory
    | .directory entries =>
      if name = "" ∨ name = "." then follow above place rest
      else if name = ".." then
        match above with
        | [] => follow [] place rest
        | parent :: above => follow above parent rest
      else
        match entries.lookup name with
        | none => .absent .missing
        | some next => follow (place :: above) next rest

/-- What a path leads to in the tree of a root. A path that does not begin with a slash begins in
the current directory. -/
def resolve (root : FileTree) (current path : String) : Directory :=
  follow [] root ((if path.startsWith "/" then path else current ++ "/" ++ path).splitOn "/")

end FileTree

end DiagnosticLog
