import LedgerGateway.Disk

/-!
# Trees of files

A disk can be given as a tree: directories, files, links and devices at their places (`Tree`). To
answer a question about a path, the tree is walked along its names (`Tree.walk`). A name leads on
only from a directory, two dots lead back up, and a link leads along its own text first. At most
forty links are followed.
-/

namespace LedgerGateway.Disk

/-- What may stand at a place of a tree. -/
inductive Node where
  | directory
  | file (content : Bytes)
  | link (target : String)
  /-- Something that can be read like an empty file but is none. -/
  | device
deriving DecidableEq, Repr

/-- What stands at which place, and from which place paths lead that do not begin at the root. A
place is the row of names from the root. -/
structure Tree where
  nodes : List (List String × Node)
  home : List String
deriving Repr

namespace Tree

def node? (t : Tree) (place : List String) : Option Node :=
  if place = [] then some .directory
  else (t.nodes.find? (·.1 == place)).map (·.2)

def names (path : String) : List String :=
  path.splitOn "/"

/-- The place a path leads from, when it is met at a place. -/
def origin (place : List String) (path : String) : List String :=
  if path.startsWith "/" then [] else place

def linkLimit : Nat := 40

/-- Follows names from a place. `links` more links may be followed. -/
def walk (t : Tree) (links : Nat) (place : List String) :
    List String → Except IoError (List String)
  | [] => .ok place
  | name :: rest =>
    if t.node? place ≠ some .directory then .error .notDirectory
    else if name = "" ∨ name = "." then walk t links place rest
    else if name = ".." then walk t links place.dropLast rest
    else if 255 < name.utf8ByteSize then .error .nameTooLong
    else
      match t.node? (place ++ [name]) with
      | none => .error .notFound
      | some (.link target) =>
        match links with
        | 0 => .error .tooManyLinks
        | links + 1 => walk t links (origin place target) (names target ++ rest)
      | some _ => walk t links (place ++ [name]) rest
termination_by path => (links, path.length)

def resolve (t : Tree) (path : String) : Except IoError (List String) :=
  if path.contains '\x00' then .error .zeroInPath
  else if path = "" then .error .notFound
  else if 4096 ≤ path.utf8ByteSize then .error .nameTooLong
  else t.walk linkLimit (origin t.home path) (names path)

def find (t : Tree) (path : String) : Except IoError (List String × Node) := do
  let place ← t.resolve path
  match t.node? place with
  | some node => return (place, node)
  | none => .error .notFound

def children (t : Tree) (place : List String) : List String :=
  t.nodes.filterMap fun (p, _) => if p.dropLast = place then p.getLast? else none

def toDisk (t : Tree) : Disk where
  list path := do
    match ← t.find path with
    | (place, .directory) => return t.children place
    | _ => .error .notDirectory
  isFile path := do
    match ← t.find path with
    | (_, .file _) => return true
    | _ => return false
  read path := do
    match ← t.find path with
    | (_, .file content) => return content
    | (_, .directory) => .error .isDirectory
    | _ => return []

end Tree

end LedgerGateway.Disk
