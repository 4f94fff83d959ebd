import FrameScan.FileSystem
import FrameScan.FileSystem.Place

/-!
# File trees

A file system in memory: files, directories and symbolic links below a root, and
in it a working directory, from which relative paths are followed. A path is
followed name by name, with the limits that Linux sets on the length of a name,
the length of a path and the number of links on the way. It leads to a place,
where there may be a node or where one can be put.
-/

namespace FrameScan.FileSystem

def maxName : Nat := 255
def maxPath : Nat := 4095
def maxLinks : Nat := 40

def dot : FileName := [0x2E]
def dotDot : FileName := [0x2E, 0x2E]

/-- The names between slashes, from the bytes of the current name in reverse. A slash
at the end asks for a directory, just as a dot after it would. -/
def namesAfter : List UInt8 → List UInt8 → List FileName
  | [], [] => [dot]
  | name, [] => [name.reverse]
  | name, b :: rest =>
    if b = Path.slash then
      if name.isEmpty then namesAfter [] rest else name.reverse :: namesAfter [] rest
    else namesAfter (b :: name) rest

def names (path : Path) : List FileName :=
  namesAfter [] path.bytes

namespace Place

/-- Where a path starts that is met in a directory. -/
def origin (directory : Place) (path : Path) : Place :=
  if path.isAbsolute then directory.root else directory

/-- Follow names from a place, with a number of links left to follow. There need not be
a node at the end. A link at the end is followed only on request. -/
def follow (followLast : Bool) (links : Nat) (place : Place) (path : List FileName) :
    Except SystemError Place :=
  match place.node?, path with
  | some (.link target), path =>
    if path.isEmpty && !followLast then .ok place
    else match links with
      | 0 => .error .tooManyLinks
      | links + 1 => follow followLast links (place.up.origin target) (names target ++ path)
  | _, [] => .ok place
  | none, _ :: _ => .error .noSuchEntry
  | some (.file _), _ :: _ => .error .notDirectory
  | some (.directory _), name :: rest =>
    if name = dot then follow followLast links place rest
    else if name = dotDot then follow followLast links place.up rest
    else if maxName < name.length then .error .nameTooLong
    else follow followLast links (place.child name) rest
termination_by (links, path.length)
decreasing_by
  · exact Prod.Lex.left _ _ (Nat.lt_succ_self _)
  · exact Prod.Lex.right _ (Nat.lt_succ_self _)
  · exact Prod.Lex.right _ (Nat.lt_succ_self _)
  · exact Prod.Lex.right _ (Nat.lt_succ_self _)

/-- Put a node where names lead from a directory. Directories on the way are made if they
are missing. Links are followed, at the end too unless the node is a link itself. -/
def insert (node : Node) (directory : Place) : List FileName → Except SystemError Place
  | [] => .ok directory
  | [name] => do
    let place ← directory.follow (!node.isLink) maxLinks [name]
    place.put node
  | name :: next :: rest => do
    let place ← directory.follow true maxLinks [name]
    let above ← place.put (.directory [])
    above.insert node (next :: rest)

end Place

/-- The root directory of a tree, which holds the working directory under the empty name.
No path can spell that name: once a path has left the working directory upwards, no name
leads back. -/
structure Tree where
  entries : Entries := [([], .directory [])]

namespace Tree

def workingDirectory (tree : Tree) : Place :=
  Place.child ⟨some (.directory tree.entries), []⟩ []

/-- The node at a path, or why there is none. A link at its end is followed on request. -/
def find (followLast : Bool) (tree : Tree) (path : Path) : Except SystemError Node :=
  if path.bytes.contains 0 then .error .nulInPath
  else if path.bytes.isEmpty then .error .noSuchEntry
  else if maxPath < path.bytes.length then .error .nameTooLong
  else match (tree.workingDirectory.origin path).follow followLast maxLinks (names path) with
    | .error cause => .error cause
    | .ok ⟨some node, _⟩ => .ok node
    | .ok ⟨none, _⟩ => .error .noSuchEntry

def readNode (node : Node) (offset : UInt64) : Except SystemError (List UInt8) :=
  if OpenFile.reachable offset then
    match node with
    | .file content => .ok (content.readAt offset 8)
    | _ => .error .isDirectory
  else .error .invalidArgument

/-- What reading a node from its beginning gives. A directory opens, but cannot be read. -/
def listNode : Node → Listing
  | .file content => [.bytes content.toList]
  | _ => [.fault .isDirectory]

def fileSystem (tree : Tree) : FileSystem where
  openFile path := (tree.find true path).map fun node => ⟨listNode node, fun _ => readNode node⟩
  linkTarget path :=
    match tree.find false path with
    | .ok (.link target) => .ok target
    | .ok _ => .error .invalidArgument
    | .error cause => .error cause

def insert (tree : Tree) (path : Path) (node : Node) : Except SystemError Tree :=
  ((tree.workingDirectory.origin path).insert node (names path)).map fun place =>
    ⟨place.root.entries⟩

end Tree

end FrameScan.FileSystem
