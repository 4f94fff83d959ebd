import FrameScan.Content
import FrameScan.Path
import FrameScan.SystemError

/-!
# Places in a file tree

Files, symbolic links, and directories with named entries. A place is a node with
the way to it from the root, or a free name at the end of such a way; both the
places below it and the one above it are a single step away. What is put at a
place is seen from all others.
-/

namespace FrameScan.FileSystem

abbrev FileName := List UInt8

inductive Node where
  | file (content : Content)
  | directory (entries : List (FileName × Node))
  | link (target : Path)

def Node.isLink : Node → Bool
  | .link _ => true
  | _ => false

abbrev Entries := List (FileName × Node)

/-- Enter a node under a name, instead of the one that had the name. -/
def enter (name : FileName) (node : Node) : Entries → Entries
  | [] => [(name, node)]
  | (other, old) :: rest =>
    if name = other then (name, node) :: rest else (other, old) :: enter name node rest

structure Place where
  /-- The node at the place, if the place is not free. -/
  node? : Option Node
  /-- The way back to the root: each name on it, with the entries of the directory it is in. -/
  above : List (FileName × Entries) := []

namespace Place

def entries (place : Place) : Entries :=
  match place.node? with
  | some (.directory entries) => entries
  | _ => []

def child (place : Place) (name : FileName) : Place :=
  ⟨place.entries.lookup name, (name, place.entries) :: place.above⟩

/-- The directory in which a name stands for a node, or for none. -/
def rejoin (node? : Option Node) : FileName × Entries → Option Node
  | (name, entries) =>
    match node? with
    | none => some (.directory entries)
    | some node => some (.directory (enter name node entries))

/-- The directory that a place is in. The root is its own parent. -/
def up (place : Place) : Place :=
  match place.above with
  | [] => place
  | step :: above => ⟨rejoin place.node? step, above⟩

def root (place : Place) : Place :=
  ⟨place.above.foldl rejoin place.node?, []⟩

/-- Put a node at a place. A file takes the place of another one, and a directory that is
there already is kept; nothing else is put where there is a node. -/
def put (place : Place) (node : Node) : Except SystemError Place :=
  match node, place.node? with
  | .directory _, some (.directory _) => .ok place
  | .file _, some (.directory _) => .error .isDirectory
  | .file _, some (.file _) => .ok { place with node? := some node }
  | _, none => .ok { place with node? := some node }
  | _, some _ => .error .fileExists

end Place

end FrameScan.FileSystem
