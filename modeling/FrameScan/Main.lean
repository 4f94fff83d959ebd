import FrameScan.Command
import FrameScan.Content

/-!
# The program

Reads from the machine what the command will ask for, runs the command, and
prints its report. Three things cannot be asked of the machine as the command asks
for them. Files can only be read from their beginning, so of a table the program keeps
the blocks in which the spans to scan have entries, and passes over the others. Files
have names that are text, so a path that is not text is refused as no valid input. And
links can only be followed to their ends, so the one to an executable that is gone is
answered with the error of following it.
-/

namespace FrameScan.Machine

def systemError : IO.Error → SystemError
  | .alreadyExists _ code _ | .otherError code _ | .resourceBusy code _ | .resourceVanished code _
  | .unsupportedOperation code _ | .hardwareFault code _ | .unsatisfiedConstraints code _
  | .illegalOperation code _ | .protocolError code _ | .timeExpired code _ | .interrupted _ code _
  | .noFileOrDirectory _ code _ | .invalidArgument _ code _ | .permissionDenied _ code _
  | .resourceExhausted _ code _ | .inappropriateType _ code _ | .noSuchThing _ code _ =>
    .numbered code.toNat
  | .unexpectedEof => .bare .unexpectedEnd
  | .userError text => .described .other text

/-- Ask something of the file at a path, under its name as it is. -/
def withName {α : Type} (path : Path) (ask : String → IO α) : IO (Except SystemError α) := do
  match Text.Utf8.decode? path.bytes with
  | none => return .error (.described .invalidInput "file name is not text")
  | some name =>
    match ← (ask name).toBaseIO with
    | .ok answer => return .ok answer
    | .error error => return .error (systemError error)

def openFile (path : Path) : IO (Except SystemError IO.FS.Handle) :=
  withName path fun name => IO.FS.Handle.mk name .read

partial def readChunks (handle : IO.FS.Handle) (chunks : Array Chunk) : IO Listing := do
  match ← (handle.read 0x10000).toBaseIO with
  | .ok bytes =>
    if bytes.isEmpty then return chunks.toList
    else readChunks handle (chunks.push (.bytes bytes.data.toList))
  | .error error => return (chunks.push (.fault (systemError error))).toList

def blockBytes : Nat := 0x100000

/-- The blocks of a table that were kept, by number, and how its reading ended. -/
structure Blocks where
  kept : Array (Nat × Content) := #[]
  fault : Option SystemError := none

def Blocks.read (blocks : Blocks) (offset : UInt64) : Except SystemError (List UInt8) :=
  if !OpenFile.reachable offset then .error .invalidArgument
  else match blocks.kept.find? (·.1 == offset.toNat / blockBytes), blocks.fault with
    | some (_, content), _ => .ok (content.readAt (UInt64.ofNat (offset.toNat % blockBytes)) 8)
    | none, some error => .error error
    | none, none => .ok []

/-- Read a table up to its last wanted block. The wanted blocks are given as inclusive ranges. -/
partial def readBlocks (handle : IO.FS.Handle) (wanted : List (Nat × Nat)) (number : Nat)
    (blocks : Blocks) : IO Blocks := do
  if wanted.all (·.2 < number) then return blocks
  match ← (handle.read blockBytes.toUSize).toBaseIO with
  | .ok bytes =>
    if bytes.isEmpty then return blocks
    let isWanted := wanted.any fun (first, last) => first ≤ number && number ≤ last
    let blocks :=
      if isWanted then { blocks with kept := blocks.kept.push (number, ⟨bytes⟩) } else blocks
    readBlocks handle wanted (number + 1) blocks
  | .error error => return { blocks with fault := some (systemError error) }

/-- The blocks in which the spans of a source have entries. -/
def wantedBlocks (size : PageSize) (source : Source) : List (Nat × Nat) :=
  let block (address : UInt64) := (size.index address).toNat * 8 / blockBytes
  source.filterMap fun
    | .span span => if span.isEmpty then none else some (block span.start, block (span.stop - 1))
    | _ => none

def readListing (path : Path) : IO (Except SystemError OpenFile) := do
  match ← openFile path with
  | .error error => return .error error
  | .ok handle => return .ok ⟨← readChunks handle #[], fun _ _ => .ok []⟩

def readTable (path : Path) (wanted : List (Nat × Nat)) : IO (Except SystemError OpenFile) := do
  match ← openFile path with
  | .error error => return .error error
  | .ok handle =>
    let blocks ← readBlocks handle wanted 0 {}
    return .ok ⟨[], fun _ => blocks.read⟩

def linkTarget (path : Path) : IO (Except SystemError Path) :=
  withName path fun name => do return .ofText (toString (← IO.FS.realPath name))

def listed (opened : Except SystemError OpenFile) : Listing :=
  match opened with
  | .ok file => file.listing
  | .error _ => []

/-- The files that a survey of the target will open. -/
def readFiles (settings : Settings) (target : Target) : IO FileSystem := do
  let wanted (source : Source) := wantedBlocks settings.pageSize source
  match target with
  | .process pid =>
    let maps := settings.path (Survey.mapsName pid)
    let pagemap := settings.path (Survey.pagemapName pid)
    let listing ← readListing maps
    let table ← readTable pagemap (wanted (.maps settings (listed listing)))
    let executable ← linkTarget (settings.path (Survey.executableName pid))
    return {
      openFile := fun path => if path = maps then listing else table
      linkTarget := fun _ => executable }
  | .kernel =>
    let iomem := settings.path Survey.iomemName
    let listing ← readListing iomem
    let table ← readTable (settings.path Survey.frameTableName)
      (wanted (.iomem settings (listed listing)))
    return {
      openFile := fun path => if path = iomem then listing else table
      linkTarget := fun _ => .error .noSuchEntry }
  | .pageCache =>
    let table ← readTable (settings.path Survey.frameTableName) (wanted (.physical settings))
    return { openFile := fun _ => table, linkTarget := fun _ => .error .noSuchEntry }

def noFiles : FileSystem where
  openFile _ := .error .noSuchEntry
  linkTarget _ := .error .noSuchEntry

/-- The pieces of a byte sequence that end with zeros. -/
def pieces (bytes : List UInt8) : List (List UInt8) :=
  bytes.foldr (fun b rest =>
    if b = 0 then [] :: rest
    else match rest with
      | piece :: rest => (b :: piece) :: rest
      | [] => [[b]]) []

/-- The variables as the process was given them: the bytes of `name=value`, each with a zero
behind it. -/
def readEnvironment : IO Environment := do
  let given := pieces (← IO.FS.readBinFile "/proc/self/environ").data.toList
  return fun name => given.findSome? (Text.Utf8.encode (name ++ "=")).isPrefixOf?

/-- The page size, which the auxiliary vector of a process has under number 6. -/
def readPageBytes : IO UInt64 := do
  let vector ← IO.FS.readBinFile "/proc/self/auxv"
  let word (i : Nat) := Word.ofBytes (vector.extract (8 * i) (8 * i + 8)).data.toList
  let pairs := (List.range (vector.size / 16)).map fun i => (word (2 * i), word (2 * i + 1))
  return (pairs.lookup 6).getD 4096

/-- The number of frames, from the total of memory in units of 1024 bytes. -/
def readPageCount (pageBytes : UInt64) : IO UInt64 := do
  let lines ← IO.FS.lines "/proc/meminfo"
  let total := lines.findSome? fun line =>
    let cs := line.toList
    if "MemTotal:".toList.isPrefixOf cs then Text.Numeral.value? 10 (cs.filter Char.isDigit) else none
  return UInt64.ofNat (total.getD 0 * 1024) / pageBytes

end FrameScan.Machine

open FrameScan in
def main (arguments : List String) : IO UInt32 := do
  let program := toString (← IO.appPath)
  let environment ← Machine.readEnvironment
  let pageBytes ← Machine.readPageBytes
  let pageCount ← Machine.readPageCount pageBytes
  let files ← match arguments.map Target.ofText, environment.settings pageBytes pageCount with
    | [.ok target], .ok settings => Machine.readFiles settings target
    | _, _ => pure Machine.noFiles
  let host : Host := { environment, pageBytes, pageCount, files }
  let report := Command.run host {} program arguments
  let stdout ← IO.getStdout
  let printed ← (do stdout.write report.output; stdout.flush : IO Unit).toBaseIO
  let report := match printed with
    | .ok () => report
    | .error error =>
      Command.run host { room := some 0, fullError := Machine.systemError error } program arguments
  IO.eprint report.messages
  return UInt32.ofNat report.status
