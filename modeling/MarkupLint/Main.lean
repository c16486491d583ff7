import MarkupLint.Cli.Run

/-!
# The program

The files below the working folder are read, the request is carried out on them, and what comes of
it is said and written.
-/

namespace MarkupLint

open Cli Files

/-- Reads a file, or what is below a folder. Links and other special files are left out. -/
partial def readNode (e : IO.FS.DirEntry) : IO (Option Node) := do
  match (← e.path.symlinkMetadata).type with
  | .dir => return some (.folder (← readEntries (← e.path.readDir).toList))
  | .file => return some (.file (← IO.FS.readBinFile e.path).toList)
  | _ => return none
where
  readEntries : List IO.FS.DirEntry → IO Folder
    | [] => return []
    | e :: es => do
      let rest ← readEntries es
      match ← readNode e with
      | some n => return (Text.utf8 e.fileName.toList, n) :: rest
      | none => return rest

def readTree : IO FileTree := do
  let es ← readNode.readEntries (← (← IO.currentDir).readDir).toList
  if h : entriesAreProper es then return ⟨es, h⟩
  else throw (.userError "a folder holds two entries of one name")

/-- What the program is run in. -/
def readSurroundings : IO Surroundings := do
  return {
    terminal := ← (← IO.getStdout).isTty
    refusesColor := (← IO.getEnv "NO_COLOR").isSome }

def say : Output → IO Unit
  | .text s => IO.print (String.ofList s)
  | .line s => IO.eprintln s
  | .note r => r.lines.forM fun l => IO.eprintln l

/-- Writes a file as it is in a tree. -/
def writeFrom (t : FileTree) (p : Path) : IO Unit := do
  if let .ok content := t.read p then
    IO.FS.writeBinFile (String.ofList p.shown) ⟨content.toArray⟩

end MarkupLint

open MarkupLint in
def main (args : List String) : IO UInt32 := do
  match Cli.readRequest (args.map String.toList) with
  | .error e =>
    if e.exitCode = 0 then IO.print e.message else IO.eprint e.message
    return e.exitCode.toUInt32
  | .ok r =>
    let o := r.run (← readTree) (← readSurroundings)
    o.written.forM (writeFrom o.tree)
    o.outputs.forM say
    return o.status.code.toUInt32
