import LiveNotes.Command.Run

/-!
The program: its command line runs on the files of the computer.
-/

namespace LiveNotes

/-- Whether an error has a code of the system. Some calls give the code with the sign turned. -/
def hasCode (code given : UInt32) : Bool := given == code || given == 0 - code

/-- An error of the system as a cause. -/
def causeOf (e : IO.Error) : FileError :=
  match e with
  | .noFileOrDirectory .. => .missing
  | .inappropriateType _ code _ =>
    if hasCode 20 code then .notFolder
    else if hasCode 21 code then .isFolder
    else .other (toString e)
  | e => .other (toString e)

/-- An action on files, with its errors as causes. -/
def onFiles {α : Type} (action : IO α) : ExceptT FileError IO α :=
  .mk do
    match ← action.toBaseIO with
    | .ok a => return .ok a
    | .error e => return .error (causeOf e)

/-- The names below a file or folder; what is neither is left out. -/
partial def outlineOf (type : IO.FS.FileType) (entries : IO (Array IO.FS.DirEntry)) :
    IO (Option (FileTree Unit)) := do
  match type with
  | .file => return some (.file ())
  | .dir =>
    let mut found := []
    for entry in ← entries do
      let path := entry.path
      if let some tree ← outlineOf (← path.symlinkMetadata).type path.readDir then
        found := (entry.fileName, tree) :: found
    return some (.folder found)
  | _ => return none

/-- The files of the computer as a disk. -/
def computer : Disk IO where
  read path := do
    let bytes ← onFiles (IO.FS.readBinFile path)
    .mk (return textOfBytes bytes)
  write path text := onFiles (IO.FS.writeFile path text)
  outline path := onFiles do
    let root ← IO.FS.realPath path
    let tree ← outlineOf (← root.metadata).type root.readDir
    return (tree.getD (.folder [])).outline
  makeFolder path := onFiles (IO.FS.createDirAll path)

/-- The input, if it does not come from a terminal. -/
def standardInput : ExceptT FileError IO String := do
  let stdin ← IO.getStdin
  if ← stdin.isTty then return ""
  let mut bytes := ByteArray.empty
  repeat
    let more ← onFiles (stdin.read 65536)
    if more.isEmpty then break
    bytes := bytes ++ more
  .mk (return textOfBytes bytes)

end LiveNotes

/-- Runs a command line, prints its output and ends with its code. -/
def main (line : List String) : IO UInt32 := do
  let output ← LiveNotes.Command.run LiveNotes.computer LiveNotes.standardInput line
  (← IO.getStdout).putStr output.printed
  (← IO.getStderr).putStr output.reported
  return output.code.toUInt32
