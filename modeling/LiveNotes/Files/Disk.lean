import LiveNotes.Files.Tree

/-!
Disks: what a program can do with files. The operations run in any monad, so that the same program
works on the files of a computer and on a tree in memory.

* `Disk`: the operations;
* `Disk.inMemory`: a tree as a disk.
-/

namespace LiveNotes

/-- Reading and writing files by their paths. -/
structure Disk (m : Type → Type) where
  /-- The text of a file. -/
  read : String → ExceptT FileError m String
  /-- The text of a file is set. -/
  write : String → String → ExceptT FileError m Unit
  /-- The names of what stands at a path, each folder in order. -/
  outline : String → ExceptT FileError m (FileTree Unit)
  /-- A folder is made, with those on the way. -/
  makeFolder : String → ExceptT FileError m Unit

/-- The text that bytes are. -/
def textOfBytes (bytes : ByteArray) : Except FileError String :=
  match String.fromUTF8? bytes with
  | some text => .ok text
  | none => .error .notText

/-- A tree as a disk. -/
def Disk.inMemory : Disk (StateM (FileTree ByteArray)) where
  read path := do
    let tree ← get
    (tree.read path >>= textOfBytes : Except FileError String)
  write path text := do
    let tree ← get
    set (← (tree.write path text.toUTF8 : Except FileError (FileTree ByteArray)))
  outline path := do
    let tree ← get
    (tree.lookup path >>= fun found => .ok found.outline : Except FileError (FileTree Unit))
  makeFolder path := do
    let tree ← get
    set (← (tree.makeFolder path : Except FileError (FileTree ByteArray)))

end LiveNotes
