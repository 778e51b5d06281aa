import LiveAudit.Trouble

/-!
# Disks

Where files are kept. The programs that read and write files are written for any kind of disk: a
tree of files that is passed along, or the disk of a machine.
-/

namespace LiveAudit

class Disk (m : Type → Type) where
  isThere : String → m Bool
  /-- Bytes of what is at a path, if anything is. -/
  size? : String → m (Option Nat)
  read : String → m (Except FileFault (List UInt8))
  /-- Makes a file hold these bytes and no others. -/
  write : String → List UInt8 → m (Except FileFault Unit)
  /-- Puts bytes behind those of a file. -/
  append : String → List UInt8 → m (Except FileFault Unit)
  /-- Makes a folder and those around it that are missing. -/
  makeFolders : String → m (Except FileFault Unit)

/-- Goes on to the tree that an operation gives, or stays and tells the fault. -/
def Files.update (f : Files → Except FileFault Files) : StateM Files (Except FileFault Unit) :=
  fun files => match f files with
    | .ok files => (.ok (), files)
    | .error fault => (.error fault, files)

instance : Disk (StateM Files) where
  isThere path := fun files => (files.isThere path, files)
  size? path := fun files => (files.size? path, files)
  read path := fun files => (files.read path, files)
  write path bytes := Files.update (·.write path bytes)
  append path bytes := Files.update (·.append path bytes)
  makeFolders path := Files.update (·.makeFolders path)

/-- An operation on a disk in the course of an activity. -/
def Disk.within {m : Type → Type} [Monad m] {α : Type} (activity : Trouble.Activity)
    (operation : m (Except FileFault α)) : ExceptT Trouble m α := do
  match ← operation with
  | .ok a => return a
  | .error fault => throw ((Trouble.of (.file fault)).during activity)

end LiveAudit
