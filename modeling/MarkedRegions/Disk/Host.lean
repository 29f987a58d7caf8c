import MarkedRegions.Disk.Tree
import MarkedRegions.Journal.Event

/-!
# Hosts

What the library does with files it does through a host: a monad with the operating system's calls
and a journal for reports. On a desk, a tree of files with a journal beside it, the calls are the
pure operations of the tree; that is where the laws of the library are stated. The program supplies
a host of its own that passes the calls on.

## Main definitions

* `Host`: the calls
* `Desk`: a tree of files, a journal, and the number of the process
-/

namespace MarkedRegions

/-- **The operating system's calls**, each with its answer, and the journal. -/
class Host (m : Type → Type) where
  readFile : Path → m (Except FileFault Bytes)
  isDirectory : Path → m Bool
  makeDirectory : Path → m (Except FileFault Unit)
  writeFile : Path → Bytes → m (Except FileFault Unit)
  renameFile : Path → Path → m (Except FileFault Unit)
  removeFile : Path → m (Except FileFault Unit)
  processId : m Nat
  report : List Event → m Unit

/-- **A desk**: everything that a run can see and change. -/
structure Desk where
  disk : Disk
  journal : List Event
  processId : Nat
deriving Repr

namespace Desk

/-- A call that changes the tree, or fails and leaves it as it is. -/
def change (call : Disk → Except FileFault Disk) :
    StateM Desk (Except FileFault Unit) := fun desk =>
  match call desk.disk with
  | .ok disk => (.ok (), { desk with disk })
  | .error fault => (.error fault, desk)

instance : Host (StateM Desk) where
  readFile path := fun desk => (desk.disk.readFile path, desk)
  isDirectory path := fun desk => (desk.disk.isDirectory path, desk)
  makeDirectory path := change (·.makeDirectory path)
  writeFile path contents := change (·.writeFile path contents)
  renameFile source target := change (·.renameFile source target)
  removeFile path := change (·.removeFile path)
  processId := fun desk => (desk.processId, desk)
  report events := fun desk => ((), { desk with journal := desk.journal ++ events })

end Desk

end MarkedRegions
