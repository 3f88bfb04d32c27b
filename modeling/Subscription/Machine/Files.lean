import Subscription.Config.Load
import Subscription.Listing
import Subscription.Machine.Basic
import Subscription.Text.Utf8

/-!
# Commands about pipes, the configuration, the listing and plain files

The commands about plain files stand for what others do to the disk; they
report nothing, and one that is not possible changes nothing.
-/

namespace Subscription

namespace Machine

/-- What an entry of a directory is. -/
def kindOf (disk : Disk) (entry : Entry) : EntryKind :=
  match entry with
  | .directory => .directory
  | .file id =>
      match disk.file? id with
      | some (.fifo mode _ _) => .fifo mode
      | some (.regular mode content) => .regular mode content.length
      | none => .directory

/-- The entries of a directory, none when it cannot be read. -/
def entriesOf (disk : Disk) (directory : String) : List (String × EntryKind) :=
  match disk.listDirectory directory with
  | .ok entries => entries.map fun e => (e.1, kindOf disk e.2)
  | .error _ => []

/-- The text in a file, if there is one; bytes that are no text are replaced. -/
def textOf (disk : Disk) (path : String) : Option String :=
  match disk.readFile path with
  | .ok bytes => some (Utf8.text bytes)
  | .error _ => none

/-- Changes the disk, where that is possible. -/
def changeDisk (change : Disk → Except Errno Disk) : MachineM Answer := do
  let machine ← get
  match change machine.host.disk with
  | .ok disk => set { machine with host := { machine.host with disk } }
  | .error _ => pure ()
  return .nothing

/-- Keeps a pipe under a name and closes the one that was there. -/
def keepPipe (name : String) (p : Pipe) : MachineM Unit := do
  let before := (← get).pipes.lookup name
  modify fun machine => { machine with pipes := machine.pipes.put name p }
  match before with
  | some old => runHost (Pipe.close old)
  | none => pure ()

/-- Takes the pipe of a name away from it, if there is one, and does something
with it. -/
def takePipe (name : String) (act : Pipe → HostM Error Unit) : MachineM Answer := do
  match (← get).pipes.lookup name with
  | none => return .nothing
  | some p =>
      modify fun machine => { machine with pipes := machine.pipes.drop name }
      runHost (act p)
      return .nothing

/-- Wakes the subscriber of a pipe some times; `before` has what came of it so
far, the last time first. -/
def notifyTimes (cfg : Config) (number : UInt32) (before : List Bool) :
    Nat → HostM Error (List Bool)
  | 0 => return before.reverse
  | times + 1 => do
      let awake ← Pipe.notify cfg number
      notifyTimes cfg number (awake :: before) times

/-- Runs a command about pipes, the configuration, the listing or plain
files. -/
def runFile (c : FileCommand) : MachineM Answer := do
  let cfg := (← get).config
  match c with
  | .createPipe name number =>
      let p ← runHost (Pipe.create cfg number : HostM Error _)
      keepPipe name p
      return .text (some p.path)
  | .waitPipe name timeout =>
      let p ← find (·.pipes) name
      return .truth (← runHost (Pipe.wait p timeout))
  | .dropPipe name => takePipe name Pipe.close
  | .removePipe name => takePipe name Pipe.remove
  | .notify number times =>
      return .truths (← runHost (notifyTimes cfg number [] times : HostM Error _))
  | .loadConfig path => return .config (← runHost (Config.load path : HostM Error _))
  | .list => return .listing (← runHost (Listing.make cfg : HostM Abort _))
  | .row name kind => return .row (← runHost (Listing.readRow cfg name kind))
  | .entries directory => return .entries (entriesOf (← get).host.disk directory)
  | .write path bytes => changeDisk fun disk => disk.writeFile path bytes
  | .read path => return .text (textOf (← get).host.disk path)
  | .makeDirectory path =>
      let _ ← runHost (Host.onDisk (Disk.ensureDirectories path path.length))
      return .nothing
  | .remove path => changeDisk fun disk => disk.removeTree path
  | .truncate path length =>
      changeDisk fun disk => do
        let id ← disk.openFile path .write
        disk.resizeFile id length

end Machine

end Subscription
