import Subscription.Config.Load
import Subscription.Listing

/-!
# Listing the segments of this computer

`list` shows the segments in the directory of the configuration, each with
its present event; the configuration is read from the file that may be named
behind it.  The files are copied before they are looked at, so nothing is
locked and nothing is changed.
-/

namespace Subscription

/-- A disk that holds copies of the files in a directory. -/
def copyDirectory (directory : String) : IO Disk := do
  let source ← IO.FS.realPath directory
  let mut disk :=
    match Disk.ensureDirectories directory directory.length .empty with
    | .ok () made | .error _ made => made
  for entry in ← source.readDir do
    if (HeaderKind.ofName entry.fileName).isSome then
      let bytes ← IO.FS.readBinFile entry.path
      match disk.writeFile (Path.join directory entry.fileName) bytes.data.toList with
      | .ok more => disk := more
      | .error _ => pure ()
  return disk

/-- The configuration in a file. -/
def readConfig (file : String) : IO Config := do
  match Config.parse (← IO.FS.readFile file) with
  | some c => return c
  | none => throw (IO.userError ConfigFault.badSyntax.message)

/-- Prints the listing. -/
def Listing.print (cfg : Config) : IO UInt32 := do
  let host := { Host.fresh with disk := ← copyDirectory cfg.segmentDir }
  match Listing.make cfg host with
  | .ok listing after =>
      listing.rows.forM (IO.println ·)
      after.log.forM fun line => IO.eprintln s!"{line.level.name}: {line.text}"
      match listing.failure with
      | none => return 0
      | some cause =>
          IO.eprintln cause.message
          return 1
  | .error abort _ =>
      IO.eprintln abort.message
      return 3

end Subscription

/-- The command line. -/
def main (args : List String) : IO UInt32 := do
  match args with
  | ["list"] => Subscription.Listing.print Subscription.Config.standard
  | ["list", file] => Subscription.Listing.print (← Subscription.readConfig file)
  | _ =>
      IO.eprintln "usage: list [configuration file]"
      return 2
