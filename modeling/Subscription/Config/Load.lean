import Subscription.Config.Basic
import Subscription.Config.Toml.Document
import Subscription.Host.Basic
import Subscription.Text.Utf8

/-!
# The configuration file

A configuration file names the settings that differ from the standard ones;
other names in it say nothing.  `Config.parse` reads the text of a file and
`Config.render` writes it.  A file that is not there is made, with the
standard settings, and so are the directories it lies in, as far as they can
be made.
-/

namespace Subscription

namespace Config

/-- A setting that is a text. -/
def textSetting (t : Toml.Table) (name : String) (fallback : String) : Option String :=
  match t.get? name with
  | none => some fallback
  | some (.value (.string text)) => some text
  | some _ => none

/-- A setting that is a number of 32 bits. -/
def numberSetting (t : Toml.Table) (name : String) (fallback : UInt32) : Option UInt32 :=
  match t.get? name with
  | none => some fallback
  | some (.value (.integer n)) =>
      if 0 ≤ n ∧ n < UInt32.size then some (UInt32.ofNat n.toNat) else none
  | some _ => none

/-- The configuration that a text describes. -/
def parse (text : String) : Option Config := do
  let t ← Toml.parse text
  return {
    segmentDir := ← textSetting t "shm_dir" standard.segmentDir
    pipeDir := ← textSetting t "repo_path" standard.pipeDir
    loopTimeout := ← numberSetting t "sub_event_loop_timeout_ms" standard.loopTimeout
    readTimeout := ← numberSetting t "rwlock_read_timeout_ms" standard.readTimeout
    mode := ← numberSetting t "shm_perm" standard.mode }

/-- The text of a configuration whose directories need no escapes. -/
def render (c : Config) : String :=
  s!"shm_dir = \"{c.segmentDir}\"\n" ++
  s!"repo_path = \"{c.pipeDir}\"\n" ++
  s!"sub_event_loop_timeout_ms = {c.loopTimeout.toNat}\n" ++
  s!"rwlock_read_timeout_ms = {c.readTimeout.toNat}\n" ++
  s!"shm_perm = {c.mode.toNat}\n"

/-- Makes the directories above a path. -/
def makeParents (path : String) : HostM Error Unit := do
  match Path.parent? path with
  | none => pure ()
  | some parent =>
      match ← Host.onDisk (Disk.ensureDirectories parent parent.length) with
      | .ok () => pure ()
      | .error _ => throw (.config .directoryNotMade)

/-- Writes the standard configuration under a path. -/
def storeStandard (path : String) : HostM Error Config := do
  makeParents path
  match Path.parent? path with
  | none => throw (.config (.noDirectory path))
  | some _ =>
      match (← get).disk.writeFile path (Utf8.bytes standard.render) with
      | .ok disk =>
          Host.setDisk disk
          return standard
      | .error _ => throw (.config .notOpened)

/-- Loads the configuration under a path. -/
def load (path : String) : HostM Error Config := do
  if Path.hasNul path then throw (.config .notLoaded)
  else
    let h ← get
    match h.disk.openFile path .read with
    | .error e =>
        if e = .noEntry then storeStandard path
        else if e = .isDirectory then throw (.config .unreadable)
        else throw (.config .notLoaded)
    | .ok id =>
        match Utf8.text? (h.disk.content id).bytes with
        | none => throw (.config .unreadable)
        | some text =>
            match parse text with
            | some c => return c
            | none => throw (.config .badSyntax)

end Config

end Subscription
