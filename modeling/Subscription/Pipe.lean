import Subscription.Config.Basic
import Subscription.Disk.Streams
import Subscription.Host.Locking

/-!
# Event pipes

A subscriber waits on a pipe until a publisher wakes it.  The publisher puts
a byte into the pipe; the subscriber takes bytes out until there are none, so
that any number of wake-ups between two waits counts as one.

* `Pipe.create` makes the pipe, or uses the one that is there, and opens it
  for listening;
* `Pipe.wait` tells whether there was a wake-up within the timeout;
* `Pipe.notify` tells whether anyone was listening.

A full pipe takes no more bytes, and whoever listens will wake up anyway.
A regular file in the place of a pipe is always ready, and a wake-up
overwrites its first byte.
-/

namespace Subscription

/-- The end of an event pipe that a subscriber listens on. -/
structure Pipe where
  file : FileId
  path : String
  deriving DecidableEq, Repr, Inhabited

namespace Pipe

variable {ε : Type}

/-- Fails when the operating system cannot be given the path. -/
def requirePath (path : String) : HostM Error Unit :=
  if Path.hasNul path then throw (.invalid (.nulInPath path)) else pure ()

/-- Makes the pipe unless there is something in its place. -/
def make (path : String) (mode : Nat) : HostM Error Unit := do
  match (← get).disk.makeFifo path mode with
  | .ok disk => Host.setDisk disk
  | .error e => if e = .exists_ then pure () else throw (.system "mkfifo" (.errno e))

/-- Makes the pipe with a given number and listens on it. -/
def create (cfg : Config) (number : UInt32) : HostM Error Pipe := do
  let path := cfg.pipePath number
  requirePath path
  make path cfg.mode.toNat
  match (← get).disk.openFile path .both with
  | .ok file =>
      modify fun h => { h with disk := h.disk.attach file }
      Host.say .debug s!"Event pipe \"{path}\" ready."
      return ⟨file, path⟩
  | .error e => throw (.system "open" (.errno e))

/-- A timeout in whole milliseconds, as far as they can be counted. -/
def pollSpan (timeout : Span) : Span :=
  .ofMillis (UInt64.ofNat (min (timeout.toNanos / 1000000) 0x7FFFFFFF))

/-- The number of bytes that are taken out of a pipe at a time. -/
def drainChunk : Nat := 64

/-- Takes bytes out of the pipe until there are none. -/
def drain (p : Pipe) : HostM Error Unit := fun h =>
  match _ : h.disk.takeBytes p.file drainChunk with
  | .ok (taken, disk) =>
      if _ : taken = 0 then .ok () { h with disk } else drain p { h with disk }
  | .error e => if e = .tryAgain then .ok () h else .error (.system "read" (.errno e)) h
termination_by h => h.disk.pending p.file
decreasing_by exact Disk.pending_lt_of_takeBytes ‹_› ‹_›

/-- Waits until there is a wake-up or the timeout is over, and tells which;
the pipe is empty afterwards. -/
def wait (p : Pipe) (timeout : Span) : HostM Error Bool := do
  if (← get).disk.isReadable p.file then
    drain p
    return true
  else
    Host.sleep (pollSpan timeout)
    return false

/-- Stops listening. -/
def close (p : Pipe) : HostM ε Unit :=
  modify fun h => { h with disk := h.disk.detach p.file }

/-- Stops listening and removes the pipe. -/
def remove (p : Pipe) : HostM Error Unit := do
  close p
  requirePath p.path
  match (← get).disk.unlink p.path with
  | .ok disk => Host.setDisk disk
  | .error e => throw (.system "unlink" (.errno e))

/-- Wakes the subscriber that listens on the pipe with a given number, and
tells whether there is one.  It wakes up from a full pipe as well. -/
def notify (cfg : Config) (number : UInt32) : HostM Error Bool := do
  let path := cfg.pipePath number
  requirePath path
  match (← get).disk.openForWriting path with
  | .error e =>
      if e = .noPeer ∨ e = .noEntry then return false
      else throw (.system "open" (.errno e))
  | .ok file =>
      match (← get).disk.putByte file with
      | .ok disk =>
          Host.setDisk disk
          return true
      | .error e =>
          if e = .tryAgain then return true else throw (.system "write" (.errno e))

end Pipe

end Subscription
