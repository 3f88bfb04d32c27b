/-!
# Permissions

The permissions of a file are twelve bits.  A new file gets those that were
asked for, less the ones that the mask takes away (`grantedMode`).  All files
belong to the user who opens them, so that the owner's bits decide what a
file may be opened for (`Access.allowedBy`); whoever makes a file may use it
at once in any way.

Two more bits lend the rights of a file's owner and of its group to those who
run it.  They are withdrawn when the file is written to or changes its
length (`writtenMode`), the second one only where the group may run the file.
-/

namespace Subscription

/-- The permissions that no new file gets. -/
def permissionMask : Nat := 0o022

/-- The permissions of a new file that was asked to have the given ones. -/
def grantedMode (asked : Nat) : Nat :=
  (asked % 0o10000) &&& (0o7777 - permissionMask)

/-- Whether one of the given bits is set. -/
def hasBit (mode bits : Nat) : Bool := mode &&& bits ≠ 0

/-- The bit with which the owner may read a file. -/
def ownerReads : Nat := 0o400

/-- The bit with which the owner may write to a file. -/
def ownerWrites : Nat := 0o200

/-- The bit with which the group may run a file. -/
def groupRuns : Nat := 0o010

/-- The bit that lends the rights of the owner. -/
def lendsOwner : Nat := 0o4000

/-- The bit that lends the rights of the group. -/
def lendsGroup : Nat := 0o2000

/-- The bits next to the permissions that stand for another kind of file than
a pipe. -/
def otherKinds : Nat := 0o160000

/-- What a file is opened for. -/
inductive Access where
  | read
  | write
  | both
  deriving DecidableEq, Repr, Inhabited

/-- Whether the permissions of a file allow its owner to open it. -/
def Access.allowedBy (access : Access) (mode : Nat) : Bool :=
  match access with
  | read => hasBit mode ownerReads
  | write => hasBit mode ownerWrites
  | both => hasBit mode ownerReads && hasBit mode ownerWrites

/-- The permissions of a file after it was written to. -/
def writtenMode (mode : Nat) : Nat :=
  mode &&& (0o7777 - (if hasBit mode groupRuns then lendsOwner + lendsGroup else lendsOwner))

end Subscription
