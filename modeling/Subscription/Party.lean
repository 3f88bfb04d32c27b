/-!
# Parties

A party is a thread of some process.  One party runs the commands
(`mainParty`); the others come up for a while, each of them once.
-/

namespace Subscription

/-- A party. -/
abbrev Party := Nat

/-- The party that runs commands. -/
def mainParty : Party := 0

end Subscription
