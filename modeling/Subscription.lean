import Subscription.Main
import Subscription.Machine.Run
import Subscription.Proofs.FilterMeaning
import Subscription.Proofs.FilterXPaths
import Subscription.Proofs.FailedAdd
import Subscription.Proofs.GuardReturn
import Subscription.Proofs.HeardOnce
import Subscription.Proofs.PollFailure
import Subscription.Proofs.Exclusion
import Subscription.Proofs.LockCalls
import Subscription.Proofs.Departures
import Subscription.Proofs.RecordedRuns
import Subscription.Proofs.NameReading
import Subscription.Proofs.RegistryLedger
import Subscription.Proofs.TakingAllOut
import Subscription.Proofs.Delivery
import Subscription.Proofs.ReplayProtocol
import Subscription.Proofs.ReplayEnd
import Subscription.Proofs.RestingLock
import Subscription.Proofs.ArbitraryBytes
import Subscription.Proofs.TreeValues
import Subscription.Proofs.ListEntries
import Subscription.Proofs.LeafText
import Subscription.Proofs.Deadlines
import Subscription.Proofs.DecimalText
import Subscription.Proofs.StaleMappings
import Subscription.Proofs.Reopening
import Subscription.Proofs.ListedSegments
import Subscription.Proofs.HashedXPaths
import Subscription.Proofs.Handles
import Subscription.Proofs.Wakeups
