import PasswordProfile.Foundation.Bytes
import PasswordProfile.Foundation.Text
import PasswordProfile.Foundation.Lowercase
import PasswordProfile.Foundation.SqlText
import PasswordProfile.Foundation.FixedArray
import PasswordProfile.Foundation.SlotTable
import PasswordProfile.Foundation.Selection
import PasswordProfile.Foundation.BufferedReader
import PasswordProfile.Foundation.CrashState
import PasswordProfile.Foundation.Execution
import PasswordProfile.Foundation.LockTable
import PasswordProfile.Foundation.LockedSections
import PasswordProfile.Foundation.SectionAtomicity
import PasswordProfile.Foundation.SectionProgress
import PasswordProfile.Foundation.SectionTable
import PasswordProfile.Foundation.Interaction
import PasswordProfile.Foundation.Process
import PasswordProfile.Foundation.Monitor
import PasswordProfile.Username
import PasswordProfile.AuthEvent.Event
import PasswordProfile.AuthEvent.Ring
import PasswordProfile.AuthEvent.RingQueue
import PasswordProfile.AuthEvent.RingRefinement
import PasswordProfile.AuthEvent.Enqueue
import PasswordProfile.AuthEvent.ClaimTokens
import PasswordProfile.AuthJournal.Record
import PasswordProfile.AuthJournal.File
import PasswordProfile.AuthJournal.RoundTrip
import PasswordProfile.AuthJournal.TornAppend
import PasswordProfile.AuthJournal.Recovery
import PasswordProfile.AuthJournal.TransientRead
import PasswordProfile.AuthJournal.Unrecorded
import PasswordProfile.AuthJournal.Durability
import PasswordProfile.AdvisoryLock
import PasswordProfile.PendingCacheOp.State
import PasswordProfile.PendingCacheOp.Savepoints
import PasswordProfile.PendingCacheOp.SavepointAlgebra
import PasswordProfile.PendingCacheOp.Commit
import PasswordProfile.PendingCacheOp.Sessions
import PasswordProfile.Lockout.Cache
import PasswordProfile.Lockout.LastDecision
import PasswordProfile.Lockout.LoginAttempts
import PasswordProfile.Lockout.Threshold
import PasswordProfile.Lockout.Hydration
import PasswordProfile.Lockout.Coverage
import PasswordProfile.Lockout.Mirror
import PasswordProfile.Lockout.UserAccess
import PasswordProfile.Expiry.Cache
import PasswordProfile.Expiry.GraceLedger
import PasswordProfile.Expiry.PasswordExpiry
import PasswordProfile.Expiry.Grace
import PasswordProfile.Bypass.Cache
import PasswordProfile.Bypass.Exemption
import PasswordProfile.SharedMemory.Sections
import PasswordProfile.SharedMemory.Operations
import PasswordProfile.SharedMemory.Atomicity
import PasswordProfile.Login.ClientAuthHook
import PasswordProfile.Login.Refusal
import PasswordProfile.Login.HookContract
import PasswordProfile.PasswordChange.HashLike
import PasswordProfile.PasswordChange.PasswordCheckHook
import PasswordProfile.PasswordChange.Enforcement
import PasswordProfile.PasswordChange.RecordPasswordChange
import PasswordProfile.PasswordChange.ValidatePassword
import PasswordProfile.PasswordChange.GraceGeneration
import PasswordProfile.PasswordChange.LastPasswords
import PasswordProfile.PasswordChange.ReusePeriod
import PasswordProfile.PasswordChange.PolicySettings
import PasswordProfile.PasswordChange.AcceptedPolicy
import PasswordProfile.PasswordChange.UsernameRule
import PasswordProfile.Administration.RoleState
import PasswordProfile.Administration.Separation
import PasswordProfile.Administration.ExpiryReaders
import PasswordProfile.Administration.Deadlines
import PasswordProfile.Administration.DeadlineCoverage
import PasswordProfile.Worker.Replay
import PasswordProfile.Worker.RingReplay
import PasswordProfile.Worker.Hydration
import PasswordProfile.Worker.DurableHealth
import PasswordProfile.Worker.DegradedByRetry
import PasswordProfile.Worker.WarningSlot
import PasswordProfile.Worker.ConsumerLoop
import PasswordProfile.Worker.Containment
import PasswordProfile.Worker.Protocol
import PasswordProfile.Worker.LoopProtocol
import PasswordProfile.Worker.Backoff
import PasswordProfile.Worker.LoopReplay
