import HomeProvision.Machine.Listing
import HomeProvision.Machine.Seed
import HomeProvision.Machine.Trial
import HomeProvision.Main
import HomeProvision.Settings.Field
import HomeProvision.Proofs.Additive
import HomeProvision.Proofs.Confined
import HomeProvision.Proofs.Reported
import HomeProvision.Proofs.Merged
import HomeProvision.Proofs.Borrowed
import HomeProvision.Proofs.Accounted
import HomeProvision.Proofs.EnteredOnce
import HomeProvision.Proofs.Ended
import HomeProvision.Proofs.Unfed
import HomeProvision.Proofs.Cleared
import HomeProvision.Proofs.Idempotent
import HomeProvision.Proofs.Disarmed
import HomeProvision.Proofs.Handover
import HomeProvision.Proofs.Resumed
import HomeProvision.Proofs.Noted
import HomeProvision.Proofs.Window
import HomeProvision.Proofs.Nesting
import HomeProvision.Proofs.Forgotten
import HomeProvision.Proofs.Owned
import HomeProvision.Proofs.Established
import HomeProvision.Proofs.Configured
import HomeProvision.Proofs.Enabled
import HomeProvision.Proofs.Loaded
import HomeProvision.Proofs.Survived
import HomeProvision.Proofs.Anchored
import HomeProvision.Proofs.Whole
import HomeProvision.Proofs.Erected
import HomeProvision.Proofs.Restarted
import HomeProvision.Proofs.Admitted
import HomeProvision.Proofs.Piecemeal
import HomeProvision.Proofs.Raced
import HomeProvision.Proofs.Refused
import HomeProvision.Proofs.Paced
import HomeProvision.Proofs.Grammar
import HomeProvision.Proofs.Moved
import HomeProvision.Proofs.Relinked
import HomeProvision.Proofs.Overridden
import HomeProvision.Proofs.Octal
import HomeProvision.Proofs.Ancestors
import HomeProvision.Proofs.AsciiNumeral
import HomeProvision.Proofs.Assigned
