import PluginSlot.Bench.Basic
import PluginSlot.Constants
import PluginSlot.Loader.Format
import PluginSlot.RecursiveLock
import PluginSlot.Text.Checksum
import PluginSlot.Proofs.Loader.Footprint
import PluginSlot.Proofs.History
import PluginSlot.Proofs.Kernel.Cores
import PluginSlot.Proofs.Kernel.Placement
import PluginSlot.Proofs.Kernel.Moves
import PluginSlot.Proofs.Kernel.Frame
import PluginSlot.Proofs.Kernel.Scheduled
import PluginSlot.Proofs.Kernel.Eligibility
import PluginSlot.Proofs.Kernel.Execution
import PluginSlot.Proofs.Kernel.Locking
import PluginSlot.Proofs.Kernel.CurrentEligible
import PluginSlot.Proofs.Loader.Custody
import PluginSlot.Proofs.Loader.Contents
import PluginSlot.Proofs.Loader.Soundness
import PluginSlot.Proofs.Loader.Image
import PluginSlot.Proofs.Kernel.Accounts
import PluginSlot.Proofs.Kernel.Release
import PluginSlot.Proofs.Kernel.Bookkeeping
import PluginSlot.Proofs.Kernel.Continuity
import PluginSlot.Proofs.Kernel.Stranding
import PluginSlot.Proofs.Kernel.Transfers
import PluginSlot.Proofs.Kernel.Balance
import PluginSlot.Proofs.Kernel.Ownership
import PluginSlot.Proofs.Loader.Occupancy
import PluginSlot.Proofs.Loader.Upkeep
import PluginSlot.Proofs.Loader.Course
import PluginSlot.Proofs.Loader.Delivery
import PluginSlot.Proofs.Loader.Reuse
import PluginSlot.Proofs.Loader.Lifecycle
import PluginSlot.Proofs.Loader.Notices
import PluginSlot.Proofs.Loader.Order
import PluginSlot.Proofs.Loader.Occupant
import PluginSlot.Proofs.Loader.Handles
import PluginSlot.Proofs.Loader.Farewell
import PluginSlot.Proofs.Loader.Return
import PluginSlot.Proofs.Region.Lifetime
import PluginSlot.Proofs.Handshake.Interleaving
import PluginSlot.Proofs.Handshake.Rounds
import PluginSlot.Proofs.Loader.Chronicle
import PluginSlot.Proofs.Loader.Indifference
import PluginSlot.Service.Strict
import PluginSlot.Proofs.Service.Answers
import PluginSlot.Proofs.Service.Refusal
import PluginSlot.Proofs.Kernel.Rotation
import PluginSlot.Proofs.Kernel.RoundTrip
import PluginSlot.Proofs.Loader.Formats
import PluginSlot.Proofs.Kernel.Reports
import PluginSlot.Proofs.Kernel.BookSteps
import PluginSlot.Proofs.Kernel.Registration
import PluginSlot.Proofs.Kernel.Neutrality
import PluginSlot.Proofs.Kernel.Removal
import PluginSlot.Proofs.Kernel.Paging
import PluginSlot.Proofs.Kernel.Layout
import PluginSlot.Proofs.Kernel.Coverage
import PluginSlot.Proofs.Kernel.Remains
import PluginSlot.Proofs.Kernel.Destruction
import PluginSlot.Proofs.Kernel.Events
import PluginSlot.Proofs.Kernel.Signals
import PluginSlot.Proofs.Loader.Attempts
import PluginSlot.Proofs.Loader.Paths
import PluginSlot.Proofs.Service.NextLoad
import PluginSlot.Proofs.Loader.Belongings
import PluginSlot.Proofs.Wire.Codecs
import PluginSlot.Proofs.Service.Configuration
import PluginSlot.Proofs.Service.LoadRequest
import PluginSlot.Proofs.Service.Menus
import PluginSlot.Proofs.Region.Atomicity
import PluginSlot.Proofs.Reentry
import PluginSlot.Proofs.Kernel.Naming
import PluginSlot.Proofs.Loader.Retention
