import BootImage.Arithmetic
import BootImage.Datum
import BootImage.Main
import BootImage.Proofs.Alignment
import BootImage.Proofs.Writing
import BootImage.Proofs.Packing
import BootImage.Proofs.Walk
import BootImage.Proofs.Acceptance
import BootImage.Proofs.RoundTrip
import BootImage.Proofs.Verdict
import BootImage.Proofs.Rebuild
import BootImage.Proofs.Padding
import BootImage.Proofs.Corruption
import BootImage.Proofs.Truncation
import BootImage.Proofs.Offsets
import BootImage.Proofs.Traversal
import BootImage.Proofs.Places
import BootImage.Proofs.Destinations
import BootImage.Proofs.Sibling
import BootImage.Proofs.Growth
import BootImage.Proofs.AtomicWrite
import BootImage.Proofs.Digits
import BootImage.Proofs.Fields
import BootImage.Proofs.Lines
import BootImage.Proofs.Faults
import BootImage.Proofs.Records
import BootImage.Proofs.AssembleCommand
import BootImage.Proofs.Presentation
import BootImage.Proofs.LineEnds
import BootImage.Proofs.Resolution
import BootImage.Proofs.Streams
import BootImage.Proofs.Texts
import BootImage.Proofs.Regions
import BootImage.Proofs.Entries
import BootImage.Proofs.Report
import BootImage.Proofs.Capacity
import BootImage.Proofs.Numbers
import BootImage.Proofs.FrontOptions
import BootImage.Proofs.Switches
import BootImage.Proofs.VersionSwitch
import BootImage.Proofs.Overflow
import BootImage.Proofs.BlockEnd
import BootImage.Proofs.Components
import BootImage.Proofs.TemporaryPath
