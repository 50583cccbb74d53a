import TraceRelay.Host
import TraceRelay.Recording.Archive
import TraceRelay.Recording.Interception
import TraceRelay.Recording.Scribe
import TraceRelay.Reporting.Legend
import TraceRelay.Reporting.OpenSite
import TraceRelay.Reporting.Relay
import TraceRelay.Proofs.Reporting.Rank
import TraceRelay.Text.Reader
import TraceRelay.Threads.Lending
import TraceRelay.Transport.ScriptedSink
import TraceRelay.Proofs.Delivery.Custody
import TraceRelay.Proofs.IdTable.Announcement
import TraceRelay.Proofs.Stream.Reading
import TraceRelay.Proofs.Delivery.Writes
import TraceRelay.Proofs.Stream.Contents
import TraceRelay.Proofs.Stream.Attribution
import TraceRelay.Proofs.Stream.Timing
import TraceRelay.Proofs.Stream.Truthful
import TraceRelay.Proofs.Delivery.Drawing
import TraceRelay.Proofs.Interleaving.Order
import TraceRelay.Proofs.Stream.Numbered
import TraceRelay.Proofs.Interleaving.Completion
import TraceRelay.Proofs.Stream.Outline
import TraceRelay.Proofs.Stream.Deletion
import TraceRelay.Proofs.Transport.Circulating
import TraceRelay.Proofs.Transport.Delivered
import TraceRelay.Proofs.Transport.Release
import TraceRelay.Proofs.Relay.Conveyance
import TraceRelay.Proofs.Relay.Lines
import TraceRelay.Proofs.Relay.Conservation
import TraceRelay.Proofs.Stream.Precedence
import TraceRelay.Proofs.Transport.Acts
import TraceRelay.Proofs.Transport.Feeding
import TraceRelay.Proofs.Transport.Failing
import TraceRelay.Proofs.Delivery.Disconnected
import TraceRelay.Proofs.Reporting.Lookups
import TraceRelay.Proofs.Stream.Alone
import TraceRelay.Proofs.Threads.Announced
import TraceRelay.Proofs.Stream.Emission
import TraceRelay.Proofs.Interleaving.Thinning
import TraceRelay.Reporting.Community
import TraceRelay.Proofs.Community.Keys
import TraceRelay.Proofs.Community.Likeness
import TraceRelay.Proofs.Community.Neighbours
import TraceRelay.Proofs.Community.Isolation
import TraceRelay.Proofs.Stream.Aborting
import TraceRelay.Proofs.Text.Decoding
import TraceRelay.Proofs.Threads.Reannouncement
import TraceRelay.Consultation
import TraceRelay.Proofs.IdTable.Accounting
import TraceRelay.Proofs.IdTable.Consultations
import TraceRelay.Proofs.Delivery.Mishaps
import TraceRelay.Proofs.Recording.Bookkeeping
import TraceRelay.Proofs.Recording.Faults
