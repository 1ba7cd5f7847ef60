import TraceJournal.Main
import TraceJournal.Proofs.Journal.Delivery
import TraceJournal.Proofs.Journal.Failure
import TraceJournal.Proofs.Journal.Stretch
import TraceJournal.Proofs.Segment.Accepted
import TraceJournal.Proofs.Segment.Latest
import TraceJournal.Proofs.Segment.Readership
import TraceJournal.Proofs.Segment.Torn
import TraceJournal.Proofs.Journal.Numbering
import TraceJournal.Proofs.Pipeline.Arrival
import TraceJournal.Proofs.Pipeline.Bench
import TraceJournal.Proofs.Segment.Whole
import TraceJournal.Proofs.Store.Sliding
import TraceJournal.Proofs.Store.Archive
import TraceJournal.Proofs.Journal.Seeding
import TraceJournal.Proofs.Journal.Crew
import TraceJournal.Proofs.Segment.Sharing
import TraceJournal.Proofs.Segment.Growing
import TraceJournal.Proofs.Segment.Reckoning
import TraceJournal.Proofs.Journal.Upkeep
import TraceJournal.Proofs.Segment.Trimming
import TraceJournal.Proofs.CommandLine.Accounting
import TraceJournal.Proofs.Settings.Decoding
import TraceJournal.Proofs.Settings.Reloading
import TraceJournal.Proofs.Journal.Anchoring
import TraceJournal.Proofs.Journal.Drain
import TraceJournal.Proofs.Segment.Damage
import TraceJournal.Proofs.Journal.Rounds
import TraceJournal.Proofs.Pipeline.Losses
import TraceJournal.Proofs.Journal.Trailing
import TraceJournal.Proofs.Journal.Advancing
import TraceJournal.Proofs.Store.Clearing
import TraceJournal.Proofs.Segment.Walking
