import CountingLoops.History
import CountingLoops.Main
import CountingLoops.Session
import CountingLoops.Proofs.Delivery
import CountingLoops.Proofs.Counting
import CountingLoops.Proofs.Attribution
import CountingLoops.Proofs.Text
import CountingLoops.Proofs.Budget
import CountingLoops.Proofs.Interruptions
import CountingLoops.Proofs.BudgetedPrinting
import CountingLoops.Proofs.Segments
import CountingLoops.Proofs.Trace
import CountingLoops.Proofs.Ending
import CountingLoops.Proofs.Questions
import CountingLoops.Proofs.TraceCut
import CountingLoops.Proofs.Transparency
import CountingLoops.Proofs.Reading
import CountingLoops.Proofs.Acceptance
import CountingLoops.Proofs.Layout
import CountingLoops.Proofs.Truncation
import CountingLoops.Proofs.Styling
import CountingLoops.Proofs.Wrapping
import CountingLoops.Proofs.Sessions
import CountingLoops.Proofs.Ambiguity
import CountingLoops.Proofs.Tally
import CountingLoops.Proofs.Progression
import CountingLoops.Proofs.Growth
import CountingLoops.Proofs.Turns
import CountingLoops.Proofs.Exits
import CountingLoops.Proofs.Progress
import CountingLoops.Proofs.Residues
