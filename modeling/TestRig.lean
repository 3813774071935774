import TestRig.Main
import TestRig.Proofs.Counting
import TestRig.Proofs.Admission
import TestRig.Proofs.Entries
import TestRig.Proofs.Fate
import TestRig.Proofs.Forking
import TestRig.Proofs.History
import TestRig.Proofs.Limits
import TestRig.Proofs.Lines
import TestRig.Proofs.Paths
import TestRig.Proofs.Spelling
import TestRig.Proofs.Numerals
import TestRig.Proofs.Twins
import TestRig.Proofs.Reinvocation
import TestRig.Proofs.Selection
import TestRig.Proofs.OneTest
import TestRig.Proofs.ExitCodes
import TestRig.Proofs.Refusals
import TestRig.Proofs.Spawning
import TestRig.Proofs.Escapes
import TestRig.Proofs.Order
import TestRig.Proofs.Kinship
import TestRig.Proofs.Presentation
import TestRig.Proofs.Collecting
import TestRig.Proofs.Containment
import TestRig.Proofs.Marking
import TestRig.Proofs.Occurrences
import TestRig.Proofs.Passing
import TestRig.Proofs.Specifications
import TestRig.Proofs.Conversion
import TestRig.Proofs.Books
import TestRig.Proofs.Waiting
import TestRig.Proofs.Strategies
import TestRig.Proofs.Closing
import TestRig.Proofs.Writing
import TestRig.Proofs.Naming
import TestRig.Proofs.Footprint
import TestRig.Proofs.Ledger
import TestRig.Proofs.Buffers
import TestRig.Proofs.Indentation
import TestRig.Proofs.Assignments
import TestRig.Proofs.Sinks
