import Stencil.Log
import Stencil.Main
import Stencil.Proofs.Acceptance
import Stencil.Proofs.Assignment
import Stencil.Proofs.Causes
import Stencil.Proofs.Coherence
import Stencil.Proofs.Comparison
import Stencil.Proofs.Constants
import Stencil.Proofs.Counters
import Stencil.Proofs.Footprint
import Stencil.Proofs.History
import Stencil.Proofs.Indexing
import Stencil.Proofs.Interchange
import Stencil.Proofs.Listings
import Stencil.Proofs.Markup
import Stencil.Proofs.Noninterference
import Stencil.Proofs.Phrases
import Stencil.Proofs.Renaming
import Stencil.Proofs.Resets
import Stencil.Proofs.Roster
import Stencil.Proofs.Spelling
import Stencil.Proofs.Splitting
import Stencil.Proofs.Surface
import Stencil.Proofs.Termination
import Stencil.Proofs.Transcript
