import SmallLisp.Session
import SmallLisp.Store.Printer
import SmallLisp.Proofs.Coupled
import SmallLisp.Proofs.Chain
import SmallLisp.Proofs.Invariant
import SmallLisp.Proofs.Provenance
import SmallLisp.Proofs.Growth
import SmallLisp.Proofs.Reachable
import SmallLisp.Proofs.Isolation
import SmallLisp.Proofs.Interleaving
import SmallLisp.Proofs.Lexical
import SmallLisp.Proofs.LexicalStates
import SmallLisp.Proofs.LexicalScope
import SmallLisp.Proofs.Thunk
import SmallLisp.Proofs.Repetition
import SmallLisp.Proofs.Accord
import SmallLisp.Proofs.Containment
import SmallLisp.Proofs.Tracing
import SmallLisp.Proofs.Announcement
import SmallLisp.Proofs.Judgement
import SmallLisp.Proofs.Bound
import SmallLisp.Proofs.Termination
import SmallLisp.Proofs.Extension
import SmallLisp.Proofs.Unread
import SmallLisp.Proofs.Attainable
import SmallLisp.Proofs.Room
import SmallLisp.Proofs.ChainLength
import SmallLisp.Proofs.ExactValue
import SmallLisp.Proofs.Canonical
import SmallLisp.Proofs.Interchange
import SmallLisp.Proofs.DecimalSum
import SmallLisp.Proofs.Summation
import SmallLisp.Proofs.Visibility
import SmallLisp.Proofs.Refusal
import SmallLisp.Proofs.ExactSum
import SmallLisp.Proofs.Forwarding
import SmallLisp.Proofs.Selection
import SmallLisp.Proofs.Registration
