import Jawn.Main
import Jawn.Proofs.Comparisons
import Jawn.Proofs.Declarations
import Jawn.Proofs.Labels
import Jawn.Proofs.Positions
import Jawn.Proofs.Refusals
import Jawn.Proofs.Runs
import Jawn.Proofs.Starts
import Jawn.Proofs.Splitting
import Jawn.Proofs.Precedence
import Jawn.Proofs.Partners
import Jawn.Proofs.Recovery
import Jawn.Proofs.Longest
