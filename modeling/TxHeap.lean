import TxHeap.Proofs.Abandoned
import TxHeap.Proofs.Accounts
import TxHeap.Proofs.Assured
import TxHeap.Proofs.Blocks
import TxHeap.Proofs.ByteMap
import TxHeap.Proofs.Carving
import TxHeap.Proofs.Commuting
import TxHeap.Proofs.Copies
import TxHeap.Proofs.Escape
import TxHeap.Proofs.Exhaustion
import TxHeap.Proofs.Fields
import TxHeap.Proofs.Frozen
import TxHeap.Proofs.Impartial
import TxHeap.Proofs.Latest
import TxHeap.Proofs.Milestones
import TxHeap.Proofs.OwnView
import TxHeap.Proofs.Refusals
import TxHeap.Proofs.Registration
import TxHeap.Proofs.Roster
import TxHeap.Proofs.Rounds
import TxHeap.Proofs.Space
import TxHeap.Proofs.WeakFields
import TxHeap.Proofs.Windows
import TxHeap.Registry
import TxHeap.Release
import TxHeap.Run
