import MirBft.Proof.HashBinding
import MirBft.Proof.ReadyEntries
import MirBft.Proof.StableCheckpoints
import MirBft.Proof.Dispatch
import MirBft.Proof.ClaimedEpochs
import MirBft.Proof.TransferExclusion
import MirBft.Proof.ClientLists
import MirBft.Proof.WindowAlignment
import MirBft.Proof.EpochCursors
import MirBft.Proof.NewEpochStart
import MirBft.Proof.MapOrders
import MirBft.Proof.NodeBudgets
import MirBft.Proof.EventLogs
import MirBft.Proof.BucketStatus
import MirBft.Proof.CommitVotes
import MirBft.Proof.RecoveryBoundary
import MirBft.Proof.EchoedBatches
import MirBft.Proof.EpochAgreement
