import PacketDma.Channel.Recovery
import PacketDma.Device
import PacketDma.Engine.Control
import PacketDma.Engine.Interrupt
import PacketDma.Engine.Lifecycle
import PacketDma.Engine.Watchdog
import PacketDma.Proofs.Admission
import PacketDma.Proofs.Barred
import PacketDma.Proofs.BatchedDrain
import PacketDma.Proofs.ClearedStats
import PacketDma.Proofs.CompletionDecoding
import PacketDma.Proofs.Confinement
import PacketDma.Proofs.Conservation
import PacketDma.Proofs.DiscardSafety
import PacketDma.Proofs.FailedStart
import PacketDma.Proofs.FatalFaults
import PacketDma.Proofs.Fifo
import PacketDma.Proofs.FreshChannel
import PacketDma.Proofs.HandOver
import PacketDma.Proofs.HonestDevice
import PacketDma.Proofs.InterruptService
import PacketDma.Proofs.Isolation
import PacketDma.Proofs.LengthField
import PacketDma.Proofs.LifecycleInvariant
import PacketDma.Proofs.Pauses
import PacketDma.Proofs.Polling
import PacketDma.Proofs.Posting
import PacketDma.Proofs.QueueRun
import PacketDma.Proofs.ReceiveBuffers
import PacketDma.Proofs.RecoverySequence
import PacketDma.Proofs.RefillRequests
import PacketDma.Proofs.RegisterAgreement
import PacketDma.Proofs.ResumedFaults
import PacketDma.Proofs.RetryBudget
import PacketDma.Proofs.StallDetection
import PacketDma.Proofs.StateDiagram
import PacketDma.Proofs.StickyFault
import PacketDma.Proofs.Tallies
import PacketDma.Proofs.Teardown
import PacketDma.Proofs.Totals
import PacketDma.Proofs.Wakeup
import PacketDma.Proofs.WindowDecay
import PacketDma.Register.Block
import PacketDma.SharedCell
import PacketDma.Proofs.Placement
