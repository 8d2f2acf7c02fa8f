import UvStream.Spec.State
import UvStream.Spec.Write
import UvStream.Spec.Read
import UvStream.Spec.Server
import UvStream.Spec.Machine
import UvStream.Proof.Basic
import UvStream.Proof.Frame
import UvStream.Proof.WriteLoop
import UvStream.Proof.WriteSide
import UvStream.Proof.WritePath
import UvStream.Proof.Accounting
import UvStream.Proof.Wire
import UvStream.Proof.Completion
import UvStream.Proof.ReadSide
import UvStream.Proof.Closed
import UvStream.Proof.WriteErrors
import UvStream.Proof.TryWrite
import UvStream.Proof.ReadCalls
import UvStream.Proof.ReadSession
import UvStream.Proof.AcceptOrder
import UvStream.Proof.Listening
import UvStream.Proof.ReadPath
import UvStream.Proof.WriteStable
import UvStream.Proof.ShutdownOrder
import UvStream.Proof.ActiveReqs
