import Rtc.Interceptor.Proofs.NackGenerator
import Rtc.Interceptor.Proofs.PerBit
import Rtc.Interceptor.Proofs.FeedbackTimes
import Rtc.Interceptor.Proofs.CcFeedbackRead
import Rtc.Interceptor.Proofs.ReceiverReport
import Rtc.Interceptor.Proofs.ArrivalMap
import Rtc.Rtcp.Proofs.RawPackets
import Rtc.Rtcp.Proofs.Compound
import Rtc.Rtcp.Proofs.FeedbackRoundTrip
import Rtc.Rtcp.Proofs.NackPairs
import Rtc.Rtp.Proofs.FramePayloads
import Rtc.Rtp.Proofs.ExtensionMap
import Rtc.Rtp.Proofs.FragmentUnits
import Rtc.Rtp.Proofs.ObuParsing
import Rtc.Rtp.Proofs.PacketRun
import Rtc.Sctp.Proofs.FastRecovery
import Rtc.Sctp.Proofs.Writes
import Rtc.Sctp.Proofs.ChunkBoundaries
import Rtc.Sctp.Proofs.ResetReplay
import Rtc.Sctp.Proofs.Retention
import Rtc.Sctp.Proofs.SackTruthful
import Rtc.Shared.Proofs.Rotation
import Rtc.Srtp.Proofs.Session
import Rtc.Srtp.Proofs.RtcpAuthentication
import Rtc.Stun.Proofs.IntegrityBuilt
import Rtc.Turn.Proofs.BindingRuns
