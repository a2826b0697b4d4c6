import Rtc.Rtcp.TransportLayerNack
import Rtc.Rtp.Packet

/-!
# Packets of an interceptor chain

What the interceptors of `rtc-interceptor` pass along: an RTP packet or RTCP packets, with the instant
of the call. Transport addresses and attributes are carried unread and left out.
-/

namespace Rtc.Interceptor

abbrev Seq := BitVec 16

abbrev Ssrc := BitVec 32

/-- An instant, in nanoseconds. -/
abbrev Instant := Nat

/-- A duration, in nanoseconds. -/
abbrev Duration := Nat

/-- An RTCP packet. -/
inductive RtcpPacket where
  | transportLayerNack (nack : Rtcp.TransportLayerNack)
  | other (raw : List Byte)
  deriving DecidableEq

/-- `Packet` (`packet.rs:11-28`). -/
inductive Packet where
  | rtp (packet : Rtp.Packet)
  | rtcp (packets : List RtcpPacket)
  deriving DecidableEq

/-- `TaggedPacket`. -/
structure TaggedPacket where
  now : Instant
  message : Packet
  deriving DecidableEq

/-- What an interceptor reads of `StreamInfo`: the SSRC and the negotiated feedback types. -/
structure StreamInfo where
  ssrc : Ssrc
  rtcpFeedback : List (String × String)

end Rtc.Interceptor
