import Rtc.Rtcp.ExtendedReport
import Rtc.Rtcp.Feedback
import Rtc.Rtcp.SourceDescription
import Rtc.Rtcp.TransportLayerCc
import Rtc.Rtcp.TransportLayerNack

/-!
# Compound packets

The entry points of `rtc-rtcp/src/packet.rs`: a datagram is cut into packets by the lengths in their
headers, and each packet goes to the decoder that its type and format select.
-/

namespace Rtc.Rtcp
open Bytes Shared

/-- What `unmarshaller` returns behind `Box<dyn Packet>`. -/
inductive Packet where
  | senderReport (p : SenderReport)
  | receiverReport (p : ReceiverReport)
  | sourceDescription (p : SourceDescription)
  | goodbye (p : Goodbye)
  | transportLayerNack (p : TransportLayerNack)
  | rapidResynchronizationRequest (p : RapidResynchronizationRequest)
  | transportLayerCc (p : TransportLayerCc)
  | ccFeedbackReport (p : CcFeedbackReport)
  | pictureLossIndication (p : PictureLossIndication)
  | sliceLossIndication (p : SliceLossIndication)
  | receiverEstimatedMaximumBitrate (p : ReceiverEstimatedMaximumBitrate)
  | fullIntraRequest (p : FullIntraRequest)
  | extendedReport (p : ExtendedReport)
  | rawPacket (raw : List Byte)
  deriving DecidableEq, Repr

/-- `RawPacket::unmarshal` (`raw_packet.rs:73-94`): the header is written again, so a type that is not
    known has become 0. -/
def unmarshalRawPacket (raw : List Byte) : Parse Error (List Byte × List Byte) :=
  if raw.length < 4 then Parse.fail .packetTooShort
  else
    match Header.unmarshal raw with
    | .error e => Parse.fail e
    | .ok h =>
      match h.marshalTo 4 with
      | .error e => Parse.fail e
      | .ok rawHdr => .ok (rawHdr ++ raw.drop 4, [])

namespace Packet

/-- The decoder of one kind of packet, with its result as a packet. -/
def boxed {α : Type} (box : α → Packet) (p : Parse Error (α × List Byte)) :
    Parse Error (Packet × List Byte) :=
  p >>= fun r => .ok (box r.1, r.2)

/-- The selection of the decoder (`packet.rs:114-136`). -/
def decode (h : Header) (inPacket : List Byte) : Parse Error (Packet × List Byte) :=
  match h.packetType with
  | .senderReport => boxed senderReport (SenderReport.unmarshal inPacket)
  | .receiverReport => boxed receiverReport (ReceiverReport.unmarshal inPacket)
  | .sourceDescription => boxed sourceDescription (SourceDescription.unmarshal inPacket)
  | .goodbye => boxed goodbye (Goodbye.unmarshal inPacket)
  | .transportSpecificFeedback =>
    if h.count = TransportLayerNack.formatTln then
      TransportLayerNack.unmarshal inPacket >>= fun p => .ok (transportLayerNack p, [])
    else if h.count = formatRrr then
      boxed rapidResynchronizationRequest (RapidResynchronizationRequest.unmarshal inPacket)
    else if h.count = formatTcc then boxed transportLayerCc (TransportLayerCc.unmarshal inPacket)
    else if h.count = formatCcfb then boxed ccFeedbackReport (CcFeedbackReport.unmarshal inPacket)
    else boxed rawPacket (unmarshalRawPacket inPacket)
  | .payloadSpecificFeedback =>
    if h.count = formatPli then
      boxed pictureLossIndication (PictureLossIndication.unmarshal inPacket)
    else if h.count = formatSli then
      boxed sliceLossIndication (SliceLossIndication.unmarshal inPacket)
    else if h.count = formatRemb then
      boxed receiverEstimatedMaximumBitrate (ReceiverEstimatedMaximumBitrate.unmarshal inPacket)
    else if h.count = formatFir then boxed fullIntraRequest (FullIntraRequest.unmarshal inPacket)
    else boxed rawPacket (unmarshalRawPacket inPacket)
  | .extendedReport => boxed extendedReport (ExtendedReport.unmarshal inPacket)
  | .unsupported => boxed rawPacket (unmarshalRawPacket inPacket)
  | .applicationDefined => boxed rawPacket (unmarshalRawPacket inPacket)

end Packet

/-- `unmarshaller` (`packet.rs:95-139`): the decoder sees the header, written again, and the bytes that
    its length announces. What it does not read stays in the buffer. -/
def unmarshaller (rawData : List Byte) : Parse Error (Packet × List Byte) :=
  match Header.unmarshal rawData with
  | .error e => Parse.fail e
  | .ok h =>
    let length := h.length.toNat * 4
    let rest := rawData.drop 4
    if rest.length < length then Parse.fail .packetTooShort
    else
      match h.marshalTo 4 with
      | .error e => Parse.fail e
      | .ok headerBuf => do
        let (p, unread) ← Packet.decode h (headerBuf ++ rest.take length)
        .ok (p, unread ++ rest.drop length)

/-- The loop of `unmarshal` (`packet.rs:79-82`). A round that would be one too many for the fuel counts
    as a panic. -/
def getPackets : (fuel : Nat) → List Byte → Parse Error (List Packet)
  | _, [] => .ok []
  | 0, _ :: _ => .error .panicked
  | fuel + 1, b :: bs => do
    let (p, rest) ← unmarshaller (b :: bs)
    let packets ← getPackets fuel rest
    .ok (p :: packets)

/-- `packet::unmarshal` (`packet.rs:73-91`). -/
def unmarshal (rawData : List Byte) : Parse Error (List Packet) := do
  let packets ← getPackets rawData.length rawData
  match packets with
  | [] => Parse.fail .invalidHeader
  | _ :: _ => .ok packets

/-- The part of `dyn Packet` that `marshal` calls. -/
class Marshal (α : Type) where
  marshalSize : α → Nat
  marshalTo : α → Nat → Except Error (List Byte)

/-- `packet::marshal` (`packet.rs:53-65`): the buffer is zeroed and each packet is written after the one
    before it. -/
def marshal {α : Type} [Marshal α] (packets : List α) : Except Error (List Byte) := do
  let total := (packets.map Marshal.marshalSize).sum
  let out ← Emit.putAll Marshal.marshalTo total packets
  .ok (out ++ List.replicate (total - out.length) 0#8)

end Rtc.Rtcp
