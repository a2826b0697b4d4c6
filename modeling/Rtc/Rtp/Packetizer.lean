import Rtc.Rtp.Packet

/-!
# The packetizer

`PacketizerImpl` of `rtc-rtp/src/packetizer/mod.rs` over the sequencer of `rtc-rtp/src/sequence.rs`. The payloader is
a state of any type with its `payload` function; the sending instant of a call is its NTP time.
-/

namespace Rtc.Rtp
open Shared

/-- `Counters` (`sequence.rs:50-53`). -/
structure Sequencer where
  sequenceNumber : BitVec 16
  rollOverCount : BitVec 64

/-- `next_sequence_number` (`sequence.rs:58-66`). -/
def Sequencer.nextSequenceNumber (c : Sequencer) : BitVec 16 × Sequencer :=
  if c.sequenceNumber = 0xFFFF#16 then (0#16, ⟨0#16, c.rollOverCount + 1#64⟩)
  else (c.sequenceNumber + 1#16, { c with sequenceNumber := c.sequenceNumber + 1#16 })

/-- `AbsSendTimeExtension::marshal_to` of `AbsSendTimeExtension::new` (`abs_send_time_extension/mod.rs:52-71`). -/
def absSendTime (ntp : BitVec 64) : List Byte :=
  let timestamp := ntp >>> 14
  [((timestamp &&& 0xFF0000#64) >>> 16).setWidth 8, ((timestamp &&& 0xFF00#64) >>> 8).setWidth 8,
    (timestamp &&& 0xFF#64).setWidth 8]

/-- `Payloader::payload` on a state. -/
abbrev Payload (σ : Type) := σ → (mtu : Nat) → List Byte → Except Error (List (List Byte)) × σ

/-- `PacketizerImpl` (`packetizer/mod.rs:80-90`). -/
structure PacketizerImpl (σ : Type) where
  mtu : Nat
  payloadType : Byte
  ssrc : BitVec 32
  payloader : σ
  sequencer : Sequencer
  timestamp : BitVec 32
  absSendTimeExtId : Byte := 0#8

namespace PacketizerImpl

variable {σ : Type} (payload : Payload σ)

/-- The packet of one payload (`packetizer/mod.rs:141-154`). -/
def packet (self : PacketizerImpl σ) (marker : Bool) (sequenceNumber : BitVec 16) (payload : List Byte) : Packet where
  header := {
    version := 2#8, padding := false, extension := false, marker, payloadType := self.payloadType, sequenceNumber
    timestamp := self.timestamp, ssrc := self.ssrc, csrc := [], extensionProfile := 0#16, extensions := []
    extensionsPadding := 0 }
  payload

/-- The loop over the payloads (`packetizer/mod.rs:140-155`), with the sequencer as it goes. -/
def packets (self : PacketizerImpl σ) : Sequencer → List (List Byte) → List Packet × Sequencer
  | c, [] => ([], c)
  | c, x :: xs =>
    let next := c.nextSequenceNumber
    let rest := packets self next.2 xs
    (self.packet xs.isEmpty next.1 x :: rest.1, rest.2)

/-- The send time on the last packet (`packetizer/mod.rs:159-168`). -/
def stampLast (id : Byte) (ntp : BitVec 64) (packets : List Packet) : Except Error (List Packet) :=
  match packets.getLast? with
  | none => .ok packets
  | some last =>
    if id = 0#8 then .ok packets
    else (last.header.setExtension id (absSendTime ntp)).map fun header => packets.dropLast ++ [{ last with header }]

/-- `packetize` (`packetizer/mod.rs:136-171`); a payloader that fails leaves the timestamp where it is. -/
def packetize (self : PacketizerImpl σ) (ntp : BitVec 64) (bytes : List Byte) (samples : BitVec 32) :
    Except Error (List Packet) × PacketizerImpl σ :=
  match payload self.payloader (self.mtu - 12) bytes with
  | (.error e, payloader) => (.error e, { self with payloader })
  | (.ok payloads, payloader) =>
    let made := self.packets self.sequencer payloads
    (stampLast self.absSendTimeExtId ntp made.1,
      { self with payloader, sequencer := made.2, timestamp := self.timestamp + samples })

/-- `skip_samples` (`packetizer/mod.rs:175-177`). -/
def skipSamples (self : PacketizerImpl σ) (skippedSamples : BitVec 32) : PacketizerImpl σ :=
  { self with timestamp := self.timestamp + skippedSamples }

end PacketizerImpl

inductive PacketizerCall where
  | packetize (ntp : BitVec 64) (bytes : List Byte) (samples : BitVec 32)
  | skipSamples (skippedSamples : BitVec 32)

/-- The samples that a call announces. -/
def PacketizerCall.samples : PacketizerCall → BitVec 32
  | packetize _ _ samples => samples
  | skipSamples skippedSamples => skippedSamples

namespace PacketizerImpl

variable {σ : Type} (payload : Payload σ)

/-- The packets a call returns, and the packetizer afterwards. -/
def answer (self : PacketizerImpl σ) : PacketizerCall → Except Error (List Packet) × PacketizerImpl σ
  | .packetize ntp bytes samples => self.packetize payload ntp bytes samples
  | .skipSamples skippedSamples => (.ok [], self.skipSamples skippedSamples)

/-- The packetizer after a call. -/
def call (self : PacketizerImpl σ) (c : PacketizerCall) : PacketizerImpl σ := (self.answer payload c).2

/-- The packets that the calls return, call by call. -/
def sent : PacketizerImpl σ → List PacketizerCall → List (List Packet)
  | _, [] => []
  | self, c :: cs => (self.answer payload c).1.toOption.getD [] :: sent (self.call payload c) cs

end PacketizerImpl
end Rtc.Rtp
