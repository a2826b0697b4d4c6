import Rtc.Sctp.Association.Step
import Rtc.Sctp.Wire.Packet

/-!
# The association with its handshake

`Association` with the fields of the handshake, and `handle_inbound` for packets with every chunk that `finish` makes.
The replies of the handshake and of HEARTBEAT are kept apart from the control queue, with their common header. The
cookie that `ParamStateCookie::new` draws is an argument.
-/

namespace Rtc.Sctp
open Shared Wire

/-- The chunks of the packets that the handshake and HEARTBEAT put in the control queue. -/
inductive HandshakeChunk where
  | init (c : ChunkInit)
  | cookieEcho (cookie : List Byte)
  | cookieAck
  | heartbeatAck (heartbeatInformation : List Byte)

/-- `Association` (`mod.rs:150-253`) with the fields of the handshake. -/
structure HandshakeAssociation extends Association where
  handshakeCompleted : Bool := false
  peerVerificationTag : BitVec 32 := 0
  myVerificationTag : BitVec 32
  myMaxNumInboundStreams : BitVec 16
  myMaxNumOutboundStreams : BitVec 16
  sourcePort : BitVec 16 := 0
  destinationPort : BitVec 16 := 0
  myCookie : Option (List Byte) := none
  storedInit : Option ChunkInit := none
  storedCookieEcho : Option (List Byte) := none
  handshakeQueue : List (CommonHeader × HandshakeChunk) := []

/-- `Display` of `ErrorCauseCode` (`chunk/mod.rs:71-98`). -/
def errorCauseText (code : BitVec 16) : String :=
  if code = 1#16 then "Invalid Stream Identifier"
  else if code = 2#16 then "Missing Mandatory Parameter"
  else if code = 3#16 then "Stale Cookie Error"
  else if code = 4#16 then "Out Of Resource"
  else if code = 5#16 then "Unresolvable IP"
  else if code = 6#16 then "Unrecognized Chunk Type"
  else if code = 7#16 then "Invalid Mandatory Parameter"
  else if code = 8#16 then "Unrecognized Parameters"
  else if code = 9#16 then "No User Data"
  else if code = 10#16 then "Cookie Received While Shutting Down"
  else if code = 11#16 then "Restart Of An Association With New Addresses"
  else if code = 12#16 then "User Initiated Abort"
  else if code = 13#16 then "Protocol Violation"
  else "Unknown CauseCode: " ++ toString code.toNat

/-- `USER_INITIATED_ABORT` (`chunk/mod.rs:61`). -/
def userInitiatedAbort : BitVec 16 := 12

/-- Whether a parameter says that the peer knows FORWARD TSN (`mod.rs:1059-1066`). -/
def supportsForwardTsn : Param → Bool
  | .supportedExtensions chunkTypes => chunkTypes.contains ctForwardTsn
  | _ => false

/-- A parameter as `handle_reconfig_param` distinguishes it. -/
def toReconfigParam : Param → ReconfigParam
  | .outgoingResetRequest p => .outgoingResetRequest p
  | .reconfigResponse number result => .reconfigResponse number result
  | _ => .other

/-- The chunks that the handlers of an established association take. -/
def toInChunk : Chunk → Option InChunk
  | .payloadData c => some (.payloadData c)
  | .selectiveAck c => some (.selectiveAck ⟨c.cumulativeTsnAck,
      c.advertisedReceiverWindowCredit.toNat, c.gapAckBlocks, c.duplicateTsn⟩)
  | .reconfig paramA paramB =>
    some (.reconfig ⟨paramA.map toReconfigParam, paramB.map toReconfigParam⟩)
  | .forwardTsn c => some (.forwardTsn c)
  | .shutdown _ => some .shutdown
  | .shutdownAck => some .shutdownAck
  | .shutdownComplete => some .shutdownComplete
  | _ => none

namespace HandshakeAssociation

/-- `close` (`mod.rs:698-739`). -/
def close (a : HandshakeAssociation) (reason : AssociationError) : HandshakeAssociation :=
  { a with toAssociation := a.toAssociation.close reason }

/-- The header of every packet that is sent. -/
def commonHeader (a : HandshakeAssociation) : CommonHeader :=
  ⟨a.sourcePort, a.destinationPort, a.peerVerificationTag⟩

/-- `control_queue.push_back` of a packet of the handshake. -/
def reply (a : HandshakeAssociation) (c : HandshakeChunk) : HandshakeAssociation :=
  { a with handshakeQueue := a.handshakeQueue ++ [(a.commonHeader, c)] }

/-- `send_init` (`mod.rs:865-888`). -/
def sendInit (a : HandshakeAssociation) : Except Error Unit × HandshakeAssociation :=
  match a.storedInit with
  | some c => (.ok (), { a with sourcePort := 5000, destinationPort := 5000 }.reply (.init c))
  | none => (.error .errInitNotStoredToSend, a)

/-- `send_cookie_echo` (`mod.rs:891-911`). -/
def sendCookieEcho (a : HandshakeAssociation) : Except Error Unit × HandshakeAssociation :=
  match a.storedCookieEcho with
  | some cookie => (.ok (), a.reply (.cookieEcho cookie))
  | none => (.error .errCookieEchoNotStoredToSend, a)

/-- `Association::new` (`mod.rs:352-435`) for the initial TSN `tsn` and the verification tag `tag`. -/
def new (config : AssociationConfig) (inbound outbound : BitVec 16) (client : Bool) (tsn : Tsn)
    (tag : BitVec 32) (now : Instant) : HandshakeAssociation :=
  let a : HandshakeAssociation :=
    { Association.new config tsn with
      myVerificationTag := tag
      myMaxNumInboundStreams := inbound
      myMaxNumOutboundStreams := outbound }
  if client then
    let init : ChunkInit :=
      { initialTsn := a.myNextTsn
        numOutboundStreams := a.myMaxNumOutboundStreams
        numInboundStreams := a.myMaxNumInboundStreams
        initiateTag := a.myVerificationTag
        advertisedReceiverWindowCredit := BitVec.ofNat 32 a.maxReceiveBufferSize }
    let a := { a with state := .cookieWait, storedInit := some init.setSupportedExtensions }.sendInit.2
    { a with timers := a.timers.start .t1Init now a.rtoMgr.getRto }
  else a

/-- `std::cmp::min` on `u16`. -/
def minU16 (x y : BitVec 16) : BitVec 16 := if x.toNat ≤ y.toNat then x else y

/-- What INIT and INIT ACK say about the peer (`mod.rs:1033-1053`, `mod.rs:1122-1132`). -/
def adoptPeer (a : HandshakeAssociation) (i : ChunkInit) : HandshakeAssociation :=
  { a with
    myMaxNumInboundStreams := minU16 i.numInboundStreams a.myMaxNumInboundStreams
    myMaxNumOutboundStreams := minU16 i.numOutboundStreams a.myMaxNumOutboundStreams
    peerVerificationTag := i.initiateTag
    peerLastTsn := if i.initialTsn = 0#32 then 0xFFFFFFFF#32 else i.initialTsn - 1#32 }

/-- The peer's window and its extensions (`mod.rs:1061-1076`, `mod.rs:1140-1174`). -/
def adoptWindow (a : HandshakeAssociation) (i : ChunkInit) : HandshakeAssociation :=
  { a with
    rwnd := i.advertisedReceiverWindowCredit.toNat
    ssthresh := i.advertisedReceiverWindowCredit.toNat
    useForwardTsn := a.useForwardTsn || i.params.any supportsForwardTsn }

/-- `handle_init` (`mod.rs:1008-1103`). `random` is the cookie that is drawn if there is none. -/
def handleInit (a : HandshakeAssociation) (p : Wire.Packet) (i : ChunkInit) (random : List Byte) :
    Except Error Unit × HandshakeAssociation :=
  if a.state ≠ .closed ∧ a.state ≠ .cookieWait ∧ a.state ≠ .cookieEchoed then
    (.error .errHandleInitState, a)
  else
    let a := { a.adoptPeer i with
      sourcePort := p.commonHeader.destinationPort
      destinationPort := p.commonHeader.sourcePort }
    let a := a.adoptWindow i
    let cookie := a.myCookie.getD random
    let initAck : ChunkInit :=
      { isAck := true
        initialTsn := a.myNextTsn
        numOutboundStreams := a.myMaxNumOutboundStreams
        numInboundStreams := a.myMaxNumInboundStreams
        initiateTag := a.myVerificationTag
        advertisedReceiverWindowCredit := BitVec.ofNat 32 a.maxReceiveBufferSize
        params := [.stateCookie cookie] }
    (.ok (), { a with myCookie := some cookie }.reply (.init initAck.setSupportedExtensions))

/-- The last state cookie of an INIT ACK (`mod.rs:1160-1165`). -/
def stateCookie (params : List Param) : Option (List Byte) :=
  params.foldl (fun cookie p =>
    match p with
    | .stateCookie c => some c
    | _ => cookie) none

/-- `handle_init_ack` (`mod.rs:1105-1192`). -/
def handleInitAck (a : HandshakeAssociation) (p : Wire.Packet) (i : ChunkInit) (now : Instant) :
    Except Error Unit × HandshakeAssociation :=
  if a.state ≠ .cookieWait then (.ok (), a)
  else
    let a := a.adoptPeer i
    if a.sourcePort ≠ p.commonHeader.destinationPort ∨ a.destinationPort ≠ p.commonHeader.sourcePort then
      (.ok (), a)
    else
      let a := a.adoptWindow i
      let a := { a with timers := a.timers.stop .t1Init, storedInit := none }
      match stateCookie i.params with
      | none => (.error .errInitAckNoCookie, a)
      | some cookie =>
        match { a with storedCookieEcho := some cookie }.sendCookieEcho with
        | (.error e, a) => (.error e, a)
        | (.ok (), a) =>
          (.ok (), { a with
            timers := a.timers.start .t1Cookie now a.rtoMgr.getRto
            state := .cookieEchoed })

/-- `handle_heartbeat` (`mod.rs:1194-1219`). -/
def handleHeartbeat (a : HandshakeAssociation) (params : List Param) : HandshakeAssociation :=
  match params with
  | .heartbeatInfo information :: _ => a.reply (.heartbeatAck information)
  | _ => a

/-- The association becomes established (`mod.rs:1240-1248`, `mod.rs:1277-1282`). -/
def establish (a : HandshakeAssociation) : HandshakeAssociation :=
  { a with
    storedCookieEcho := none
    events := a.events ++ [.connected]
    state := .established
    handshakeCompleted := true }

/-- `handle_cookie_echo` (`mod.rs:1221-1264`). -/
def handleCookieEcho (a : HandshakeAssociation) (cookie : List Byte) : HandshakeAssociation :=
  match a.myCookie with
  | none => a
  | some mine =>
    match a.state with
    | .established => if mine = cookie then a.reply .cookieAck else a
    | .closed | .cookieWait | .cookieEchoed =>
      if mine = cookie then
        let a := { a with timers := (a.timers.stop .t1Init).stop .t1Cookie, storedInit := none }
        a.establish.reply .cookieAck
      else a
    | _ => a

/-- `handle_cookie_ack` (`mod.rs:1266-1285`). -/
def handleCookieAck (a : HandshakeAssociation) : HandshakeAssociation :=
  if a.state ≠ .cookieEchoed then a
  else { a with timers := a.timers.stop .t1Cookie }.establish

/-- The texts of the causes of an ABORT or an ERROR, joined (`mod.rs:958-976`). -/
def causeTexts (causes : List ErrorCause) : String :=
  causes.foldl (fun text e => text ++ ("(" ++ errorCauseText e.code ++ ")")) ""

/-- `handle_chunk` for the chunks that `Association` handles, with the replies put in the control queue. -/
def dispatch (a : HandshakeAssociation) (now : Instant) (c : InChunk) :
    Except Error Unit × HandshakeAssociation :=
  match a.toAssociation.dispatch now c with
  | (.error e, b) => (.error e, { a with toAssociation := b })
  | (.ok packets, b) =>
    (.ok (), { a with toAssociation := { b with controlQueue := b.controlQueue ++ packets } })

/-- `handle_chunk` (`mod.rs:949-1006`). -/
def handleChunk (a : HandshakeAssociation) (p : Wire.Packet) (now : Instant) (random : List Byte) :
    Chunk → Except Error Unit × HandshakeAssociation
  | .init c =>
    match c.check with
    | .error e => (.error e, a)
    | .ok () => if c.isAck then a.handleInitAck p c now else a.handleInit p c random
  | .abort causes =>
    if causes.any fun e => e.code == userInitiatedAbort then (.ok (), a.close .reset)
    else (.error (.errAbortChunk (causeTexts causes)), a)
  | .error causes => (.error (.errAbortChunk (causeTexts causes)), a)
  | .heartbeat params => (.ok (), a.handleHeartbeat params)
  | .cookieEcho cookie => (.ok (), a.handleCookieEcho cookie)
  | .cookieAck => (.ok (), a.handleCookieAck)
  | c =>
    match toInChunk c with
    | none => (.error .errChunkTypeUnhandled, a)
    | some c => a.dispatch now c

/-- The loop of `handle_inbound` over the chunks of a packet (`mod.rs:922-924`). -/
def handleChunks (p : Wire.Packet) (now : Instant) (random : List Byte) :
    List Chunk → HandshakeAssociation → Except Error Unit × HandshakeAssociation
  | [], a => (.ok (), a)
  | c :: rest, a =>
    match a.handleChunk p now random c with
    | (.error e, a) => (.error e, a)
    | (.ok (), a) => handleChunks p now random rest a

/-- `handle_event` (`mod.rs:545-582`) for a packet that parses, through `handle_inbound`
    (`mod.rs:915-929`). -/
def handleInbound (a : HandshakeAssociation) (p : Wire.Packet) (now : Instant) (random : List Byte) :
    HandshakeAssociation :=
  match p.checkPacket with
  | .error _ => a
  | .ok () =>
    match handleChunks p now random p.chunks
        { a with delayedAckTriggered := false, immediateAckTriggered := false } with
    | (.ok (), a) => { a with toAssociation := a.toAssociation.handleChunkEnd now }
    | (.error _, a) => a.close .transportError

end HandshakeAssociation
end Rtc.Sctp
