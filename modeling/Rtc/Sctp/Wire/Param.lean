import Rtc.Lib.Parse
import Rtc.Sctp.Chunk

/-!
# The parameters of SCTP chunks on the wire

`rtc-sctp/src/param`: how each parameter is written and read back. A parameter type is kept as its `u16`.
-/

namespace Rtc.Sctp.Wire
open Shared Parse

/-- `get_padding_size` (`util.rs:85-87`). -/
def getPaddingSize (len : Nat) : Nat := (4 - len % 4) % 4

/-- `put_bytes(0, n)`. -/
def zeros (n : Nat) : List Byte := List.replicate n 0#8

/-- `HmacAlgorithm` (`param_requested_hmac_algorithm.rs:6-14`). -/
inductive HmacAlgorithm where
  | hmacResv1
  | hmacSha128
  | hmacResv2
  | hmacSha256
  | unknown
  deriving DecidableEq

/-- `a as u16`. -/
def HmacAlgorithm.toU16 : HmacAlgorithm → BitVec 16
  | .hmacResv1 => 0
  | .hmacSha128 => 1
  | .hmacResv2 => 2
  | .hmacSha256 => 3
  | .unknown => 4

/-- `From<u16>` (`param_requested_hmac_algorithm.rs:30-40`). -/
def HmacAlgorithm.ofU16 (v : BitVec 16) : HmacAlgorithm :=
  if v = 0#16 then .hmacResv1
  else if v = 1#16 then .hmacSha128
  else if v = 2#16 then .hmacResv2
  else if v = 3#16 then .hmacSha256
  else .unknown

/-- `result as u32`. -/
def reconfigResultToU32 : ReconfigResult → BitVec 32
  | .successNop => 0
  | .successPerformed => 1
  | .denied => 2
  | .errorWrongSsn => 3
  | .errorRequestAlreadyInProgress => 4
  | .errorBadSequenceNumber => 5
  | .inProgress => 6
  | .unknown => 7

/-- `From<u32>` (`param_reconfig_response.rs:43-56`). -/
def reconfigResultOfU32 (v : BitVec 32) : ReconfigResult :=
  if v = 0#32 then .successNop
  else if v = 1#32 then .successPerformed
  else if v = 2#32 then .denied
  else if v = 3#32 then .errorWrongSsn
  else if v = 4#32 then .errorRequestAlreadyInProgress
  else if v = 5#32 then .errorBadSequenceNumber
  else if v = 6#32 then .inProgress
  else .unknown

/-! ## Parameter types (`param_type.rs:80-110`) -/

def paramHeartbeatInfo : BitVec 16 := 1
def paramStateCookie : BitVec 16 := 7
def paramOutSsnResetReq : BitVec 16 := 13
def paramReconfigResp : BitVec 16 := 16
def paramRandom : BitVec 16 := 32770
def paramChunkList : BitVec 16 := 32771
def paramReqHmacAlgo : BitVec 16 := 32772
def paramSupportedExt : BitVec 16 := 32776
def paramForwardTsnSupp : BitVec 16 := 49152

/-- The parameter types that `build_param` has a reader for. -/
def handledTypes : List (BitVec 16) :=
  [paramForwardTsnSupp, paramSupportedExt, paramRandom, paramReqHmacAlgo, paramChunkList,
    paramStateCookie, paramHeartbeatInfo, paramOutSsnResetReq, paramReconfigResp]

/-- The type of a `ParamUnknown`, which only `build_param` makes: no reader knows it, and its top bit
    says to go on with the next parameter. -/
def UnknownType := { t : BitVec 16 // t ∉ handledTypes ∧ t.msb = true }

instance : DecidableEq UnknownType := inferInstanceAs (DecidableEq (Subtype _))

/-- The implementations of the trait `Param`. -/
inductive Param where
  | forwardTsnSupported
  | supportedExtensions (chunkTypes : List Byte)
  | random (randomData : List Byte)
  | requestedHmacAlgorithm (availableAlgorithms : List HmacAlgorithm)
  | chunkList (chunkTypes : List Byte)
  | stateCookie (cookie : List Byte)
  | heartbeatInfo (heartbeatInformation : List Byte)
  | outgoingResetRequest (p : ParamOutgoingResetRequest)
  | reconfigResponse (reconfigResponseSequenceNumber : BitVec 32) (result : ReconfigResult)
  | unknown (typ : UnknownType) (value : List Byte)
  deriving DecidableEq

/-- `ParamHeader` (`param_header.rs:7-10`). -/
structure ParamHeader where
  typ : BitVec 16
  valueLength : BitVec 16

/-- `ParamHeader::unmarshal` (`param_header.rs:26-44`). -/
def ParamHeader.unmarshal (raw : List Byte) : Parse Error ParamHeader :=
  if raw.length < 4 then fail .errParamHeaderTooShort
  else do
    let (typ, reader) ← getU16 raw
    let (len, _) ← getU16 reader
    if len.toNat < 4 ∨ raw.length < len.toNat then fail .errParamHeaderTooShort
    else .ok ⟨typ, len - 4#16⟩

namespace Param

/-- The type each implementation puts in its `header`. -/
def typ : Param → BitVec 16
  | .forwardTsnSupported => paramForwardTsnSupp
  | .supportedExtensions _ => paramSupportedExt
  | .random _ => paramRandom
  | .requestedHmacAlgorithm _ => paramReqHmacAlgo
  | .chunkList _ => paramChunkList
  | .stateCookie _ => paramStateCookie
  | .heartbeatInfo _ => paramHeartbeatInfo
  | .outgoingResetRequest _ => paramOutSsnResetReq
  | .reconfigResponse _ _ => paramReconfigResp
  | .unknown t _ => t.1

/-- `value_length` of each implementation. -/
def valueLength : Param → Nat
  | .forwardTsnSupported => 0
  | .supportedExtensions types => types.length
  | .random data => data.length
  | .requestedHmacAlgorithm algorithms => 2 * algorithms.length
  | .chunkList types => types.length
  | .stateCookie cookie => cookie.length
  | .heartbeatInfo information => information.length
  | .outgoingResetRequest p => 12 + p.streamIdentifiers.length * 2
  | .reconfigResponse _ _ => 8
  | .unknown _ value => value.length

/-- What each implementation writes after its header. -/
def value : Param → List Byte
  | .forwardTsnSupported => []
  | .supportedExtensions types => types
  | .random data => data
  | .requestedHmacAlgorithm algorithms => algorithms.flatMap fun a => Bytes.toBe16 a.toU16
  | .chunkList types => types
  | .stateCookie cookie => cookie
  | .heartbeatInfo information => information
  | .outgoingResetRequest p =>
    Bytes.toBe32 p.reconfigRequestSequenceNumber ++ (Bytes.toBe32 p.reconfigResponseSequenceNumber ++
      (Bytes.toBe32 p.senderLastTsn ++ p.streamIdentifiers.flatMap Bytes.toBe16))
  | .reconfigResponse number result => Bytes.toBe32 number ++ Bytes.toBe32 (reconfigResultToU32 result)
  | .unknown _ value => value

/-- `marshal`: the header (`param_header.rs:48-52`) and the value. -/
def marshal (p : Param) : List Byte :=
  Bytes.toBe16 p.typ ++ (Bytes.toBe16 (BitVec.ofNat 16 p.valueLength + 4#16) ++ p.value)

/-- The value of a parameter that keeps its bytes as they are. -/
def unmarshalBytes (raw : List Byte) : Parse Error (List Byte) := do
  let header ← ParamHeader.unmarshal raw
  slice raw 4 (4 + header.valueLength.toNat)

/-- `ParamChunkList::unmarshal` (`param_chunk_list.rs:34-50`). -/
def unmarshalChunkList (raw : List Byte) : Parse Error (List Byte) := do
  let header ← ParamHeader.unmarshal raw
  if header.typ ≠ paramChunkList then fail .errParamTypeUnexpected
  else slice raw 4 (4 + header.valueLength.toNat)

/-- The loop of `ParamRequestedHmacAlgorithm::unmarshal` (`param_requested_hmac_algorithm.rs:80-89`),
    over what is left of the value. -/
def availableAlgorithms : List Byte → Parse Error (List HmacAlgorithm)
  | a :: b :: reader =>
    let algorithm := HmacAlgorithm.ofU16 (Bytes.be16 a b)
    if algorithm = .hmacSha128 ∨ algorithm = .hmacSha256 then do
      let algorithms ← availableAlgorithms reader
      .ok (algorithm :: algorithms)
    else fail .errInvalidAlgorithmType
  | _ => .ok []

/-- `ParamOutgoingResetRequest::unmarshal` (`param_outgoing_reset_request.rs:71-109`). -/
def unmarshalOutgoingResetRequest (raw : List Byte) : Parse Error ParamOutgoingResetRequest := do
  let header ← ParamHeader.unmarshal raw
  let valueLength := header.valueLength.toNat
  if valueLength + 4 < 16 ∨ (valueLength + 4 - 16) % 2 ≠ 0 then fail .errUnmarshalReconfigRespParam
  else if raw.length < 4 + valueLength then fail .errSsnResetRequestParamTooShort
  else do
    let reader ← slice raw 4 (4 + valueLength)
    let (reconfigRequestSequenceNumber, reader) ← getU32 reader
    let (reconfigResponseSequenceNumber, reader) ← getU32 reader
    let (senderLastTsn, reader) ← getU32 reader
    let (streamIdentifiers, _) ← getMany getU16 ((valueLength - 12) / 2) reader
    .ok ⟨reconfigRequestSequenceNumber, reconfigResponseSequenceNumber, senderLastTsn, streamIdentifiers⟩

/-- `ParamReconfigResponse::unmarshal` (`param_reconfig_response.rs:99-128`). -/
def unmarshalReconfigResponse (raw : List Byte) : Parse Error (BitVec 32 × ReconfigResult) := do
  let header ← ParamHeader.unmarshal raw
  let valueLength := header.valueLength.toNat
  if valueLength + 4 ≠ 12 ∧ valueLength + 4 ≠ 20 then fail .errUnmarshalReconfigRespParam
  else if raw.length < valueLength + 4 then fail .errReconfigRespParamTooShort
  else do
    let reader ← slice raw 4 (4 + valueLength)
    let (number, reader) ← getU32 reader
    let (result, _) ← getU32 reader
    .ok (number, reconfigResultOfU32 result)

/-- The reader that `build_param` picks for a type (`param/mod.rs:64-85`). -/
def unmarshal (typ : BitVec 16) (raw : List Byte) : Parse Error Param :=
  if typ = paramForwardTsnSupp then do
    let _ ← ParamHeader.unmarshal raw
    .ok .forwardTsnSupported
  else if typ = paramSupportedExt then .supportedExtensions <$> unmarshalBytes raw
  else if typ = paramRandom then .random <$> unmarshalBytes raw
  else if typ = paramReqHmacAlgo then do
    let reader ← unmarshalBytes raw
    .requestedHmacAlgorithm <$> availableAlgorithms reader
  else if typ = paramChunkList then .chunkList <$> unmarshalChunkList raw
  else if typ = paramStateCookie then .stateCookie <$> unmarshalBytes raw
  else if typ = paramHeartbeatInfo then .heartbeatInfo <$> unmarshalBytes raw
  else if typ = paramOutSsnResetReq then .outgoingResetRequest <$> unmarshalOutgoingResetRequest raw
  else if typ = paramReconfigResp then
    (fun r => .reconfigResponse r.1 r.2) <$> unmarshalReconfigResponse raw
  else if h : typ ∉ handledTypes ∧ typ.msb = true then .unknown ⟨typ, h⟩ <$> unmarshalBytes raw
  else fail (.errParamTypeUnhandled typ)

/-- `build_param` (`param/mod.rs:57-86`). -/
def build (raw : List Byte) : Parse Error Param :=
  if raw.length < 4 then fail .errParamHeaderTooShort
  else do
    let reader ← slice raw 0 2
    let (typ, _) ← getU16 reader
    unmarshal typ raw

/-- The parameters of an INIT, each but the last followed by its padding (`chunk_init.rs:201-211`). -/
def marshalAll : List Param → List Byte
  | [] => []
  | [p] => p.marshal
  | p :: ps => p.marshal ++ (zeros (getPaddingSize p.marshal.length) ++ marshalAll ps)

/-- Their length, as `value_length` of an INIT counts it (`chunk_init.rs:261-271`). -/
def lengthAll : List Param → Nat
  | [] => 0
  | [p] => 4 + p.valueLength
  | p :: ps => 4 + p.valueLength + getPaddingSize (4 + p.valueLength) + lengthAll ps

end Param
end Rtc.Sctp.Wire
