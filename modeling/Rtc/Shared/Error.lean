import Mathlib.Tactic

/-!
# Errors

The variants of `rtc-shared/src/error.rs` that the modelled functions return.
-/

namespace Rtc.Shared

/-- `shared::error::Error`. -/
inductive Error where
  | errHeaderSizeInsufficient
  | errHeaderSizeInsufficientForExtension
  | errBufferTooSmall
  | headerExtensionPayloadNot32BitWords
  | errRfc3550headerIdrange
  | errShortPacket
  | errRfc8285oneByteHeaderIdrange
  | errRfc8285oneByteHeaderSize
  | errRfc8285twoByteHeaderIdrange
  | errRfc8285twoByteHeaderSize
  | errHeaderExtensionNotFound
  | errHeaderExtensionsNotEnabled
  | packetTooShort
  | badVersion
  | invalidHeader
  | tooManyReports
  | bufferTooShort
  | wrongType
  | tooManySources
  | tooManyChunks
  | reasonTooLong
  | sdesMissingType
  | sdesTextTooLong
  | invalidTotalLost
  | invalidSizeOrStartIndex
  | packetStatusChunkLength
  | packetBeforeCname
  | deltaExceedLimit
  | ssrcMustBeZero
  | missingRembIdentifier
  | invalidBlockSize
  | errTooManyPDiff
  | errTooManySpatialLayers
  | errUnhandledNaluType
  | stapASizeLargerThanBuffer (expected actual : Nat)
  | naluTypeIsNotHandled (naluType : BitVec 8)
  | errH265CorruptedPacket
  | errInvalidH265PacketType
  | errPayloadTooSmallForObuExtensionHeader
  | errPayloadTooSmallForObuPayloadSize
  | errAlertFatalOrClose
  | errApplicationDataEpochZero
  | errConnClosed
  | errCookieTooLong
  | errEmptyFragment
  | errFragmentBufferOverflow (newSize maxSize : Nat)
  | errInvalidCipherSpec
  | errInvalidExtensionType
  | errInvalidFsmTransition
  | errInvalidMac
  | errInvalidPacketLength
  | errInvalidSniFormat
  | errLengthMismatch
  | errNotEnoughRoomForNonce
  | errSequenceNumberOverflow
  | errUnhandledContextType
  | errUnsupportedProtocolVersion
  | errUnexpectedHeaderEof
  | errUnexpectedEof
  | errAttributeNotFound
  | errAttributeSizeInvalid
  | errAttributeSizeOverflow
  | errFingerprintBeforeIntegrity
  | errFingerprintMismatch
  | errIntegrityMismatch
  | errNoDefaultReason
  | errAddressParseFailed
  | errDetermineNetworkType
  | errLocalPwdInsufficientBits
  | errLocalUfragInsufficientBits
  | errNonStunmessage
  | errPasswordEmpty
  | errRemotePwdEmpty
  | errRemoteUfragEmpty
  | errUnexpectedStunrequestMessage
  | errUnhandledStunpacket
  | errTooShortRtp
  | errTooShortRtcp
  | srtpSsrcDuplicated (ssrc : BitVec 32) (sequenceNumber : BitVec 16)
  | srtcpSsrcDuplicated (ssrc : BitVec 32) (index : Nat)
  | srtpTooSmall (actual expected : Nat)
  | srtcpTooSmall (actual expected : Nat)
  | rtpFailedToVerifyAuthTag
  | rtcpInvalidLengthAuthTag (actual expected : Nat)
  | rtcpFailedToVerifyAuthTag
  | errFailedToVerifyAuthTag
  | errExceededMaxPackets
  | errStreamAlreadyExist
  | errInflightQueueTsnPop
  | errTsnRequestNotExist
  | errResetPacketInStateNotExist
  | errParameterType
  | errShutdownNonEstablished
  | errPayloadDataStateNotExist
  | errOutboundPacketTooLarge
  | errStreamClosed
  | errPacketRawTooSmall
  | errChecksumMismatch
  | errParseSctpChunkNotEnoughData
  | errUnmarshalUnknownChunkType
  | errChunkHeaderTooSmall
  | errChunkHeaderInvalidLength
  | errChunkHeaderNotEnoughSpace
  | errChunkHeaderPaddingNonZero
  | errChunkTypeNotTypeInit
  | errChunkValueNotLongEnough
  | errChunkTypeInitUnmarshalFailed
  | errChunkTypeInitFlagZero
  | errChunkTypeInitInitiateTagZero
  | errInitInboundStreamRequestZero
  | errInitOutboundStreamRequestZero
  | errInitAdvertisedReceiver1500
  | errChunkTypeNotAbort
  | errChunkTypeNotCt
  | errErrorCauseTooSmall
  | errChunkTypeNotCookieEcho
  | errChunkTypeNotCookieAck
  | errChunkTypeNotHeartbeat
  | errHeartbeatNotLongEnoughInfo
  | errHeartbeatParam
  | errChunkTypeNotPayloadData
  | errChunkPayloadSmall
  | errChunkUnmarshalPayloadData
  | errChunkTypeNotSack
  | errChunkUnmarshalSack
  | errSackSizeNotLargeEnoughInfo
  | errChunkTypeNotReconfig
  | errChunkReconfigInvalidParamA
  | errChunkTypeNotForwardTsn
  | errChunkTooShort
  | errChunkTypeNotShutdown
  | errChunkUnmarshalShutdown
  | errInvalidChunkSize
  | errChunkTypeNotShutdownAck
  | errChunkTypeNotShutdownComplete
  | errParamHeaderTooShort
  | errParamTypeUnexpected
  | errParamTypeUnhandled (typ : BitVec 16)
  | errUnmarshalReconfigRespParam
  | errSsnResetRequestParamTooShort
  | errReconfigRespParamTooShort
  | errInvalidAlgorithmType
  | errSctpPacketSourcePortZero
  | errSctpPacketDestinationPortZero
  | errInitChunkBundled
  | errInitChunkVerifyTagNotZero
  | errHandleInitState
  | errInitAckNoCookie
  | errInitNotStoredToSend
  | errCookieEchoNotStoredToSend
  | errAbortChunk (causes : String)
  | errChunkTypeUnhandled
  | otherSctpErr (message : String)
  | unexpectedEndOfBuffer (expected actual : Nat)
  | invalidMessageType (typ : BitVec 8)
  | invalidChannelType (typ : BitVec 8)
  | invalidPayloadProtocolIdentifier (ppi : BitVec 8)
  | errDataChannelNotExisted
  | errDataChannelStreamIdNotAssigned
  | errMaxDataChannelId
  | errDataChannelClosed
  | errDataChannelNotOpen
  | errAssociationNotExisted
  | errRetransmitsOrPacketLifeTime
  | errProtocolTooLarge
  | errConnectionClosed
  | errStreamNotExisted
  | errInvalidChannelNumber
  | errBadChannelDataLength
  | errChannelBindNotFound
  | errTryAgain
  | errNilTurnSocket
  | errStunserverAddressNotSet
  | errNoPermission
  | errUnexpectedResponse
  | errClientClosed
  | errAgentClosed
  | errTransactionExists
  | errTransactionNotExists
  | errNonCanonicalName
  | errSegTooLong
  | errZeroSegLen
  | errBaseLen
  | errCalcLen
  | errCompressedSrv
  | errInvalidPtr
  | errTooManyPtr
  | errReserved
  | errNotStarted
  | errSectionDone
  | errResourceLen
  | errNilResourceBody
  | errResTooLong
  | errTooManyQuestions
  | errTooManyAnswers
  | errTooManyAuthorities
  | errTooManyAdditionals
  | errStringTooLong
  | ioUnexpectedEof
  | utf8 (bytes : List (BitVec 8))
  | crypto (message : String)
  | other (message : String)
  deriving DecidableEq, Repr

end Rtc.Shared
