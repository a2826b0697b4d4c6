import Rtc.Interceptor.Basic
import Rtc.Interceptor.Bitmap

/-!
# The NACK receive log

`rtc-interceptor/src/nack/receive_log.rs`: a circular bitmap of the received sequence numbers, with
the highest number received (`end`) and the last number before the first gap (`last_consecutive`).
-/

namespace Rtc.Interceptor

/-- Half of the sequence space (`UINT16_SIZE_HALF`). -/
def uint16SizeHalf : Seq := 1#16 <<< 15

/-- `ReceiveLog` (`receive_log.rs:12-27`). -/
structure ReceiveLog where
  packets : List (BitVec 64)
  size : BitVec 16
  sizeMask : BitVec 16
  endSeq : Seq
  started : Bool
  lastConsecutive : Seq
  deriving DecidableEq, Repr

namespace ReceiveLog

/-- `ReceiveLog::new` (`receive_log.rs:34-49`). -/
def new (size : BitVec 16) : Option ReceiveLog :=
  if (List.range' 6 10).any fun i => size = 1#16 <<< i then
    some {
      packets := List.replicate (size / 64#16).toNat 0#64
      size := size
      sizeMask := size - 1#16
      endSeq := 0#16
      started := false
      lastConsecutive := 0#16 }
  else none

/-- `set_received` (`receive_log.rs:154-157`). -/
def setReceived (log : ReceiveLog) (seq : Seq) : ReceiveLog :=
  let pos := (seq &&& log.sizeMask).toNat
  { log with packets :=
      log.packets.set (pos / 64) (log.packets.getD (pos / 64) 0#64 ||| 1#64 <<< (pos % 64)) }

/-- `get_received` (`receive_log.rs:159-162`). -/
def getReceived (log : ReceiveLog) (seq : Seq) : Bool :=
  let pos := (seq &&& log.sizeMask).toNat
  log.packets.getD (pos / 64) 0#64 &&& 1#64 <<< (pos % 64) != 0#64

/-- `fix_last_consecutive` (`receive_log.rs:170-179`). -/
def fixLastConsecutive (log : ReceiveLog) : ReceiveLog :=
  let first := log.lastConsecutive + 1#16
  let span := log.endSeq - log.lastConsecutive
  { log with lastConsecutive :=
      match Bitmap.firstZero log.packets first.toNat span.toNat with
      | some offset => log.lastConsecutive + BitVec.ofNat 16 offset
      | none => log.endSeq }

theorem lastConsecutive_fixLastConsecutive (log : ReceiveLog) : log.fixLastConsecutive.lastConsecutive =
    match Bitmap.firstZero log.packets (log.lastConsecutive + 1#16).toNat (log.endSeq - log.lastConsecutive).toNat with
    | some offset => log.lastConsecutive + BitVec.ofNat 16 offset
    | none => log.endSeq :=
  rfl

/-- The branch of `add` for a number ahead of `end` (`receive_log.rs:67-88`). -/
def advance (log : ReceiveLog) (seq diff : Seq) : ReceiveLog :=
  let log := { log with
    packets := Bitmap.clear log.packets (log.endSeq + 1#16).toNat (diff - 1#16).toNat
    endSeq := seq }
  if log.lastConsecutive + 1#16 = seq then
    { log with lastConsecutive := seq }
  else if log.size < seq - log.lastConsecutive then
    fixLastConsecutive { log with lastConsecutive := seq - log.size }
  else log

/-- The branch of `add` for a number behind `end` (`receive_log.rs:89-95`). -/
def fillIn (log : ReceiveLog) (seq : Seq) : ReceiveLog :=
  if log.lastConsecutive + 1#16 = seq then
    fixLastConsecutive { log with lastConsecutive := seq }
  else log

/-- `add` (`receive_log.rs:52-99`). -/
def add (log : ReceiveLog) (seq : Seq) : ReceiveLog :=
  if !log.started then
    { log.setReceived seq with endSeq := seq, started := true, lastConsecutive := seq }
  else
    let diff := seq - log.endSeq
    if diff = 0#16 then log
    else if diff < uint16SizeHalf then (log.advance seq diff).setReceived seq
    else (log.fillIn seq).setReceived seq

/-- `get` (`receive_log.rs:102-111`). -/
def get (log : ReceiveLog) (seq : Seq) : Bool :=
  let diff := log.endSeq - seq
  if uint16SizeHalf ≤ diff then false
  else if log.size ≤ diff then false
  else log.getReceived seq

/-- `missing_seq_numbers` (`receive_log.rs:122-139`). -/
def missingSeqNumbers (log : ReceiveLog) (skipLastN : BitVec 16) : List Seq :=
  let last := log.endSeq - skipLastN
  let span := last - log.lastConsecutive
  if uint16SizeHalf ≤ span then []
  else
    let first := log.lastConsecutive + 1#16
    (Bitmap.forEachZero log.packets first.toNat span.toNat).map fun offset =>
      first + BitVec.ofNat 16 offset

/-- `is_missing` (`receive_log.rs:143-152`). -/
def isMissing (log : ReceiveLog) (seq : Seq) (skipLastN : BitVec 16) : Bool :=
  let last := log.endSeq - skipLastN
  let span := last - log.lastConsecutive
  if uint16SizeHalf ≤ span then false
  else
    let offset := seq - log.lastConsecutive
    offset != 0#16 && offset ≤ span && !log.getReceived seq

end ReceiveLog

end Rtc.Interceptor
