import Rtc.Sctp.PendingQueue
import Rtc.Sctp.Stream

/-!
# What is written

The payload that chunks hold, and the chunks that `packetize` makes of a message.
-/

namespace Rtc.Sctp
open Shared

def payloadSum (l : List ChunkPayloadData) : Nat := (l.map fun c => c.userData.length).sum

theorem payloadSum_append (l l' : List ChunkPayloadData) :
    payloadSum (l ++ l') = payloadSum l + payloadSum l' := by
  simp [payloadSum]

theorem payloadSum_cons (c : ChunkPayloadData) (l : List ChunkPayloadData) :
    payloadSum (c :: l) = c.userData.length + payloadSum l := by
  simp [payloadSum]

/-! ## packetize -/

namespace StreamState

variable {template : ChunkPayloadData} {size : Nat} {rest : List Byte} {c : ChunkPayloadData}

theorem mem_fragments {n i : Nat} (h : c ∈ fragments template size n i rest) : c = { template with
      userData := c.userData
      beginningFragment := c.beginningFragment
      endingFragment := c.endingFragment } := by
  induction n generalizing i rest with
  | zero => exact absurd h List.not_mem_nil
  | succ n ih =>
    unfold fragments at h
    split at h
    · exact absurd h List.not_mem_nil
    · rcases List.mem_cons.mp h with rfl | h
      · rfl
      · exact ih h

theorem userData_fragments (hsize : 0 < size) {n i : Nat}
    (h : c ∈ fragments template size n i rest) : c.userData ≠ [] := by
  induction n generalizing i rest with
  | zero => exact absurd h List.not_mem_nil
  | succ n ih =>
    unfold fragments at h
    split at h
    · exact absurd h List.not_mem_nil
    case _ hpos =>
      rcases List.mem_cons.mp h with rfl | h
      · refine List.ne_nil_of_length_pos ?_
        rw [List.length_take]
        omega
      · exact ih h

theorem mem_packetize {s : StreamState} {now : Instant} {raw : List Byte}
    {ppi : PayloadProtocolIdentifier} (h : c ∈ (s.packetize now raw ppi).1.2) :
    c = { createdAt := some now
          reliability := s.messageReliability now ppi
          streamGeneration := s.generation
          streamIdentifier := s.streamIdentifier
          unordered := ppi ≠ .dcep && s.unordered
          payloadType := ppi
          streamSequenceNumber := s.sequenceNumber
          userData := c.userData
          beginningFragment := c.beginningFragment
          endingFragment := c.endingFragment } :=
  mem_fragments h

end StreamState
end Rtc.Sctp
