import DaqSwitch.Pipeline.FdirIds
import DaqSwitch.VoqSwq.PktMetadata

/-!
# The metadata in the default pipeline

`pipeline_default.c` has a `pkt_metadata_fill` of its own, with the same code as the one of
the default lcore.
-/

namespace DaqSwitch.Pipeline

open Lib

namespace Default

/-- Where the sixteen bytes for the last two slabs are copied from, if they are. -/
def tdaqHdr (m : Memory) : Option ℕ := VoqSwq.tdaqHdr m

def pktMetadataFill (m : Memory) : VoqSwq.FlowKeySlabs := VoqSwq.pktMetadataFill m

end Default

/-- **Reading inside the datagram.**  In both programs the TDAQ header of a packet is read
only from inside its datagram if and only if the total length of a TCP packet covers its
headers. -/
theorem readsInside_iff (m : Memory) :
    (VoqSwq.ReadsInside m (VoqSwq.tdaqHdr m) (VoqSwq.pktMetadataFill m) ↔
      (VoqSwq.nextProtoId m = VoqSwq.ipprotoTcp →
        VoqSwq.sizeofIpv4Hdr + (VoqSwq.tcpHdrSize m).toNat ≤ (VoqSwq.totalLength m).toNat)) ∧
    (VoqSwq.ReadsInside m (Default.tdaqHdr m) (Default.pktMetadataFill m) ↔
      (VoqSwq.nextProtoId m = VoqSwq.ipprotoTcp →
        VoqSwq.sizeofIpv4Hdr + (VoqSwq.tcpHdrSize m).toNat ≤ (VoqSwq.totalLength m).toNat)) :=
  ⟨VoqSwq.pktMetadataFill_readsInside_iff m, VoqSwq.pktMetadataFill_readsInside_iff m⟩

/-- A TCP packet whose total length ends inside the TCP header; the bytes behind that header
are the type of a fragment request. -/
def shortFrame : Memory := fun a =>
  if a = 12 then 0x08
  else if a = 14 then 0x45
  else if a = 17 then 30
  else if a = 23 then VoqSwq.ipprotoTcp
  else if a = 46 then 0x50
  else if a = 54 then 0x20
  else if a = 55 then 0xdf
  else if a = 56 then 0xdc
  else 0

/-- The short packet is taken for a fragment request. -/
theorem not_readsInside :
    ¬ VoqSwq.ReadsInside shortFrame (VoqSwq.tdaqHdr shortFrame)
        (VoqSwq.pktMetadataFill shortFrame) ∧
      ¬ VoqSwq.ReadsInside shortFrame (Default.tdaqHdr shortFrame)
        (Default.pktMetadataFill shortFrame) ∧
      (VoqSwq.pktMetadataFill shortFrame).flowKey.typeId =
        VoqSwq.tdaqTypeIdFragmentRequestMessage := by
  have hlen : (VoqSwq.totalLength shortFrame).toNat = 30 := rfl
  have hsize : (VoqSwq.tcpHdrSize shortFrame).toNat = 20 := rfl
  have hnot : ¬ VoqSwq.HeaderFits shortFrame := by
    rintro ⟨-, h⟩
    rw [hlen, hsize] at h
    revert h
    decide
  have hrequest : (VoqSwq.pktMetadataFill shortFrame).flowKey.typeId =
      VoqSwq.tdaqTypeIdFragmentRequestMessage := by decide
  exact ⟨fun h => h.request hnot hrequest, fun h => h.request hnot hrequest, hrequest⟩

end DaqSwitch.Pipeline
