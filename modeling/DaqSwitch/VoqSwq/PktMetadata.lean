import DaqSwitch.Lib.Bytes
import DaqSwitch.VoqSwq.LcoreDefault

/-!
# The metadata of a packet

`pkt_metadata_fill` of `dp_lcore_default.c` copies 8-byte slabs of the packet into its flow
key.  The slabs lie at fixed distances from the start of the IP header, as if it had no
options; only the position of the first payload bytes depends on the packet.
-/

namespace DaqSwitch.VoqSwq

open Lib

/-! ## The flow key as slabs -/

/-- The four unions of `struct pipeline_flow_key`. -/
structure FlowKeySlabs where
  slab0 : BitVec 64
  slab1 : BitVec 64
  slab2 : BitVec 64
  slab3 : BitVec 64
deriving DecidableEq, Repr

/-- The other view of the unions. -/
def FlowKeySlabs.flowKey (k : FlowKeySlabs) : PipelineFlowKey where
  ttl := k.slab0.extractLsb' 0 8
  proto := k.slab0.extractLsb' 8 8
  headerChecksum := k.slab0.extractLsb' 16 16
  sip := k.slab0.extractLsb' 32 32
  dip := k.slab1.extractLsb' 0 32
  sport := k.slab1.extractLsb' 32 16
  dport := k.slab1.extractLsb' 48 16
  typeId := k.slab2.extractLsb' 0 32
  transactionId := k.slab2.extractLsb' 32 32
  size := k.slab3.extractLsb' 0 32
  eventId := k.slab3.extractLsb' 32 32

/-! ## The packet

Addresses count from the start of the packet data in the mbuf. -/

def ipprotoTcp : BitVec 8 := 6

def sizeofEtherHdr : ℕ := 14
def sizeofIpv4Hdr : ℕ := 20
def sizeofTdaqHdr : ℕ := 16

/-- `rte_be_to_cpu_16(ip_hdr->total_length)`. -/
def totalLength (m : Memory) : BitVec 16 := m.be16 (sizeofEtherHdr + 2)

/-- `ip_hdr->next_proto_id`. -/
def nextProtoId (m : Memory) : BitVec 8 := m (sizeofEtherHdr + 9)

/-- `tcp_hdr_size`, from the `data_off` of a TCP header behind an IP header of 20 bytes. -/
def tcpHdrSize (m : Memory) : BitVec 8 := (m (sizeofEtherHdr + sizeofIpv4Hdr + 12) >>> 4) * 4

/-- Where the sixteen bytes for the last two slabs are copied from, if they are.  `sizeof` is
a 64-bit unsigned number, and so is the difference. -/
def tdaqHdr (m : Memory) : Option ℕ :=
  if nextProtoId m = ipprotoTcp then
    if (totalLength m).setWidth 64 - BitVec.ofNat 64 sizeofIpv4Hdr - (tcpHdrSize m).setWidth 64 ≥
        BitVec.ofNat 64 sizeofTdaqHdr then
      some (sizeofEtherHdr + sizeofIpv4Hdr + (tcpHdrSize m).toNat)
    else none
  else none

def pktMetadataFill (m : Memory) : FlowKeySlabs where
  slab0 := m.le64 (sizeofEtherHdr + 8)
  slab1 := m.le64 (sizeofEtherHdr + 16)
  slab2 := (tdaqHdr m).elim 0 m.le64
  slab3 := (tdaqHdr m).elim 0 fun a => m.le64 (a + 8)

variable {m : Memory}

/-! ## The guard -/

lemma toNat_tcpHdrSize (m : Memory) : (tcpHdrSize m).toNat = 4 * ((m 46).toNat / 16) := by
  have hlt := (m 46).isLt
  show ((m 46 >>> 4) * 4).toNat = _
  rw [BitVec.toNat_mul, BitVec.toNat_ushiftRight, Nat.shiftRight_eq_div_pow]
  show (m 46).toNat / 2 ^ 4 * 4 % 2 ^ 8 = _
  omega

/-- The unsigned difference is at least the size of the header also when it is negative. -/
lemma guard_iff (m : Memory) :
    (totalLength m).setWidth 64 - BitVec.ofNat 64 sizeofIpv4Hdr - (tcpHdrSize m).setWidth 64 ≥
        BitVec.ofNat 64 sizeofTdaqHdr ↔
      sizeofIpv4Hdr + (tcpHdrSize m).toNat + sizeofTdaqHdr ≤ (totalLength m).toNat ∨
        (totalLength m).toNat < sizeofIpv4Hdr + (tcpHdrSize m).toNat := by
  have hlen := (totalLength m).isLt
  have hsize := (tcpHdrSize m).isLt
  simp only [sizeofIpv4Hdr, sizeofTdaqHdr, ge_iff_le, BitVec.le_def, BitVec.toNat_sub,
    BitVec.toNat_setWidth, BitVec.toNat_ofNat]
  omega

lemma tdaqHdr_eq_some_iff {a : ℕ} : tdaqHdr m = some a ↔ nextProtoId m = ipprotoTcp ∧
    (sizeofIpv4Hdr + (tcpHdrSize m).toNat + sizeofTdaqHdr ≤ (totalLength m).toNat ∨
      (totalLength m).toNat < sizeofIpv4Hdr + (tcpHdrSize m).toNat) ∧
    a = sizeofEtherHdr + sizeofIpv4Hdr + (tcpHdrSize m).toNat := by
  rw [tdaqHdr, ← guard_iff]
  split
  · next hproto =>
    split
    · next hguard => simp [hproto, hguard, eq_comm]
    · next hguard => simp [hguard]
  · next hproto => simp [hproto]

/-- The flow key field by field. -/
lemma flowKey_pktMetadataFill (m : Memory) : (pktMetadataFill m).flowKey =
    { ttl := m 22, proto := m 23, headerChecksum := m.le16 24
      sip := m.le32 26, dip := m.le32 30, sport := m.le16 34, dport := m.le16 36
      typeId := (tdaqHdr m).elim 0 fun a => m.le32 a
      transactionId := (tdaqHdr m).elim 0 fun a => m.le32 (a + 4)
      size := (tdaqHdr m).elim 0 fun a => m.le32 (a + 8)
      eventId := (tdaqHdr m).elim 0 fun a => m.le32 (a + 12) } := by
  have httl : (m.le64 22).extractLsb' 0 8 = m 22 := by
    rw [m.le64_of_le 22 (by decide), m.le32_of_le 22 (by decide), m.le16_low]
  have hproto : (m.le64 22).extractLsb' 8 8 = m 23 := by
    rw [m.le64_of_le 22 (by decide), m.le32_of_le 22 (by decide), m.le16_high]
  have hchecksum : (m.le64 22).extractLsb' 16 16 = m.le16 24 := by
    rw [m.le64_of_le 22 (by decide), m.le32_high]
  have hsport : (m.le64 30).extractLsb' 32 16 = m.le16 34 := by
    rw [m.le64_of_ge 30 le_rfl, m.le32_low]
  have hdport : (m.le64 30).extractLsb' 48 16 = m.le16 36 := by
    rw [m.le64_of_ge 30 (by decide), m.le32_high]
  have hslab0 : (pktMetadataFill m).slab0 = m.le64 22 := rfl
  have hslab1 : (pktMetadataFill m).slab1 = m.le64 30 := rfl
  rw [FlowKeySlabs.flowKey, hslab0, hslab1, httl, hproto, hchecksum, hsport, hdport]
  cases h : tdaqHdr m <;> simp [pktMetadataFill, h]

/-! ## Reading inside the datagram -/

/-- The packet is TCP, and its datagram holds sixteen bytes behind the TCP header. -/
def HeaderFits (m : Memory) : Prop :=
  nextProtoId m = ipprotoTcp ∧
    sizeofIpv4Hdr + (tcpHdrSize m).toNat + sizeofTdaqHdr ≤ (totalLength m).toNat

/-- The sixteen bytes are copied only when they fit; otherwise the slabs are zero and the
packet is not taken for a fragment request. -/
structure ReadsInside (m : Memory) (copied : Option ℕ) (k : FlowKeySlabs) : Prop where
  inside : ∀ a, copied = some a → HeaderFits m
  zero : ¬ HeaderFits m → k.slab2 = 0 ∧ k.slab3 = 0
  request : ¬ HeaderFits m → k.flowKey.typeId ≠ tdaqTypeIdFragmentRequestMessage

lemma pktMetadataFill_readsInside_iff (m : Memory) : ReadsInside m (tdaqHdr m) (pktMetadataFill m) ↔
    (nextProtoId m = ipprotoTcp →
      sizeofIpv4Hdr + (tcpHdrSize m).toNat ≤ (totalLength m).toNat) := by
  constructor
  · intro h hproto
    by_contra hshort
    have hcopied := tdaqHdr_eq_some_iff.mpr ⟨hproto, Or.inr (not_le.mp hshort), rfl⟩
    have := (h.inside _ hcopied).2
    omega
  · intro hlong
    have hfits {a : ℕ} (ha : tdaqHdr m = some a) : HeaderFits m := by
      obtain ⟨hproto, hguard | hshort, -⟩ := tdaqHdr_eq_some_iff.mp ha
      · exact ⟨hproto, hguard⟩
      · exact absurd (hlong hproto) (not_le.mpr hshort)
    have hnone (hnot : ¬ HeaderFits m) : tdaqHdr m = none :=
      Option.eq_none_iff_forall_ne_some.mpr fun a ha => hnot (hfits ha)
    refine ⟨fun a ha => hfits ha, ?_, ?_⟩
    · intro hnot
      rw [pktMetadataFill, hnone hnot]
      exact ⟨rfl, rfl⟩
    · intro hnot
      rw [flowKey_pktMetadataFill, hnone hnot]
      show (0 : BitVec 32) ≠ tdaqTypeIdFragmentRequestMessage
      decide

/-! ## Extraction -/

/-- The length of the IP header in words, from the packet. -/
def ihl (m : Memory) : ℕ := (m 14).toNat % 16

/-- Where the TCP header is. -/
def tcpStart (m : Memory) : ℕ := 14 + 4 * ihl m

/-- The length of the TCP header in words. -/
def dataOff (m : Memory) : ℕ := (m (tcpStart m + 12)).toNat / 16

/-- A frame with an IPv4 header of any length and a TCP header of any length, which the
datagram contains. -/
structure IsTcpFrame (m : Memory) : Prop where
  etherType : m.be16 12 = 0x0800
  version : (m 14).toNat / 16 = 4
  ihl : 5 ≤ ihl m
  proto : nextProtoId m = ipprotoTcp
  dataOff : 5 ≤ dataOff m
  total : 4 * VoqSwq.ihl m + 4 * VoqSwq.dataOff m ≤ (totalLength m).toNat

/-- The first sixteen bytes of the TCP payload, if it has as many. -/
def payloadStart (m : Memory) : Option ℕ :=
  if 16 ≤ (totalLength m).toNat - (4 * ihl m + 4 * dataOff m) then
    some (tcpStart m + 4 * dataOff m)
  else none

/-- The four words at the given place, zero without one. -/
def tdaqWords (m : Memory) (start : Option ℕ) : BitVec 32 × BitVec 32 × BitVec 32 × BitVec 32 :=
  (start.elim 0 m.le32, start.elim 0 fun a => m.le32 (a + 4),
    start.elim 0 fun a => m.le32 (a + 8), start.elim 0 fun a => m.le32 (a + 12))

/-- The flow key has the addresses and ports of the packet and the first words of its
payload. -/
structure Extracts (m : Memory) (key : PipelineFlowKey) : Prop where
  sip : key.sip = m.le32 26
  dip : key.dip = m.le32 30
  sport : key.sport = m.le16 (tcpStart m)
  dport : key.dport = m.le16 (tcpStart m + 2)
  tdaq : (key.typeId, key.transactionId, key.size, key.eventId) = tdaqWords m (payloadStart m)

/-- Where the payload would start if the IP header had no options; the length of such a
payload may be negative. -/
def plainStart (m : Memory) : Option ℕ :=
  let h := 4 * ((m 46).toNat / 16)
  if 36 + h ≤ (totalLength m).toNat ∨ (totalLength m).toNat < 20 + h then some (34 + h) else none

/-- The bytes at the places of a header without options are those at the real places. -/
def Coincides (m : Memory) : Prop :=
  m.le16 34 = m.le16 (tcpStart m) ∧ m.le16 36 = m.le16 (tcpStart m + 2) ∧
    tdaqWords m (plainStart m) = tdaqWords m (payloadStart m)

lemma tdaqHdr_eq_plainStart (hproto : nextProtoId m = ipprotoTcp) : tdaqHdr m = plainStart m := by
  rw [tdaqHdr, if_pos hproto, plainStart]
  refine if_congr ?_ ?_ rfl
  · rw [guard_iff, toNat_tcpHdrSize, sizeofIpv4Hdr, sizeofTdaqHdr]
    omega
  · rw [toNat_tcpHdrSize]
    rfl

lemma extracts_iff_coincides (hproto : nextProtoId m = ipprotoTcp) :
    Extracts m (pktMetadataFill m).flowKey ↔ Coincides m := by
  rw [flowKey_pktMetadataFill, tdaqHdr_eq_plainStart hproto]
  constructor
  · rintro ⟨-, -, hsport, hdport, htdaq⟩
    exact ⟨hsport, hdport, htdaq⟩
  · rintro ⟨hsport, hdport, htdaq⟩
    exact ⟨rfl, rfl, hsport, hdport, htdaq⟩

/-- Without options all places are the right ones. -/
lemma coincides_of_ihl (h : IsTcpFrame m) (hihl : ihl m = 5) : Coincides m := by
  have htcp : tcpStart m = 34 := by rw [tcpStart, hihl]
  refine ⟨by rw [htcp], by rw [htcp], ?_⟩
  have hstart : plainStart m = payloadStart m := by
    have htotal := h.total
    have hdata : dataOff m = (m 46).toNat / 16 := by rw [dataOff, htcp]
    rw [plainStart, payloadStart, htcp, hdata, hihl]
    rw [hdata, hihl] at htotal
    refine if_congr ?_ rfl rfl
    omega
  rw [hstart]

/-- A frame with an IP header of `n` words, an empty payload and source port 1. -/
def optionsFrame (n : ℕ) : Memory := fun a =>
  if a = 12 then 0x08
  else if a = 14 then BitVec.ofNat 8 (4 * 16 + n)
  else if a = 17 then BitVec.ofNat 8 (4 * n + 20)
  else if a = 23 then ipprotoTcp
  else if a = 14 + 4 * n then 1
  else if a = 14 + 4 * n + 12 then 0x50
  else 0

lemma optionsFrame_spec {n : ℕ} (h : 5 < n) (h' : n ≤ 15) : IsTcpFrame (optionsFrame n) ∧
    ihl (optionsFrame n) = n ∧ ¬ Coincides (optionsFrame n) := by
  have hihl : ihl (optionsFrame n) = n := by interval_cases n <;> rfl
  have htcp : tcpStart (optionsFrame n) = 14 + 4 * n := by rw [tcpStart, hihl]
  have hdata : dataOff (optionsFrame n) = 5 := by
    rw [dataOff, htcp]
    interval_cases n <;> rfl
  have htotal : (totalLength (optionsFrame n)).toNat = 4 * n + 20 := by interval_cases n <;> rfl
  refine ⟨⟨?_, ?_, by omega, rfl, by omega, by omega⟩, hihl, ?_⟩
  · interval_cases n <;> rfl
  · interval_cases n <;> rfl
  · rintro ⟨hsport, -⟩
    rw [htcp] at hsport
    revert hsport
    interval_cases n <;> decide

/-- **Extraction.**  The flow key of a TCP frame with an IP header of `n` words is the one of the
packet if and only if the header has no options or the bytes at the assumed places happen to be
those at the real ones.  So five words is the only length for which it is right on all
frames. -/
theorem extracts_iff {n : ℕ} (h : 5 ≤ n) (h' : n ≤ 15) :
    (∀ m, IsTcpFrame m → ihl m = n →
      (Extracts m (pktMetadataFill m).flowKey ↔ n = 5 ∨ Coincides m)) ∧
    ((∀ m, IsTcpFrame m → ihl m = n → Extracts m (pktMetadataFill m).flowKey) ↔ n = 5) := by
  refine ⟨?_, ?_, ?_⟩
  · intro m hm hihl
    rw [extracts_iff_coincides hm.proto]
    exact (or_iff_right_of_imp fun hn => coincides_of_ihl hm (hihl.trans hn)).symm
  · intro hall
    by_contra hne
    obtain ⟨hframe, hihl, hnot⟩ := optionsFrame_spec (by omega) h'
    exact hnot ((extracts_iff_coincides hframe.proto).mp (hall _ hframe hihl))
  · rintro rfl m hm hihl
    exact (extracts_iff_coincides hm.proto).mpr (coincides_of_ihl hm hihl)

theorem extracts_iff_six :
    (∀ m, IsTcpFrame m → ihl m = 6 →
      (Extracts m (pktMetadataFill m).flowKey ↔ 6 = 5 ∨ Coincides m)) ∧
    ((∀ m, IsTcpFrame m → ihl m = 6 → Extracts m (pktMetadataFill m).flowKey) ↔ 6 = 5) :=
  extracts_iff (by decide) (by decide)

/-- With one word of options the ports are read from the options. -/
theorem not_extracts : IsTcpFrame (optionsFrame 6) ∧
    ¬ Extracts (optionsFrame 6) (pktMetadataFill (optionsFrame 6)).flowKey := by
  obtain ⟨hframe, -, hnot⟩ := optionsFrame_spec (n := 6) (by decide) (by decide)
  exact ⟨hframe, fun h => hnot ((extracts_iff_coincides hframe.proto).mp h)⟩

end DaqSwitch.VoqSwq
