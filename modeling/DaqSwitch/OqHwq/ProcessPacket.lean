import DaqSwitch.Lib.Window
import DaqSwitch.Lib.Xmm
import DaqSwitch.OqHwq.Types

/-!
# The lookup of destination ports

`process_packet` of `dp_oq_hwq.c` looks up the destination port of one packet.
`processx4_step1` and `processx4_step2` look up four at once: if all four are IPv4 packets,
with one call of `rte_lpm_lookupx4`, and otherwise one after another.  Both ways lead to the
same ports.
-/

namespace DaqSwitch.OqHwq

open Lib Xmm

/-! ## Packets and tables -/

/-- A received packet: its flags, and its data from the Ethernet header on. -/
structure Mbuf where
  olFlags : BitVec 64
  data : Memory

/-- `sizeof(struct ether_hdr)`. -/
def etherHdrSize : ℕ := 14

/-- The offset of `dst_addr` in `struct ipv4_hdr`. -/
def dstAddrOffset : ℕ := 16

/-- `ipv4_hdr->dst_addr`, as it stands in memory. -/
def Mbuf.dstAddr (pkt : Mbuf) : BitVec 32 := pkt.data.le32 (etherHdrSize + dstAddrOffset)

/-- A table of the library: `rte_lpm_lookup`, which finds a next hop or fails, and the four
entries that `rte_lpm_lookupx4` stores in `hop`, given the addresses and the default. -/
structure Lpm where
  lookup : BitVec 32 → Option (BitVec 8)
  lookupx4 : Xmm → BitVec 16 → ℕ → BitVec 16

/-- `rte_lpm_lookupx4` is four calls of `rte_lpm_lookup`, with the default on a miss. -/
def Lpm.AgreesX4 (lpm : Lpm) : Prop :=
  ∀ (ip : Xmm) (defv : BitVec 16), ∀ i < fwdstep,
    lpm.lookupx4 ip defv i = ((lpm.lookup (u32 ip i)).map (BitVec.setWidth 16)).getD defv

/-! ## The functions

`hdr` is the flag `PKT_RX_IPV4_HDR` of the packet library. -/

section Functions

variable (hdr : BitVec 64) (lpm : Lpm)

def getDstPort (pkt : Mbuf) (dstIpv4 : BitVec 32) (portid : BitVec 8) : BitVec 16 :=
  let nextHop :=
    if pkt.olFlags &&& hdr ≠ 0 then
      match lpm.lookup dstIpv4 with
      | some nextHop => nextHop
      | none => portid
    else portid
  nextHop.setWidth 16

/-- The port that `process_packet` stores in `dst_port[0]`. -/
def processPacket (pkt : Mbuf) (portid : BitVec 8) : BitVec 16 :=
  getDstPort hdr lpm pkt (bswap32 pkt.dstAddr) portid

/-- `flag[0] &= ol_flags`, computed with 64 bits. -/
def andFlag (flag : BitVec 32) (olFlags : BitVec 64) : BitVec 32 :=
  (flag.setWidth 64 &&& olFlags).setWidth 32

/-- `dip` and `flag` for four packets. -/
def processx4Step1 (pkt : ℕ → Mbuf) : Xmm × BitVec 32 :=
  let x0 := (pkt 0).dstAddr
  let flag := ((pkt 0).olFlags &&& hdr).setWidth 32
  let x1 := (pkt 1).dstAddr
  let flag := andFlag flag (pkt 1).olFlags
  let x2 := (pkt 2).dstAddr
  let flag := andFlag flag (pkt 2).olFlags
  let x3 := (pkt 3).dstAddr
  let flag := andFlag flag (pkt 3).olFlags
  (setEpi32 x3 x2 x1 x0, flag)

/-- The array `dprt` after the lookup of four packets. -/
def processx4Step2 (dip : Xmm) (flag : BitVec 32) (portid : BitVec 8) (pkt : ℕ → Mbuf)
    (dprt : ℕ → BitVec 16) : ℕ → BitVec 16 :=
  let dip := shuffleEpi8 dip bswapMask
  if flag ≠ 0 then blit dprt 0 (window (lpm.lookupx4 dip (portid.setWidth 16)) 0 fwdstep)
  else
    blit dprt 0 [getDstPort hdr lpm (pkt 0) (u32 dip 0) portid,
      getDstPort hdr lpm (pkt 1) (u32 dip 1) portid,
      getDstPort hdr lpm (pkt 2) (u32 dip 2) portid,
      getDstPort hdr lpm (pkt 3) (u32 dip 3) portid]

end Functions

/-! ## Flags -/

variable {hdr : BitVec 64} {lpm : Lpm}

lemma andFlag_setWidth (x y : BitVec 64) : andFlag (x.setWidth 32) y = (x &&& y).setWidth 32 := by
  rw [andFlag]
  ext i hi
  simp [show i < 64 by omega]

lemma processx4Step1_flag (pkt : ℕ → Mbuf) :
    (processx4Step1 hdr pkt).2 = ((pkt 0).olFlags &&& hdr &&& (pkt 1).olFlags &&&
      (pkt 2).olFlags &&& (pkt 3).olFlags).setWidth 32 := by
  simp only [processx4Step1, andFlag_setWidth]

/-- A flag that is not zero has a bit of `hdr` that all four packets have. -/
lemma ipv4_of_flag {pkt : ℕ → Mbuf} (hflag : (processx4Step1 hdr pkt).2 ≠ 0) {i : ℕ}
    (hi : i < fwdstep) : (pkt i).olFlags &&& hdr ≠ 0 := by
  intro hzero
  apply hflag
  rw [processx4Step1_flag]
  -- a bit that is set in the conjunction is set in each part of it
  ext b hb
  have hbit := congrArg (·.getLsbD b) hzero
  rw [fwdstep] at hi
  interval_cases i <;> simp at hbit ⊢ <;> grind

/-! ## The two ways agree -/

/-- The port of an IPv4 packet is what the table says, or the input port. -/
lemma getDstPort_of_ipv4 {pkt : Mbuf} (h : pkt.olFlags &&& hdr ≠ 0) (dstIpv4 : BitVec 32)
    (portid : BitVec 8) : getDstPort hdr lpm pkt dstIpv4 portid =
      ((lpm.lookup dstIpv4).map (BitVec.setWidth 16)).getD (portid.setWidth 16) := by
  rw [getDstPort, if_pos h]
  cases lpm.lookup dstIpv4 <;> rfl

/-- The words of `dip` after the byte swap are the addresses in host order. -/
lemma u32_shuffle_dip (pkt : ℕ → Mbuf) {i : ℕ} (hi : i < fwdstep) :
    u32 (shuffleEpi8 (processx4Step1 hdr pkt).1 bswapMask) i = bswap32 (pkt i).dstAddr := by
  rw [fwdstep] at hi
  rw [processx4Step1, u32_shuffle_bswapMask _ _ _ _ hi]
  interval_cases i <;> rfl

/-- What the two steps store, as one write. -/
lemma processx4_store (hlpm : lpm.AgreesX4) (hdr : BitVec 64) (pkt : ℕ → Mbuf)
    (portid : BitVec 8) (dprt : ℕ → BitVec 16) :
    processx4Step2 hdr lpm (processx4Step1 hdr pkt).1 (processx4Step1 hdr pkt).2 portid pkt
      dprt = blit dprt 0 (window (fun i => processPacket hdr lpm (pkt i) portid) 0 fwdstep) := by
  have hu32 : ∀ i < fwdstep, getDstPort hdr lpm (pkt i)
      (u32 (shuffleEpi8 (processx4Step1 hdr pkt).1 bswapMask) i) portid =
        processPacket hdr lpm (pkt i) portid := by
    intro i hi
    rw [u32_shuffle_dip pkt hi, processPacket]
  rw [processx4Step2]
  generalize shuffleEpi8 (processx4Step1 hdr pkt).1 bswapMask = dip at hu32 ⊢
  split
  · next hflag =>
    congr 1
    refine window_congr ?_
    intro i hi
    rw [Nat.zero_add, hlpm _ _ i hi, ← hu32 i hi, getDstPort_of_ipv4 (ipv4_of_flag hflag hi)]
  · rw [hu32 0 (by decide), hu32 1 (by decide), hu32 2 (by decide), hu32 3 (by decide)]
    rfl

/-- **Vector and scalar lookup.**  The lookup of four packets stores for each of them the port
that the lookup of this packet alone computes. -/
theorem processx4_eq_processPacket (hlpm : lpm.AgreesX4) (hdr : BitVec 64) (pkt : ℕ → Mbuf)
    (portid : BitVec 8) (dprt : ℕ → BitVec 16) {i : ℕ} (hi : i < fwdstep) :
    processx4Step2 hdr lpm (processx4Step1 hdr pkt).1 (processx4Step1 hdr pkt).2 portid pkt
      dprt i = processPacket hdr lpm (pkt i) portid := by
  have hstore := blit_window dprt 0 (fun i => processPacket hdr lpm (pkt i) portid) 0 hi
  rw [processx4_store hlpm]
  simpa only [Nat.zero_add] using hstore

/-- A table with one route, 10.0.0.0/8 to port 3. -/
def oneRoute : Lpm where
  lookup ip := if ip.extractLsb' 24 8 = 10 then some 3 else none
  lookupx4 ip defv i := if (u32 ip i).extractLsb' 24 8 = 10 then 3 else defv

/-- A packet for 10.0.0.`host`. -/
def packetFor (olFlags : BitVec 64) (host : BitVec 8) : Mbuf where
  olFlags := olFlags
  data a := ([10, 0, 0, host] : List (BitVec 8)).getD (a - 30) 0

/-- The theorem for four packets, of which the last is no IPv4 packet. -/
theorem processx4_eq_processPacket_mixed : oneRoute.AgreesX4 ∧ 3 < fwdstep ∧
    let pkt i := packetFor (if i < 3 then 0x22 else 0x02) (BitVec.ofNat 8 i)
    let x := processx4Step1 0x20 pkt
    processx4Step2 0x20 oneRoute x.1 x.2 7 pkt (fun _ => badPort) 3 =
      processPacket 0x20 oneRoute (pkt 3) 7 := by
  have hroute : oneRoute.AgreesX4 := by
    intro ip defv i hi
    simp only [oneRoute]
    split <;> rfl
  exact ⟨hroute, by decide, processx4_eq_processPacket hroute _ _ _ _ (by decide)⟩

example : processPacket 0x20 oneRoute (packetFor 0x22 1) 7 = 3 := by decide

/-! ## The groups of a burst -/

/-- The two steps on the packets from entry `4 * g` of `pkts_burst` on, which store into
`dst_port` from entry `4 * g` on. -/
def lookupGroup (hdr : BitVec 64) (lpm : Lpm) (pktsBurst : ℕ → Mbuf) (portid : BitVec 8)
    (dstPort : ℕ → BitVec 16) (g : ℕ) : ℕ → BitVec 16 :=
  let j := g * fwdstep
  let pkt := fun i => pktsBurst (j + i)
  let x := processx4Step1 hdr pkt
  let dprt := processx4Step2 hdr lpm x.1 x.2 portid pkt fun i => dstPort (j + i)
  fun i => if j ≤ i then dprt (i - j) else dstPort i

lemma lookupGroup_eq (hlpm : lpm.AgreesX4) (hdr : BitVec 64) (pktsBurst : ℕ → Mbuf)
    (portid : BitVec 8) (dstPort : ℕ → BitVec 16) (g : ℕ) :
    lookupGroup hdr lpm pktsBurst portid dstPort g = blit dstPort (g * fwdstep)
      (window (fun i => processPacket hdr lpm (pktsBurst i) portid) (g * fwdstep) fwdstep) := by
  rw [lookupGroup]
  funext i
  simp only [processx4_store hlpm, blit, Nat.zero_le, if_true, Nat.sub_zero,
    window_comp_add (fun i => processPacket hdr lpm (pktsBurst i) portid)]
  split
  · next hi => rw [Nat.add_sub_cancel' hi]
  · rfl

/-- The lookups of the first `n` groups fill `dst_port` with the ports that `process_packet`
computes, one packet after another. -/
theorem lookupGroups_eq (hlpm : lpm.AgreesX4) (hdr : BitVec 64) (pktsBurst : ℕ → Mbuf)
    (portid : BitVec 8) (dstPort : ℕ → BitVec 16) (n : ℕ) :
    (List.range n).foldl (lookupGroup hdr lpm pktsBurst portid) dstPort = blit dstPort 0
      (window (fun i => processPacket hdr lpm (pktsBurst i) portid) 0 (n * fwdstep)) := by
  induction n with
  | zero =>
    funext i
    simp [blit]
  | succ n ih =>
    rw [List.range_succ, List.foldl_append, ih, List.foldl_cons, List.foldl_nil,
      lookupGroup_eq hlpm, Nat.succ_mul, window_add, blit_append, length_window, Nat.zero_add]

end DaqSwitch.OqHwq
