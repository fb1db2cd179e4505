import DaqSwitch.Lib.Window

/-!
# Sending to a daqring

`__netdev_dpdk_daqring_send` of the Open vSwitch patch.  A packet is the pointer to it; the
function takes over the packets of the burst, and each of them should end up either in the
ring or deleted.
-/

namespace DaqSwitch.Ovs

open Lib

/-! ## The function -/

/-- What the function reads and writes: packet fields by pointer, the sub-rings of the device
by NUMA node, the counters of the device, and the record of the deleted packets. -/
structure Netdev where
  rssHash : ℕ → BitVec 32
  recircId : ℕ → BitVec 32
  subring : ℕ → List ℕ
  deleted : List ℕ
  txPackets : BitVec 64
  txDropped : BitVec 64

namespace Netdev

/-- The body of the first loop: `dp_packet_set_rss_hash(pkt, 0)` and `recirc_id++`. -/
def reset (s : Netdev) (pkt : ℕ) : Netdev :=
  { s with
    rssHash := Function.update s.rssHash pkt 0
    recircId := Function.update s.recircId pkt (s.recircId pkt + 1) }

/-- `rte_ring_enqueue_burst`: the first `nbEnq` packets of the array go into the ring. -/
def enqueueBurst (s : Netdev) (subringId : ℕ) (pkts : ℕ → ℕ) (nbEnq : ℕ) : Netdev :=
  let ring := s.subring subringId ++ window pkts 0 nbEnq
  { s with subring := Function.update s.subring subringId ring }

/-- `dp_packet_delete`. -/
def delete (s : Netdev) (pkt : ℕ) : Netdev := { s with deleted := s.deleted ++ [pkt] }

/-- The body of the drop loop, with the local `dropped`. -/
def drop (s : Netdev × ℕ) (pkt : ℕ) : Netdev × ℕ := (s.1.delete pkt, s.2 + 1)

/-- `__netdev_dpdk_daqring_send` on the sub-ring of the lcore's socket, when the ring accepts
`nbEnq` of the `cnt` packets. -/
def _netdevDpdkDaqringSend (s : Netdev) (subringId : ℕ) (pkts : ℕ → ℕ) (cnt : ℕ) (maySteal : Bool)
    (nbEnq : ℕ) : Netdev :=
  let s := (window pkts 0 cnt).foldl reset s
  let s := s.enqueueBurst subringId pkts nbEnq
  let s := { s with txPackets := s.txPackets + BitVec.ofNat 64 nbEnq }
  if maySteal then
    -- the loop runs over pkts[0 .. cnt - nb_enq)
    let d := (window pkts 0 (cnt - nbEnq)).foldl drop (s, 0)
    if d.2 ≠ 0 then { d.1 with txDropped := d.1.txDropped + BitVec.ofNat 64 d.2 } else d.1
  else s

end Netdev

/-! ## Fates of the packets -/

/-- The packets of a burst are the caller's: distinct, not in the sub-ring and not deleted. -/
structure Owned (s : Netdev) (subringId : ℕ) (burst : List ℕ) : Prop where
  nodup : burst.Nodup
  notQueued : ∀ pkt ∈ burst, pkt ∉ s.subring subringId
  notDeleted : ∀ pkt ∈ burst, pkt ∉ s.deleted

/-- Every packet of the burst is in the sub-ring once or was deleted once, not both, and the
counters have grown by the numbers of packets with either fate. -/
structure Fates (subringId : ℕ) (burst : List ℕ) (s t : Netdev) : Prop where
  fate : ∀ pkt ∈ burst,
    (t.subring subringId).count pkt = 1 ∧ t.deleted.count pkt = 0 ∨
      (t.subring subringId).count pkt = 0 ∧ t.deleted.count pkt = 1
  txPackets : t.txPackets =
    s.txPackets + BitVec.ofNat 64 (burst.countP fun pkt => decide (pkt ∈ t.subring subringId))
  txDropped : t.txDropped =
    s.txDropped + BitVec.ofNat 64 (burst.countP fun pkt => decide (pkt ∈ t.deleted))

variable {s : Netdev} {subringId : ℕ} {pkts : ℕ → ℕ} {cnt nbEnq : ℕ}

/-- The first loop only writes the fields of the packets. -/
lemma foldl_reset (burst : List ℕ) (s : Netdev) :
    (burst.foldl Netdev.reset s).subring = s.subring ∧
      (burst.foldl Netdev.reset s).deleted = s.deleted ∧
      (burst.foldl Netdev.reset s).txPackets = s.txPackets ∧
      (burst.foldl Netdev.reset s).txDropped = s.txDropped := by
  induction burst generalizing s with
  | nil => exact ⟨rfl, rfl, rfl, rfl⟩
  | cons pkt burst ih => exact ih (s.reset pkt)

/-- The drop loop deletes the packets it goes over and counts them. -/
lemma foldl_drop (burst : List ℕ) (s : Netdev) (n : ℕ) :
    burst.foldl Netdev.drop (s, n) =
      ({ s with deleted := s.deleted ++ burst }, n + burst.length) := by
  induction burst generalizing s n with
  | nil => simp
  | cons pkt burst ih =>
    rw [List.foldl_cons, Netdev.drop, ih]
    simp only [Netdev.delete, List.append_assoc, List.singleton_append, List.length_cons,
      Prod.mk.injEq, true_and]
    omega

/-- What the function does to the rings, the deleted packets and the counters. -/
lemma daqringSend_spec (s : Netdev) (subringId : ℕ) (pkts : ℕ → ℕ) (cnt nbEnq : ℕ) :
    (s._netdevDpdkDaqringSend subringId pkts cnt true nbEnq).subring subringId =
        s.subring subringId ++ window pkts 0 nbEnq ∧
      (s._netdevDpdkDaqringSend subringId pkts cnt true nbEnq).deleted =
        s.deleted ++ window pkts 0 (cnt - nbEnq) ∧
      (s._netdevDpdkDaqringSend subringId pkts cnt true nbEnq).txPackets =
        s.txPackets + BitVec.ofNat 64 nbEnq ∧
      (s._netdevDpdkDaqringSend subringId pkts cnt true nbEnq).txDropped =
        s.txDropped + BitVec.ofNat 64 (cnt - nbEnq) := by
  obtain ⟨hring, hdel, htx, hdrop⟩ := foldl_reset (window pkts 0 cnt) s
  simp only [Netdev._netdevDpdkDaqringSend, if_true, foldl_drop, length_window, Nat.zero_add]
  split
  · simp [Netdev.enqueueBurst, hring, hdel, htx, hdrop]
  · next hzero =>
    -- nothing was dropped, and the counter is not touched
    have hzero : cnt - nbEnq = 0 := by simpa using hzero
    simp [Netdev.enqueueBurst, hring, hdel, htx, hdrop, hzero]

lemma countP_eq_length {burst xs : List ℕ} (h : ∀ pkt ∈ burst, pkt ∈ xs) :
    burst.countP (fun pkt => decide (pkt ∈ xs)) = burst.length :=
  List.countP_eq_length.mpr fun pkt hpkt => by simpa using h pkt hpkt

lemma countP_eq_zero {burst xs : List ℕ} (h : ∀ pkt ∈ burst, pkt ∉ xs) :
    burst.countP (fun pkt => decide (pkt ∈ xs)) = 0 :=
  List.countP_eq_zero.mpr fun pkt hpkt => by simpa using h pkt hpkt

/-- **Fates of the packets.**  The drop loop starts at the front of the burst, where the
packets are that the ring has taken, so each packet has one fate if and only if the ring
takes nothing or everything. -/
theorem daqringSend_fates_iff (hown : Owned s subringId (window pkts 0 cnt)) (hle : nbEnq ≤ cnt) :
    Fates subringId (window pkts 0 cnt) s (s._netdevDpdkDaqringSend subringId pkts cnt true nbEnq) ↔
      nbEnq = 0 ∨ nbEnq = cnt := by
  obtain ⟨hring, hdel, htx, hdrop⟩ := daqringSend_spec s subringId pkts cnt nbEnq
  have hone : ∀ pkt ∈ window pkts 0 cnt, (window pkts 0 cnt).count pkt = 1 := fun pkt hpkt =>
    List.count_eq_one_of_mem hown.nodup hpkt
  have hq : ∀ pkt ∈ window pkts 0 cnt, (s.subring subringId).count pkt = 0 := fun pkt hpkt =>
    List.count_eq_zero.mpr (hown.notQueued pkt hpkt)
  have hd : ∀ pkt ∈ window pkts 0 cnt, s.deleted.count pkt = 0 := fun pkt hpkt =>
    List.count_eq_zero.mpr (hown.notDeleted pkt hpkt)
  constructor
  · intro hf
    by_contra hpart
    -- the first packet is taken by the ring and deleted
    have hmem : pkts 0 ∈ window pkts 0 cnt := mem_window.mpr ⟨0, by omega, rfl⟩
    have hin : 0 < (window pkts 0 nbEnq).count (pkts 0) :=
      List.count_pos_iff.mpr (mem_window.mpr ⟨0, by omega, rfl⟩)
    have hout : 0 < (window pkts 0 (cnt - nbEnq)).count (pkts 0) :=
      List.count_pos_iff.mpr (mem_window.mpr ⟨0, by omega, rfl⟩)
    have hfate := hf.fate (pkts 0) hmem
    rw [hring, hdel, List.count_append, List.count_append] at hfate
    omega
  · rintro (rfl | rfl)
    · rw [window_zero, List.append_nil] at hring
      rw [Nat.sub_zero] at hdel hdrop
      refine ⟨fun pkt hpkt => Or.inr ?_, ?_, ?_⟩
      · rw [hring, hdel, List.count_append, hq pkt hpkt, hd pkt hpkt, hone pkt hpkt]
        exact ⟨rfl, rfl⟩
      · rw [htx, hring, countP_eq_zero hown.notQueued]
      · rw [hdrop, hdel, countP_eq_length fun pkt hpkt => List.mem_append_right _ hpkt,
          length_window]
    · rw [Nat.sub_self] at hdrop
      rw [Nat.sub_self, window_zero, List.append_nil] at hdel
      refine ⟨fun pkt hpkt => Or.inl ?_, ?_, ?_⟩
      · rw [hring, hdel, List.count_append, hq pkt hpkt, hd pkt hpkt, hone pkt hpkt]
        exact ⟨rfl, rfl⟩
      · rw [htx, hring, countP_eq_length fun pkt hpkt => List.mem_append_right _ hpkt,
          length_window]
      · rw [hdrop, hdel, countP_eq_zero hown.notDeleted]

/-- A device with empty sub-rings. -/
def Netdev.idle : Netdev := ⟨fun _ => 0, fun _ => 0, fun _ => [], [], 0, 0⟩

lemma owned_idle : Owned Netdev.idle 0 (window id 0 2) := by
  refine ⟨by decide, ?_, ?_⟩
  · intro pkt _ h
    cases h
  · intro pkt _ h
    cases h

theorem daqringSend_fates_two :
    Fates 0 (window id 0 2) Netdev.idle (Netdev.idle._netdevDpdkDaqringSend 0 id 2 true 2) ↔
      2 = 0 ∨ 2 = 2 :=
  daqringSend_fates_iff owned_idle le_rfl

/-- Of two packets the ring takes the first; the first is deleted and the second leaks. -/
theorem daqringSend_partial : Owned Netdev.idle 0 (window id 0 2) ∧
    (Netdev.idle._netdevDpdkDaqringSend 0 id 2 true 1).subring 0 = [0] ∧
    (Netdev.idle._netdevDpdkDaqringSend 0 id 2 true 1).deleted = [0] ∧
    ¬ Fates 0 (window id 0 2) Netdev.idle (Netdev.idle._netdevDpdkDaqringSend 0 id 2 true 1) := by
  have hring : (Netdev.idle._netdevDpdkDaqringSend 0 id 2 true 1).subring 0 = [0] := by decide
  have hdel : (Netdev.idle._netdevDpdkDaqringSend 0 id 2 true 1).deleted = [0] := by decide
  refine ⟨owned_idle, hring, hdel, ?_⟩
  intro hf
  have := hf.fate 0 (by decide)
  rw [hring, hdel] at this
  revert this
  decide

end DaqSwitch.Ovs
