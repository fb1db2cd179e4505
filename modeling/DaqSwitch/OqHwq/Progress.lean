import DaqSwitch.OqHwq.MainLoop

/-!
# The loops of the output-queued data path end

The transmit functions repeat `rte_eth_tx_burst` until everything is accepted.  When each
call accepts a packet, every iteration of `main_loop` ends.
-/

namespace DaqSwitch.OqHwq

open Lib Lib.Machine

variable {α : Type*} {rteMaxEthports : Fin (2 ^ 8)}

lemma txLoop_total {m : ℕ → α} {rets : List ℕ} (hpos : ∀ r ∈ rets, 0 < r) {n c : ℕ}
    (hn : n + c ≤ rets.length) (off : ℕ) (queue : List α) :
    ∃ x, txLoop m rets off n queue = some x ∧ (∀ r ∈ x.2, 0 < r) ∧ c ≤ x.2.length := by
  induction rets generalizing off n queue with
  | nil =>
    obtain rfl : n = 0 := by simp at hn; omega
    exact ⟨_, rfl, hpos, by simpa using hn⟩
  | cons r rets ih =>
    cases n with
    | zero => exact ⟨_, rfl, hpos, by simpa using hn⟩
    | succ n =>
      have hr := hpos r List.mem_cons_self
      rw [List.length_cons] at hn
      exact ih (fun r hr => hpos r (List.mem_cons_of_mem _ hr)) (by omega) _ _

namespace Lcore

/-- The coming `n` calls of `rte_eth_tx_burst` each accept a packet. -/
def Accepting (s : Lcore α) (n : ℕ) : Prop := (∀ r ∈ s.txRets, 0 < r) ∧ n ≤ s.txRets.length

variable {s : Lcore α} {m : ℕ → α} {n c : ℕ}

lemma Accepting.mono (h : s.Accepting n) (hc : c ≤ n) : s.Accepting c := ⟨h.1, hc.trans h.2⟩

lemma txAll_total (h : s.Accepting (n + c)) (port off : ℕ) :
    ∃ t, s.txAll port m off n = some t ∧ t.Accepting c := by
  obtain ⟨x, hx, hpos, hlen⟩ := txLoop_total (m := m) h.1 h.2 off
    (s.accepted port (s.qconf.txQueueId port))
  exact ⟨s.setQueue port x.1 x.2, Option.map_eq_some_iff.mpr ⟨x, hx, rfl⟩, hpos, hlen⟩

lemma drainPort_total (hs : s.Buffered) (h : s.Accepting (maxPktBurst + c)) (portid : ℕ) :
    ∃ t, drainPort portid s = some t ∧ t.Accepting c := by
  rw [drainPort]
  split
  · exact ⟨s, rfl, h.mono (Nat.le_add_left c maxPktBurst)⟩
  · have hlen := (hs portid).le
    obtain ⟨t, ht, hacc⟩ := txAll_total (m := (s.qconf.txMbufs portid).mTable)
      (h.mono (Nat.add_le_add_right hlen c)) portid 0
    exact ⟨t.setLen portid 0, Option.map_eq_some_iff.mpr ⟨t, ht, rfl⟩, hacc⟩

lemma sendPacketsx4_total {port off num : ℕ} (hnum : num ≤ maxPktBurst)
    (h : s.Accepting (maxPktBurst + c)) :
    ∃ t, s.sendPacketsx4 port m off num = some t ∧ t.Accepting c := by
  rw [sendPacketsx4]
  split
  · exact txAll_total (h.mono (Nat.add_le_add_right hnum c)) port off
  · simp only
    generalize (if (s.qconf.txMbufs port).len + num > maxPktBurst then
      maxPktBurst - (s.qconf.txMbufs port).len else num) = k
    split
    · have hcopy : (s.copyIn port (s.qconf.txMbufs port).len m off k).Accepting
        (maxPktBurst + c) := h
      obtain ⟨t, ht, hacc⟩ := txAll_total hcopy port 0
      exact ⟨_, Option.map_eq_some_iff.mpr ⟨t, ht, rfl⟩, hacc⟩
    · exact ⟨_, rfl, h.mono (Nat.le_add_left c maxPktBurst)⟩

/-- The walk over the groups of a burst ends: each group has a packet. -/
lemma sendGroups_total {dst : ℕ → BitVec 16} {nbRx fuel j : ℕ} (hnb : nbRx ≤ maxPktBurst)
    (hdst : ∀ i < nbRx, (dst i).toNat < 2 ^ 8) (hs : s.Buffered) (hcut : Cut dst nbRx s)
    (hj : j < nbRx → IsStart dst j) (hfuel : nbRx - j ≤ fuel)
    (h : s.Accepting ((nbRx - j) * maxPktBurst + c)) :
    ∃ t, sendGroups m nbRx fuel j s = some t ∧ t.Accepting c := by
  induction fuel generalizing j s with
  | zero =>
    rw [sendGroups, if_neg (by omega)]
    exact ⟨s, rfl, h.mono (Nat.le_add_left c _)⟩
  | succ fuel ih =>
    rcases Nat.lt_or_ge j nbRx with hlt | hge
    · have hrun := hcut.run j hlt (hj hlt)
      have hle := hrun.le
      have hpos := hrun.pos
      -- one group takes at most a burst of calls
      have hspend : (nbRx - j) * maxPktBurst =
          maxPktBurst + (nbRx - j - 1) * maxPktBurst := by
        rw [Nat.sub_one_mul, Nat.add_sub_cancel' (Nat.le_mul_of_pos_left _ (by omega))]
      rw [hspend, Nat.add_assoc] at h
      have hnum : s.pnum j ≤ maxPktBurst := by omega
      obtain ⟨u, hu, hacc⟩ := sendPacketsx4_total (m := m) hnum h
      have hgives := sendPacketsx4_gives (hs _) hpos hnum hu
      obtain ⟨t, ht, htacc⟩ := ih (hgives.gains.buffered hs) (hcut.frame hgives.toFrame)
        hrun.isStart_end (by omega)
        (hacc.mono (Nat.add_le_add_right (Nat.mul_le_mul_right _ (by omega)) c))
      exact ⟨t, by rw [hcut.sendGroups_succ hdst hlt, hu]; exact ht, htacc⟩
    · rw [sendGroups, if_neg (by omega)]
      exact ⟨s, rfl, h.mono (Nat.le_add_left c _)⟩

lemma rxQueue_total (b : Burst α rteMaxEthports) (hs : s.Buffered)
    (h : s.Accepting (maxPktBurst * maxPktBurst + c)) :
    ∃ t, rxQueue b s = some t ∧ t.Accepting c := by
  rw [rxQueue]
  split
  · exact ⟨s, rfl, h.mono (Nat.le_add_left c _)⟩
  · next hnb =>
    have hle : b.nbRx * maxPktBurst + c ≤ maxPktBurst * maxPktBurst + c :=
      Nat.add_le_add_right (Nat.mul_le_mul_right _ b.nbRx_le) c
    exact sendGroups_total b.nbRx_le b.dst_lt_uint8 (by exact hs)
      (Cut.groupPorts (Nat.pos_of_ne_zero hnb) s) (fun _ => isStart_zero) (Nat.sub_le _ _)
      (h.mono hle)

/-- A loop ends when each of its passes ends after a bounded number of calls. -/
lemma run_total_accepting {β : Type*} (step : β → Lcore α → Option (Lcore α)) (k : ℕ)
    (hstep : ∀ b s c, s.Buffered → s.Accepting (k + c) →
      ∃ t, step b s = some t ∧ t.Buffered ∧ t.Accepting c) (bs : List β)
    (hs : s.Buffered) (h : s.Accepting (bs.length * k + c)) :
    ∃ t, run step bs s = some t ∧ t.Buffered ∧ t.Accepting c := by
  have hpass : ∀ b bs s, s.Buffered ∧ s.Accepting ((b :: bs : List β).length * k + c) →
      ∃ t, step b s = some t ∧ t.Buffered ∧ t.Accepting (bs.length * k + c) := by
    rintro b bs s ⟨hs, h⟩
    rw [List.length_cons, Nat.succ_mul, Nat.add_comm _ k, Nat.add_assoc] at h
    exact hstep b s _ hs h
  obtain ⟨t, ht, htb, hacc⟩ := run_total_rest
    (I := fun bs (s : Lcore α) => s.Buffered ∧ s.Accepting (bs.length * k + c)) hpass ⟨hs, h⟩
  rw [List.length_nil, Nat.zero_mul, Nat.zero_add] at hacc
  exact ⟨t, ht, htb, hacc⟩

/-- An iteration ends when each call of the transmit function accepts a packet. -/
lemma iteration_total {it : Iter α rteMaxEthports} (hs : s.Buffered)
    (hpos : ∀ r ∈ it.txRets, 0 < r)
    (hlen : rteMaxEthports * maxPktBurst + s.qconf.nRxQueue * (maxPktBurst * maxPktBurst) ≤
      it.txRets.length) : ∃ t, iteration it s = some t := by
  have hacc : ({ s with txRets := it.txRets } : Lcore α).Accepting (rteMaxEthports * maxPktBurst +
      s.qconf.nRxQueue * (maxPktBurst * maxPktBurst)) := ⟨hpos, hlen⟩
  have hdrain : ∃ u, (if it.drain then run drainPort (List.range rteMaxEthports)
      { s with txRets := it.txRets } else some { s with txRets := it.txRets }) = some u ∧
      u.Buffered ∧ u.Accepting (s.qconf.nRxQueue * (maxPktBurst * maxPktBurst)) := by
    split
    · refine run_total_accepting drainPort maxPktBurst ?_ _ hs
        (by rwa [List.length_range])
      intro portid s c hs h
      obtain ⟨t, ht, hacc⟩ := drainPort_total hs h portid
      exact ⟨t, ht, (drainPort_gains ht).buffered hs, hacc⟩
    · exact ⟨_, rfl, hs, hacc.mono (Nat.le_add_left _ _)⟩
  obtain ⟨u, hu, hub, huacc⟩ := hdrain
  obtain ⟨t, ht, -⟩ := run_total_accepting (c := 0) (fun i => rxQueue (it.rx i))
    (maxPktBurst * maxPktBurst) (fun i s c hs h => by
      obtain ⟨t, ht, hacc⟩ := rxQueue_total (it.rx i) hs h
      exact ⟨t, ht, (rxQueue_gains hs ht).buffered hs, hacc⟩)
    (List.range s.qconf.nRxQueue) hub (by rwa [List.length_range, Nat.add_zero])
  exact ⟨t, Option.bind_eq_some_iff.mpr ⟨u, hu, ht⟩⟩

/-- **Every run ends.**  When in each iteration each call of the transmit function accepts a
packet, `main_loop` goes through all iterations. -/
theorem mainLoop_total {its : List (Iter α rteMaxEthports)} {nRxQueue : ℕ}
    (hpos : ∀ it ∈ its, ∀ r ∈ it.txRets, 0 < r)
    (hlen : ∀ it ∈ its, rteMaxEthports * maxPktBurst + nRxQueue * (maxPktBurst * maxPktBurst) ≤
      it.txRets.length) (txQueueId : ℕ → ℕ) (mTable : ℕ → ℕ → α) (dstPort : ℕ → BitVec 16)
    (pnum : ℕ → ℕ) : ∃ t, mainLoop its (init nRxQueue txQueueId mTable dstPort pnum) = some t := by
  have hstep : ∀ it ∈ its, ∀ s : Lcore α, s.Buffered ∧ s.qconf.nRxQueue = nRxQueue →
      ∃ t, iteration it s = some t ∧ t.Buffered ∧ t.qconf.nRxQueue = nRxQueue := by
    rintro it hit s ⟨hs, rfl⟩
    obtain ⟨t, ht⟩ := iteration_total hs (hpos it hit) (hlen it hit)
    have hgains := iteration_gains hs ht
    exact ⟨t, ht, hgains.buffered hs, hgains.nRxQueue⟩
  rw [mainLoop]
  split
  · exact ⟨_, rfl⟩
  · obtain ⟨t, ht, -⟩ := run_total
      (I := fun s : Lcore α => s.Buffered ∧ s.qconf.nRxQueue = nRxQueue) hstep
      ⟨buffered_init nRxQueue txQueueId mTable dstPort pnum, rfl⟩
    exact ⟨t, ht⟩

end Lcore

end DaqSwitch.OqHwq
