import DaqSwitch.Lib.Machine
import DaqSwitch.OqHwq.Grouping
import DaqSwitch.OqHwq.SendPackets

/-!
# The main loop

`main_loop` of `dp_oq_hwq.c`.  An iteration drains the buffers if the drain interval is over,
and then receives a burst from each rx queue of the lcore, groups its packets by destination
port and sends each group to its port.
-/

namespace DaqSwitch.OqHwq

open Lib Lib.Machine

variable {α : Type*} {rteMaxEthports : Fin (2 ^ 8)}

/-! ## The loop -/

namespace Lcore

/-- The drain of one port. -/
def drainPort (portid : ℕ) (s : Lcore α) : Option (Lcore α) :=
  if (s.qconf.txMbufs portid).len = 0 then some s
  else (s.sendBurst (s.qconf.txMbufs portid).len portid).map (·.setLen portid 0)

/-- The loop `for (j = 0; j < nb_rx; j += k)` over the groups of a burst, at most `fuel`
times.  The port parameter of `send_packetsx4` is a `uint8_t`. -/
def sendGroups (m : ℕ → α) (nbRx : ℕ) : ℕ → ℕ → Lcore α → Option (Lcore α)
  | 0, j, s => if j < nbRx then none else some s
  | fuel + 1, j, s =>
    if j < nbRx then
      let pn := s.dstPort j
      let k := s.pnum j
      if pn ≠ badPort then
        (s.sendPacketsx4 (pn.toNat % 2 ^ 8) m j k).bind (sendGroups m nbRx fuel (j + k))
      else sendGroups m nbRx fuel (j + k) { s with freed := s.freed ++ window m j k }
    else some s

/-- One round of `for (j = 0; j < nb_rx; j += k)`: the group from `j` on is sent, or freed if its
port is `BAD_PORT`. -/
def sendGroup (m : ℕ → α) (j : ℕ) (s : Lcore α) : Option (Lcore α) :=
  if s.dstPort j ≠ badPort then s.sendPacketsx4 ((s.dstPort j).toNat % 2 ^ 8) m j (s.pnum j)
  else some { s with freed := s.freed ++ window m j (s.pnum j) }

/-- One rx queue. -/
def rxQueue (b : Burst α rteMaxEthports) (s : Lcore α) : Option (Lcore α) :=
  if b.nbRx = 0 then some s
  else
    let g := groupPorts b.dst b.nbRx s.dstPort s.pnum
    sendGroups b.pktsBurst b.nbRx b.nbRx 0 { s with dstPort := g.dstPort, pnum := g.pnum }

/-- One iteration of `while (1)`. -/
def iteration (it : Iter α rteMaxEthports) (s : Lcore α) : Option (Lcore α) :=
  let s := { s with txRets := it.txRets }
  (if it.drain then run drainPort (List.range rteMaxEthports) s else some s).bind
    (run (fun i => rxQueue (it.rx i)) (List.range s.qconf.nRxQueue))

/-- Some iterations of `main_loop`. -/
def mainLoop (its : List (Iter α rteMaxEthports)) (s : Lcore α) : Option (Lcore α) :=
  if s.qconf.nRxQueue = 0 then some s else run iteration its s

/-- On entry: the buffers are empty and nothing has been sent.  The rest of the buffers and
the local arrays of `main_loop` hold anything. -/
def init (nRxQueue : ℕ) (txQueueId : ℕ → ℕ) (mTable : ℕ → ℕ → α) (dstPort : ℕ → BitVec 16)
    (pnum : ℕ → ℕ) : Lcore α where
  qconf := ⟨nRxQueue, txQueueId, fun port => ⟨0, mTable port⟩⟩
  dstPort := dstPort
  pnum := pnum
  accepted := fun _ _ => []
  freed := []
  txRets := []

end Lcore

/-! ## What was received -/

/-- The packets of a burst, each with its destination port. -/
def Burst.packets (b : Burst α rteMaxEthports) : List (ℕ × α) :=
  window (fun j => ((b.dst j).toNat, b.pktsBurst j)) 0 b.nbRx

def Iter.packets (nRxQueue : ℕ) (it : Iter α rteMaxEthports) : List (ℕ × α) :=
  (List.range nRxQueue).flatMap fun i => (it.rx i).packets

/-- `BAD_PORT - 1` is no destination, as the comment at `dlp` in the source says. -/
lemma Burst.dst_zero_ne (b : Burst α rteMaxEthports) (hnb : 0 < b.nbRx) :
    b.dst 0 ≠ badPort - 1 := by
  intro h0
  have := b.dst_lt_uint8 0 hnb
  rw [h0] at this
  revert this
  decide

/-! ## What the outputs gain -/

namespace Lcore

/-- The packets `xs` went to the ports they are for. -/
structure Gains (s : Lcore α) (xs : List (ℕ × α)) (t : Lcore α) : Prop where
  nRxQueue : t.qconf.nRxQueue = s.qconf.nRxQueue
  txQueueId : t.qconf.txQueueId = s.qconf.txQueueId
  output : ∀ port, t.output port = s.output port ++ demux xs port
  buffered : s.Buffered → t.Buffered

variable {s t u : Lcore α} {xs ys : List (ℕ × α)} {m : ℕ → α}

lemma Gains.refl (s : Lcore α) : Gains s [] s :=
  ⟨rfl, rfl, fun _ => (List.append_nil _).symm, id⟩

lemma Gains.trans (h : Gains s xs t) (h' : Gains t ys u) : Gains s (xs ++ ys) u := by
  refine ⟨h'.nRxQueue.trans h.nRxQueue, h'.txQueueId.trans h.txQueueId, ?_,
    h'.buffered ∘ h.buffered⟩
  intro port
  rw [h'.output, h.output, demux_append, List.append_assoc]

lemma Gives.gains {port : ℕ} {xs : List α} (h : Gives s port xs t) :
    Gains s (xs.map (Prod.mk port)) t := by
  refine ⟨h.nRxQueue, h.txQueueId, ?_, ?_⟩
  · intro p
    rcases eq_or_ne p port with rfl | hp
    · have hdemux : demux (xs.map (Prod.mk p)) p = xs := by
        rw [demux_of_eq (by simp)]
        simp
      rw [h.output, hdemux]
    · rw [h.toFrame.output hp, demux_of_ne (by simpa using fun _ _ => hp.symm), List.append_nil]
  · intro hs p
    rcases eq_or_ne p port with rfl | hp
    · exact h.len
    · rw [h.txMbufs p hp]
      exact hs p

lemma drainPort_gains {portid : ℕ} (h : drainPort portid s = some t) : Gains s [] t := by
  rw [drainPort] at h
  split at h
  · obtain rfl := Option.some_inj.mp h
    exact .refl s
  · obtain ⟨u, hu, rfl⟩ := Option.map_eq_some_iff.mp h
    exact (sendBurst_drain hu).gains

/-- The arrays `dst_port` and `pnum` describe the groups of a burst. -/
structure Cut (dst : ℕ → BitVec 16) (nbRx : ℕ) (s : Lcore α) : Prop where
  dstPort : ∀ i < nbRx, s.dstPort i = dst i
  run : ∀ h < nbRx, IsStart dst h → IsRun dst h (s.pnum h) nbRx

lemma Cut.frame {dst : ℕ → BitVec 16} {nbRx port : ℕ} (hcut : Cut dst nbRx s)
    (h : Frame port s t) : Cut dst nbRx t :=
  ⟨by rw [h.dstPort]; exact hcut.dstPort, by rw [h.pnum]; exact hcut.run⟩

/-- The loop while it runs. -/
lemma sendGroups_of_lt {nbRx j : ℕ} (hlt : j < nbRx) (fuel : ℕ) (s : Lcore α) :
    sendGroups m nbRx (fuel + 1) j s =
      (sendGroup m j s).bind (sendGroups m nbRx fuel (j + s.pnum j)) := by
  rw [sendGroups, if_pos hlt]
  by_cases hport : s.dstPort j ≠ badPort
  · simp only [sendGroup, if_pos hport]
  · simp only [sendGroup, if_neg hport, Option.bind_some]

/-- The group that the walk sends when it is at a start. -/
lemma Cut.sendGroups_succ {dst : ℕ → BitVec 16} {nbRx fuel j : ℕ} (hcut : Cut dst nbRx s)
    (hdst : ∀ i < nbRx, (dst i).toNat < 2 ^ 8) (hlt : j < nbRx) :
    sendGroups m nbRx (fuel + 1) j s =
      (s.sendPacketsx4 (dst j).toNat m j (s.pnum j)).bind
        (sendGroups m nbRx fuel (j + s.pnum j)) := by
  have hport := hdst j hlt
  have hbad : dst j ≠ badPort := by
    intro hbad
    rw [hbad] at hport
    revert hport
    decide
  rw [sendGroups_of_lt hlt, sendGroup, hcut.dstPort j hlt, if_pos hbad, Nat.mod_eq_of_lt hport]

lemma sendGroups_gains {dst : ℕ → BitVec 16} {nbRx fuel j : ℕ} (hnb : nbRx ≤ maxPktBurst)
    (hdst : ∀ i < nbRx, (dst i).toNat < 2 ^ 8) (hs : s.Buffered) (hcut : Cut dst nbRx s)
    (hj : j < nbRx → IsStart dst j) (h : sendGroups m nbRx fuel j s = some t) :
    Gains s (window (fun j => ((dst j).toNat, m j)) j (nbRx - j)) t := by
  -- `j` stays at the start of a run, and the sending of a group leaves the cut alone
  induction fuel generalizing j s with
  | zero =>
    rw [sendGroups] at h
    split at h
    · cases h
    · obtain rfl := Option.some_inj.mp h
      rw [Nat.sub_eq_zero_of_le (by omega)]
      exact .refl s
  | succ fuel ih =>
    rcases Nat.lt_or_ge j nbRx with hlt | hge
    · rw [hcut.sendGroups_succ hdst hlt] at h
      obtain ⟨u, hu, h⟩ := Option.bind_eq_some_iff.mp h
      have hrun := hcut.run j hlt (hj hlt)
      have hle := hrun.le
      have hgives := sendPacketsx4_gives (hs _) hrun.pos (by omega) hu
      have hrest := ih (hgives.gains.buffered hs) (hcut.frame hgives.toFrame)
        hrun.isStart_end h
      -- the packets of a run all carry the port of its start
      have hgroup : (window m j (s.pnum j)).map (Prod.mk (dst j).toNat) =
          window (fun j => ((dst j).toNat, m j)) j (s.pnum j) := by
        rw [map_window]
        exact window_congr fun i hi => by rw [Function.comp, hrun.eq i hi]
      have hall := hgives.gains.trans hrest
      rwa [hgroup, Nat.sub_add_eq, ← window_split (by omega)] at hall
    · rw [sendGroups, if_neg (by omega)] at h
      obtain rfl := Option.some_inj.mp h
      rw [Nat.sub_eq_zero_of_le hge]
      exact .refl s

/-- The grouping cuts a burst into its groups. -/
lemma Cut.groupPorts {b : Burst α rteMaxEthports} (hnb : 0 < b.nbRx) (s : Lcore α) :
    Cut b.dst b.nbRx { s with
      dstPort := (groupPorts b.dst b.nbRx s.dstPort s.pnum).dstPort
      pnum := (groupPorts b.dst b.nbRx s.dstPort s.pnum).pnum } := by
  obtain ⟨hc, hd⟩ := groupPorts_counted hnb (b.dst_zero_ne hnb) s.dstPort s.pnum
  exact ⟨hd, hc.run⟩

lemma rxQueue_gains {b : Burst α rteMaxEthports} (hs : s.Buffered) (h : rxQueue b s = some t) :
    Gains s b.packets t := by
  rw [rxQueue] at h
  split at h
  · next hnb =>
    obtain rfl := Option.some_inj.mp h
    rw [Burst.packets, hnb]
    exact .refl s
  · next hnb =>
    have hgains := sendGroups_gains b.nbRx_le b.dst_lt_uint8 (by exact hs)
      (Cut.groupPorts (Nat.pos_of_ne_zero hnb) s) (fun _ => isStart_zero) h
    exact ⟨hgains.nRxQueue, hgains.txQueueId, hgains.output, hgains.buffered⟩

/-- What an iteration receives goes to the ports it is for. -/
lemma iteration_gains {it : Iter α rteMaxEthports} (hs : s.Buffered)
    (h : iteration it s = some t) : Gains s (it.packets s.qconf.nRxQueue) t := by
  obtain ⟨u, hdrain, hrx⟩ := Option.bind_eq_some_iff.mp h
  have hu : Gains { s with txRets := it.txRets } [] u := by
    split at hdrain
    · refine run_rel (R := fun s t => Gains s [] t) Gains.refl (fun _ _ _ => Gains.trans)
        (fun _ _ _ _ => drainPort_gains) hdrain
    · obtain rfl := Option.some_inj.mp hdrain
      exact .refl _
  have hall : ∀ is v, run (fun i => rxQueue (it.rx i)) is u = some v →
      Gains u (is.flatMap fun i => (it.rx i).packets) v := by
    intro is v hv
    have hnone : Gains u (([] : List ℕ).flatMap fun i => (it.rx i).packets) u := .refl u
    refine run_history (I := fun past v => Gains u (past.flatMap fun i => (it.rx i).packets) v)
      ?_ hv hnone
    intro past i _ v w hvw hpast
    rw [List.flatMap_append, List.flatMap_singleton]
    exact hpast.trans (rxQueue_gains (hpast.buffered (hu.buffered hs)) hvw)
  have hgains := hu.trans (hall _ t hrx)
  exact ⟨hgains.nRxQueue, hgains.txQueueId, hgains.output, hgains.buffered⟩

lemma run_gains {its : List (Iter α rteMaxEthports)} (hs : s.Buffered)
    (h : run iteration its s = some t) :
    Gains s (its.flatMap (Iter.packets s.qconf.nRxQueue)) t := by
  have hnone : Gains s (([] : List (Iter α rteMaxEthports)).flatMap
    (Iter.packets s.qconf.nRxQueue)) s := .refl s
  refine run_history (I := fun past v => Gains s (past.flatMap (Iter.packets s.qconf.nRxQueue)) v)
    ?_ h hnone
  intro past it _ u v huv hpast
  have hnext := iteration_gains (hpast.buffered hs) huv
  rw [hpast.nRxQueue] at hnext
  rw [List.flatMap_append, List.flatMap_singleton]
  exact hpast.trans hnext

lemma buffered_init (nRxQueue : ℕ) (txQueueId : ℕ → ℕ) (mTable : ℕ → ℕ → α)
    (dstPort : ℕ → BitVec 16) (pnum : ℕ → ℕ) :
    (init nRxQueue txQueueId mTable dstPort pnum).Buffered :=
  fun _ => Nat.zero_lt_succ 31

/-- **Lossless output queueing.**  After any number of iterations, for each output port, what
its tx queue has accepted followed by what is in its buffer is what was received for it; and
the buffer is not full. -/
theorem mainLoop_lossless {nRxQueue : ℕ} {txQueueId : ℕ → ℕ} {mTable : ℕ → ℕ → α}
    {dstPort : ℕ → BitVec 16} {pnum : ℕ → ℕ} {its : List (Iter α rteMaxEthports)}
    (h : mainLoop its (init nRxQueue txQueueId mTable dstPort pnum) = some t) (port : ℕ) :
    t.accepted port (txQueueId port) ++
        window (t.qconf.txMbufs port).mTable 0 (t.qconf.txMbufs port).len =
      demux (its.flatMap (Iter.packets nRxQueue)) port ∧
    (t.qconf.txMbufs port).len < maxPktBurst := by
  have hinit := buffered_init nRxQueue txQueueId mTable dstPort pnum
  have hgains : Gains (init nRxQueue txQueueId mTable dstPort pnum)
      (its.flatMap (Iter.packets nRxQueue)) t := by
    rw [mainLoop] at h
    split at h
    · next hzero =>
      obtain rfl : nRxQueue = 0 := hzero
      obtain rfl := Option.some_inj.mp h
      have hnone : its.flatMap (Iter.packets 0) = [] :=
        List.flatMap_eq_nil_iff.mpr fun _ _ => rfl
      rw [hnone]
      exact .refl _
    · exact run_gains hinit h
  have hout := hgains.output port
  rw [output, hgains.txQueueId] at hout
  exact ⟨hout, hgains.buffered hinit port⟩

/-- Twenty packets for port 1 are sent directly, one for port 1 and four for port 2 are
buffered, and the buffers are drained. -/
def smallIts : List (Iter ℕ 32) :=
  [⟨false, fun _ => ⟨20, id, fun _ => 1, by decide, by decide⟩, [7, 0, 13]⟩,
    ⟨false, fun _ => ⟨5, id, fun j => if j = 0 then 1 else 2, by decide, by decide⟩, []⟩,
    ⟨true, fun _ => ⟨0, id, fun _ => 0, by decide, by decide⟩, [1, 3, 1]⟩]

lemma mainLoop_smallIts_isSome : (mainLoop smallIts (init 1 (fun _ => 0) (fun _ _ => 0)
    (fun _ => 0) fun _ => 0)).isSome := by decide +kernel

theorem mainLoop_lossless_small : ∃ t : Lcore ℕ, mainLoop smallIts (init 1 (fun _ => 0)
      (fun _ _ => 0) (fun _ => 0) fun _ => 0) = some t ∧
    t.accepted 2 0 ++ window (t.qconf.txMbufs 2).mTable 0 (t.qconf.txMbufs 2).len =
      demux (smallIts.flatMap (Iter.packets 1)) 2 ∧ (t.qconf.txMbufs 2).len < maxPktBurst := by
  obtain ⟨t, ht⟩ := Option.isSome_iff_exists.mp mainLoop_smallIts_isSome
  exact ⟨t, ht, mainLoop_lossless ht 2⟩

end Lcore

end DaqSwitch.OqHwq
