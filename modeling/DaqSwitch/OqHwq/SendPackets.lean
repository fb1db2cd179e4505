import DaqSwitch.Lib.Duff
import DaqSwitch.OqHwq.Types

/-!
# Buffered transmission

`send_burst` and `send_packetsx4` of `dp_oq_hwq.c`.  An lcore keeps a buffer `tx_mbufs` for
each output port.  `rte_eth_tx_burst` accepts a front part of the packets that it is given;
how many is the next of the return values `txRets`, and a loop for which they do not suffice
has not ended.  A function is `none` when it has not ended.
-/

namespace DaqSwitch.OqHwq

open Lib

variable {α : Type*}

/-! ## The functions -/

/-- The loop `while (n > 0)` around `rte_eth_tx_burst`, from entry `off` of `m` on: what the
queue has accepted when it ends, and the return values that are left. -/
def txLoop (m : ℕ → α) : List ℕ → ℕ → ℕ → List α → Option (List α × List ℕ)
  | rets, _, 0, queue => some (queue, rets)
  | [], _, _ + 1, _ => none
  | r :: rets, off, n + 1, queue =>
    let ret := min r (n + 1)
    txLoop m rets (off + ret) (n + 1 - ret) (queue ++ window m off ret)

namespace Lcore

/-- The loop on the tx queue of a port. -/
def txAll (s : Lcore α) (port : ℕ) (m : ℕ → α) (off n : ℕ) : Option (Lcore α) :=
  let queueid := s.qconf.txQueueId port
  (txLoop m s.txRets off n (s.accepted port queueid)).map fun x => s.setQueue port x.1 x.2

def sendBurst (s : Lcore α) (n port : ℕ) : Option (Lcore α) :=
  s.txAll port (s.qconf.txMbufs port).mTable 0 n

/-- One of the two copy loops: `n` packets from entry `src` of `m` to entry `dst` of the
buffer. -/
def copyIn (s : Lcore α) (port dst : ℕ) (m : ℕ → α) (src n : ℕ) : Lcore α :=
  s.setTable port (duff (copyEntry dst m src) n (s.qconf.txMbufs port).mTable)

/-- `send_packetsx4` on the `num` packets from entry `off` of `m` on. -/
def sendPacketsx4 (s : Lcore α) (port : ℕ) (m : ℕ → α) (off num : ℕ) : Option (Lcore α) :=
  let len := (s.qconf.txMbufs port).len
  if num ≥ maxTxBurst ∧ len = 0 then s.txAll port m off num
  else
    -- put packets into the buffer, and send it when it is full
    let n := if len + num > maxPktBurst then maxPktBurst - len else num
    let s := s.copyIn port len m off n
    if len + n = maxPktBurst then
      -- with `num = n` the second copy loop still writes four entries, behind the new `len`
      (s.sendBurst maxPktBurst port).map fun s =>
        (s.copyIn port 0 m (off + n) (num - n)).setLen port (num - n)
    else some (s.setLen port (len + n))

end Lcore

/-! ## The output of a port -/

variable {s t : Lcore α} {m : ℕ → α} {port off n num : ℕ}

/-- The loop ends with everything accepted. -/
lemma txLoop_eq_some {rets : List ℕ} {queue : List α} {x : List α × List ℕ}
    (h : txLoop m rets off n queue = some x) : x.1 = queue ++ window m off n := by
  -- each return value moves the front of the window to the end of the queue
  induction rets generalizing off n queue with
  | nil =>
    cases n with
    | zero =>
      obtain rfl := Option.some_inj.mp h
      rw [window_zero, List.append_nil]
    | succ n => cases h
  | cons r rets ih =>
    cases n with
    | zero =>
      obtain rfl := Option.some_inj.mp h
      rw [window_zero, List.append_nil]
    | succ n =>
      rw [ih h, List.append_assoc, ← window_split (Nat.min_le_right r (n + 1))]

namespace Lcore

/-- What the lcore was given for a port and has not freed: the packets accepted by the tx
queue of the port, then those in the buffer. -/
def output (s : Lcore α) (port : ℕ) : List α :=
  s.accepted port (s.qconf.txQueueId port) ++
    window (s.qconf.txMbufs port).mTable 0 (s.qconf.txMbufs port).len

/-- No buffer is full. -/
def Buffered (s : Lcore α) : Prop := ∀ port, (s.qconf.txMbufs port).len < maxPktBurst

/-- What the transmit functions for a port leave alone. -/
structure Frame (port : ℕ) (s t : Lcore α) : Prop where
  nRxQueue : t.qconf.nRxQueue = s.qconf.nRxQueue
  txQueueId : t.qconf.txQueueId = s.qconf.txQueueId
  txMbufs : ∀ p ≠ port, t.qconf.txMbufs p = s.qconf.txMbufs p
  accepted : ∀ p ≠ port, t.accepted p = s.accepted p
  dstPort : t.dstPort = s.dstPort
  pnum : t.pnum = s.pnum
  freed : t.freed = s.freed

/-- The packets `xs` were given to a port. -/
structure Gives (s : Lcore α) (port : ℕ) (xs : List α) (t : Lcore α) : Prop extends
    Frame port s t where
  output : t.output port = s.output port ++ xs
  len : (t.qconf.txMbufs port).len < maxPktBurst

lemma Frame.trans {u : Lcore α} (h : Frame port s t) (h' : Frame port t u) : Frame port s u :=
  ⟨h'.nRxQueue.trans h.nRxQueue, h'.txQueueId.trans h.txQueueId,
    fun p hp => (h'.txMbufs p hp).trans (h.txMbufs p hp),
    fun p hp => (h'.accepted p hp).trans (h.accepted p hp),
    h'.dstPort.trans h.dstPort, h'.pnum.trans h.pnum, h'.freed.trans h.freed⟩

lemma Frame.output (h : Frame port s t) {p : ℕ} (hp : p ≠ port) : t.output p = s.output p := by
  rw [Lcore.output, Lcore.output, h.txMbufs p hp, h.accepted p hp, h.txQueueId]

lemma frame_setLen (s : Lcore α) (port len : ℕ) : Frame port s (s.setLen port len) :=
  ⟨rfl, rfl, fun _ hp => Function.update_of_ne hp _ _, fun _ _ => rfl, rfl, rfl, rfl⟩

lemma frame_copyIn (s : Lcore α) (port dst : ℕ) (m : ℕ → α) (src n : ℕ) :
    Frame port s (s.copyIn port dst m src n) :=
  ⟨rfl, rfl, fun _ hp => Function.update_of_ne hp _ _, fun _ _ => rfl, rfl, rfl, rfl⟩

lemma frame_setQueue (s : Lcore α) (port : ℕ) (queue : List α) (rets : List ℕ) :
    Frame port s (s.setQueue port queue rets) :=
  ⟨rfl, rfl, fun _ _ => rfl, fun _ hp => Function.update_of_ne hp _ _, rfl, rfl, rfl⟩

lemma setQueue_accepted (s : Lcore α) (port : ℕ) (queue : List α) (rets : List ℕ) :
    (s.setQueue port queue rets).accepted port (s.qconf.txQueueId port) = queue := by
  simp [setQueue]

lemma output_setQueue (s : Lcore α) (port : ℕ) (queue : List α) (rets : List ℕ) :
    (s.setQueue port queue rets).output port =
      queue ++ window (s.qconf.txMbufs port).mTable 0 (s.qconf.txMbufs port).len := by
  rw [output]
  exact congrArg (· ++ _) (setQueue_accepted s port queue rets)

lemma output_setLen (s : Lcore α) (port len : ℕ) : (s.setLen port len).output port =
    s.accepted port (s.qconf.txQueueId port) ++ window (s.qconf.txMbufs port).mTable 0 len := by
  simp [output, setLen]

@[simp] lemma setLen_len (s : Lcore α) (port len : ℕ) :
    ((s.setLen port len).qconf.txMbufs port).len = len := by
  simp [setLen]

lemma copyIn_mTable (hn : 0 < n) (s : Lcore α) (port dst : ℕ) (m : ℕ → α) (src : ℕ) :
    ((s.copyIn port dst m src n).qconf.txMbufs port).mTable =
      blit (s.qconf.txMbufs port).mTable dst (window m src n) := by
  simp [copyIn, setTable, duff_copyEntry hn]

/-- The copied packets stand behind those that were in the buffer. -/
lemma window_copyIn (hn : 0 < n) (s : Lcore α) (port len : ℕ) (m : ℕ → α) (src : ℕ) :
    window ((s.copyIn port len m src n).qconf.txMbufs port).mTable 0 (len + n) =
      window (s.qconf.txMbufs port).mTable 0 len ++ window m src n := by
  have := window_blit_append (s.qconf.txMbufs port).mTable 0 len (window m src n)
  rwa [length_window, Nat.zero_add, ← copyIn_mTable hn] at this

/-- Into an empty buffer, also when there is nothing to copy. -/
lemma window_copyIn_zero (s : Lcore α) (port : ℕ) (m : ℕ → α) (src n : ℕ) :
    window ((s.copyIn port 0 m src n).qconf.txMbufs port).mTable 0 n = window m src n := by
  rcases Nat.eq_zero_or_pos n with rfl | hn
  · rfl
  · simpa using window_copyIn hn s port 0 m src

/-- When the loop on a tx queue has ended, the queue has accepted all packets. -/
lemma txAll_eq_some (h : s.txAll port m off n = some t) : ∃ rets,
    t = s.setQueue port (s.accepted port (s.qconf.txQueueId port) ++ window m off n) rets := by
  obtain ⟨x, hx, rfl⟩ := Option.map_eq_some_iff.mp h
  exact ⟨x.2, by rw [← txLoop_eq_some hx]⟩

/-- The drain of a port: everything in its buffer is sent. -/
lemma sendBurst_drain (h : s.sendBurst (s.qconf.txMbufs port).len port = some t) :
    Gives s port [] (t.setLen port 0) := by
  obtain ⟨rets, rfl⟩ := txAll_eq_some h
  refine ⟨(frame_setQueue s port _ rets).trans (frame_setLen _ port 0), ?_, by simp; decide⟩
  rw [output_setLen, window_zero, List.append_nil, List.append_nil]
  exact setQueue_accepted s port _ rets

/-- What a call of `send_packetsx4` leaves alone. -/
lemma sendPacketsx4_frame (h : s.sendPacketsx4 port m off num = some t) : Frame port s t := by
  rw [sendPacketsx4] at h
  split at h
  · obtain ⟨rets, rfl⟩ := txAll_eq_some h
    exact frame_setQueue s port _ rets
  · simp only at h
    generalize (if (s.qconf.txMbufs port).len + num > maxPktBurst then
      maxPktBurst - (s.qconf.txMbufs port).len else num) = n at h
    split at h
    · obtain ⟨u, hu, rfl⟩ := Option.map_eq_some_iff.mp h
      obtain ⟨rets, rfl⟩ := txAll_eq_some hu
      exact (((frame_copyIn s port _ m off n).trans (frame_setQueue _ port _ rets)).trans
        (frame_copyIn _ port 0 m (off + n) (num - n))).trans (frame_setLen _ port _)
    · obtain rfl := Option.some_inj.mp h
      exact (frame_copyIn s port _ m off n).trans (frame_setLen _ port _)

/-- **One run of packets.**  Whatever the fill of the buffer and the return values of the
transmit function are, the packets are given to the port, once and in order. -/
theorem sendPacketsx4_gives (hlen : (s.qconf.txMbufs port).len < maxPktBurst) (hpos : 0 < num)
    (hnum : num ≤ maxPktBurst) (h : s.sendPacketsx4 port m off num = some t) :
    Gives s port (window m off num) t := by
  have hframe := sendPacketsx4_frame h
  rw [sendPacketsx4] at h
  split at h
  · next hdirect =>
    -- nothing is buffered, so the queue takes the run without overtaking
    obtain ⟨rets, rfl⟩ := txAll_eq_some h
    refine ⟨hframe, ?_, hlen⟩
    rw [output_setQueue, output, hdirect.2, window_zero, List.append_nil, List.append_nil]
  · simp only at h
    generalize hn : (if (s.qconf.txMbufs port).len + num > maxPktBurst then
      maxPktBurst - (s.qconf.txMbufs port).len else num) = n at h
    have hn0 : 0 < n ∧ n ≤ num := by
      split at hn <;> omega
    have hcopy := window_copyIn hn0.1 s port (s.qconf.txMbufs port).len m off
    split at h
    · next hfull =>
      -- the buffer is flushed, and the rest of the run starts the next filling
      obtain ⟨u, hu, rfl⟩ := Option.map_eq_some_iff.mp h
      obtain ⟨rets, rfl⟩ := txAll_eq_some hu
      refine ⟨hframe, ?_, ?_⟩
      · have hsplit : window m off num = window m off n ++ window m (off + n) (num - n) :=
          window_split hn0.2
        rw [output_setLen, window_copyIn_zero, hsplit, output, ← hfull, hcopy]
        refine (congrArg (· ++ _) (setQueue_accepted _ port _ rets)).trans ?_
        simp only [List.append_assoc]
        rfl
      · rw [setLen_len]
        omega
    · next hfull =>
      obtain rfl := Option.some_inj.mp h
      refine ⟨hframe, ?_, ?_⟩
      · obtain rfl : n = num := by split at hn <;> omega
        rw [output_setLen, hcopy, output, List.append_assoc]
        rfl
      · rw [setLen_len]
        split at hn <;> omega

end Lcore

end DaqSwitch.OqHwq
