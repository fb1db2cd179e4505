import DaqSwitch.Lib.Window
import DaqSwitch.VoqSwq.Types

/-!
# The data rx lcore

`dp_main_loop_lcore_data_rx` of `dp_lcore_data_rx.c`, built without
`DP_BACK_PRESSURE_DISABLE`.  A burst is cut into runs of packets for the same flow slot,
and `enqueue_data_pkt` repeats the enqueue until the ring has taken the whole run.
-/

namespace DaqSwitch.VoqSwq

open Lib

/-- A packet buffer: where it was received, its flow-director id and its contents. -/
structure Mbuf where
  port : ℕ
  rxQueue : ℕ
  fdirId : BitVec 16
  body : ℕ
deriving DecidableEq, Repr

/-- The part of a flow-director id that names the output queue. -/
def fdirSlot (id : BitVec 16) : ℕ := (id &&& dpFdirOutQueueMask).toNat

/-- `hash.fdir.id & DP_FDIR_OUT_QUEUE_MASK`. -/
def Mbuf.slot (m : Mbuf) : ℕ := fdirSlot m.fdirId

/-- Where the lcore is in its loop: before the receive of queue `i`, with a burst at hand,
or in `enqueue_data_pkt` with its `mbufs` and `n`. -/
inductive RxPc
  | poll
  | burst
  | enqueue (outRing : Option RteRing) (nbEnq mbufs n : ℕ)
deriving DecidableEq, Repr

/-- The local variables of the loop. -/
structure RxLcore where
  pc : RxPc
  portIdx : ℕ
  i : ℕ
  pktsBurst : ℕ → Mbuf
  pktEnq : ℕ
  nbRx : ℕ

namespace RxLcore

/-- On entry. -/
def init (pktsBurst : ℕ → Mbuf) : RxLcore := ⟨.poll, 0, 0, pktsBurst, 0, 0⟩

/-- The loop that extends `nb_enq` over the packets for the same slot. -/
def countRun (pktsBurst : ℕ → Mbuf) (pktEnq fdirId nbRx : ℕ) : ℕ → ℕ → ℕ
  | 0, nbEnq => nbEnq
  | fuel + 1, nbEnq =>
    if nbEnq < nbRx then
      if (pktsBurst (pktEnq + nbEnq)).slot ≠ fdirId then nbEnq
      else countRun pktsBurst pktEnq fdirId nbRx fuel (nbEnq + 1)
    else nbEnq

/-- The queue that the lcore is at. -/
def curRxq (x : RxLcore) (lp : DpLcoreParams) : DataRxQueue :=
  (lp.rx x.portIdx).queueList x.i

/-- The end of the loop over the queues of a port. -/
def nextPort (x : RxLcore) (lp : DpLcoreParams) : RxLcore :=
  { x with portIdx := (x.portIdx + 1) % 2 ^ 8 % lp.nbPorts, i := 0 }

/-- The end of the loop body for one queue. -/
def nextQueue (x : RxLcore) : RxLcore := { x with pc := .poll, i := x.i + 1 }

/-- `rte_eth_rx_burst` has filled the front of `pkts_burst`. -/
def receive (x : RxLcore) (pkts : List Mbuf) : RxLcore :=
  if pkts.length > 0 then
    { x with pc := .burst, pktsBurst := blit x.pktsBurst 0 pkts, pktEnq := 0, nbRx := pkts.length }
  else x.nextQueue

/-- The slot of the next packet. -/
def fdirId (x : RxLcore) : ℕ := (x.pktsBurst x.pktEnq).slot

/-- `nb_enq` after the loop, the length of the next run. -/
def nbEnq (x : RxLcore) : ℕ := countRun x.pktsBurst x.pktEnq x.fdirId x.nbRx x.nbRx 1

/-- Delimit the next run of the burst and call `enqueue_data_pkt`. -/
def delimit (x : RxLcore) (dp : DpParams) (lp : DpLcoreParams) : RxLcore :=
  { x with pc := .enqueue (dp.rings (x.curRxq lp).outPortId x.fdirId) x.nbEnq x.pktEnq x.nbEnq }

/-- `rte_ring_enqueue_burst` has taken `nDone` packets. -/
def enqueued (x : RxLcore) (nDone : ℕ) : RxLcore :=
  match x.pc with
  | .enqueue outRing nbEnq mbufs n =>
    { x with pc := .enqueue outRing nbEnq (mbufs + nDone) (n - nDone) }
  | _ => x

/-- `enqueue_data_pkt` has returned. -/
def advance (x : RxLcore) (nbEnq : ℕ) : RxLcore :=
  { x with pc := .burst, pktEnq := x.pktEnq + nbEnq, nbRx := x.nbRx - nbEnq }

/-- The packets of the burst that are not yet enqueued. -/
def rest (x : RxLcore) : List Mbuf :=
  match x.pc with
  | .poll => []
  | .burst => window x.pktsBurst x.pktEnq x.nbRx
  | .enqueue _ nbEnq mbufs n => window x.pktsBurst mbufs (n + (x.nbRx - nbEnq))

/-! ## What the steps do to the rest of the burst -/

variable {x : RxLcore} {lp : DpLcoreParams}

lemma rest_of_poll (h : x.pc = .poll) : x.rest = [] := by rw [rest, h]

lemma rest_of_burst (h : x.pc = .burst) : x.rest = window x.pktsBurst x.pktEnq x.nbRx := by
  rw [rest, h]

lemma rest_of_enqueue {outRing : Option RteRing} {nbEnq mbufs n : ℕ}
    (h : x.pc = .enqueue outRing nbEnq mbufs n) :
    x.rest = window x.pktsBurst mbufs (n + (x.nbRx - nbEnq)) := by rw [rest, h]

lemma rest_receive (pkts : List Mbuf) : (x.receive pkts).rest = pkts := by
  rw [receive]
  split
  · rw [rest_of_burst rfl]
    exact window_blit x.pktsBurst 0 pkts
  · next h =>
    rw [rest_of_poll rfl]
    exact (List.length_eq_zero_iff.mp (by omega)).symm

/-- The packets before `nb_enq` are for the slot when the loop stops. -/
lemma countRun_spec {pktsBurst : ℕ → Mbuf} {pktEnq fdirId nbRx : ℕ} (fuel : ℕ) :
    ∀ nbEnq ≤ nbRx, (∀ j < nbEnq, (pktsBurst (pktEnq + j)).slot = fdirId) →
      countRun pktsBurst pktEnq fdirId nbRx fuel nbEnq ≤ nbRx ∧
        ∀ j < countRun pktsBurst pktEnq fdirId nbRx fuel nbEnq,
          (pktsBurst (pktEnq + j)).slot = fdirId := by
  -- the invariant of the loop: all packets before `nb_enq` are for the slot
  induction fuel with
  | zero => exact fun nbEnq h hslot => ⟨h, hslot⟩
  | succ fuel ih =>
    intro nbEnq h hslot
    rw [countRun]
    split
    · next hlt =>
      split
      · exact ⟨h, hslot⟩
      · next heq =>
        refine ih (nbEnq + 1) hlt ?_
        intro j hj
        rcases Nat.lt_succ_iff_lt_or_eq.mp hj with hj | rfl
        · exact hslot j hj
        · simpa using heq
    · exact ⟨h, hslot⟩

lemma nbEnq_spec (hpos : 0 < x.nbRx) :
    x.nbEnq ≤ x.nbRx ∧ ∀ j < x.nbEnq, (x.pktsBurst (x.pktEnq + j)).slot = x.fdirId :=
  countRun_spec x.nbRx 1 hpos fun j hj => by
    rw [Nat.lt_one_iff.mp hj]
    rfl

lemma rest_delimit {dp : DpParams} (h : x.pc = .burst) (hpos : 0 < x.nbRx) :
    (x.delimit dp lp).rest = x.rest := by
  rw [rest_of_burst h, rest_of_enqueue rfl]
  show window x.pktsBurst x.pktEnq (x.nbEnq + (x.nbRx - x.nbEnq)) = _
  rw [Nat.add_sub_cancel' (nbEnq_spec hpos).1]

/-- An enqueue takes packets from the front of the rest. -/
lemma rest_enqueued {outRing : Option RteRing} {nbEnq mbufs n nDone : ℕ}
    (h : x.pc = .enqueue outRing nbEnq mbufs n) (hle : nDone ≤ n) :
    x.rest = window x.pktsBurst mbufs nDone ++ (x.enqueued nDone).rest := by
  rw [rest_of_enqueue h, enqueued, h, window_split (k := nDone) (by omega)]
  simp only [rest]
  rw [show n + (x.nbRx - nbEnq) - nDone = n - nDone + (x.nbRx - nbEnq) by omega]

lemma rest_advance {outRing : Option RteRing} {nbEnq mbufs : ℕ}
    (h : x.pc = .enqueue outRing nbEnq mbufs 0) (hend : mbufs = x.pktEnq + nbEnq) :
    (x.advance nbEnq).rest = x.rest := by
  rw [rest_of_enqueue h, rest_of_burst rfl, Nat.zero_add, hend]
  rfl

end RxLcore

end DaqSwitch.VoqSwq
