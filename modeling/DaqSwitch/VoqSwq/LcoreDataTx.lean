import DaqSwitch.Lib.CInt
import DaqSwitch.VoqSwq.LcoreDataRx

/-!
# The data tx lcore

`dp_main_loop_lcore_data_tx` of `dp_lcore_data_tx.c`.  The lcore polls the rings of the
active flows of its ports and repeats the transmit until the whole burst is sent.
-/

namespace DaqSwitch.VoqSwq

open Lib

/-- The test `active_flows & (1 << i)`. -/
def activeTest (C : OneShl) (activeFlows : BitVec 64) (i : ℕ) : Bool :=
  activeFlows &&& C.val64 i != 0

/-- The tx queue for the flow in a slot. -/
def txQueueId (flow : DataFlow) : ℕ :=
  if flow.reqFlow then dpPortTxqIdReq else dpPortTxqIdData

/-- Where the lcore is in its loop: before the test of flow `i`, or sending a burst. -/
inductive TxPc
  | test
  | send (queueId : ℕ)
deriving DecidableEq, Repr

/-- The local variables of the loop. -/
structure TxLcore where
  pc : TxPc
  portIdx : ℕ
  i : ℕ
  pktsBurst : ℕ → Mbuf
  pktsTx : ℕ
  nbDeq : ℕ

namespace TxLcore

/-- On entry. -/
def init (pktsBurst : ℕ → Mbuf) : TxLcore := ⟨.test, 0, 0, pktsBurst, 0, 0⟩

/-- The end of the loop over the flows of a port. -/
def nextPort (x : TxLcore) (lp : DpLcoreParams) : TxLcore :=
  { x with portIdx := (x.portIdx + 1) % 2 ^ 8 % lp.nbPorts, i := 0 }

/-- The end of the loop body for one flow. -/
def nextFlow (x : TxLcore) : TxLcore := { x with pc := .test, i := x.i + 1 }

/-- `rte_ring_dequeue_burst` has filled the front of `pkts_burst`. -/
def dequeued (x : TxLcore) (pkts : List Mbuf) (queueId : ℕ) : TxLcore :=
  if pkts.length > 0 then
    { x with
      pc := .send queueId
      pktsBurst := blit x.pktsBurst 0 pkts
      pktsTx := 0
      nbDeq := pkts.length }
  else x.nextFlow

/-- `rte_eth_tx_burst` has accepted `nbTx` packets. -/
def accepted (x : TxLcore) (nbTx : ℕ) : TxLcore :=
  let y := { x with nbDeq := x.nbDeq - nbTx, pktsTx := x.pktsTx + nbTx }
  if y.nbDeq = 0 then y.nextFlow else y

/-- The packets of the burst that are not yet transmitted. -/
def rest (x : TxLcore) : List Mbuf :=
  match x.pc with
  | .test => []
  | .send _ => window x.pktsBurst x.pktsTx x.nbDeq

/-! ## What the steps do to the rest of the burst -/

variable {x : TxLcore}

lemma rest_of_test (h : x.pc = .test) : x.rest = [] := by rw [rest, h]

lemma rest_of_send {queueId : ℕ} (h : x.pc = .send queueId) :
    x.rest = window x.pktsBurst x.pktsTx x.nbDeq := by rw [rest, h]

lemma rest_dequeued (pkts : List Mbuf) (queueId : ℕ) : (x.dequeued pkts queueId).rest = pkts := by
  rw [dequeued]
  split
  · rw [rest_of_send rfl]
    exact window_blit x.pktsBurst 0 pkts
  · next h =>
    rw [rest_of_test rfl]
    exact (List.length_eq_zero_iff.mp (by omega)).symm

/-- A transmit takes packets from the front of the rest. -/
lemma rest_accepted {queueId nbTx : ℕ} (h : x.pc = .send queueId) (hle : nbTx ≤ x.nbDeq) :
    x.rest = window x.pktsBurst x.pktsTx nbTx ++ (x.accepted nbTx).rest := by
  rw [rest_of_send h, window_split hle, accepted]
  split
  · next hzero =>
    rw [rest_of_test rfl, show x.nbDeq - nbTx = 0 from hzero]
    rfl
  · rw [rest_of_send (by exact h)]

end TxLcore

end DaqSwitch.VoqSwq
