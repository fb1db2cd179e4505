import Mathlib

/-!
# The records of the output-queued data path

Constants and structures of `dp_oq_hwq.c`.  Arrays are functions of the index.  Packets are
of any type: the data path moves pointers to them.
-/

namespace DaqSwitch.OqHwq

variable {α : Type*}

/-! ## Constants -/

def maxPktBurst : ℕ := 32

def maxTxBurst : ℕ := maxPktBurst / 2

def fwdstep : ℕ := 4

/-- Marks an invalid destination port. -/
def badPort : BitVec 16 := -1

/-! ## Records -/

structure MbufTable (α : Type*) where
  len : ℕ
  mTable : ℕ → α

structure LcoreConf (α : Type*) where
  nRxQueue : ℕ
  txQueueId : ℕ → ℕ
  txMbufs : ℕ → MbufTable α

/-- What `main_loop` works on: the configuration of its lcore, its arrays `dst_port` and
`pnum`, the packets that the tx queues have accepted, by port and queue, the freed packets,
and the return values of the coming calls of `rte_eth_tx_burst`. -/
structure Lcore (α : Type*) where
  qconf : LcoreConf α
  dstPort : ℕ → BitVec 16
  pnum : ℕ → ℕ
  accepted : ℕ → ℕ → List α
  freed : List α
  txRets : List ℕ

namespace Lcore

def setLen (s : Lcore α) (port len : ℕ) : Lcore α :=
  let txMbufs := Function.update s.qconf.txMbufs port { s.qconf.txMbufs port with len }
  { s with qconf := { s.qconf with txMbufs } }

def setTable (s : Lcore α) (port : ℕ) (mTable : ℕ → α) : Lcore α :=
  let txMbufs := Function.update s.qconf.txMbufs port { s.qconf.txMbufs port with mTable }
  { s with qconf := { s.qconf with txMbufs } }

/-- The tx queue of a port holds `queue` now, and the return values `rets` are left. -/
def setQueue (s : Lcore α) (port : ℕ) (queue : List α) (rets : List ℕ) : Lcore α :=
  let queues := Function.update (s.accepted port) (s.qconf.txQueueId port) queue
  { s with accepted := Function.update s.accepted port queues, txRets := rets }

end Lcore

/-! ## What the network card and the lookup answer

`RTE_MAX_ETHPORTS` is a build option of the packet library.  It is below 256, since
`main_loop` counts up to it in a `uint8_t`. -/

/-- The answer of `rte_eth_rx_burst`, the array `pkts_burst` with the first `nbRx` entries
filled, and the destination port that the lookup gives for each packet. -/
structure Burst (α : Type*) (rteMaxEthports : Fin (2 ^ 8)) where
  nbRx : ℕ
  pktsBurst : ℕ → α
  dst : ℕ → BitVec 16
  nbRx_le : nbRx ≤ maxPktBurst
  dst_lt : ∀ j < nbRx, (dst j).toNat < rteMaxEthports

lemma Burst.dst_lt_uint8 {rteMaxEthports : Fin (2 ^ 8)} (b : Burst α rteMaxEthports) :
    ∀ i < b.nbRx, (b.dst i).toNat < 2 ^ 8 :=
  fun i hi => (b.dst_lt i hi).trans rteMaxEthports.isLt

/-- One iteration of `main_loop`: whether the drain interval is over, the burst received from
each rx queue of the lcore, and the return values of `rte_eth_tx_burst`. -/
structure Iter (α : Type*) (rteMaxEthports : Fin (2 ^ 8)) where
  drain : Bool
  rx : ℕ → Burst α rteMaxEthports
  txRets : List ℕ

end DaqSwitch.OqHwq
