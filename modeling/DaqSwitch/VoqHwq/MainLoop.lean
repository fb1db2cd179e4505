import DaqSwitch.VoqHwq.Mapping

/-!
# The main loop

`main_loop` of `dp_voq_hwq.c` on all worker lcores.  An lcore goes through its tx queues; when
the poll interval of one is over, it receives a burst from each port on the rx queue of the tx
queue, and repeats the transmit until the burst is sent.  The lcores take their steps in any
order, among each other and with the NICs, which place packets in the rx queues.
-/

namespace DaqSwitch.VoqHwq

open Lib Lib.Machine

variable {α : Type*}

/-! ## One lcore -/

/-- A packet buffer: the port and the rx queue it was received on, and its contents. -/
structure Mbuf (α : Type*) where
  port : ℕ
  rxQueue : ℕ
  body : α
deriving DecidableEq, Repr

/-- Where an lcore is in its loop: before the test of the poll interval, before the receive
from the `j`-th port, or with the `nb_rx` packets at `pkts_tx` to send. -/
inductive Pc (α : Type*)
  | test
  | recv (j : ℕ)
  | send (j : ℕ) (pktsTx : List (Mbuf α))

/-- The local variables of the loop. -/
structure Worker (α : Type*) where
  pc : Pc α
  i : ℕ
  prevTsc : ℕ → BitVec 64

namespace Worker

/-- On entry. -/
def init : Worker α := ⟨.test, 0, fun _ => 0⟩

/-- The end of the loop body for a tx queue. -/
def nextQueue (w : Worker α) (nTxQueue : ℕ) : Worker α :=
  { w with pc := .test, i := if w.i + 1 < nTxQueue then w.i + 1 else 0 }

/-- The test of the loop over the ports. -/
def forPort (w : Worker α) (nTxQueue nbPorts j : ℕ) : Worker α :=
  if j < nbPorts then { w with pc := .recv j } else w.nextQueue nTxQueue

/-- Whether the poll interval is over; without `DP_RX_POLL_INTERVAL` it always is. -/
def due (w : Worker α) (curTsc : BitVec 64) : Option (BitVec 64) → Bool
  | none => true
  | some pollTsc => decide (pollTsc < curTsc - w.prevTsc w.i)

/-- The packets that are received and not yet sent. -/
def burst (w : Worker α) : List (Mbuf α) :=
  match w.pc with
  | .send _ pktsTx => pktsTx
  | _ => []

end Worker

/-! ## The system -/

/-- The state of the system: the lcores and the rx queues of the NICs.  `arrived` and `sent`
record what the NICs placed in the rx queues, and what they accepted on the ports with the tx
queue of every packet. -/
structure Sys (α : Type*) where
  workers : ℕ → Worker α
  rx : ℕ → ℕ → List (Mbuf α)
  arrived : ℕ → ℕ → List (Mbuf α)
  sent : ℕ → List (ℕ × Mbuf α)

namespace Sys

def init : Sys α := ⟨fun _ => Worker.init, fun _ _ => [], fun _ _ => [], fun _ => []⟩

def setWorker (s : Sys α) (l : ℕ) (w : Worker α) : Sys α :=
  { s with workers := Function.update s.workers l w }

@[simp] lemma setWorker_self (s : Sys α) (l : ℕ) (w : Worker α) :
    (s.setWorker l w).workers l = w := Function.update_self ..

def setRx (s : Sys α) (port queue : ℕ) (pkts : List (Mbuf α)) : Sys α :=
  { s with rx := Function.update s.rx port (Function.update (s.rx port) queue pkts) }

/-- A NIC places a packet in an rx queue. -/
def arrive (s : Sys α) (m : Mbuf α) : Sys α :=
  { s.setRx m.port m.rxQueue (s.rx m.port m.rxQueue ++ [m]) with
    arrived := Function.update s.arrived m.port
      (Function.update (s.arrived m.port) m.rxQueue (s.arrived m.port m.rxQueue ++ [m])) }

/-- A NIC accepts packets on a tx queue. -/
def transmit (s : Sys α) (port queueId : ℕ) (pkts : List (Mbuf α)) : Sys α :=
  { s with sent := Function.update s.sent port (s.sent port ++ pkts.map fun m => (queueId, m)) }

end Sys

/-- The steps: an arrival, the test with the time stamp counter, the receive of `nbRx` packets
and a transmit that accepts `n` packets. -/
inductive Act (α : Type*)
  | arrive (m : Mbuf α)
  | test (l : ℕ) (curTsc : BitVec 64)
  | recv (l nbRx : ℕ)
  | send (l n : ℕ)

section Steps

variable (conf : LcoreConf) (pollTsc : Option (BitVec 64))

/-- The tx queue that an lcore is at. -/
def curTxq (s : Sys α) (l : ℕ) : Option LcoreTxQueue := (conf l)[(s.workers l).i]?

def testStep (l : ℕ) (curTsc : BitVec 64) (s : Sys α) : Option (Sys α) :=
  match (s.workers l).pc, curTxq conf s l with
  | .test, some q =>
    let w := s.workers l
    if w.due curTsc pollTsc then
      let w := { w with prevTsc := Function.update w.prevTsc w.i curTsc }
      some (s.setWorker l (w.forPort (conf l).length q.rxPortIds.length 0))
    else some (s.setWorker l (w.nextQueue (conf l).length))
  | _, _ => none

/-- After a full burst the poll interval is over at the next test. -/
def recvStep (l nbRx : ℕ) (s : Sys α) : Option (Sys α) :=
  match (s.workers l).pc, curTxq conf s l with
  | .recv j, some q =>
    let w := s.workers l
    q.rxPortIds[j]?.bind fun p =>
      let queue := s.rx p q.rxQueueId
      if nbRx ≤ maxPktBurst ∧ nbRx ≤ queue.length then
        if nbRx = 0 then some (s.setWorker l (w.forPort (conf l).length q.rxPortIds.length (j + 1)))
        else
          let prevTsc :=
            if nbRx = maxPktBurst then Function.update w.prevTsc w.i 0 else w.prevTsc
          some ((s.setRx p q.rxQueueId (queue.drop nbRx)).setWorker l
            { w with pc := .send j (queue.take nbRx), prevTsc })
      else none
  | _, _ => none

def sendStep (l n : ℕ) (s : Sys α) : Option (Sys α) :=
  match (s.workers l).pc, curTxq conf s l with
  | .send j pktsTx, some q =>
    let w := s.workers l
    if n ≤ pktsTx.length then
      let w := if n = pktsTx.length then w.forPort (conf l).length q.rxPortIds.length (j + 1)
        else { w with pc := .send j (pktsTx.drop n) }
      some ((s.transmit q.portId q.queueId (pktsTx.take n)).setWorker l w)
    else none
  | _, _ => none

/-- One step of the system.  `main_loop` runs on the worker lcores. -/
def Sys.step (P : Platform) (act : Act α) (s : Sys α) : Option (Sys α) :=
  match act with
  | .arrive m => some (s.arrive m)
  | .test l curTsc =>
    if l ∈ P.lcores ∧ P.isWorker l = true then testStep conf pollTsc l curTsc s else none
  | .recv l nbRx => if l ∈ P.lcores ∧ P.isWorker l = true then recvStep conf l nbRx s else none
  | .send l n => if l ∈ P.lcores ∧ P.isWorker l = true then sendStep conf l n s else none

end Steps

end DaqSwitch.VoqHwq
