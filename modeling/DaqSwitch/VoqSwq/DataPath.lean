import DaqSwitch.VoqSwq.HandlerSpec
import DaqSwitch.VoqSwq.LcoreDataTx

/-!
# The data path as a system of lcores

The data rx and data tx lcores take their steps in any order.  A step is one operation on
a NIC queue or a ring, or a move inside the local loop of one lcore; ring operations are
atomic, an enqueue and a transmit take any front part of what they are offered, and a
dequeue takes any front part of the ring.  The default lcore may change the flow tables
and the masks of active flows at any time.
-/

namespace DaqSwitch.VoqSwq

open Lib Lib.Machine

/-- What the default lcore may change: the flow tables and the masks of active flows. -/
def DpParams.configure (dp : DpParams) (flows : ℕ → ℕ → DataFlow) (masks : ℕ → ℕ → BitVec 64) :
    DpParams :=
  { dp with
    flows := flows
    lcores := fun l =>
      { dp.lcores l with
        tx := fun k => { (dp.lcores l).tx k with activeFlows := masks l k } } }

lemma sameConf_configure (dp : DpParams) (flows : ℕ → ℕ → DataFlow) (masks : ℕ → ℕ → BitVec 64) :
    SameConf dp (dp.configure flows masks) :=
  ⟨rfl, rfl, fun _ => rfl, fun _ => rfl, fun _ => rfl, fun _ => rfl, fun _ _ => rfl⟩

/-- The state of the system.  `received` and `sent` record what went through the NIC queues;
`sent` holds the tx queue with every packet. -/
structure Sys where
  dp : DpParams
  rx : ℕ → RxLcore
  tx : ℕ → TxLcore
  ring : RteRing → List Mbuf
  received : ℕ → ℕ → List Mbuf
  sent : ℕ → List (ℕ × Mbuf)

namespace Sys

/-- All lcores at the entry of their loops. -/
def init (dp : DpParams) (garbage : ℕ → Mbuf) : Sys where
  dp := dp
  rx _ := RxLcore.init garbage
  tx _ := TxLcore.init garbage
  ring _ := []
  received _ _ := []
  sent _ := []

def setRx (s : Sys) (l : ℕ) (x : RxLcore) : Sys := { s with rx := Function.update s.rx l x }

def setTx (s : Sys) (l : ℕ) (x : TxLcore) : Sys := { s with tx := Function.update s.tx l x }

/-- A NIC has handed packets to the program. -/
def receive (s : Sys) (port queue : ℕ) (pkts : List Mbuf) : Sys :=
  let queues := Function.update (s.received port) queue (s.received port queue ++ pkts)
  { s with received := Function.update s.received port queues }

def setRing (s : Sys) (r : RteRing) (pkts : List Mbuf) : Sys :=
  { s with ring := Function.update s.ring r pkts }

/-- A NIC has accepted packets on a tx queue. -/
def transmit (s : Sys) (port queueId : ℕ) (pkts : List Mbuf) : Sys :=
  { s with sent := Function.update s.sent port (s.sent port ++ pkts.map fun m => (queueId, m)) }

end Sys

/-- The steps of a data rx lcore.  `due` is the outcome of the test of the poll interval,
`pkts` the ids and contents of the received packets. -/
inductive RxAct
  | nextPort
  | poll (due : Bool) (pkts : List (BitVec 16 × ℕ))
  | delimit
  | enqueue (nDone : ℕ)
  | ret
  | nextQueue

/-- The steps of a data tx lcore.  `due` is the outcome of the test of the drain interval. -/
inductive TxAct
  | nextPort
  | poll (due : Bool) (nbDeq : ℕ)
  | send (nbTx : ℕ)

inductive Act
  | rx (l : ℕ) (act : RxAct)
  | tx (l : ℕ) (act : TxAct)
  | configure (flows : ℕ → ℕ → DataFlow) (masks : ℕ → ℕ → BitVec 64)

/-! ## Steps of a data rx lcore -/

/-- The port configuration that an rx lcore is at. -/
def curRxp (s : Sys) (l : ℕ) : LcoreDataRxPortConf := (s.dp.lcores l).rx (s.rx l).portIdx

def rxNextPort (l : ℕ) (s : Sys) : Option Sys :=
  if (s.rx l).pc = .poll ∧ (curRxp s l).nbQueues ≤ (s.rx l).i then
    some (s.setRx l ((s.rx l).nextPort (s.dp.lcores l)))
  else none

/-- The packets that a NIC hands out on a queue. -/
def mbufsOf (port queue : ℕ) (pkts : List (BitVec 16 × ℕ)) : List Mbuf :=
  pkts.map fun pkt => ⟨port, queue, pkt.1, pkt.2⟩

def rxPoll (l : ℕ) (due : Bool) (pkts : List (BitVec 16 × ℕ)) (s : Sys) : Option Sys :=
  let queueId := ((s.rx l).curRxq (s.dp.lcores l)).queueId
  let mbufs := mbufsOf (curRxp s l).portId queueId pkts
  if (s.rx l).pc = .poll ∧ (s.rx l).i < (curRxp s l).nbQueues ∧
      pkts.length ≤ dpPortMaxPktBurstRx then
    if due then
      some ((s.receive (curRxp s l).portId queueId mbufs).setRx l ((s.rx l).receive mbufs))
    else some (s.setRx l (s.rx l).nextQueue)
  else none

def rxDelimit (l : ℕ) (s : Sys) : Option Sys :=
  if (s.rx l).pc = .burst ∧ 0 < (s.rx l).nbRx then
    some (s.setRx l ((s.rx l).delimit s.dp (s.dp.lcores l)))
  else none

/-- `rte_ring_enqueue_burst` takes `nDone` of the packets; on a null ring there is no
successor. -/
def rxEnqueue (l nDone : ℕ) (s : Sys) : Option Sys :=
  match (s.rx l).pc with
  | .enqueue (some r) _ mbufs n =>
    if 0 < n ∧ nDone ≤ n then
      some ((s.setRing r (s.ring r ++ window (s.rx l).pktsBurst mbufs nDone)).setRx l
        ((s.rx l).enqueued nDone))
    else none
  | _ => none

def rxReturn (l : ℕ) (s : Sys) : Option Sys :=
  match (s.rx l).pc with
  | .enqueue _ nbEnq _ n => if n = 0 then some (s.setRx l ((s.rx l).advance nbEnq)) else none
  | _ => none

def rxNextQueue (l : ℕ) (s : Sys) : Option Sys :=
  if (s.rx l).pc = .burst ∧ (s.rx l).nbRx = 0 then some (s.setRx l (s.rx l).nextQueue) else none

/-- A step of lcore `l` in `dp_main_loop_lcore_data_rx`. -/
def rxStep (l : ℕ) : RxAct → Sys → Option Sys
  | .nextPort => rxNextPort l
  | .poll due pkts => rxPoll l due pkts
  | .delimit => rxDelimit l
  | .enqueue nDone => rxEnqueue l nDone
  | .ret => rxReturn l
  | .nextQueue => rxNextQueue l

/-! ## Steps of a data tx lcore -/

/-- The port configuration that a tx lcore is at. -/
def curTxp (s : Sys) (l : ℕ) : LcoreDataTxPortConf := (s.dp.lcores l).tx (s.tx l).portIdx

def txNextPort (l : ℕ) (s : Sys) : Option Sys :=
  if (s.tx l).pc = .test ∧ dpPortMaxDataFlows ≤ (s.tx l).i then
    some (s.setTx l ((s.tx l).nextPort (s.dp.lcores l)))
  else none

/-- `rte_ring_dequeue_burst` hands out `nbDeq` packets of a ring. -/
def txDequeue (l nbDeq : ℕ) (r : RteRing) (queueId : ℕ) (s : Sys) : Option Sys :=
  if nbDeq ≤ dpPortMaxPktBurstTx ∧ nbDeq ≤ (s.ring r).length then
    some ((s.setRing r ((s.ring r).drop nbDeq)).setTx l
      ((s.tx l).dequeued ((s.ring r).take nbDeq) queueId))
  else none

/-- On a null ring there is no successor. -/
def txPoll (C : OneShl) (l : ℕ) (due : Bool) (nbDeq : ℕ) (s : Sys) : Option Sys :=
  let flow := s.dp.flows (curTxp s l).portId (s.tx l).i
  if (s.tx l).pc = .test ∧ (s.tx l).i < dpPortMaxDataFlows then
    if activeTest C (curTxp s l).activeFlows (s.tx l).i && (flow.reqFlow || due) then
      (s.dp.rings (curTxp s l).portId (s.tx l).i).bind fun r =>
        txDequeue l nbDeq r (txQueueId flow) s
    else some (s.setTx l (s.tx l).nextFlow)
  else none

def txSend (l nbTx : ℕ) (s : Sys) : Option Sys :=
  match (s.tx l).pc with
  | .send queueId =>
    if nbTx ≤ (s.tx l).nbDeq then
      some ((s.transmit (curTxp s l).portId queueId
        (window (s.tx l).pktsBurst (s.tx l).pktsTx nbTx)).setTx l ((s.tx l).accepted nbTx))
    else none
  | .test => none

/-- A step of lcore `l` in `dp_main_loop_lcore_data_tx`. -/
def txStep (C : OneShl) (l : ℕ) : TxAct → Sys → Option Sys
  | .nextPort => txNextPort l
  | .poll due nbDeq => txPoll C l due nbDeq
  | .send nbTx => txSend l nbTx

/-! ## The system -/

/-- One step of the system.  Lcores without ports return from their loops at once. -/
def Sys.step (C : OneShl) (act : Act) (s : Sys) : Option Sys :=
  match act with
  | .rx l act =>
    if l < s.dp.nbLcores ∧ (s.dp.lcores l).type = .dataRx ∧ 0 < (s.dp.lcores l).nbPorts then
      rxStep l act s
    else none
  | .tx l act =>
    if l < s.dp.nbLcores ∧ (s.dp.lcores l).type = .dataTx ∧ 0 < (s.dp.lcores l).nbPorts then
      txStep C l act s
    else none
  | .configure flows masks => some { s with dp := s.dp.configure flows masks }

lemma SameConf.eq_configure {dp dp' : DpParams} (h : SameConf dp dp') :
    dp' = dp.configure dp'.flows fun l k => ((dp'.lcores l).tx k).activeFlows := by
  refine DpParams.ext (funext ?_) h.nbLcores h.rings rfl
  intro l
  refine DpLcoreParams.ext (h.id l) (h.type l) (h.nbPorts l) (h.rx l) (funext ?_)
  intro k
  exact LcoreDataTxPortConf.ext (h.txPort l k) rfl

/-- A call of the handler on the default lcore is a step of the system. -/
lemma handler_configure {C : OneShl} {nic : FdirNic} {bursts : List PktBurst} {s t : DefState}
    (h : run (tableActionHandlerHit C nic) bursts s = some t) {R : ℕ → FlowRegistry}
    (hR : Tables s.dp.flows R) (u : Sys) (hu : u.dp = s.dp) :
    u.step C (.configure t.dp.flows fun l k => ((t.dp.lcores l).tx k).activeFlows) =
      some { u with dp := t.dp } := by
  rw [Sys.step, hu, ← (handler_sameConf h hR).eq_configure]

end DaqSwitch.VoqSwq
