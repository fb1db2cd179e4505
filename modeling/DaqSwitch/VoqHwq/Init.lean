import DaqSwitch.VoqHwq.LcoreParams

/-!
# Initialisation of the hardware-queue data path

`dp_init`, `dp_configure`, `get_rxqueues_id` and `add_ipv4_rule` of `dp_voq_hwq.c`.  A worker
lcore serves the tx queues of some output ports, and the packets for an output port come in,
on all ports, on the rx queue with one number.
-/

namespace DaqSwitch.VoqHwq

open Lib.Machine

/-! ## Constants -/

def maxPktBurst : ℕ := 32
def rteTestRxDescDefault : ℕ := 4096
def rteTestTxDescDefault : ℕ := 4096

/-- Capacity of an lcore's `tx_queue_list`. -/
def maxTxQueuePerLcore : ℕ := 16

/-! ## Records -/

structure LcoreTxQueue where
  portId : ℕ
  queueId : ℕ
  rxQueueId : ℕ
  rxPortIds : List ℕ
deriving DecidableEq, Repr

/-- `lcore_conf`: the tx queues of each lcore. -/
abbrev LcoreConf := ℕ → List LcoreTxQueue

structure FdirMasks where
  dstIpv4Mask : BitVec 32
  onlyIpFlow : Bool
deriving DecidableEq, Repr

/-- What `dp_init` sets in a `struct daqswitch_port_conf`. -/
structure PortConf where
  nbRxq : ℕ
  nbTxq : ℕ
  nbRxd : ℕ
  nbTxd : ℕ
  fdirMasks : Option FdirMasks
deriving DecidableEq, Repr

/-- What the setters of `daqswitch_port.h` work on: whether daqswitch is initialized, and the
configuration of the ports. -/
structure Daqswitch where
  initialized : Bool
  portConf : ℕ → PortConf

/-- The setters of `daqswitch_port.h`, which fail when daqswitch is initialized. -/
def Daqswitch.set (portid : ℕ) (f : PortConf → PortConf) (d : Daqswitch) : Option Daqswitch :=
  if d.initialized then none
  else some { d with portConf := Function.update d.portConf portid (f (d.portConf portid)) }

namespace Daqswitch

def portSetNbRxq (portid nbRxq : ℕ) := set portid fun c => { c with nbRxq }
def portSetNbRxd (portid nbRxd : ℕ) := set portid fun c => { c with nbRxd }
def portSetNbTxq (portid nbTxq : ℕ) := set portid fun c => { c with nbTxq }
def portSetNbTxd (portid nbTxd : ℕ) := set portid fun c => { c with nbTxd }
def portSetFdirForwarding (portid : ℕ) (masks : FdirMasks) :=
  set portid fun c => { c with fdirMasks := some masks }

end Daqswitch

/-! ## Initialisation -/

/-- One entry of `lcore_params`. -/
def addTxQueue (lp : LcoreParams) (conf : LcoreConf) : Option LcoreConf :=
  if (conf lp.lcoreId).length ≥ maxTxQueuePerLcore then none
  else some (Function.update conf lp.lcoreId (conf lp.lcoreId ++ [⟨lp.portId, 0, 0, []⟩]))

def configureLcoreTxQueues (params : List LcoreParams) : Option LcoreConf :=
  run addTxQueue params fun _ => []

namespace Platform

variable (P : Platform)

def getNRxQueuesPerPort : ℕ := P.nbPorts

/-- The rx and tx queues of a port.  The result of the flow director call is not looked at. -/
def initPort (portid : ℕ) (d : Daqswitch) : Option Daqswitch := do
  let d ← d.portSetNbRxq portid P.getNRxQueuesPerPort
  let d ← d.portSetNbRxd portid rteTestRxDescDefault
  let d ← d.portSetNbTxq portid 1
  let d ← d.portSetNbTxd portid rteTestTxDescDefault
  return if P.use5tuple then d else (d.portSetFdirForwarding portid ⟨0xffffffff, true⟩).getD d

/-- `dp_init`, from the zeroed `lcore_conf`. -/
def dpInit (d : Daqswitch) : Option (LcoreConf × Daqswitch) := do
  let params ← P.configureLcoreParams
  let conf ← configureLcoreTxQueues params
  let d ← run P.initPort (List.range P.nbPorts) d
  return (conf, d)

/-! ## Configuration -/

/-- The loop over the tx queues of an lcore, with the counter `rxqueueid`. -/
def configureQueues : ℕ → List LcoreTxQueue → List LcoreTxQueue × ℕ
  | rxqueueid, [] => ([], rxqueueid)
  | rxqueueid, q :: qs =>
    let rest := configureQueues ((rxqueueid + 1) % 2 ^ 16) qs
    ({ q with rxQueueId := rxqueueid % 2 ^ 8, rxPortIds := List.range P.nbPorts } :: rest.1, rest.2)

/-- The body of the loop over the lcores. -/
def configureLcore (s : LcoreConf × ℕ) (lcoreId : ℕ) : LcoreConf × ℕ :=
  let queues := P.configureQueues s.2 (s.1 lcoreId)
  (Function.update s.1 lcoreId queues.1, queues.2)

def dpConfigure (conf : LcoreConf) : LcoreConf := (P.lcores.foldl P.configureLcore (conf, 0)).1

/-! ## Rules -/

/-- `get_rxqueues_id`, which is -1 as a `uint16_t` for an unknown port. -/
def getRxqueuesId (conf : LcoreConf) (portId : ℕ) : ℕ :=
  match P.lcores.findSome? fun lcoreId => (conf lcoreId).find? fun q => q.portId == portId with
  | some q => q.rxQueueId
  | none => 2 ^ 16 - 1

/-- A filter for a destination address, in a NIC. -/
structure Filter where
  portId : ℕ
  softId : BitVec 32
  ipv4 : BitVec 32
  queueId : ℕ
deriving DecidableEq, Repr

/-- The counter `nb_ip_routes`, and the filters in the NICs. -/
structure Routes where
  nbIpRoutes : BitVec 32
  filters : List Filter
deriving DecidableEq, Repr

/-- `add_ipv4_rule`, with the results of the calls of the packet library: a filter that is not
added is logged only, and the result is that of the last port. -/
def addIpv4Rule (conf : LcoreConf) (rets : ℕ → ℤ) (ipv4 : BitVec 32) (portOutId : ℕ)
    (routes : Routes) : ℤ × Routes :=
  let queueId := P.getRxqueuesId conf portOutId
  let added := (List.range P.nbPorts).filter fun portId => 0 ≤ rets portId
  (((List.range P.nbPorts).map rets).getLast?.getD 0,
    { nbIpRoutes := routes.nbIpRoutes + 1
      filters := routes.filters ++
        added.map fun portId => ⟨portId, routes.nbIpRoutes, ipv4, queueId⟩ })

end Platform

end DaqSwitch.VoqHwq
