import DaqSwitch.Lib.CyclicScan
import DaqSwitch.VoqSwq.Types

/-!
# Initialisation of the software-queue data path

`init_rings` and `init_lcores` of `dp_voq_swq.c`.  A tripped `RTE_VERIFY` ends the
program; it is the result `none`.
-/

namespace DaqSwitch.VoqSwq

open Lib.Machine Lib.CyclicScan

/-- The machine the data path is started on. -/
structure Platform where
  /-- The worker lcores in the order of `RTE_LCORE_FOREACH_SLAVE`. -/
  slaves : List ℕ
  /-- `rte_lcore_to_socket_id`. -/
  lcoreSocket : ℕ → ℕ
  /-- `DAQSWITCH_PORT_GET_NUMA`. -/
  portSocket : ℕ → ℕ
  /-- `rte_eth_dev_count`. -/
  devCount : ℕ
  /-- `RTE_MAX_ETHPORTS`, a build option of the packet library. -/
  rteMaxEthports : ℕ
  /-- Whether `rte_ring_create` finds the memory for ring `j` of port `i`. -/
  ringCreate : ℕ → ℕ → Bool

/-- `daqswitch_get_nb_ports`, as `daqswitch_init` sets it. -/
def Platform.nbPorts (P : Platform) : ℕ :=
  if P.devCount > P.rteMaxEthports then P.rteMaxEthports else P.devCount

lemma Platform.nbPorts_le (P : Platform) : P.nbPorts ≤ P.rteMaxEthports := by
  unfold Platform.nbPorts
  split <;> omega

/-- The machine with `n` ports. -/
def Platform.withPorts (P : Platform) (n : ℕ) : Platform := { P with devCount := n }

/-- `DP_PORT_RXQ_MAX`. -/
def Platform.dpPortRxqMax (P : Platform) : ℕ := P.rteMaxEthports + 1

/-! ## Rings -/

/-- `init_rings`: the loop over the queues of a port stops one short of
`dpPortMaxDataFlows`. -/
def initRings (P : Platform) (dp : DpParams) : Option DpParams :=
  if ∀ i < P.nbPorts, ∀ j < dpPortMaxDataFlows - 1, P.ringCreate i j = true then
    some { dp with
      rings := fun i j =>
        if i < P.nbPorts ∧ j < dpPortMaxDataFlows - 1 then some ⟨i, j⟩ else dp.rings i j }
  else none

/-! ## Lcores -/

/-- The first loop of `init_lcores`. -/
def registerLcore (dp : DpParams) (lcoreId : ℕ) : DpParams :=
  { dp.setLcore dp.nbLcores
      { dp.lcores dp.nbLcores with id := lcoreId, nbPorts := 0, type := .unused } with
    nbLcores := dp.nbLcores + 1 }

def initLcoreDefault (dp : DpParams) : Option DpParams :=
  if dp.nbLcores ≥ 1 ∧ (dp.lcores dpLcoreIdDefault).type = .unused then
    some (dp.setLcore dpLcoreIdDefault ((dp.lcores dpLcoreIdDefault).setType .default))
  else none

/-- Number of lcores of a type. -/
def nbLcoresOfType (dp : DpParams) (type : DpLcoreType) : ℕ :=
  ((List.range dp.nbLcores).filter fun i => (dp.lcores i).type = type).length

/-- The third loop of `init_lcores`, entered at index `i`: the free lcores become data rx
and data tx in turn.  The step after a data rx lcore does not look at the type again. -/
def setDataTypes (nb : ℕ) : ℕ → ℕ → (ℕ → DpLcoreParams) → ℕ → DpLcoreParams
  | 0, _, lcores => lcores
  | fuel + 1, i, lcores =>
    if i < nb then
      if (lcores i).type ≠ .unused then setDataTypes nb fuel (i + 1) lcores
      else
        let lcores := Function.update lcores i ((lcores i).setType .dataRx)
        if i + 1 < nb then
          setDataTypes nb fuel (i + 2)
            (Function.update lcores (i + 1) ((lcores (i + 1)).setType .dataTx))
        else setDataTypes nb fuel (i + 1) lcores
    else lcores

/-- `init_lcores` up to the assignment of the types. -/
def typeLcores (P : Platform) (dp : DpParams) : Option DpParams :=
  (initLcoreDefault (P.slaves.foldl registerLcore dp)).bind fun dp =>
    if 2 ≤ nbLcoresOfType dp .unused then
      some { dp with lcores := setDataTypes dp.nbLcores dp.nbLcores 0 dp.lcores }
    else none

/-! ## Distribution of the ports -/

/-- Position of an lcore in `dp.lcores`. -/
def internalId (dp : DpParams) (lcoreId : ℕ) : Option ℕ :=
  (List.range dp.nbLcores).find? fun i => (dp.lcores i).id == lcoreId

/-- The test that `get_next_lcore` makes on each candidate. -/
def candidate (P : Platform) (dp : DpParams) (type : DpLcoreType) (socketId : ℕ)
    (numaOk : Bool) (id : ℕ) : Bool :=
  (dp.lcores id).type == type && decide ((dp.lcores id).nbPorts < dpLcorePortMax)
    && (!numaOk || socketId == P.lcoreSocket (dp.lcores id).id)

/-- `get_next_lcore`: a strict pass over all lcores, then one that ignores the socket.
The outer `none` is the tripped `RTE_VERIFY`, the inner one the null pointer. -/
def getNextLcore (P : Platform) (dp : DpParams) (lcoreId : ℕ) (type : DpLcoreType)
    (socketId : ℕ) : Option (Option ℕ) :=
  (internalId dp lcoreId).map fun k =>
    (scan dp.nbLcores k (candidate P dp type socketId true)).or
      (scan dp.nbLcores k (candidate P dp type socketId false))

/-- How the two distribution loops differ: the type of lcore they look for and the entry
they write at index `nb_ports` of its port list. -/
structure PortWriter where
  type : DpLcoreType
  write : ℕ → DpLcoreParams → DpLcoreParams
  portId : DpLcoreParams → ℕ → ℕ
  write_id : ∀ p lp, (write p lp).id = lp.id
  write_type : ∀ p lp, (write p lp).type = lp.type
  write_nbPorts : ∀ p lp, (write p lp).nbPorts = lp.nbPorts
  portId_write : ∀ p lp k, portId (write p lp) k = if k = lp.nbPorts then p else portId lp k
  portId_nbPorts : ∀ lp n k, portId { lp with nbPorts := n } k = portId lp k

/-- The rx queues of a port: one for each output port. -/
def rxQueueList (nbPorts queue : ℕ) : DataRxQueue :=
  if queue < nbPorts then ⟨dpPortRxqIdDataMin + queue, queue⟩ else default

/-- The body of the loop of `init_lcores_data_rx`. -/
def dataRxWriter (nbPorts : ℕ) : PortWriter where
  type := .dataRx
  write p lp := { lp with rx := Function.update lp.rx lp.nbPorts ⟨p, nbPorts, rxQueueList nbPorts⟩ }
  portId lp k := (lp.rx k).portId
  write_id _ _ := rfl
  write_type _ _ := rfl
  write_nbPorts _ _ := rfl
  portId_write p lp k := by
    by_cases h : k = lp.nbPorts
    · simp [h]
    · simp [h]
  portId_nbPorts _ _ _ := rfl

/-- The body of the loop of `init_lcores_data_tx`. -/
def dataTxWriter : PortWriter where
  type := .dataTx
  write p lp :=
    { lp with tx := Function.update lp.tx lp.nbPorts { lp.tx lp.nbPorts with portId := p } }
  portId lp k := (lp.tx k).portId
  write_id _ _ := rfl
  write_type _ _ := rfl
  write_nbPorts _ _ := rfl
  portId_write p lp k := by
    by_cases h : k = lp.nbPorts
    · simp [h]
    · simp [h]
  portId_nbPorts _ _ _ := rfl

/-- One round of the distribution loops on `dp` and `prev_lcore_id`. -/
def assignPort (P : Platform) (W : PortWriter) (port : ℕ) (s : DpParams × ℕ) :
    Option (DpParams × ℕ) :=
  (getNextLcore P s.1 s.2 W.type (P.portSocket port)).join.map fun id =>
    let lp := W.write port (s.1.lcores id)
    (s.1.setLcore id { lp with nbPorts := lp.nbPorts + 1 }, lp.id)

/-- Both distribution loops: they start after the default lcore. -/
def distributePorts (P : Platform) (W : PortWriter) (dp : DpParams) : Option DpParams :=
  (run (assignPort P W) (List.range P.nbPorts) (dp, (dp.lcores dpLcoreIdDefault).id)).map
    Prod.fst

def initLcoresDataRx (P : Platform) (dp : DpParams) : Option DpParams :=
  if P.nbPorts ≤ P.dpPortRxqMax then distributePorts P (dataRxWriter P.nbPorts) dp else none

def initLcoresDataTx (P : Platform) (dp : DpParams) : Option DpParams :=
  distributePorts P dataTxWriter dp

def initLcores (P : Platform) (dp : DpParams) : Option DpParams :=
  (typeLcores P dp).bind fun dp => (initLcoresDataRx P dp).bind (initLcoresDataTx P)

/-- The part of `dp_init` that builds `dp`, from its zeroed storage. -/
def dpInit (P : Platform) : Option DpParams :=
  (initRings P (DpParams.zeroed fun _ _ => none)).bind (initLcores P)

end DaqSwitch.VoqSwq
