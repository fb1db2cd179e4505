import DaqSwitch.Lib.Machine

/-!
# The records of the software-queue data path

Constants and structures of `dp_voq_swq.h`.  Arrays are functions of the index and hold
the zero record where nothing was written, as the static storage of the program does.
Port, queue and lcore numbers are natural numbers; values that the code truncates or
masks are bit vectors of the width of their C type.
-/

namespace DaqSwitch.VoqSwq

/-! ## Constants -/

/-- Index of the lcore that serves the default queues. -/
def dpLcoreIdDefault : ℕ := 0

/-- Capacity of an lcore's `port_list`. -/
def dpLcorePortMax : ℕ := 16

def dpPortTxqIdReq : ℕ := 1
def dpPortTxqIdData : ℕ := 2
def dpPortRxqIdDataMin : ℕ := 1
def dpPortMaxPktBurstRx : ℕ := 32
def dpPortMaxPktBurstTx : ℕ := 32

/-- Number of slots of a port's flow table. -/
def dpPortMaxDataFlows : ℕ := 64

/-- Mask for the part of a flow-director id that names the output queue. -/
def dpFdirOutQueueMask : BitVec 16 := 0x3f

/-- Number of bits of `dpFdirOutQueueMask`. -/
def dpFdirOutQueueMaskSize : ℕ := 6

/-! ## Records -/

inductive DpLcoreType
  | unused
  | default
  | dataRx
  | dataTx
deriving DecidableEq, Repr

structure DataRxQueue where
  queueId : ℕ
  outPortId : ℕ
deriving DecidableEq, Repr

structure DataFlow where
  active : Bool
  reqFlow : Bool
  destIp : BitVec 32
  sinkId : BitVec 32
deriving DecidableEq, Repr

structure LcoreDataRxPortConf where
  portId : ℕ
  nbQueues : ℕ
  queueList : ℕ → DataRxQueue

@[ext]
structure LcoreDataTxPortConf where
  portId : ℕ
  activeFlows : BitVec 64
deriving DecidableEq, Repr

/-- Parameters of one lcore.  The two port lists share their storage in the source; which
of them is in use is decided by `type`. -/
@[ext]
structure DpLcoreParams where
  id : ℕ
  type : DpLcoreType
  nbPorts : ℕ
  rx : ℕ → LcoreDataRxPortConf
  tx : ℕ → LcoreDataTxPortConf

/-- The name under which a ring was created, standing for its `struct rte_ring *`. -/
structure RteRing where
  port : ℕ
  queue : ℕ
deriving DecidableEq, Repr

/-- The global `dp`; a ring that was not created is a null pointer. -/
@[ext]
structure DpParams where
  lcores : ℕ → DpLcoreParams
  nbLcores : ℕ
  rings : ℕ → ℕ → Option RteRing
  flows : ℕ → ℕ → DataFlow

/-! ## Zero records -/

instance : Inhabited DataRxQueue := ⟨⟨0, 0⟩⟩
instance : Inhabited DataFlow := ⟨⟨false, false, 0, 0⟩⟩
instance : Inhabited LcoreDataRxPortConf := ⟨⟨0, 0, fun _ => default⟩⟩
instance : Inhabited LcoreDataTxPortConf := ⟨⟨0, 0⟩⟩
instance : Inhabited DpLcoreParams := ⟨⟨0, .unused, 0, fun _ => default, fun _ => default⟩⟩

/-- The zeroed `dp`, with the rings that were created. -/
def DpParams.zeroed (rings : ℕ → ℕ → Option RteRing) : DpParams :=
  ⟨fun _ => default, 0, rings, fun _ _ => default⟩

/-! ## Updates -/

/-- Write the type of an lcore. -/
def DpLcoreParams.setType (lp : DpLcoreParams) (type : DpLcoreType) : DpLcoreParams :=
  { lp with type := type }

@[simp] lemma DpLcoreParams.setType_type (lp : DpLcoreParams) (type : DpLcoreType) :
    (lp.setType type).type = type := rfl

/-- Write the record of lcore `l`. -/
def DpParams.setLcore (dp : DpParams) (l : ℕ) (lp : DpLcoreParams) : DpParams :=
  { dp with lcores := Function.update dp.lcores l lp }

@[simp] lemma DpParams.setLcore_nbLcores (dp : DpParams) (l : ℕ) (lp : DpLcoreParams) :
    (dp.setLcore l lp).nbLcores = dp.nbLcores := rfl

@[simp] lemma DpParams.setLcore_lcores_self (dp : DpParams) (l : ℕ) (lp : DpLcoreParams) :
    (dp.setLcore l lp).lcores l = lp := Function.update_self ..

lemma DpParams.setLcore_lcores_of_ne {l l' : ℕ} (h : l' ≠ l) (dp : DpParams)
    (lp : DpLcoreParams) : (dp.setLcore l lp).lcores l' = dp.lcores l' :=
  Function.update_of_ne h ..

/-- A write that keeps a field of the record keeps that field of all lcores. -/
lemma DpParams.setLcore_keeps {β : Type*} (f : DpLcoreParams → β) {dp : DpParams} {l : ℕ}
    {lp : DpLcoreParams} (h : f lp = f (dp.lcores l)) (l' : ℕ) :
    f ((dp.setLcore l lp).lcores l') = f (dp.lcores l') :=
  Lib.Machine.apply_update_eq f h l'

end DaqSwitch.VoqSwq
