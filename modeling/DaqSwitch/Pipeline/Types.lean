import DaqSwitch.Lib.Machine

/-!
# Pipelines

`struct pipeline_params` of `pipeline.h` and the functions of `pipeline.c` that set it up.  The
`rte_pipeline` behind it is a value of any type, and the ids that it gives to the ports are a
parameter.  `PIPELINE_ERR` leaves a pipeline as it is and is modelled by `none`.
-/

namespace DaqSwitch.Pipeline

open Lib

def pipelineQueueInMax : ℕ := 64

def pipelineQueueOutMax : ℕ := 64

/-- `enum pipeline_type`. -/
inductive PipelineType
  | none
  | default
  | rxData
  | txData
  | max
deriving DecidableEq, Repr

/-- An entry of `q_in`. -/
structure QueueIn where
  portId : ℕ
  queueId : ℕ
  ring : Option ℕ
  rtePipelinePortId : BitVec 32
  enabled : Bool

/-- An entry of `q_out`. -/
structure QueueOut where
  portId : ℕ
  queueId : ℕ
  ring : Option ℕ
  rtePipelinePortId : BitVec 32
  dip : BitVec 32
  eventId : BitVec 32

/-- `struct pipeline_params`.  The entries of the arrays from `nb_q_in` and `nb_q_out` on are
whatever the memory holds. -/
structure PipelineParams (ρ : Type*) where
  pipeline : ρ
  type : PipelineType
  lcoreId : ℕ
  qIn : ℕ → QueueIn
  nbQIn : ℕ
  qOut : ℕ → QueueOut
  nbQOut : ℕ

namespace PipelineParams

variable {ρ : Type*}

/-- The port and the queue of an input, by which callers name it. -/
def inPair (pp : PipelineParams ρ) (i : ℕ) : ℕ × ℕ := ((pp.qIn i).portId, (pp.qIn i).queueId)

/-- `pp->q_in[i].enabled = true`. -/
def enableIn (pp : PipelineParams ρ) (i : ℕ) : PipelineParams ρ :=
  { pp with qIn := Function.update pp.qIn i { pp.qIn i with enabled := true } }

@[simp] lemma enableIn_inPair (pp : PipelineParams ρ) (i j : ℕ) :
    (pp.enableIn i).inPair j = pp.inPair j := by
  by_cases h : j = i <;> simp [inPair, enableIn, h]

@[simp] lemma enableIn_rteId (pp : PipelineParams ρ) (i j : ℕ) :
    ((pp.enableIn i).qIn j).rtePipelinePortId = (pp.qIn j).rtePipelinePortId := by
  by_cases h : j = i <;> simp [enableIn, h]

/-! ## Setting up -/

/-- `pipeline_init`, on whatever `pp` points to. -/
def pipelineInit (pp : PipelineParams ρ) (lcoreId : ℕ) (type : PipelineType) :
    Option (PipelineParams ρ) :=
  if type = .max then none
  else some { pp with lcoreId := lcoreId, type := type, nbQIn := 0, nbQOut := 0 }

/-- `pipeline_init_port_out`. -/
def pipelineInitPortOut (pp : PipelineParams ρ) (outPortId outQueueId : ℕ)
    (outRing : Option ℕ) : Option (PipelineParams ρ) :=
  if pp.nbQOut ≥ pipelineQueueOutMax then none
  else if outRing ≠ none ∧ pp.type = .txData then none
  else if outRing = none ∧ pp.type = .rxData then none
  else if pp.nbQOut > 0 ∧ pp.type = .rxData ∧ (pp.qOut (pp.nbQOut - 1)).portId ≠ outPortId then none
  else if pp.nbQOut > 0 ∧ pp.type = .txData ∧ (pp.qOut (pp.nbQOut - 1)).portId ≠ outPortId then none
  else
    let q := pp.qOut pp.nbQOut
    some { pp with
      qOut := Function.update pp.qOut pp.nbQOut
        { q with portId := outPortId, queueId := outQueueId, ring := outRing }
      nbQOut := pp.nbQOut + 1 }

/-- `pipeline_init_port_in`. -/
def pipelineInitPortIn (pp : PipelineParams ρ) (inPortId inQueueId : ℕ)
    (inRing : Option ℕ) : Option (PipelineParams ρ) :=
  if pp.nbQIn ≥ pipelineQueueInMax then none
  else if inRing = none ∧ pp.type = .txData then none
  else if inRing ≠ none ∧ pp.type = .rxData then none
  else if pp.nbQIn > 0 ∧ pp.type = .rxData ∧ (pp.qIn (pp.nbQIn - 1)).queueId ≠ inQueueId then none
  else if pp.nbQIn > 0 ∧ pp.type = .txData ∧ (pp.qIn (pp.nbQIn - 1)).portId ≠ inPortId then none
  else
    let q := pp.qIn pp.nbQIn
    some { pp with
      qIn := Function.update pp.qIn pp.nbQIn
        { q with portId := inPortId, queueId := inQueueId, ring := inRing, enabled := false }
      nbQIn := pp.nbQIn + 1 }

end PipelineParams

/-- A call that adds a port to a pipeline. -/
inductive PortOp where
  | portIn (portId queueId : ℕ) (ring : Option ℕ)
  | portOut (portId queueId : ℕ) (ring : Option ℕ)

/-- The pipeline after a call. -/
def initPort {ρ : Type*} (op : PortOp) (pp : PipelineParams ρ) : Option (PipelineParams ρ) :=
  some <| match op with
    | .portIn portId queueId ring => (pp.pipelineInitPortIn portId queueId ring).getD pp
    | .portOut portId queueId ring => (pp.pipelineInitPortOut portId queueId ring).getD pp

/-- The inputs that the calls ask for. -/
def PortOp.inputs (ops : List PortOp) : List (ℕ × ℕ) :=
  ops.filterMap fun
    | .portIn portId queueId _ => some (portId, queueId)
    | .portOut _ _ _ => none

/-! ## Configuring -/

/-- What the `rte_pipeline` library returns when a pipeline is configured: the pipeline, and the
ids of the ports by their index. -/
structure RteCreated (ρ : Type*) where
  pipeline : ρ
  portIn : ℕ → BitVec 32
  portOut : ℕ → BitVec 32

namespace PipelineParams

variable {ρ : Type*}

/-- The loops of the configure functions that create the ports. -/
def assignIds (pp : PipelineParams ρ) (rte : RteCreated ρ) : PipelineParams ρ :=
  { pp with
    pipeline := rte.pipeline
    qIn := fun i =>
      if i < pp.nbQIn then { pp.qIn i with rtePipelinePortId := rte.portIn i } else pp.qIn i
    qOut := fun i =>
      if i < pp.nbQOut then { pp.qOut i with rtePipelinePortId := rte.portOut i } else pp.qOut i }

/-- The loop that enables all inputs, compiled without `PIPELINE_DATA_DISABLE`. -/
def enableAll (pp : PipelineParams ρ) (dataDisable : Bool) : PipelineParams ρ :=
  if dataDisable then pp
  else
    { pp with
      qIn := fun i => if i < pp.nbQIn then { pp.qIn i with enabled := true } else pp.qIn i }

/-- `pipeline_default_configure`; `none` stands for a failed `RTE_VERIFY` here and below. -/
def pipelineDefaultConfigure (pp : PipelineParams ρ) (rte : RteCreated ρ) :
    Option (PipelineParams ρ) :=
  if pp.type = .default then some (pp.assignIds rte) else none

/-- `pipeline_rx_data_configure`. -/
def pipelineRxDataConfigure (pp : PipelineParams ρ) (rte : RteCreated ρ) (dataDisable : Bool) :
    Option (PipelineParams ρ) :=
  if pp.type = .rxData ∧ ∀ i < pp.nbQOut, (pp.qOut i).ring ≠ none then
    some ((pp.assignIds rte).enableAll dataDisable)
  else none

/-- `pipeline_tx_data_configure`.  Its check of the numbers of ports is an assignment,
`RTE_VERIFY(params->nb_q_out = params->nb_q_in)`. -/
def pipelineTxDataConfigure (pp : PipelineParams ρ) (rte : RteCreated ρ) (dataDisable : Bool) :
    Option (PipelineParams ρ) :=
  if pp.type = .txData ∧ (∀ i < pp.nbQIn, (pp.qIn i).ring ≠ none) ∧ pp.nbQIn ≠ 0 then
    some ((({ pp with nbQOut := pp.nbQIn } : PipelineParams ρ).assignIds rte).enableAll dataDisable)
  else none

/-- The configure function for the type of a pipeline. -/
def pipelineConfigure (pp : PipelineParams ρ) (rte : RteCreated ρ) (dataDisable : Bool) :
    Option (PipelineParams ρ) :=
  match pp.type with
  | .default => pp.pipelineDefaultConfigure rte
  | .rxData => pp.pipelineRxDataConfigure rte dataDisable
  | .txData => pp.pipelineTxDataConfigure rte dataDisable
  | .none | .max => none

/-- A pipeline as the program builds it: initialised, given its ports and configured. -/
def build (mem : PipelineParams ρ) (lcoreId : ℕ) (type : PipelineType) (ops : List PortOp)
    (rte : RteCreated ρ) (dataDisable : Bool) : Option (PipelineParams ρ) :=
  (mem.pipelineInit lcoreId type).bind fun pp =>
    (Machine.run initPort ops pp).bind fun pp => pp.pipelineConfigure rte dataDisable

/-! ## The inputs of a pipeline that was built -/

/-- The inputs have pairwise distinct names and internal ids. -/
structure DistinctIn (pp : PipelineParams ρ) : Prop where
  inPair : ∀ i < pp.nbQIn, ∀ j < pp.nbQIn, pp.inPair i = pp.inPair j → i = j
  rteId : ∀ i < pp.nbQIn, ∀ j < pp.nbQIn,
    (pp.qIn i).rtePipelinePortId = (pp.qIn j).rtePipelinePortId → i = j

/-- What holds while the ports are added, with the names that are still to come. -/
structure Adding (later : List (ℕ × ℕ)) (pp : PipelineParams ρ) : Prop where
  bound : pp.nbQIn ≤ pipelineQueueInMax
  inPair : ∀ i < pp.nbQIn, ∀ j < pp.nbQIn, pp.inPair i = pp.inPair j → i = j
  fresh : ∀ i < pp.nbQIn, pp.inPair i ∉ later
  nodup : later.Nodup

lemma Adding.tail {pair : ℕ × ℕ} {later : List (ℕ × ℕ)} {pp : PipelineParams ρ}
    (h : Adding (pair :: later) pp) : Adding later pp :=
  ⟨h.bound, h.inPair, fun i hi hmem => h.fresh i hi (List.mem_cons_of_mem _ hmem),
    (List.nodup_cons.mp h.nodup).2⟩

/-- An input that is added has a new name. -/
lemma Adding.portIn {portId queueId : ℕ} {ring : Option ℕ} {later : List (ℕ × ℕ)}
    {pp pp' : PipelineParams ρ} (h : Adding ((portId, queueId) :: later) pp)
    (hadd : pp.pipelineInitPortIn portId queueId ring = some pp') : Adding later pp' := by
  have hnew : pp.nbQIn < pipelineQueueInMax ∧ pp'.nbQIn = pp.nbQIn + 1 ∧
      ∀ i, pp'.inPair i = if i = pp.nbQIn then (portId, queueId) else pp.inPair i := by
    simp only [pipelineInitPortIn, Option.ite_none_left_eq_some, Option.some_inj] at hadd
    obtain ⟨hroom, -, -, -, -, rfl⟩ := hadd
    refine ⟨not_le.mp hroom, rfl, ?_⟩
    intro i
    by_cases hi : i = pp.nbQIn <;> simp [PipelineParams.inPair, hi]
  obtain ⟨hroom, hnb, hpair⟩ := hnew
  have hhead : ∀ i < pp.nbQIn, pp.inPair i ≠ (portId, queueId) :=
    fun i hi heq => h.fresh i hi (heq ▸ List.mem_cons_self)
  refine ⟨by omega, ?_, ?_, (List.nodup_cons.mp h.nodup).2⟩
  · intro i hi j hj heq
    rw [hpair, hpair] at heq
    split at heq <;> split at heq
    · omega
    · exact absurd heq.symm (hhead j (by omega))
    · exact absurd heq (hhead i (by omega))
    · exact h.inPair i (by omega) j (by omega) heq
  · intro i hi
    rw [hpair]
    split
    · exact (List.nodup_cons.mp h.nodup).1
    · exact h.tail.fresh i (by omega)

/-- Adding an output leaves the inputs alone. -/
lemma pipelineInitPortOut_inputs {portId queueId : ℕ} {ring : Option ℕ}
    {pp pp' : PipelineParams ρ} (hadd : pp.pipelineInitPortOut portId queueId ring = some pp') :
    pp'.nbQIn = pp.nbQIn ∧ pp'.qIn = pp.qIn := by
  simp only [pipelineInitPortOut, Option.ite_none_left_eq_some, Option.some_inj] at hadd
  obtain ⟨-, -, -, -, -, rfl⟩ := hadd
  exact ⟨rfl, rfl⟩

/-- One call. -/
lemma Adding.initPort {op : PortOp} {ops : List PortOp} {pp : PipelineParams ρ}
    (h : Adding (PortOp.inputs (op :: ops)) pp) :
    ∃ pp', initPort op pp = some pp' ∧ Adding (PortOp.inputs ops) pp' := by
  cases op with
  | portIn portId queueId ring =>
    refine ⟨(pp.pipelineInitPortIn portId queueId ring).getD pp, rfl, ?_⟩
    cases hadd : pp.pipelineInitPortIn portId queueId ring with
    | none => exact h.tail
    | some pp' => exact h.portIn hadd
  | portOut portId queueId ring =>
    refine ⟨(pp.pipelineInitPortOut portId queueId ring).getD pp, rfl, ?_⟩
    cases hadd : pp.pipelineInitPortOut portId queueId ring with
    | none => exact h
    | some pp' =>
      obtain ⟨hnb, hq⟩ := pipelineInitPortOut_inputs hadd
      have hpair (i : ℕ) : pp'.inPair i = pp.inPair i := by
        simp only [PipelineParams.inPair, hq]
      refine ⟨hnb ▸ h.bound, ?_, ?_, h.nodup⟩
      · simpa only [Option.getD_some, hpair, hnb] using h.inPair
      · simp only [Option.getD_some, hpair, hnb]
        exact h.fresh

/-- A run of calls with distinct inputs. -/
lemma Adding.run {ops : List PortOp} {pp pp' : PipelineParams ρ}
    (h : Adding (PortOp.inputs ops) pp) (hrun : Machine.run Pipeline.initPort ops pp = some pp') :
    Adding [] pp' := by
  obtain ⟨t, ht, hadding⟩ := Machine.run_total_rest
    (I := fun ops pp => Adding (PortOp.inputs ops) pp) (fun _ _ _ hpp => hpp.initPort) h
  rw [hrun, Option.some_inj] at ht
  exact ht ▸ hadding

/-- The configure functions keep the names of the inputs and give them their ids. -/
lemma pipelineConfigure_inputs {pp pp' : PipelineParams ρ} {rte : RteCreated ρ}
    {dataDisable : Bool} (h : pp.pipelineConfigure rte dataDisable = some pp') :
    pp'.nbQIn = pp.nbQIn ∧ (∀ i, pp'.inPair i = pp.inPair i) ∧
      ∀ i < pp.nbQIn, (pp'.qIn i).rtePipelinePortId = rte.portIn i := by
  have hassign (pp : PipelineParams ρ) : (pp.assignIds rte).nbQIn = pp.nbQIn ∧
      (∀ i, (pp.assignIds rte).inPair i = pp.inPair i) ∧
      ∀ i < pp.nbQIn, ((pp.assignIds rte).qIn i).rtePipelinePortId = rte.portIn i := by
    refine ⟨rfl, ?_, ?_⟩
    · intro i
      by_cases hi : i < pp.nbQIn <;> simp [inPair, assignIds, hi]
    · intro i hi
      simp [assignIds, hi]
  have henable (pp : PipelineParams ρ) : (pp.enableAll dataDisable).nbQIn = pp.nbQIn ∧
      (∀ i, (pp.enableAll dataDisable).inPair i = pp.inPair i) ∧
      ∀ i, ((pp.enableAll dataDisable).qIn i).rtePipelinePortId =
        (pp.qIn i).rtePipelinePortId := by
    unfold enableAll
    split
    · exact ⟨rfl, fun _ => rfl, fun _ => rfl⟩
    · refine ⟨rfl, ?_, ?_⟩
      · intro i
        by_cases hi : i < pp.nbQIn <;> simp [inPair, hi]
      · intro i
        by_cases hi : i < pp.nbQIn <;> simp [hi]
  -- for both data pipelines the ids are assigned and then the inputs enabled
  have hboth (qp : PipelineParams ρ) (hnb : qp.nbQIn = pp.nbQIn) (hq : qp.qIn = pp.qIn)
      (heq : (qp.assignIds rte).enableAll dataDisable = pp') :
      pp'.nbQIn = pp.nbQIn ∧ (∀ i, pp'.inPair i = pp.inPair i) ∧
        ∀ i < pp.nbQIn, (pp'.qIn i).rtePipelinePortId = rte.portIn i := by
    subst heq
    obtain ⟨hnb₁, hpair₁, hid₁⟩ := hassign qp
    obtain ⟨hnb₂, hpair₂, hid₂⟩ := henable (qp.assignIds rte)
    refine ⟨by rw [hnb₂, hnb₁, hnb], ?_, ?_⟩
    · intro i
      rw [hpair₂, hpair₁, inPair, inPair, hq]
    · intro i hi
      rw [hid₂, hid₁ i (by omega)]
  unfold pipelineConfigure at h
  split at h
  · simp only [pipelineDefaultConfigure, Option.ite_none_right_eq_some, Option.some_inj] at h
    obtain ⟨-, rfl⟩ := h
    exact hassign pp
  · simp only [pipelineRxDataConfigure, Option.ite_none_right_eq_some, Option.some_inj] at h
    exact hboth pp rfl rfl h.2
  · simp only [pipelineTxDataConfigure, Option.ite_none_right_eq_some, Option.some_inj] at h
    exact hboth { pp with nbQOut := pp.nbQIn } rfl rfl h.2
  · cases h
  · cases h

/-- A pipeline that was built from calls with distinct inputs has distinct inputs. -/
lemma distinctIn_of_build {mem pp : PipelineParams ρ} {lcoreId : ℕ} {type : PipelineType}
    {ops : List PortOp} {rte : RteCreated ρ} {dataDisable : Bool}
    (hnodup : (PortOp.inputs ops).Nodup)
    (hids : ∀ i < pipelineQueueInMax, ∀ j < pipelineQueueInMax,
      rte.portIn i = rte.portIn j → i = j)
    (h : build mem lcoreId type ops rte dataDisable = some pp) : DistinctIn pp := by
  obtain ⟨pp₁, hinit, h⟩ := Option.bind_eq_some_iff.mp h
  obtain ⟨pp₂, hrun, hconf⟩ := Option.bind_eq_some_iff.mp h
  have hstart : Adding (PortOp.inputs ops) pp₁ := by
    simp only [pipelineInit, Option.ite_none_left_eq_some, Option.some_inj] at hinit
    obtain ⟨-, rfl⟩ := hinit
    exact ⟨Nat.zero_le _, fun i hi => absurd hi (Nat.not_lt_zero i),
      fun i hi => absurd hi (Nat.not_lt_zero i), hnodup⟩
  have hadded := hstart.run hrun
  have hbound := hadded.bound
  obtain ⟨hnb, hpair, hid⟩ := pipelineConfigure_inputs hconf
  constructor
  · intro i hi j hj heq
    rw [hpair, hpair] at heq
    exact hadded.inPair i (by omega) j (by omega) heq
  · intro i hi j hj heq
    rw [hid i (by omega), hid j (by omega)] at heq
    exact hids i (by omega) j (by omega) heq

end PipelineParams

end DaqSwitch.Pipeline
