import DaqSwitch.Pipeline.PortIn

/-!
# The shape of a pipeline

`pipeline_init_port_in` and `pipeline_init_port_out` compare a new port only with the last one of
its array.  By induction over the accepted calls this fixes the shape of the whole arrays: which
entries have a ring, and which ports and queues they share.

The two functions are written here statement by statement, so that a call that fails after a write
would leave the write behind.
-/

namespace DaqSwitch.Pipeline

open Lib

/-- A function on a pipeline that ends in `PIPELINE_SUCCESS` or in `goto error`, which keeps the
writes made before it. -/
abbrev PipelineM (ρ : Type*) := ExceptT PUnit (StateM (PipelineParams ρ))

namespace PipelineM

variable {ρ : Type*} {pp : PipelineParams ρ} {f : PipelineM ρ PUnit}

/-- The return value of a call and the pipeline after it. -/
def call (f : PipelineM ρ PUnit) (pp : PipelineParams ρ) : Ret × PipelineParams ρ :=
  match f.run.run pp with
  | (.ok _, pp) => (.success, pp)
  | (.error _, pp) => (.err, pp)

/-- `if (p) { PIPELINE_LOG_ERR_AND_RETURN(..); }`. -/
def errIf (p : Prop) [Decidable p] : PipelineM ρ PUnit := if p then throw ⟨⟩ else pure ⟨⟩

@[simp] lemma call_get_bind (g : PipelineParams ρ → PipelineM ρ PUnit) :
    (get >>= g).call pp = (g pp).call pp := rfl

@[simp] lemma call_errIf_bind (p : Prop) [Decidable p] :
    (errIf p >>= fun _ => f).call pp = if p then (.err, pp) else f.call pp := by
  by_cases h : p
  · rw [if_pos h, errIf, if_pos h]
    rfl
  · rw [if_neg h, errIf, if_neg h]
    rfl

@[simp] lemma call_modify_bind (g : PipelineParams ρ → PipelineParams ρ) :
    (modify g >>= fun _ => f).call pp = f.call (g pp) := rfl

@[simp] lemma call_modify (g : PipelineParams ρ → PipelineParams ρ) :
    call (modify g) pp = (.success, g pp) := rfl

end PipelineM

open PipelineM

namespace PipelineParams

variable {ρ : Type*}

/-- A write to the entry `pp->q_in[pp->nb_q_in]`. -/
def modifyNextIn (f : QueueIn → QueueIn) (pp : PipelineParams ρ) : PipelineParams ρ :=
  { pp with qIn := Function.update pp.qIn pp.nbQIn (f (pp.qIn pp.nbQIn)) }

/-- A write to the entry `pp->q_out[pp->nb_q_out]`. -/
def modifyNextOut (f : QueueOut → QueueOut) (pp : PipelineParams ρ) : PipelineParams ρ :=
  { pp with qOut := Function.update pp.qOut pp.nbQOut (f (pp.qOut pp.nbQOut)) }

/-- The statements of `pipeline_init_port_out`. -/
def portOutBody (outPortId outQueueId : ℕ) (outRing : Option ℕ) : PipelineM ρ PUnit := do
  let pp ← get
  errIf (pp.nbQOut ≥ pipelineQueueOutMax)
  errIf (outRing ≠ none ∧ pp.type = .txData)
  errIf (outRing = none ∧ pp.type = .rxData)
  errIf (pp.nbQOut > 0 ∧ pp.type = .rxData ∧ (pp.qOut (pp.nbQOut - 1)).portId ≠ outPortId)
  errIf (pp.nbQOut > 0 ∧ pp.type = .txData ∧ (pp.qOut (pp.nbQOut - 1)).portId ≠ outPortId)
  modify (modifyNextOut fun q => { q with portId := outPortId })
  modify (modifyNextOut fun q => { q with queueId := outQueueId })
  modify (modifyNextOut fun q => { q with ring := outRing })
  modify fun pp => { pp with nbQOut := pp.nbQOut + 1 }

/-- The statements of `pipeline_init_port_in`. -/
def portInBody (inPortId inQueueId : ℕ) (inRing : Option ℕ) : PipelineM ρ PUnit := do
  let pp ← get
  errIf (pp.nbQIn ≥ pipelineQueueInMax)
  errIf (inRing = none ∧ pp.type = .txData)
  errIf (inRing ≠ none ∧ pp.type = .rxData)
  errIf (pp.nbQIn > 0 ∧ pp.type = .rxData ∧ (pp.qIn (pp.nbQIn - 1)).queueId ≠ inQueueId)
  errIf (pp.nbQIn > 0 ∧ pp.type = .txData ∧ (pp.qIn (pp.nbQIn - 1)).portId ≠ inPortId)
  modify (modifyNextIn fun q => { q with portId := inPortId })
  modify (modifyNextIn fun q => { q with queueId := inQueueId })
  modify (modifyNextIn fun q => { q with ring := inRing })
  modify (modifyNextIn fun q => { q with enabled := false })
  modify fun pp => { pp with nbQIn := pp.nbQIn + 1 }

/-- A call, as its statements do it. -/
def portCall : PortOp → PipelineParams ρ → Ret × PipelineParams ρ
  | .portIn portId queueId ring => (portInBody portId queueId ring).call
  | .portOut portId queueId ring => (portOutBody portId queueId ring).call

/-- The pipeline after the calls `ops`. -/
def portCalls (ops : List PortOp) (pp : PipelineParams ρ) : PipelineParams ρ :=
  ops.foldl (fun pp op => (portCall op pp).2) pp

/-! ## The statements and their effect -/

lemma call_portOutBody (outPortId outQueueId : ℕ) (outRing : Option ℕ) (pp : PipelineParams ρ) :
    (portOutBody outPortId outQueueId outRing).call pp =
      match pp.pipelineInitPortOut outPortId outQueueId outRing with
      | some pp' => (.success, pp')
      | none => (.err, pp) := by
  simp only [portOutBody, call_get_bind, call_errIf_bind, call_modify_bind, call_modify,
    pipelineInitPortOut]
  split_ifs <;> simp [modifyNextOut]

lemma call_portInBody (inPortId inQueueId : ℕ) (inRing : Option ℕ) (pp : PipelineParams ρ) :
    (portInBody inPortId inQueueId inRing).call pp =
      match pp.pipelineInitPortIn inPortId inQueueId inRing with
      | some pp' => (.success, pp')
      | none => (.err, pp) := by
  simp only [portInBody, call_get_bind, call_errIf_bind, call_modify_bind, call_modify,
    pipelineInitPortIn]
  split_ifs <;> simp [modifyNextIn]

/-- A call either leaves the pipeline as it is or adds an entry. -/
lemma portCall_cases (op : PortOp) (pp : PipelineParams ρ) :
    portCall op pp = (.err, pp) ∨
      (∃ portId queueId ring pp', op = .portIn portId queueId ring ∧
        pp.pipelineInitPortIn portId queueId ring = some pp' ∧ portCall op pp = (.success, pp')) ∨
      ∃ portId queueId ring pp', op = .portOut portId queueId ring ∧
        pp.pipelineInitPortOut portId queueId ring = some pp' ∧
        portCall op pp = (.success, pp') := by
  cases op with
  | portIn portId queueId ring =>
    rw [portCall, call_portInBody]
    cases h : pp.pipelineInitPortIn portId queueId ring with
    | none => exact Or.inl rfl
    | some pp' => exact Or.inr (Or.inl ⟨portId, queueId, ring, pp', rfl, h, rfl⟩)
  | portOut portId queueId ring =>
    rw [portCall, call_portOutBody]
    cases h : pp.pipelineInitPortOut portId queueId ring with
    | none => exact Or.inl rfl
    | some pp' => exact Or.inr (Or.inr ⟨portId, queueId, ring, pp', rfl, h, rfl⟩)

/-- The calls do what the model without statements does. -/
lemma run_initPort (ops : List PortOp) (pp : PipelineParams ρ) :
    Machine.run initPort ops pp = some (portCalls ops pp) := by
  induction ops generalizing pp with
  | nil => rfl
  | cons op ops ih =>
    have hstep : initPort op pp = some (portCall op pp).2 := by
      cases op with
      | portIn portId queueId ring =>
        rw [initPort, portCall, call_portInBody]
        cases pp.pipelineInitPortIn portId queueId ring <;> rfl
      | portOut portId queueId ring =>
        rw [initPort, portCall, call_portOutBody]
        cases pp.pipelineInitPortOut portId queueId ring <;> rfl
    rw [Machine.run_cons, hstep, Option.bind_some, ih]
    rfl

/-! ## The shape -/

/-- The entries below `n` share one value of `g`. -/
def Common {α β : Type*} (g : α → β) (f : ℕ → α) (n : ℕ) : Prop := ∃ b, ∀ i < n, g (f i) = b

/-- What holds of the entries of an array and of a new one holds of all of them. -/
lemma forall_lt_update {α : Type*} {P : α → Prop} {f : ℕ → α} {n : ℕ} {a : α}
    (h : ∀ i < n, P (f i)) (ha : P a) : ∀ i < n + 1, P (Function.update f n a i) := by
  intro i hi
  rcases Nat.lt_succ_iff_lt_or_eq.mp hi with hlt | rfl
  · rw [Function.update_of_ne (by omega)]
    exact h i hlt
  · rwa [Function.update_self]

/-- A new entry that agrees with the last one agrees with all. -/
lemma Common.snoc {α β : Type*} {g : α → β} {f : ℕ → α} {n : ℕ} {a : α} (h : Common g f n)
    (hlast : 0 < n → g (f (n - 1)) = g a) : Common g (Function.update f n a) (n + 1) := by
  obtain ⟨b, hb⟩ := h
  refine ⟨g a, forall_lt_update (P := fun x => g x = g a) ?_ rfl⟩
  intro i hi
  calc g (f i) = b := hb i hi
    _ = g (f (n - 1)) := (hb (n - 1) (by omega)).symm
    _ = g a := hlast (by omega)

/-- The shape of a pipeline whose ports are not enabled yet. -/
structure Shaped (pp : PipelineParams ρ) : Prop where
  nbQIn : pp.nbQIn ≤ pipelineQueueInMax
  nbQOut : pp.nbQOut ≤ pipelineQueueOutMax
  disabled : ∀ i < pp.nbQIn, (pp.qIn i).enabled = false
  rxInRing : pp.type = .rxData → ∀ i < pp.nbQIn, (pp.qIn i).ring = none
  rxInQueue : pp.type = .rxData → Common QueueIn.queueId pp.qIn pp.nbQIn
  rxOutRing : pp.type = .rxData → ∀ i < pp.nbQOut, (pp.qOut i).ring ≠ none
  rxOutPort : pp.type = .rxData → Common QueueOut.portId pp.qOut pp.nbQOut
  txInRing : pp.type = .txData → ∀ i < pp.nbQIn, (pp.qIn i).ring ≠ none
  txInPort : pp.type = .txData → Common QueueIn.portId pp.qIn pp.nbQIn
  txOutRing : pp.type = .txData → ∀ i < pp.nbQOut, (pp.qOut i).ring = none
  txOutPort : pp.type = .txData → Common QueueOut.portId pp.qOut pp.nbQOut

variable {pp pp' : PipelineParams ρ} {portId queueId : ℕ} {ring : Option ℕ}

/-- An accepted input keeps the shape. -/
lemma Shaped.portIn (h : Shaped pp) (hadd : pp.pipelineInitPortIn portId queueId ring = some pp') :
    Shaped pp' := by
  simp only [pipelineInitPortIn, Option.ite_none_left_eq_some, Option.some_inj, not_and] at hadd
  obtain ⟨hroom, htx, hrx, hrxLast, htxLast, rfl⟩ := hadd
  have hroom' : pp.nbQIn + 1 ≤ pipelineQueueInMax := by omega
  refine
    { h with
      nbQIn := hroom'
      disabled := forall_lt_update (P := fun q : QueueIn => q.enabled = false) h.disabled rfl
      rxInRing := ?_
      rxInQueue := ?_
      txInRing := ?_
      txInPort := ?_ }
  · intro htype
    have hring : ring = none := by
      by_contra hne
      exact hrx hne htype
    exact forall_lt_update (P := fun q : QueueIn => q.ring = none) (h.rxInRing htype) hring
  · intro htype
    exact (h.rxInQueue htype).snoc fun hpos => not_not.mp (hrxLast hpos htype)
  · intro htype
    exact forall_lt_update (P := fun q : QueueIn => q.ring ≠ none) (h.txInRing htype) fun hnone =>
      htx hnone htype
  · intro htype
    exact (h.txInPort htype).snoc fun hpos => not_not.mp (htxLast hpos htype)

/-- An accepted output keeps the shape. -/
lemma Shaped.portOut (h : Shaped pp)
    (hadd : pp.pipelineInitPortOut portId queueId ring = some pp') : Shaped pp' := by
  simp only [pipelineInitPortOut, Option.ite_none_left_eq_some, Option.some_inj, not_and] at hadd
  obtain ⟨hroom, htx, hrx, hrxLast, htxLast, rfl⟩ := hadd
  have hroom' : pp.nbQOut + 1 ≤ pipelineQueueOutMax := by omega
  refine
    { h with
      nbQOut := hroom'
      rxOutRing := ?_
      rxOutPort := ?_
      txOutRing := ?_
      txOutPort := ?_ }
  · intro htype
    exact forall_lt_update (P := fun q : QueueOut => q.ring ≠ none) (h.rxOutRing htype) fun hnone =>
      hrx hnone htype
  · intro htype
    exact (h.rxOutPort htype).snoc fun hpos => not_not.mp (hrxLast hpos htype)
  · intro htype
    have hring : ring = none := by
      by_contra hne
      exact htx hne htype
    exact forall_lt_update (P := fun q : QueueOut => q.ring = none) (h.txOutRing htype) hring
  · intro htype
    exact (h.txOutPort htype).snoc fun hpos => not_not.mp (htxLast hpos htype)

/-- `pipeline_init` gives an empty pipeline. -/
lemma shaped_of_pipelineInit {mem : PipelineParams ρ} {lcoreId : ℕ} {type : PipelineType}
    (h : mem.pipelineInit lcoreId type = some pp) : Shaped pp ∧ pp.type = type := by
  simp only [pipelineInit, Option.ite_none_left_eq_some, Option.some_inj] at h
  obtain ⟨-, rfl⟩ := h
  refine ⟨?_, rfl⟩
  constructor <;> simp [Common]

/-- One call keeps the shape and the type, also when it fails. -/
lemma Shaped.portCall (h : Shaped pp) (op : PortOp) :
    Shaped (portCall op pp).2 ∧ (PipelineParams.portCall op pp).2.type = pp.type := by
  rcases portCall_cases op pp with heq | ⟨_, _, _, pp', -, hadd, heq⟩ | ⟨_, _, _, pp', -, hadd, heq⟩
  · rw [heq]
    exact ⟨h, rfl⟩
  · rw [heq]
    refine ⟨h.portIn hadd, ?_⟩
    simp only [pipelineInitPortIn, Option.ite_none_left_eq_some, Option.some_inj] at hadd
    obtain ⟨-, -, -, -, -, rfl⟩ := hadd
    rfl
  · rw [heq]
    refine ⟨h.portOut hadd, ?_⟩
    simp only [pipelineInitPortOut, Option.ite_none_left_eq_some, Option.some_inj] at hadd
    obtain ⟨-, -, -, -, -, rfl⟩ := hadd
    rfl

/-- Any sequence of calls keeps the shape and the type. -/
lemma Shaped.portCalls (h : Shaped pp) (ops : List PortOp) :
    Shaped (portCalls ops pp) ∧ (PipelineParams.portCalls ops pp).type = pp.type := by
  induction ops generalizing pp with
  | nil => exact ⟨h, rfl⟩
  | cons op ops ih =>
    obtain ⟨hstep, htype⟩ := h.portCall op
    obtain ⟨hrun, htype'⟩ := ih hstep
    exact ⟨hrun, htype'.trans htype⟩

/-- An rx data pipeline that was built has the outputs that its calls asked for, with the ids that
the library gave them. -/
lemma outputs_of_build {mem : PipelineParams ρ} {lcoreId : ℕ} {ops : List PortOp}
    {created : RteCreated ρ} {dataDisable : Bool}
    (h : build mem lcoreId .rxData ops created dataDisable = some pp) :
    ∃ pp₁, mem.pipelineInit lcoreId .rxData = some pp₁ ∧
      pp.nbQOut = (PipelineParams.portCalls ops pp₁).nbQOut ∧ pp.nbQOut ≤ pipelineQueueOutMax ∧
      ∀ i < pp.nbQOut, pp.qOut i =
        { (PipelineParams.portCalls ops pp₁).qOut i with rtePipelinePortId := created.portOut i } := by
  obtain ⟨pp₁, hinit, h⟩ := Option.bind_eq_some_iff.mp h
  obtain ⟨hshaped, htype⟩ := shaped_of_pipelineInit hinit
  obtain ⟨hshaped', htype'⟩ := hshaped.portCalls ops
  rw [run_initPort, Option.bind_some, pipelineConfigure, htype', htype] at h
  simp only [pipelineRxDataConfigure, Option.ite_none_right_eq_some, Option.some_inj] at h
  obtain ⟨-, rfl⟩ := h
  have hnb : (((PipelineParams.portCalls ops pp₁).assignIds created).enableAll dataDisable).nbQOut =
      (PipelineParams.portCalls ops pp₁).nbQOut := by
    cases dataDisable <;> rfl
  refine ⟨pp₁, hinit, hnb, hnb ▸ hshaped'.nbQOut, ?_⟩
  intro i hi
  rw [hnb] at hi
  cases dataDisable <;> simp [assignIds, enableAll, hi]

/-- A call that is refused changes nothing. -/
lemma portCall_of_err {op : PortOp} (h : (portCall op pp).1 = .err) : (portCall op pp).2 = pp := by
  rcases portCall_cases op pp with heq | ⟨_, _, _, _, -, -, heq⟩ | ⟨_, _, _, _, -, -, heq⟩
  · rw [heq]
  · rw [heq] at h
    cases h
  · rw [heq] at h
    cases h

/-- After `pipeline_init` and any sequence of calls a pipeline has the shape of its type, and a
further call that returns `PIPELINE_ERR` changes nothing. -/
theorem shaped_of_portCalls {mem pp : PipelineParams ρ} {lcoreId : ℕ} {type : PipelineType}
    (hinit : mem.pipelineInit lcoreId type = some pp) (ops : List PortOp) :
    (portCalls ops pp).type = type ∧ Shaped (portCalls ops pp) ∧
      ∀ op, (portCall op (portCalls ops pp)).1 = .err →
        (portCall op (portCalls ops pp)).2 = portCalls ops pp := by
  obtain ⟨hshaped, htype⟩ := shaped_of_pipelineInit hinit
  obtain ⟨hrun, htype'⟩ := hshaped.portCalls ops
  exact ⟨htype'.trans htype, hrun, fun _ => portCall_of_err⟩

/-- The calls for an rx data pipeline, the last two of which are refused. -/
def rxDataPorts : List PortOp :=
  [.portIn 0 1 none, .portIn 1 1 none, .portOut 4 0 (some 7), .portIn 1 2 none, .portOut 5 0 none]

/-- The theorem for these calls. -/
theorem shaped_of_portCalls_rxData :
    ∃ pp, zeroed.pipelineInit 3 .rxData = some pp ∧
      (portCalls rxDataPorts pp).type = .rxData ∧ Shaped (portCalls rxDataPorts pp) ∧
      ∀ op, (portCall op (portCalls rxDataPorts pp)).1 = .err →
        (portCall op (portCalls rxDataPorts pp)).2 = portCalls rxDataPorts pp := by
  obtain ⟨pp, hinit⟩ : ∃ pp, zeroed.pipelineInit 3 .rxData = some pp := ⟨_, rfl⟩
  exact ⟨pp, hinit, shaped_of_portCalls hinit rxDataPorts⟩

end PipelineParams

end DaqSwitch.Pipeline
