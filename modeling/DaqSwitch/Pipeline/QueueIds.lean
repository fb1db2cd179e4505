import DaqSwitch.Lib.SlotTable
import DaqSwitch.Pipeline.FdirIds
import DaqSwitch.Pipeline.Shape

/-!
# The allocation of output queues

`get_next_data_queue_internal_id` gives the outputs of an rx data pipeline to the flows that ask
for them.  Seen from a flow with an address it is a table of slots.  But an output is free when its
address is 0, so a flow with the address 0 is served without taking the output.
-/

namespace DaqSwitch.Pipeline

open Lib SlotTable

namespace PipelineParams

variable {ρ : Type*}

/-- A call of `get_next_data_queue_internal_id`: what is written to `uint16_t *id`, and the
pipeline after it.  Without a value the call returned `PIPELINE_ERR`. -/
def allocate (k : FlowId) (pp : PipelineParams ρ) : Option (BitVec 16) × PipelineParams ρ :=
  match pp.getNextDataQueueInternalId k.1 k.2 with
  | some (id, pp) => (some (id.setWidth 16), pp)
  | none => (none, pp)

/-- The calls of a run, with their results. -/
def allocations : List FlowId → PipelineParams ρ → List (FlowId × Option (BitVec 16))
  | [], _ => []
  | k :: ks, pp => (k, (allocate k pp).1) :: allocations ks (allocate k pp).2

/-- The id that is returned for an output. -/
def outId (pp : PipelineParams ρ) (i : ℕ) : BitVec 16 := (pp.qOut i).rtePipelinePortId.setWidth 16

/-- The outputs as slots: the address 0 marks a free one. -/
def slots (pp : PipelineParams ρ) (i : ℕ) : Option FlowId :=
  if (pp.qOut i).dip = 0 then none else some ((pp.qOut i).dip, (pp.qOut i).eventId)

variable {pp : PipelineParams ρ} {k : FlowId} {i : ℕ}

lemma slots_eq_some_iff (hk : k.1 ≠ 0) : pp.slots i = some k ↔ pp.HoldsFlow k.1 k.2 i := by
  obtain ⟨dip, eventId⟩ := k
  simp only [slots, HoldsFlow, Option.ite_none_left_eq_some, Option.some_inj, Prod.mk.injEq]
  constructor
  · exact fun h => h.2
  · intro h
    exact ⟨h.1 ▸ hk, h⟩

lemma slots_eq_none_iff : pp.slots i = none ↔ (pp.qOut i).dip = 0 := by
  simp [slots]

@[simp] lemma setFlow_outId (j : ℕ) : (pp.setFlow k.1 k.2 i).outId j = pp.outId j := by
  by_cases hj : j = i <;> simp [setFlow, outId, hj]

@[simp] lemma setFlow_nbQOut : (pp.setFlow k.1 k.2 i).nbQOut = pp.nbQOut := rfl

lemma setFlow_slots (hk : k.1 ≠ 0) :
    (pp.setFlow k.1 k.2 i).slots = Function.update pp.slots i (some k) := by
  funext j
  by_cases hj : j = i
  · simpa [setFlow, slots, hj] using hk
  · simp [setFlow, slots, hj]

/-- A flow with an address asks the table of slots. -/
lemma allocate_eq_ask (pp : PipelineParams ρ) (hk : k.1 ≠ 0) :
    (allocate k pp).1 = (ask pp.nbQOut k pp.slots).1.map pp.outId ∧
      (allocate k pp).2.slots = (ask pp.nbQOut k pp.slots).2 ∧
      (allocate k pp).2.outId = pp.outId ∧ (allocate k pp).2.nbQOut = pp.nbQOut := by
  have hheld : (fun i => decide (pp.slots i = some k)) =
      fun i => decide (pp.HoldsFlow k.1 k.2 i) := by
    funext i
    simp only [slots_eq_some_iff hk]
  have hfree : (fun i => decide (pp.slots i = none)) = fun i => (pp.qOut i).dip == 0 := by
    funext i
    rw [Bool.eq_iff_iff, decide_eq_true_iff, beq_iff_eq, slots_eq_none_iff]
  unfold allocate getNextDataQueueInternalId SlotTable.ask SlotTable.find
  rw [hheld, hfree]
  cases hknown : (List.range pp.nbQOut).find? fun i => pp.HoldsFlow k.1 k.2 i with
  | some i =>
    obtain ⟨hi, -, -⟩ := List.find?_range_eq_some.mp hknown
    have hslot : pp.slots i = some k := (slots_eq_some_iff hk).mpr (by simpa using hi)
    refine ⟨rfl, ?_, rfl, rfl⟩
    show pp.slots = Function.update pp.slots i (some k)
    rw [← hslot, Function.update_eq_self]
  | none =>
    cases (List.range pp.nbQOut).find? fun i => (pp.qOut i).dip == 0 with
    | some i => exact ⟨rfl, setFlow_slots hk, funext fun j => setFlow_outId j, rfl⟩
    | none => exact ⟨rfl, rfl, rfl, rfl⟩

/-- A run of flows with addresses is a run of the table. -/
lemma allocations_eq_answers {ks : List FlowId} (hks : ∀ k ∈ ks, k.1 ≠ 0) :
    allocations ks pp =
      (answers pp.nbQOut ks pp.slots).map fun e => (e.1, e.2.map pp.outId) := by
  induction ks generalizing pp with
  | nil => rfl
  | cons k ks ih =>
    obtain ⟨hres, hslots, hids, hnb⟩ := allocate_eq_ask pp (hks k List.mem_cons_self)
    rw [allocations, hres, ih fun k hk => hks k (List.mem_cons_of_mem _ hk), hslots, hids, hnb]
    rfl

/-! ## Fresh pipelines -/

/-- No output is taken, and the outputs have distinct ids. -/
structure Fresh (pp : PipelineParams ρ) : Prop where
  free : ∀ i < pp.nbQOut, (pp.qOut i).dip = 0 ∧ (pp.qOut i).eventId = 0
  outId : ∀ i < pp.nbQOut, ∀ j < pp.nbQOut, pp.outId i = pp.outId j → i = j

/-- The entries of the outputs hold no address and no event. -/
def Zeroed (pp : PipelineParams ρ) : Prop := ∀ i, (pp.qOut i).dip = 0 ∧ (pp.qOut i).eventId = 0

lemma Zeroed.portCalls (h : Zeroed pp) (ops : List PortOp) : Zeroed (portCalls ops pp) := by
  induction ops generalizing pp with
  | nil => exact h
  | cons op ops ih =>
    refine ih ?_
    show Zeroed (portCall op pp).2
    rcases portCall_cases op pp with heq | ⟨_, _, _, pp', -, hadd, heq⟩ |
      ⟨_, _, _, pp', -, hadd, heq⟩ <;> rw [heq]
    · exact h
    · simp only [pipelineInitPortIn, Option.ite_none_left_eq_some, Option.some_inj] at hadd
      obtain ⟨-, -, -, -, -, rfl⟩ := hadd
      exact h
    · simp only [pipelineInitPortOut, Option.ite_none_left_eq_some, Option.some_inj] at hadd
      obtain ⟨-, -, -, -, -, rfl⟩ := hadd
      exact Machine.forall_update (T := fun _ (q : QueueOut) => q.dip = 0 ∧ q.eventId = 0) h
        (h pp.nbQOut)

/-- An rx data pipeline that was built over zeroed memory is fresh. -/
lemma fresh_of_build {mem : PipelineParams ρ} {lcoreId : ℕ} {ops : List PortOp}
    {created : RteCreated ρ} {dataDisable : Bool} (hmem : Zeroed mem)
    (hids : ∀ i < pipelineQueueOutMax, ∀ j < pipelineQueueOutMax,
      (created.portOut i).setWidth 16 = (created.portOut j).setWidth 16 → i = j)
    (h : build mem lcoreId .rxData ops created dataDisable = some pp) : Fresh pp := by
  obtain ⟨pp₁, hinit, -, hbound, hout⟩ := outputs_of_build h
  have hzeroed : Zeroed pp₁ := by
    simp only [pipelineInit, Option.ite_none_left_eq_some, Option.some_inj] at hinit
    obtain ⟨-, rfl⟩ := hinit
    exact hmem
  have hzeroed' := hzeroed.portCalls ops
  constructor
  · intro i hi
    rw [hout i hi]
    exact hzeroed' i
  · intro i hi j hj heq
    rw [PipelineParams.outId, PipelineParams.outId, hout i hi, hout j hj] at heq
    exact hids i (by omega) j (by omega) heq

/-- In a fresh pipeline flows with addresses get their outputs one to one. -/
lemma Fresh.injectiveStable (h : Fresh pp) {ks : List FlowId} (hks : ∀ k ∈ ks, k.1 ≠ 0) :
    InjectiveStable pp.nbQOut (allocations ks pp) := by
  have hfree : ∀ i < pp.nbQOut, pp.slots i = none :=
    fun i hi => slots_eq_none_iff.mpr (h.free i hi).1
  rw [allocations_eq_answers hks]
  refine (injectiveStable_answers hfree ks).map ?_
  intro k k' i i' hk hk' heq
  exact h.outId i (lt_of_mem_answers hfree hk) i' (lt_of_mem_answers hfree hk') heq

/-! ## The address 0 -/

/-- When no output holds the flow, the first one is given if its address is 0. -/
lemma allocate_of_first_free (hpos : 0 < pp.nbQOut)
    (hnew : ∀ i < pp.nbQOut, ¬ pp.HoldsFlow k.1 k.2 i) (hfree : (pp.qOut 0).dip = 0) :
    allocate k pp = (some (pp.outId 0), pp.setFlow k.1 k.2 0) := by
  have hnone : ((List.range pp.nbQOut).find? fun i => pp.HoldsFlow k.1 k.2 i) = none := by
    simpa using hnew
  have hfirst : ((List.range pp.nbQOut).find? fun i => (pp.qOut i).dip == 0) = some 0 := by
    rw [List.find?_range_eq_some]
    exact ⟨by simp [hfree], List.mem_range.mpr hpos, by simp⟩
  simp only [allocate, getNextDataQueueInternalId, hnone, hfirst]
  rfl

/-- The first output that holds the flow is found. -/
lemma allocate_of_first_holds (hpos : 0 < pp.nbQOut) (hholds : pp.HoldsFlow k.1 k.2 0) :
    allocate k pp = (some (pp.outId 0), pp) := by
  have hfirst : ((List.range pp.nbQOut).find? fun i => pp.HoldsFlow k.1 k.2 i) = some 0 := by
    rw [List.find?_range_eq_some]
    exact ⟨by simpa using hholds, List.mem_range.mpr hpos, by simp⟩
  simp only [allocate, getNextDataQueueInternalId, hfirst]
  rfl

/-- A flow with the address 0 gets the first output of a fresh pipeline, which stays free. -/
lemma Fresh.allocate_zero (h : Fresh pp) (hpos : 0 < pp.nbQOut) (eventId : BitVec 32) :
    allocate (0, eventId) pp = (some (pp.outId 0), pp.setFlow 0 eventId 0) := by
  obtain ⟨hdip, hevent⟩ := h.free 0 hpos
  by_cases hzero : eventId = 0
  · have hsame : pp.setFlow 0 eventId 0 = pp := by
      have hq : ({ pp.qOut 0 with dip := 0, eventId := eventId } : QueueOut) = pp.qOut 0 := by
        rcases hq : pp.qOut 0 with ⟨_, _, _, _, dip, event⟩
        obtain rfl : dip = 0 := by simpa [hq] using hdip
        obtain rfl : event = 0 := by simpa [hq] using hevent
        rw [hzero]
      rw [setFlow, hq, Function.update_eq_self]
    rw [hsame]
    exact allocate_of_first_holds hpos ⟨hdip, hevent.trans hzero.symm⟩
  · refine allocate_of_first_free hpos ?_ hdip
    rintro i hi ⟨-, hholds⟩
    exact hzero (hholds.symm.trans (h.free i hi).2)

/-- The next flow gets the first output as well. -/
lemma Fresh.allocate_after_zero (h : Fresh pp) (hpos : 0 < pp.nbQOut) {eventId : BitVec 32}
    (hk : k ≠ (0, eventId)) (hk' : k ≠ (0, 0)) :
    (allocate k (pp.setFlow 0 eventId 0)).1 = some (pp.outId 0) := by
  have hnew : ∀ i < (pp.setFlow 0 eventId 0).nbQOut,
      ¬ (pp.setFlow 0 eventId 0).HoldsFlow k.1 k.2 i := by
    rintro i hi ⟨hdip, hevent⟩
    by_cases hi0 : i = 0
    · refine hk (Prod.ext ?_ ?_)
      · simpa [setFlow, hi0] using hdip.symm
      · simpa [setFlow, hi0] using hevent.symm
    · obtain ⟨hdip', hevent'⟩ := h.free i hi
      refine hk' (Prod.ext ?_ ?_)
      · simpa [setFlow, hi0, hdip'] using hdip.symm
      · simpa [setFlow, hi0, hevent'] using hevent.symm
  rw [allocate_of_first_free (by exact hpos) hnew (by simp [setFlow])]
  exact congrArg some (setFlow_outId (k := (0, eventId)) 0)

/-- Two flows, one of them with the address 0, may get the same output. -/
lemma Fresh.not_injectiveStable (h : Fresh pp) (hpos : 0 < pp.nbQOut) {z : FlowId}
    (hz : z.1 = 0) (hk : k ≠ z) (hk' : k ≠ (0, 0)) :
    ¬ InjectiveStable pp.nbQOut (allocations [z, k] pp) := by
  obtain ⟨dip, eventId⟩ := z
  obtain rfl : dip = 0 := hz
  intro hinj
  have hfirst : ((0, eventId), some (pp.outId 0)) ∈ allocations [(0, eventId), k] pp := by
    rw [allocations, h.allocate_zero hpos]
    exact List.mem_cons_self
  have hsecond : (k, some (pp.outId 0)) ∈ allocations [(0, eventId), k] pp := by
    rw [allocations, allocations, h.allocate_zero hpos, h.allocate_after_zero hpos hk hk']
    exact List.mem_cons_of_mem _ List.mem_cons_self
  exact hk (hinj.injective _ _ _ hsecond hfirst)

/-- One flow with the address 0 always gets the first output. -/
lemma Fresh.allocations_zero (h : Fresh pp) (hpos : 0 < pp.nbQOut) {eventId : BitVec 32}
    {ks : List FlowId} (hks : ∀ k ∈ ks, k = (0, eventId)) :
    ∀ e ∈ allocations ks pp, e = ((0, eventId), some (pp.outId 0)) := by
  have hheld (ks : List FlowId) (hks : ∀ k ∈ ks, k = (0, eventId)) :
      ∀ e ∈ allocations ks (pp.setFlow 0 eventId 0),
        e = ((0, eventId), some (pp.outId 0)) := by
    have hsame : allocate (0, eventId) (pp.setFlow 0 eventId 0) =
        (some (pp.outId 0), pp.setFlow 0 eventId 0) := by
      rw [allocate_of_first_holds (by exact hpos) (by simp [HoldsFlow, setFlow])]
      rw [setFlow_outId (k := (0, eventId))]
    induction ks with
    | nil => simp [allocations]
    | cons k ks ih =>
      obtain rfl := hks k List.mem_cons_self
      rw [allocations, hsame]
      intro e he
      rcases List.mem_cons.mp he with rfl | he
      · rfl
      · exact ih (fun k hk => hks k (List.mem_cons_of_mem _ hk)) e he
  cases ks with
  | nil => simp [allocations]
  | cons k ks =>
    obtain rfl := hks k List.mem_cons_self
    rw [allocations, h.allocate_zero hpos]
    intro e he
    rcases List.mem_cons.mp he with rfl | he
    · rfl
    · exact hheld ks (fun k hk => hks k (List.mem_cons_of_mem _ hk)) e he

/-- Without outputs every flow is turned away. -/
lemma injectiveStable_of_no_outputs (hnb : pp.nbQOut = 0) (ks : List FlowId) :
    InjectiveStable pp.nbQOut (allocations ks pp) := by
  have hnone : ∀ e ∈ allocations ks pp, e.2 = none := by
    have hstep (k : FlowId) : allocate k pp = (none, pp) := by
      simp [allocate, getNextDataQueueInternalId, hnb]
    induction ks with
    | nil => simp [allocations]
    | cons k ks ih =>
      rw [allocations, hstep]
      simpa using ih
  constructor
  · intro k r r' hr hr'
    exact (hnone _ hr).trans (hnone _ hr').symm
  · intro k k' i hk
    cases hnone _ hk
  · intro past k later heq
    rw [hnb, Finset.card_eq_zero, Finset.eq_empty_iff_forall_notMem]
    intro k' hk'
    obtain ⟨i, hmem⟩ := mem_served.mp hk'
    cases hnone _ (heq ▸ List.mem_append_left _ hmem)

/-- For every rx data pipeline that is built over zeroed memory, and every set of flows: on all
sequences of calls for these flows the allocation is an injective and stable map if and only if no
flow has the address 0, or there is only one flow, or there are no outputs. -/
theorem allocations_injectiveStable_iff {mem : PipelineParams ρ} {lcoreId : ℕ}
    {ops : List PortOp} {created : RteCreated ρ} {dataDisable : Bool} (hmem : Zeroed mem)
    (hids : ∀ i < pipelineQueueOutMax, ∀ j < pipelineQueueOutMax,
      (created.portOut i).setWidth 16 = (created.portOut j).setWidth 16 → i = j)
    (hbuild : build mem lcoreId .rxData ops created dataDisable = some pp) (K : Set FlowId) :
    (∀ ks : List FlowId, (∀ k ∈ ks, k ∈ K) → InjectiveStable pp.nbQOut (allocations ks pp)) ↔
      (∀ k ∈ K, k.1 ≠ 0) ∨ K.Subsingleton ∨ pp.nbQOut = 0 := by
  have h := fresh_of_build hmem hids hbuild
  constructor
  · intro hall
    by_contra hcond
    simp only [not_or, not_forall, not_not] at hcond
    obtain ⟨⟨z, hz, hz0⟩, hmany, hnb⟩ := hcond
    have hpos : 0 < pp.nbQOut := Nat.pos_of_ne_zero hnb
    obtain ⟨k, hk, hkz⟩ : ∃ k ∈ K, k ≠ z := by
      by_contra hnone
      simp only [not_exists, not_and, not_not] at hnone
      exact hmany fun a ha b hb => (hnone a ha).trans (hnone b hb).symm
    -- the flow that comes second is not (0, 0)
    by_cases hk0 : k = (0, 0)
    · refine h.not_injectiveStable hpos (z := k) (k := z) (by rw [hk0]) hkz.symm ?_ (hall [k, z] ?_)
      · exact fun hzk => hkz (hk0.trans hzk.symm)
      · simp [hk, hz]
    · exact h.not_injectiveStable hpos hz0 hkz hk0 (hall [z, k] (by simp [hk, hz]))
  · rintro (haddr | hone | hnb) ks hks
    · exact h.injectiveStable fun k hk => haddr k (hks k hk)
    · by_cases haddr : ∀ k ∈ ks, k.1 ≠ 0
      · exact h.injectiveStable haddr
      · simp only [not_forall, not_not] at haddr
        obtain ⟨⟨dip, eventId⟩, hz, rfl : dip = 0⟩ := haddr
        rcases Nat.eq_zero_or_pos pp.nbQOut with hnb | hpos
        · exact injectiveStable_of_no_outputs hnb ks
        · exact injectiveStable_of_forall_eq
            (h.allocations_zero hpos fun k hk => hone (hks k hk) (hks _ hz))
    · exact injectiveStable_of_no_outputs hnb ks

/-- Two outputs to port 4. -/
def twoOutputs : List PortOp := [.portIn 0 1 none, .portOut 4 1 (some 7), .portOut 4 2 (some 8)]

/-- The theorem for two outputs. -/
theorem allocations_injectiveStable_iff_twoOutputs :
    ∃ pp, build zeroed 1 .rxData twoOutputs sequential true = some pp ∧ ∀ K : Set FlowId,
      (∀ ks : List FlowId, (∀ k ∈ ks, k ∈ K) → InjectiveStable pp.nbQOut (allocations ks pp)) ↔
        (∀ k ∈ K, k.1 ≠ 0) ∨ K.Subsingleton ∨ pp.nbQOut = 0 := by
  have hids : ∀ i < pipelineQueueOutMax, ∀ j < pipelineQueueOutMax,
      (sequential.portOut i).setWidth 16 = (sequential.portOut j).setWidth 16 → i = j := by decide
  obtain ⟨pp, hbuild⟩ : ∃ pp, build zeroed 1 .rxData twoOutputs sequential true = some pp :=
    ⟨_, rfl⟩
  exact ⟨pp, hbuild, allocations_injectiveStable_iff (fun _ => ⟨rfl, rfl⟩) hids hbuild⟩

/-- A flow from the address 0 and the next flow get the same output. -/
theorem not_injectiveStable_twoOutputs :
    ∃ pp, build zeroed 1 .rxData twoOutputs sequential true = some pp ∧
      ¬ InjectiveStable pp.nbQOut (allocations [(0, 5), (9, 1)] pp) := by
  refine ⟨_, rfl, ?_⟩
  intro hinj
  exact absurd (hinj.injective (0, 5) (9, 1) 0 (by decide) (by decide)) (by decide)

end PipelineParams

end DaqSwitch.Pipeline
