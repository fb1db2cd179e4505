import DaqSwitch.Pipeline.Types

/-!
# Enabling the inputs of a pipeline

`pipeline_enable_port_in` looks an input up by port and queue and then again by its internal
id, and `pipeline_get_next_available_in_queue` looks for one that is not enabled.  The first of
the three loops over `q_in` is bounded by the number of outputs.  An input is found exactly
when its index is below that bound, and entries past the last input may be found as well.
-/

namespace DaqSwitch.Pipeline

open Lib

/-- `PIPELINE_SUCCESS` and `PIPELINE_ERR`. -/
inductive Ret
  | success
  | err
deriving DecidableEq, Repr

/-- `rte_pipeline_port_in_enable`: its return value and the `rte_pipeline` after. -/
abbrev RtePortInEnable (ρ : Type*) := ρ → BitVec 32 → ℤ × ρ

namespace PipelineParams

variable {ρ : Type*}

/-- `get_q_in_index`. -/
def getQInIndex (pp : PipelineParams ρ) (internalPortInId : BitVec 32) : Option ℕ :=
  (List.range pp.nbQIn).find? fun i => (pp.qIn i).rtePipelinePortId == internalPortInId

/-- `get_internal_port_in_id`.  The loop is bounded by `nb_q_out`. -/
def getInternalPortInId (pp : PipelineParams ρ) (inPortId inQueueId : ℕ) : Option (BitVec 32) :=
  ((List.range pp.nbQOut).find? fun i => pp.inPair i == (inPortId, inQueueId)).map fun i =>
    (pp.qIn i).rtePipelinePortId

/-- `pipeline_get_next_available_in_queue`. -/
def pipelineGetNextAvailableInQueue (pp : PipelineParams ρ) (inPortId : ℕ) : Option ℕ :=
  ((List.range pp.nbQIn).find? fun i =>
    (pp.qIn i).portId == inPortId && !(pp.qIn i).enabled).map fun i => (pp.qIn i).queueId

/-- `pipeline_enable_port_in`; `none` stands for a failed `RTE_VERIFY`. -/
def pipelineEnablePortIn (rte : RtePortInEnable ρ) (pp : PipelineParams ρ)
    (inPortId inQueueId : ℕ) : Option (Ret × PipelineParams ρ) :=
  match pp.getInternalPortInId inPortId inQueueId with
  | none => some (.err, pp)
  | some portId =>
    let res := rte pp.pipeline portId
    let pp := { pp with pipeline := res.2 }
    if res.1 < 0 then some (.err, pp)
    else
      match pp.getQInIndex portId with
      | none => none
      | some qId => some (.success, pp.enableIn qId)

/-- Ask for a free queue of a port and enable it, `n` times; the queues that were handed out. -/
def handOut (rte : RtePortInEnable ρ) (inPortId : ℕ) :
    ℕ → PipelineParams ρ → Option (List ℕ × PipelineParams ρ)
  | 0, pp => some ([], pp)
  | n + 1, pp =>
    match pp.pipelineGetNextAvailableInQueue inPortId with
    | none => some ([], pp)
    | some queueId =>
      (pp.pipelineEnablePortIn rte inPortId queueId).bind fun res =>
        (handOut rte inPortId n res.2).map fun rest => (queueId :: rest.1, rest.2)

/-- The inputs of a port that are not enabled yet, by index. -/
def freeIn (pp : PipelineParams ρ) (inPortId : ℕ) : List ℕ :=
  (List.range pp.nbQIn).filter fun i => (pp.qIn i).portId == inPortId && !(pp.qIn i).enabled

/-! ## What the callers expect -/

/-- The call enables the input of the given name and nothing else, and without such an input it
is an error that changes nothing. -/
structure EnablesExactly (rte : RtePortInEnable ρ) (pp : PipelineParams ρ)
    (inPortId inQueueId : ℕ) : Prop where
  registered : ∀ i < pp.nbQIn, pp.inPair i = (inPortId, inQueueId) →
    pp.pipelineEnablePortIn rte inPortId inQueueId =
      some (.success, { pp.enableIn i with
        pipeline := (rte pp.pipeline (pp.qIn i).rtePipelinePortId).2 })
  other : (∀ i < pp.nbQIn, pp.inPair i ≠ (inPortId, inQueueId)) →
    pp.pipelineEnablePortIn rte inPortId inQueueId = some (.err, pp)

/-- Asking once for every free queue of a port hands out each of them, and then none is left. -/
def HandsOutAll (rte : RtePortInEnable ρ) (pp : PipelineParams ρ) (inPortId : ℕ) : Prop :=
  ∃ pp', handOut rte inPortId (pp.freeIn inPortId).length pp =
      some ((pp.freeIn inPortId).map fun i => (pp.qIn i).queueId, pp') ∧
    pp'.pipelineGetNextAvailableInQueue inPortId = none

/-- Among the first `nb_q_out` entries of `q_in` are the input of the given name, if there is
one, and no other entry of this name past the last input. -/
structure InScan (pp : PipelineParams ρ) (inPortId inQueueId : ℕ) : Prop where
  registered : ∀ i < pp.nbQIn, pp.inPair i = (inPortId, inQueueId) → i < pp.nbQOut
  other : (∀ i < pp.nbQIn, pp.inPair i ≠ (inPortId, inQueueId)) →
    ∀ i, pp.nbQIn ≤ i → i < pp.nbQOut → pp.inPair i ≠ (inPortId, inQueueId)

/-! ## One call -/

variable {rte : RtePortInEnable ρ} {pp : PipelineParams ρ} {inPortId inQueueId i : ℕ}

/-- The second look-up finds the input that has the id. -/
lemma DistinctIn.getQInIndex (h : DistinctIn pp) (hi : i < pp.nbQIn) :
    pp.getQInIndex (pp.qIn i).rtePipelinePortId = some i := by
  rw [PipelineParams.getQInIndex, List.find?_range_eq_some]
  refine ⟨by simp, List.mem_range.mpr hi, ?_⟩
  intro j hji
  have hne : (pp.qIn j).rtePipelinePortId ≠ (pp.qIn i).rtePipelinePortId := by
    intro heq
    have := h.rteId j (by omega) i hi heq
    omega
  simpa using hne

/-- The first look-up finds an input below its bound. -/
lemma DistinctIn.getInternalPortInId (h : DistinctIn pp) (hi : i < pp.nbQIn)
    (hpair : pp.inPair i = (inPortId, inQueueId)) (hout : i < pp.nbQOut) :
    pp.getInternalPortInId inPortId inQueueId = some (pp.qIn i).rtePipelinePortId := by
  have hfind : ((List.range pp.nbQOut).find? fun j => pp.inPair j == (inPortId, inQueueId)) =
      some i := by
    rw [List.find?_range_eq_some]
    refine ⟨by simp [hpair], List.mem_range.mpr hout, ?_⟩
    intro j hji
    have hne : pp.inPair j ≠ (inPortId, inQueueId) := by
      intro heq
      have := h.inPair j (by omega) i hi (heq.trans hpair.symm)
      omega
    simpa using hne
  rw [PipelineParams.getInternalPortInId, hfind]
  rfl

/-- It finds nothing exactly when no entry below its bound has the name. -/
lemma getInternalPortInId_eq_none_iff :
    pp.getInternalPortInId inPortId inQueueId = none ↔
      ∀ i < pp.nbQOut, pp.inPair i ≠ (inPortId, inQueueId) := by
  rw [getInternalPortInId, Option.map_eq_none_iff, List.find?_range_eq_none]
  simp

/-- A call for an input below the bound. -/
lemma DistinctIn.enable (h : DistinctIn pp) (hrte : ∀ p id, 0 ≤ (rte p id).1)
    (hi : i < pp.nbQIn) (hpair : pp.inPair i = (inPortId, inQueueId)) (hout : i < pp.nbQOut) :
    pp.pipelineEnablePortIn rte inPortId inQueueId =
      some (.success, { pp.enableIn i with
        pipeline := (rte pp.pipeline (pp.qIn i).rtePipelinePortId).2 }) := by
  have hindex := h.getQInIndex hi
  simp only [pipelineEnablePortIn, h.getInternalPortInId hi hpair hout]
  rw [if_neg (not_lt.mpr (hrte _ _))]
  show (match pp.getQInIndex (pp.qIn i).rtePipelinePortId with
    | none => none
    | some qId => some (Ret.success, _)) = _
  rw [hindex]
  rfl

/-- A call that finds nothing. -/
lemma enable_of_not_found (h : ∀ i < pp.nbQOut, pp.inPair i ≠ (inPortId, inQueueId)) :
    pp.pipelineEnablePortIn rte inPortId inQueueId = some (.err, pp) := by
  simp only [pipelineEnablePortIn, getInternalPortInId_eq_none_iff.mpr h]

/-- A call that finds something does not report an error. -/
lemma enable_ne_err (hrte : ∀ p id, 0 ≤ (rte p id).1) (hi : i < pp.nbQOut)
    (hpair : pp.inPair i = (inPortId, inQueueId)) :
    pp.pipelineEnablePortIn rte inPortId inQueueId ≠ some (.err, pp) := by
  have hsome : pp.getInternalPortInId inPortId inQueueId ≠ none :=
    fun hnone => getInternalPortInId_eq_none_iff.mp hnone i hi hpair
  obtain ⟨portId, hportId⟩ := Option.ne_none_iff_exists'.mp hsome
  simp only [pipelineEnablePortIn, hportId]
  rw [if_neg (not_lt.mpr (hrte _ _))]
  split
  · simp
  · simp

/-- The calls by name, for inputs with distinct names and ids. -/
lemma DistinctIn.enablesExactly_iff (h : DistinctIn pp) (hrte : ∀ p id, 0 ≤ (rte p id).1) :
    EnablesExactly rte pp inPortId inQueueId ↔ InScan pp inPortId inQueueId := by
  constructor
  · intro henables
    constructor
    · -- past the bound the call would find nothing
      intro i hi hpair
      by_contra hout
      have herr : pp.pipelineEnablePortIn rte inPortId inQueueId = some (.err, pp) := by
        refine enable_of_not_found ?_
        intro j hj heq
        have := h.inPair j (by omega) i hi (heq.trans hpair.symm)
        omega
      rw [henables.registered i hi hpair] at herr
      simp at herr
    · intro hother i _ hout hpair
      exact enable_ne_err hrte hout hpair (henables.other hother)
  · intro hscan
    refine ⟨fun i hi hpair => h.enable hrte hi hpair (hscan.registered i hi hpair),
      fun hother => enable_of_not_found ?_⟩
    intro i hi
    rcases Nat.lt_or_ge i pp.nbQIn with hlt | hge
    · exact hother i hlt
    · exact hscan.other hother i hge hi

/-! ## Handing out the inputs of a port -/

lemma mem_freeIn : i ∈ pp.freeIn inPortId ↔
    i < pp.nbQIn ∧ (pp.qIn i).portId = inPortId ∧ (pp.qIn i).enabled = false := by
  simp [freeIn]

/-- The scan for a free queue returns the first free input. -/
lemma getNextAvailable_eq : pp.pipelineGetNextAvailableInQueue inPortId =
    (pp.freeIn inPortId).head?.map fun i => (pp.qIn i).queueId := by
  rw [pipelineGetNextAvailableInQueue, freeIn, List.head?_filter]

/-- What a successful call for an input leaves. -/
def enabled (rte : RtePortInEnable ρ) (pp : PipelineParams ρ) (i : ℕ) : PipelineParams ρ :=
  { pp.enableIn i with pipeline := (rte pp.pipeline (pp.qIn i).rtePipelinePortId).2 }

lemma DistinctIn.enabled (h : DistinctIn pp) (i : ℕ) : DistinctIn (pp.enabled rte i) := by
  constructor
  · intro j hj k hk heq
    change (pp.enableIn i).inPair j = (pp.enableIn i).inPair k at heq
    rw [enableIn_inPair, enableIn_inPair] at heq
    exact h.inPair j hj k hk heq
  · intro j hj k hk heq
    change ((pp.enableIn i).qIn j).rtePipelinePortId = ((pp.enableIn i).qIn k).rtePipelinePortId
      at heq
    rw [enableIn_rteId, enableIn_rteId] at heq
    exact h.rteId j hj k hk heq

lemma qIn_enabled_of_ne {j : ℕ} (h : j ≠ i) : (pp.enabled rte i).qIn j = pp.qIn j :=
  Function.update_of_ne h _ _

/-- Enabling an input takes it off the free ones. -/
lemma freeIn_enabled :
    (pp.enabled rte i).freeIn inPortId = (pp.freeIn inPortId).filter (· ≠ i) := by
  rw [freeIn, freeIn, List.filter_filter]
  refine List.filter_congr ?_
  intro j _
  by_cases h : j = i
  · subst h
    simp [enabled, enableIn]
  · simp [qIn_enabled_of_ne h, h]

/-- A call for a free input succeeds below the bound; past it, nothing is found. -/
lemma DistinctIn.enable_free (h : DistinctIn pp) (hrte : ∀ p id, 0 ≤ (rte p id).1)
    (hi : i ∈ pp.freeIn inPortId) :
    pp.pipelineEnablePortIn rte inPortId (pp.qIn i).queueId =
      some (if i < pp.nbQOut then (.success, pp.enabled rte i) else (.err, pp)) := by
  obtain ⟨hlt, hport, -⟩ := mem_freeIn.mp hi
  have hpair : pp.inPair i = (inPortId, (pp.qIn i).queueId) := by
    rw [PipelineParams.inPair, hport]
  split
  · next hout => exact h.enable hrte hlt hpair hout
  · next hout =>
    refine enable_of_not_found ?_
    intro j hj heq
    have := h.inPair j (by omega) i hlt (heq.trans hpair.symm)
    omega

/-- While all free inputs are below the bound, each round hands out the first of them. -/
lemma DistinctIn.handOut_of_lt (hrte : ∀ p id, 0 ≤ (rte p id).1) :
    ∀ (free : List ℕ) (pp : PipelineParams ρ), DistinctIn pp → pp.freeIn inPortId = free →
      (∀ i ∈ free, i < pp.nbQOut) →
      ∃ pp', handOut rte inPortId free.length pp =
          some (free.map fun i => (pp.qIn i).queueId, pp') ∧
        pp'.freeIn inPortId = [] := by
  intro free
  induction free with
  | nil =>
    intro pp _ hfree _
    exact ⟨pp, rfl, hfree⟩
  | cons i free ih =>
    intro pp h hfree hout
    have hmem : i ∈ pp.freeIn inPortId := hfree ▸ List.mem_cons_self
    have hnodup : (i :: free).Nodup := hfree ▸ List.nodup_range.filter _
    have hne : ∀ j ∈ free, j ≠ i := fun j hj heq =>
      (List.nodup_cons.mp hnodup).1 (heq ▸ hj)
    have hfree' : (pp.enabled rte i).freeIn inPortId = free := by
      rw [freeIn_enabled, hfree, List.filter_cons_of_neg (by simp)]
      exact List.filter_eq_self.mpr fun j hj => by simpa using hne j hj
    obtain ⟨pp', hrest, hnone⟩ := ih _ (h.enabled i) hfree'
      fun j hj => hout j (List.mem_cons_of_mem _ hj)
    refine ⟨pp', ?_, hnone⟩
    -- the other inputs keep their queues
    have hqueues : free.map (fun j => ((pp.enabled rte i).qIn j).queueId) =
        free.map fun j => (pp.qIn j).queueId :=
      List.map_congr_left fun j hj => by rw [qIn_enabled_of_ne (hne j hj)]
    have hcall := h.enable_free hrte hmem
    rw [if_pos (hout i List.mem_cons_self)] at hcall
    simp only [List.length_cons, handOut, getNextAvailable_eq, hfree, List.head?_cons,
      Option.map_some, hcall, Option.bind_some, hrest, hqueues, List.map_cons]

/-- A free input past the bound stays free. -/
lemma DistinctIn.handOut_stuck (hrte : ∀ p id, 0 ≤ (rte p id).1) (n : ℕ) :
    ∀ {pp pp' : PipelineParams ρ} {queues : List ℕ}, DistinctIn pp → i ∈ pp.freeIn inPortId →
      pp.nbQOut ≤ i → handOut rte inPortId n pp = some (queues, pp') →
      i ∈ pp'.freeIn inPortId := by
  induction n with
  | zero =>
    intro pp pp' queues _ hi _ hrun
    simp only [handOut, Option.some_inj, Prod.mk.injEq] at hrun
    exact hrun.2 ▸ hi
  | succ n ih =>
    intro pp pp' queues h hi hout hrun
    obtain ⟨j, rest, hfree⟩ := List.exists_cons_of_ne_nil (List.ne_nil_of_mem hi)
    have hj : j ∈ pp.freeIn inPortId := hfree ▸ List.mem_cons_self
    simp only [handOut, getNextAvailable_eq, hfree, List.head?_cons, Option.map_some,
      h.enable_free hrte hj, Option.bind_some, Option.map_eq_some_iff, Prod.mk.injEq] at hrun
    obtain ⟨⟨queues', pp₁⟩, hrest, -, rfl⟩ := hrun
    split at hrest
    · -- another input was enabled
      refine ih (h.enabled j) ?_ hout hrest
      rw [freeIn_enabled, List.mem_filter]
      exact ⟨hi, by simp; omega⟩
    · exact ih h hi hout hrest

lemma DistinctIn.handsOutAll_iff (h : DistinctIn pp) (hrte : ∀ p id, 0 ≤ (rte p id).1) :
    HandsOutAll rte pp inPortId ↔ ∀ i ∈ pp.freeIn inPortId, i < pp.nbQOut := by
  constructor
  · rintro ⟨pp', hrun, hnone⟩ i hi
    by_contra hout
    have hfree := handOut_stuck hrte _ h hi (not_lt.mp hout) hrun
    rw [getNextAvailable_eq, Option.map_eq_none_iff, List.head?_eq_none_iff] at hnone
    rw [hnone] at hfree
    cases hfree
  · intro hout
    obtain ⟨pp', hrun, hnone⟩ := handOut_of_lt hrte _ pp h rfl hout
    refine ⟨pp', hrun, ?_⟩
    rw [getNextAvailable_eq, hnone]
    rfl

/-- For every pipeline that the program builds from calls with distinct inputs: a call enables
exactly the input it names if and only if the first `nb_q_out` entries hold that input and no
left-over entry of the name, and the free queues of a port are all handed out if and only if
they are among these entries. -/
theorem enablePortIn_exact_iff {mem pp : PipelineParams ρ} {lcoreId : ℕ} {type : PipelineType}
    {ops : List PortOp} {created : RteCreated ρ} {dataDisable : Bool}
    (hnodup : (PortOp.inputs ops).Nodup)
    (hids : ∀ i < pipelineQueueInMax, ∀ j < pipelineQueueInMax,
      created.portIn i = created.portIn j → i = j)
    (hbuild : build mem lcoreId type ops created dataDisable = some pp)
    (hrte : ∀ p id, 0 ≤ (rte p id).1) :
    (∀ inPortId inQueueId,
        EnablesExactly rte pp inPortId inQueueId ↔ InScan pp inPortId inQueueId) ∧
      ∀ inPortId, HandsOutAll rte pp inPortId ↔ ∀ i ∈ pp.freeIn inPortId, i < pp.nbQOut := by
  have h := distinctIn_of_build hnodup hids hbuild
  exact ⟨fun _ _ => h.enablesExactly_iff hrte, fun _ => h.handsOutAll_iff hrte⟩

/-- Memory that was zeroed. -/
def zeroed : PipelineParams Unit where
  pipeline := ()
  type := .none
  lcoreId := 0
  qIn _ := ⟨0, 0, none, 0, false⟩
  nbQIn := 0
  qOut _ := ⟨0, 0, none, 0, 0, 0⟩
  nbQOut := 0

/-- A library that numbers the ports from 0. -/
def sequential : RteCreated Unit := ⟨(), BitVec.ofNat 32, BitVec.ofNat 32⟩

/-- Two input queues of port 3 and one output. -/
def twoInOneOut : List PortOp := [.portIn 3 0 none, .portIn 3 1 none, .portOut 4 0 none]

/-- The theorem for these ports. -/
theorem enablePortIn_exact_iff_twoInOneOut :
    ∃ pp, build zeroed 1 .default twoInOneOut sequential true = some pp ∧
      (∀ inPortId inQueueId, EnablesExactly (fun p _ => (0, p)) pp inPortId inQueueId ↔
        InScan pp inPortId inQueueId) ∧
      ∀ inPortId, HandsOutAll (fun p _ => (0, p)) pp inPortId ↔
        ∀ i ∈ pp.freeIn inPortId, i < pp.nbQOut := by
  have hnodup : (PortOp.inputs twoInOneOut).Nodup := by decide
  have hids : ∀ i < pipelineQueueInMax, ∀ j < pipelineQueueInMax,
      sequential.portIn i = sequential.portIn j → i = j := by decide
  obtain ⟨pp, hbuild⟩ : ∃ pp, build zeroed 1 .default twoInOneOut sequential true = some pp :=
    ⟨_, rfl⟩
  exact ⟨pp, hbuild, enablePortIn_exact_iff hnodup hids hbuild fun _ _ => le_rfl⟩

/-- Its second input is not found, and asking for a free queue never comes to an end. -/
theorem twoInOneOut_not_enabled :
    ∃ pp, build zeroed 1 .default twoInOneOut sequential true = some pp ∧
      pp.inPair 1 = (3, 1) ∧ 1 < pp.nbQIn ∧
      ¬ EnablesExactly (fun p _ => (0, p)) pp 3 1 ∧ ¬ HandsOutAll (fun p _ => (0, p)) pp 3 := by
  refine ⟨_, rfl, rfl, by decide, ?_, ?_⟩
  · intro henables
    have hret := congrArg (Option.map Prod.fst) (henables.registered 1 (by decide) rfl)
    exact absurd hret (by decide)
  · -- the round for the second queue fails and leaves it free
    intro hall
    obtain ⟨pp', hrun, hnone⟩ := hall
    obtain ⟨-, rfl⟩ := Prod.mk.inj (Option.some_inj.mp hrun)
    exact absurd hnone (by decide)

end PipelineParams

end DaqSwitch.Pipeline
