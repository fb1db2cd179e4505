import DaqSwitch.Pipeline.FdirIds
import DaqSwitch.Pipeline.Shape

/-!
# Adding a data flow

`pipeline_add_data_flow` enables an input of an rx pipeline and one of a tx pipeline, looks up the
internal id of the output between them and asks the NIC for a filter with this id.  All its errors
go to one exit that undoes nothing.
-/

namespace DaqSwitch.Pipeline

open Lib VoqSwq

/-- The two pipelines, the requests to the NIC and the filters that it installed. -/
structure FlowState (ρ : Type*) where
  inPp : PipelineParams ρ
  outPp : PipelineParams ρ
  requests : List FdirCall
  installed : List FdirCall

/-- The arguments of the call besides the pipelines. -/
structure FlowArgs where
  inPortId : ℕ
  inQueueId : ℕ
  outPortId : ℕ
  outQueueId : ℕ
  dataFlow : RteFdirFilter

namespace PipelineParams

variable {ρ : Type*}

/-- `get_internal_port_out_id`. -/
def getInternalPortOutId (pp : PipelineParams ρ) (outPortId outQueueId : ℕ) :
    Option (BitVec 32) :=
  ((List.range pp.nbQOut).find? fun i =>
    (pp.qOut i).portId == outPortId && (pp.qOut i).queueId == outQueueId).map fun i =>
      (pp.qOut i).rtePipelinePortId

end PipelineParams

open PipelineParams

section

variable {ρ : Type*}

/-- The arguments of `rte_eth_dev_fdir_add_perfect_filter`.  Its parameter for the id has 16
bits. -/
def FlowArgs.request (a : FlowArgs) (fdirId : BitVec 32) : FdirCall :=
  ⟨a.inPortId, a.dataFlow, fdirId.setWidth 16, a.inQueueId, 0⟩

/-- `pipeline_add_data_flow`; `none` stands for a failed `RTE_VERIFY`. -/
def pipelineAddDataFlow (rte : RtePortInEnable ρ) (nic : FdirNic) (a : FlowArgs)
    (s : FlowState ρ) : Option (Ret × FlowState ρ) :=
  if s.inPp.type ≠ .rxData then some (.err, s)
  else if s.outPp.type ≠ .txData then some (.err, s)
  else
    match s.inPp.pipelineEnablePortIn rte a.inPortId a.inQueueId with
    | none => none
    | some (.err, inPp) => some (.err, { s with inPp := inPp })
    | some (.success, inPp) =>
      let s := { s with inPp := inPp }
      match s.outPp.pipelineEnablePortIn rte a.outPortId a.outQueueId with
      | none => none
      | some (.err, outPp) => some (.err, { s with outPp := outPp })
      | some (.success, outPp) =>
        let s := { s with outPp := outPp }
        match s.inPp.getInternalPortOutId a.outPortId a.outQueueId with
        | none => some (.err, s)
        | some fdirId =>
          let req := a.request fdirId
          let ret := nic s.requests req
          let s := { s with requests := s.requests ++ [req] }
          if ret < 0 then some (.err, s)
          else some (.success, { s with installed := s.installed ++ [req] })

/-! ## What the callers expect -/

/-- The inputs have the enabled flags of before. -/
def SameEnabled (pp pp' : PipelineParams ρ) : Prop :=
  ∀ i < pp.nbQIn, (pp'.qIn i).enabled = (pp.qIn i).enabled

/-- There is an input of the name that is enabled. -/
def IsEnabled (pp : PipelineParams ρ) (portId queueId : ℕ) : Prop :=
  ∃ i < pp.nbQIn, pp.inPair i = (portId, queueId) ∧ (pp.qIn i).enabled = true

/-- The id is the internal id of the output of the name, the first if there are several. -/
def IsOutputId (pp : PipelineParams ρ) (portId queueId id : ℕ) : Prop :=
  ∃ i < pp.nbQOut, (pp.qOut i).portId = portId ∧ (pp.qOut i).queueId = queueId ∧
    (∀ j < i, ¬ ((pp.qOut j).portId = portId ∧ (pp.qOut j).queueId = queueId)) ∧
    id = (pp.qOut i).rtePipelinePortId.toNat

/-- After an error nothing is installed and enabled that was not before, and after a success both
inputs are enabled and the filter has the id of the output. -/
structure AddsAtomically (a : FlowArgs) (s : FlowState ρ) (ret : Ret) (t : FlowState ρ) :
    Prop where
  err : ret = .err →
    t.installed = s.installed ∧ SameEnabled s.inPp t.inPp ∧ SameEnabled s.outPp t.outPp
  success : ret = .success →
    IsEnabled t.inPp a.inPortId a.inQueueId ∧ IsEnabled t.outPp a.outPortId a.outQueueId ∧
      ∃ req, t.installed = s.installed ++ [req] ∧ req.portId = a.inPortId ∧
        req.filter = a.dataFlow ∧ req.rxQueue = a.inQueueId ∧
        IsOutputId s.inPp a.outPortId a.outQueueId req.softId.toNat

/-! ## The steps of a call -/

variable {rte : RtePortInEnable ρ} {nic : FdirNic} {a : FlowArgs} {s : FlowState ρ}
  {pp : PipelineParams ρ} {portId queueId i j : ℕ}

/-- The name is not found, or the library refuses to enable the input. -/
def EnableFails (rte : RtePortInEnable ρ) (pp : PipelineParams ρ) (portId queueId : ℕ) : Prop :=
  ∀ id, pp.getInternalPortInId portId queueId = some id → (rte pp.pipeline id).1 < 0

/-- The look-ups lead to the input `i`, and the library enables it. -/
def Enables (rte : RtePortInEnable ρ) (pp : PipelineParams ρ) (portId queueId i : ℕ) : Prop :=
  ∃ id, pp.getInternalPortInId portId queueId = some id ∧ 0 ≤ (rte pp.pipeline id).1 ∧
    pp.getQInIndex id = some i

lemma Enables.lt (h : Enables rte pp portId queueId i) : i < pp.nbQIn := by
  obtain ⟨id, -, -, hi⟩ := h
  obtain ⟨-, hlt, -⟩ := List.find?_range_eq_some.mp hi
  exact List.mem_range.mp hlt

lemma Enables.eq (hi : Enables rte pp portId queueId i) (hj : Enables rte pp portId queueId j) :
    i = j := by
  obtain ⟨id, hid, -, hi⟩ := hi
  obtain ⟨id', hid', -, hj⟩ := hj
  rw [hid, Option.some_inj] at hid'
  rw [← hid', hi, Option.some_inj] at hj
  exact hj

lemma Enables.not_fails (h : Enables rte pp portId queueId i) :
    ¬ EnableFails rte pp portId queueId := by
  obtain ⟨id, hid, hret, -⟩ := h
  intro hfails
  have := hfails id hid
  omega

/-- What `pipeline_enable_port_in` returns: an error, a success or no value. -/
lemma pipelineEnablePortIn_cases (rte : RtePortInEnable ρ) (pp : PipelineParams ρ)
    (portId queueId : ℕ) :
    (EnableFails rte pp portId queueId ∧
      ∃ p, pp.pipelineEnablePortIn rte portId queueId = some (.err, { pp with pipeline := p })) ∨
    (∃ i, Enables rte pp portId queueId i ∧
      ∃ p, pp.pipelineEnablePortIn rte portId queueId =
        some (.success, { pp.enableIn i with pipeline := p })) ∨
    (¬ EnableFails rte pp portId queueId ∧ (∀ i, ¬ Enables rte pp portId queueId i) ∧
      pp.pipelineEnablePortIn rte portId queueId = none) := by
  unfold pipelineEnablePortIn
  cases hid : pp.getInternalPortInId portId queueId with
  | none =>
    refine Or.inl ⟨?_, pp.pipeline, rfl⟩
    intro id hsome
    rw [hid] at hsome
    cases hsome
  | some id =>
    by_cases hret : (rte pp.pipeline id).1 < 0
    · refine Or.inl ⟨?_, (rte pp.pipeline id).2, by simp [hret]⟩
      intro id' hsome
      rw [hid, Option.some_inj] at hsome
      exact hsome ▸ hret
    · have hindex : ({ pp with pipeline := (rte pp.pipeline id).2 } :
          PipelineParams ρ).getQInIndex id = pp.getQInIndex id := rfl
      cases hi : pp.getQInIndex id with
      | some i =>
        refine Or.inr (Or.inl ⟨i, ⟨id, hid, not_lt.mp hret, hi⟩, (rte pp.pipeline id).2, ?_⟩)
        simp [hret, hindex, hi, enableIn]
      | none =>
        refine Or.inr (Or.inr ⟨fun hfails => hret (hfails id hid), ?_, by simp [hret, hindex, hi]⟩)
        rintro i ⟨id', hsome, -, hi'⟩
        rw [hid, Option.some_inj] at hsome
        rw [← hsome, hi] at hi'
        cases hi'

/-- Enabling the input `i` leaves the flags as they are exactly when it was enabled. -/
lemma sameEnabled_enableIn_iff (hi : i < pp.nbQIn) (p : ρ) :
    SameEnabled pp { pp.enableIn i with pipeline := p } ↔ (pp.qIn i).enabled = true := by
  constructor
  · intro hsame
    have := hsame i hi
    simpa [enableIn] using this.symm
  · intro henabled k hk
    by_cases hki : k = i
    · simp [enableIn, hki, henabled]
    · simp [enableIn, hki]

lemma sameEnabled_pipeline (pp : PipelineParams ρ) (p : ρ) :
    SameEnabled pp { pp with pipeline := p } := fun _ _ => rfl

/-- The input `i` has the name, or another one that has it was enabled before. -/
def NamesInput (pp : PipelineParams ρ) (portId queueId i : ℕ) : Prop :=
  ∃ k < pp.nbQIn, pp.inPair k = (portId, queueId) ∧ (k = i ∨ (pp.qIn k).enabled = true)

lemma isEnabled_enableIn_iff (p : ρ) :
    IsEnabled { pp.enableIn i with pipeline := p } portId queueId ↔
      NamesInput pp portId queueId i := by
  have hpair (k : ℕ) :
      ({ pp.enableIn i with pipeline := p } : PipelineParams ρ).inPair k = pp.inPair k :=
    enableIn_inPair pp i k
  have hflag (k : ℕ) : ((pp.enableIn i).qIn k).enabled = true ↔
      (k = i ∨ (pp.qIn k).enabled = true) := by
    by_cases hki : k = i <;> simp [enableIn, hki]
  simp only [IsEnabled, NamesInput, hpair, hflag]
  rfl

/-- The output is found and the NIC accepts the filter. -/
def Accepts (nic : FdirNic) (a : FlowArgs) (s : FlowState ρ) (id : BitVec 32) : Prop :=
  s.inPp.getInternalPortOutId a.outPortId a.outQueueId = some id ∧
    0 ≤ nic s.requests (a.request id)

/-- The condition, before the call: once an input is enabled that was not, nothing fails any more;
and when all goes well, the inputs that the look-ups lead to have the names that were given, and
the internal id fits the parameter of the NIC. -/
structure NothingToUndo (rte : RtePortInEnable ρ) (nic : FdirNic) (a : FlowArgs)
    (s : FlowState ρ) : Prop where
  outFails : ∀ i, Enables rte s.inPp a.inPortId a.inQueueId i →
    EnableFails rte s.outPp a.outPortId a.outQueueId → (s.inPp.qIn i).enabled = true
  filterFails : ∀ i j, Enables rte s.inPp a.inPortId a.inQueueId i →
    Enables rte s.outPp a.outPortId a.outQueueId j → (∀ id, ¬ Accepts nic a s id) →
    (s.inPp.qIn i).enabled = true ∧ (s.outPp.qIn j).enabled = true
  named : ∀ i j id, Enables rte s.inPp a.inPortId a.inQueueId i →
    Enables rte s.outPp a.outPortId a.outQueueId j → Accepts nic a s id →
    NamesInput s.inPp a.inPortId a.inQueueId i ∧ NamesInput s.outPp a.outPortId a.outQueueId j ∧
      id.toNat < 2 ^ 16

lemma isOutputId_iff {id : BitVec 32} {n : ℕ}
    (h : pp.getInternalPortOutId portId queueId = some id) :
    IsOutputId pp portId queueId n ↔ n = id.toNat := by
  obtain ⟨i, hfind, rfl⟩ := Option.map_eq_some_iff.mp h
  obtain ⟨hi, hlt, hfirst⟩ := List.find?_range_eq_some.mp hfind
  have hname : (pp.qOut i).portId = portId ∧ (pp.qOut i).queueId = queueId := by simpa using hi
  have hfirst' : ∀ j < i, ¬ ((pp.qOut j).portId = portId ∧ (pp.qOut j).queueId = queueId) := by
    simpa [← not_and_or] using hfirst
  constructor
  · rintro ⟨j, -, hport, hqueue, hfirstj, rfl⟩
    rcases lt_trichotomy i j with hij | rfl | hji
    · exact absurd hname (hfirstj i hij)
    · rfl
    · exact absurd ⟨hport, hqueue⟩ (hfirst' j hji)
  · rintro rfl
    exact ⟨i, List.mem_range.mp hlt, hname.1, hname.2, hfirst', rfl⟩

/-! ## When nothing has to be undone -/

section Outcomes

variable {inPp outPp : PipelineParams ρ} (hin : s.inPp.type = .rxData)
  (hout : s.outPp.type = .txData)

include hin hout

/-- The first input cannot be enabled. -/
lemma addDataFlow_of_inFails
    (h : s.inPp.pipelineEnablePortIn rte a.inPortId a.inQueueId = some (.err, inPp)) :
    pipelineAddDataFlow rte nic a s = some (.err, { s with inPp := inPp }) := by
  simp [pipelineAddDataFlow, hin, hout, h]

lemma addDataFlow_of_inAborts
    (h : s.inPp.pipelineEnablePortIn rte a.inPortId a.inQueueId = none) :
    pipelineAddDataFlow rte nic a s = none := by
  simp [pipelineAddDataFlow, hin, hout, h]

variable (henabled : s.inPp.pipelineEnablePortIn rte a.inPortId a.inQueueId = some (.success, inPp))

include henabled

/-- The second input cannot be enabled. -/
lemma addDataFlow_of_outFails
    (h : s.outPp.pipelineEnablePortIn rte a.outPortId a.outQueueId = some (.err, outPp)) :
    pipelineAddDataFlow rte nic a s = some (.err, { s with inPp := inPp, outPp := outPp }) := by
  simp [pipelineAddDataFlow, hin, hout, henabled, h]

lemma addDataFlow_of_outAborts
    (h : s.outPp.pipelineEnablePortIn rte a.outPortId a.outQueueId = none) :
    pipelineAddDataFlow rte nic a s = none := by
  simp [pipelineAddDataFlow, hin, hout, henabled, h]

variable (henabled' : s.outPp.pipelineEnablePortIn rte a.outPortId a.outQueueId =
  some (.success, outPp))

include henabled'

/-- The output is not found, or the NIC refuses the filter. -/
lemma addDataFlow_of_not_accepts
    (h : ∀ id, inPp.getInternalPortOutId a.outPortId a.outQueueId = some id →
      nic s.requests (a.request id) < 0) :
    ∃ requests, pipelineAddDataFlow rte nic a s =
      some (.err, ⟨inPp, outPp, requests, s.installed⟩) := by
  cases hid : inPp.getInternalPortOutId a.outPortId a.outQueueId with
  | none =>
    exact ⟨s.requests, by simp [pipelineAddDataFlow, hin, hout, henabled, henabled', hid]⟩
  | some id =>
    refine ⟨s.requests ++ [a.request id], ?_⟩
    simp [pipelineAddDataFlow, hin, hout, henabled, henabled', hid, h id hid]

lemma addDataFlow_of_accepts {id : BitVec 32}
    (hid : inPp.getInternalPortOutId a.outPortId a.outQueueId = some id)
    (h : 0 ≤ nic s.requests (a.request id)) :
    pipelineAddDataFlow rte nic a s =
      some (.success, ⟨inPp, outPp, s.requests ++ [a.request id],
        s.installed ++ [a.request id]⟩) := by
  simp [pipelineAddDataFlow, hin, hout, henabled, henabled', hid, not_lt.mpr h]

end Outcomes

/-- An outcome decides whether the call is atomic. -/
lemma atomic_iff_of_eq {ret : Ret} {t : FlowState ρ}
    (h : pipelineAddDataFlow rte nic a s = some (ret, t)) :
    (∀ ret t, pipelineAddDataFlow rte nic a s = some (ret, t) → AddsAtomically a s ret t) ↔
      AddsAtomically a s ret t := by
  simp [h]

lemma atomic_of_eq_none (h : pipelineAddDataFlow rte nic a s = none) (ret : Ret)
    (t : FlowState ρ) (heq : pipelineAddDataFlow rte nic a s = some (ret, t)) :
    AddsAtomically a s ret t := by
  rw [h] at heq
  cases heq

/-- Where the first input is not enabled, there is nothing to undo. -/
lemma NothingToUndo.of_not_enables (h : ∀ i, ¬ Enables rte s.inPp a.inPortId a.inQueueId i) :
    NothingToUndo rte nic a s :=
  ⟨fun i hi => absurd hi (h i), fun i _ hi => absurd hi (h i), fun i _ _ hi => absurd hi (h i)⟩

lemma addsAtomically_err_iff {t : FlowState ρ} :
    AddsAtomically a s .err t ↔
      t.installed = s.installed ∧ SameEnabled s.inPp t.inPp ∧ SameEnabled s.outPp t.outPp :=
  ⟨fun h => h.err rfl, fun h => ⟨fun _ => h, nofun⟩⟩

lemma addsAtomically_success_iff {inPp outPp : PipelineParams ρ} {requests : List FdirCall}
    {id : BitVec 32} (hid : s.inPp.getInternalPortOutId a.outPortId a.outQueueId = some id) :
    AddsAtomically a s .success ⟨inPp, outPp, requests, s.installed ++ [a.request id]⟩ ↔
      IsEnabled inPp a.inPortId a.inQueueId ∧ IsEnabled outPp a.outPortId a.outQueueId ∧
        id.toNat < 2 ^ 16 := by
  have hfits : (id.setWidth 16).toNat = id.toNat ↔ id.toNat < 2 ^ 16 := by
    rw [BitVec.toNat_setWidth]
    exact Nat.mod_eq_iff_lt (by decide)
  constructor
  · intro h
    obtain ⟨hin, hout, req, happ, -, -, -, hreq⟩ := h.success rfl
    obtain rfl : a.request id = req := by simpa using happ
    exact ⟨hin, hout, hfits.mp ((isOutputId_iff hid).mp hreq)⟩
  · rintro ⟨hin, hout, hlt⟩
    refine ⟨nofun, fun _ => ⟨hin, hout, a.request id, rfl, rfl, rfl, rfl, ?_⟩⟩
    exact (isOutputId_iff hid).mpr (hfits.mpr hlt)

/-- Both inputs are enabled. -/
lemma atomic_iff_of_enabled (hin : s.inPp.type = .rxData) (hout : s.outPp.type = .txData) {p p' : ρ}
    (hi : Enables rte s.inPp a.inPortId a.inQueueId i)
    (hj : Enables rte s.outPp a.outPortId a.outQueueId j)
    (heq : s.inPp.pipelineEnablePortIn rte a.inPortId a.inQueueId =
      some (.success, { s.inPp.enableIn i with pipeline := p }))
    (heq' : s.outPp.pipelineEnablePortIn rte a.outPortId a.outQueueId =
      some (.success, { s.outPp.enableIn j with pipeline := p' })) :
    (∀ ret t, pipelineAddDataFlow rte nic a s = some (ret, t) → AddsAtomically a s ret t) ↔
      NothingToUndo rte nic a s := by
  by_cases haccepts : ∃ id, Accepts nic a s id
  · -- the filter is installed
    obtain ⟨id, hid, hret⟩ := haccepts
    rw [atomic_iff_of_eq (addDataFlow_of_accepts hin hout heq heq' hid hret),
      addsAtomically_success_iff hid, isEnabled_enableIn_iff, isEnabled_enableIn_iff]
    constructor
    · rintro ⟨hnamed, hnamed', hlt⟩
      refine ⟨fun _ _ hfails => absurd hfails hj.not_fails,
        fun _ _ _ _ hnot => absurd ⟨hid, hret⟩ (hnot id), ?_⟩
      rintro i' j' id' hi' hj' ⟨hid', -⟩
      rw [hid, Option.some_inj] at hid'
      rw [hi'.eq hi, hj'.eq hj, ← hid']
      exact ⟨hnamed, hnamed', hlt⟩
    · intro h
      exact h.named i j id hi hj ⟨hid, hret⟩
  · -- it is not
    rw [not_exists] at haccepts
    have hrefused : ∀ id, s.inPp.getInternalPortOutId a.outPortId a.outQueueId = some id →
        nic s.requests (a.request id) < 0 :=
      fun id hid => not_le.mp fun hret => haccepts id ⟨hid, hret⟩
    obtain ⟨requests, hres⟩ := addDataFlow_of_not_accepts hin hout heq heq' hrefused
    rw [atomic_iff_of_eq hres, addsAtomically_err_iff]
    constructor
    · rintro ⟨-, hsame, hsame'⟩
      refine ⟨fun _ _ hfails => absurd hfails hj.not_fails, ?_,
        fun _ _ id _ _ hacc => absurd hacc (haccepts id)⟩
      intro i' j' hi' hj' _
      rw [hi'.eq hi, hj'.eq hj]
      exact ⟨(sameEnabled_enableIn_iff hi.lt p).mp hsame,
        (sameEnabled_enableIn_iff hj.lt p').mp hsame'⟩
    · intro h
      obtain ⟨hflag, hflag'⟩ := h.filterFails i j hi hj haccepts
      exact ⟨rfl, (sameEnabled_enableIn_iff hi.lt p).mpr hflag,
        (sameEnabled_enableIn_iff hj.lt p').mpr hflag'⟩

/-- The first input is enabled, the second one is not. -/
lemma atomic_iff_of_outFails (hin : s.inPp.type = .rxData) (hout : s.outPp.type = .txData)
    {p p' : ρ} (hi : Enables rte s.inPp a.inPortId a.inQueueId i)
    (hfails : EnableFails rte s.outPp a.outPortId a.outQueueId)
    (heq : s.inPp.pipelineEnablePortIn rte a.inPortId a.inQueueId =
      some (.success, { s.inPp.enableIn i with pipeline := p }))
    (heq' : s.outPp.pipelineEnablePortIn rte a.outPortId a.outQueueId =
      some (.err, { s.outPp with pipeline := p' })) :
    (∀ ret t, pipelineAddDataFlow rte nic a s = some (ret, t) → AddsAtomically a s ret t) ↔
      NothingToUndo rte nic a s := by
  rw [atomic_iff_of_eq (addDataFlow_of_outFails hin hout heq heq'), addsAtomically_err_iff]
  constructor
  · rintro ⟨-, hsame, -⟩
    refine ⟨?_, fun _ j _ hj => absurd hfails hj.not_fails,
      fun _ j _ _ hj => absurd hfails hj.not_fails⟩
    intro i' hi' _
    rw [hi'.eq hi]
    exact (sameEnabled_enableIn_iff hi.lt p).mp hsame
  · intro h
    exact ⟨rfl, (sameEnabled_enableIn_iff hi.lt p).mpr (h.outFails i hi hfails),
      sameEnabled_pipeline _ p'⟩

/-- For every pair of pipelines, all arguments and whatever the library and the NIC answer: a call
of `pipeline_add_data_flow` is atomic if and only if it is refused for the types of the pipelines or
has nothing to undo. -/
theorem pipelineAddDataFlow_atomic_iff (rte : RtePortInEnable ρ) (nic : FdirNic) (a : FlowArgs)
    (s : FlowState ρ) :
    (∀ ret t, pipelineAddDataFlow rte nic a s = some (ret, t) → AddsAtomically a s ret t) ↔
      (s.inPp.type = .rxData → s.outPp.type = .txData → NothingToUndo rte nic a s) := by
  by_cases htypes : s.inPp.type = .rxData ∧ s.outPp.type = .txData
  · obtain ⟨hin, hout⟩ := htypes
    rw [imp_iff_right hin, imp_iff_right hout]
    rcases pipelineEnablePortIn_cases rte s.inPp a.inPortId a.inQueueId with
      ⟨hfails, p, heq⟩ | ⟨i, hi, p, heq⟩ | ⟨-, hnone, heq⟩
    · -- the first input is not enabled
      rw [atomic_iff_of_eq (addDataFlow_of_inFails hin hout heq), addsAtomically_err_iff]
      exact iff_of_true ⟨rfl, sameEnabled_pipeline _ p, fun _ _ => rfl⟩
        (.of_not_enables fun i hi => hi.not_fails hfails)
    · rcases pipelineEnablePortIn_cases rte s.outPp a.outPortId a.outQueueId with
        ⟨hfails, p', heq'⟩ | ⟨j, hj, p', heq'⟩ | ⟨hnf, hnone, heq'⟩
      · exact atomic_iff_of_outFails hin hout hi hfails heq heq'
      · exact atomic_iff_of_enabled hin hout hi hj heq heq'
      · -- the second look-up aborts
        refine iff_of_true (atomic_of_eq_none (addDataFlow_of_outAborts hin hout heq heq')) ?_
        exact ⟨fun _ _ hfails => absurd hfails hnf, fun _ j _ hj => absurd hj (hnone j),
          fun _ j _ _ hj => absurd hj (hnone j)⟩
    · -- the first look-up aborts
      exact iff_of_true (atomic_of_eq_none (addDataFlow_of_inAborts hin hout heq))
        (.of_not_enables hnone)
  · -- the types are refused
    have hres : pipelineAddDataFlow rte nic a s = some (.err, s) := by
      rw [pipelineAddDataFlow]
      split
      · rfl
      · next hin => rw [if_pos fun hout => htypes ⟨not_not.mp hin, hout⟩]
    rw [atomic_iff_of_eq hres, addsAtomically_err_iff]
    exact iff_of_true ⟨rfl, fun _ _ => rfl, fun _ _ => rfl⟩ fun hin hout =>
      absurd ⟨hin, hout⟩ htypes

/-- A flow from port 0 to port 4. -/
def flowArgs : FlowArgs := ⟨0, 1, 4, 0, .zero⟩

/-- The NIC has no room for the filter: both inputs stay enabled. -/
theorem not_addsAtomically :
    ∃ inPp outPp,
      build zeroed 1 .rxData [.portIn 0 1 none, .portOut 4 0 (some 7)] sequential true =
        some inPp ∧
      build zeroed 2 .txData [.portIn 4 0 (some 7), .portOut 4 0 none] sequential true =
        some outPp ∧
      ∃ t, pipelineAddDataFlow (fun p _ => (0, p)) (fun _ _ => -28) flowArgs
          ⟨inPp, outPp, [], []⟩ = some (.err, t) ∧
        ¬ AddsAtomically flowArgs ⟨inPp, outPp, [], []⟩ .err t := by
  refine ⟨_, _, rfl, rfl, _, rfl, ?_⟩
  intro hatomic
  exact absurd ((hatomic.err rfl).2.1 0 (by decide)) (by decide)

end

end DaqSwitch.Pipeline
