import DaqSwitch.Lib.CallLog
import DaqSwitch.Pipeline.Shape

/-!
# Configuring a tx data pipeline

`pipeline_tx_data_configure` makes an input port of the `rte_pipeline` for every input ring, a stub
table for every output, and sends all that arrives at the table `i` to the output port `i`.  Rings
and hardware queues are then connected one to one, provided that their numbers are equal.  The check
that the source makes of this is an assignment, `RTE_VERIFY(params->nb_q_out = params->nb_q_in)`.

The `rte_pipeline` is known by the calls that were made on it.
-/

namespace DaqSwitch.Pipeline

open Lib CallLog

/-- The calls of the `rte_pipeline` library. -/
inductive RteCall
  | create
  | portInCreate (ring : Option ℕ)
  | tableCreate
  | portOutCreate (portId queueId : ℕ)
  | tableDefaultEntryAdd (tableId portOutId : BitVec 32)
  | portInConnectToTable (portInId tableId : BitVec 32)
  | portInEnable (portInId : BitVec 32)
  | check
deriving DecidableEq, Repr

/-- The objects of an `rte_pipeline` that have an id. -/
inductive RteObject
  | portIn
  | table
  | portOut
deriving DecidableEq, Repr

/-- The object that a call creates. -/
def RteCall.creates : RteCall → Option RteObject
  | .portInCreate _ => some .portIn
  | .tableCreate => some .table
  | .portOutCreate _ _ => some .portOut
  | _ => none

/-- A `struct rte_pipeline`. -/
abbrev RtePipeline := List (RteCall × BitVec 32)

/-- The library: a call that fails returns no id. -/
abbrev RteLibrary := Library RteCall (BitVec 32)

/-- What the function works on beside the `rte_pipeline`. -/
structure TxConf where
  pp : PipelineParams RtePipeline
  stubTableId : ℕ → BitVec 32

namespace TxConf

/-- `&params->q_in[i].rte_pipeline_port_id` is written. -/
def setInId (id : BitVec 32) (i : ℕ) (c : TxConf) : TxConf :=
  let q := c.pp.qIn i
  { c with
    pp := { c.pp with qIn := Function.update c.pp.qIn i { q with rtePipelinePortId := id } } }

@[simp] lemma setInId_ring (id : BitVec 32) (i : ℕ) (c : TxConf) (j : ℕ) :
    ((setInId id i c).pp.qIn j).ring = (c.pp.qIn j).ring := by
  refine Machine.apply_update_eq QueueIn.ring ?_ j
  rfl

/-- `&stub_table_id[i]` is written. -/
def setTableId (id : BitVec 32) (i : ℕ) (c : TxConf) : TxConf :=
  { c with stubTableId := Function.update c.stubTableId i id }

/-- `&params->q_out[i].rte_pipeline_port_id` is written. -/
def setOutId (id : BitVec 32) (i : ℕ) (c : TxConf) : TxConf :=
  let q := c.pp.qOut i
  { c with
    pp := { c.pp with qOut := Function.update c.pp.qOut i { q with rtePipelinePortId := id } } }

@[simp] lemma setOutId_portId (id : BitVec 32) (i : ℕ) (c : TxConf) (j : ℕ) :
    ((setOutId id i c).pp.qOut j).portId = (c.pp.qOut j).portId := by
  refine Machine.apply_update_eq QueueOut.portId ?_ j
  rfl

@[simp] lemma setOutId_queueId (id : BitVec 32) (i : ℕ) (c : TxConf) (j : ℕ) :
    ((setOutId id i c).pp.qOut j).queueId = (c.pp.qOut j).queueId := by
  refine Machine.apply_update_eq QueueOut.queueId ?_ j
  rfl

/-- `params->q_in[i].enabled = true`. -/
def setEnabled (_ : BitVec 32) (i : ℕ) (c : TxConf) : TxConf := { c with pp := c.pp.enableIn i }

/-! ## The loops -/

/-- Input port configuration. -/
def createPortIn (rte : RteLibrary) (i : ℕ) (s : RtePipeline × TxConf) :
    Option (RtePipeline × TxConf) :=
  if (s.2.pp.qIn i).ring = none then none
  else round rte (fun c i => .portInCreate (c.pp.qIn i).ring) setInId i s

/-- Stub table configuration. -/
def createTable (rte : RteLibrary) : ℕ → RtePipeline × TxConf → Option (RtePipeline × TxConf) :=
  round rte (fun _ _ => .tableCreate) setTableId

/-- Output port configuration. -/
def createPortOut (rte : RteLibrary) : ℕ → RtePipeline × TxConf → Option (RtePipeline × TxConf) :=
  round rte (fun c i => .portOutCreate (c.pp.qOut i).portId (c.pp.qOut i).queueId) setOutId

/-- The default entries of the stub tables. -/
def addDefaultEntry (rte : RteLibrary) :
    ℕ → RtePipeline × TxConf → Option (RtePipeline × TxConf) :=
  round rte
    (fun c i => .tableDefaultEntryAdd (c.stubTableId i) (c.pp.qOut i).rtePipelinePortId)
    fun _ _ c => c

/-- Interconnect ports. -/
def connectPortIn (rte : RteLibrary) :
    ℕ → RtePipeline × TxConf → Option (RtePipeline × TxConf) :=
  round rte (fun c i => .portInConnectToTable (c.pp.qIn i).rtePipelinePortId (c.stubTableId i))
    fun _ _ c => c

/-- The inputs are enabled, compiled without `PIPELINE_DATA_DISABLE`. -/
def enablePortsIn (rte : RteLibrary) (dataDisable : Bool) (s : RtePipeline × TxConf) :
    Option (RtePipeline × TxConf) :=
  if dataDisable then some s
  else
    Machine.run (round rte (fun c i => .portInEnable (c.pp.qIn i).rtePipelinePortId) setEnabled)
      (List.range s.2.pp.nbQIn) s

/-- `params->nb_q_out = params->nb_q_in`, the assignment in the check. -/
def assignNbQOut (s : RtePipeline × TxConf) : RtePipeline × TxConf :=
  (s.1, { s.2 with pp := { s.2.pp with nbQOut := s.2.pp.nbQIn } })

end TxConf

open TxConf

/-- `pipeline_tx_data_configure`, call by call; `none` stands for a failed `RTE_VERIFY`.  The
array `stub_table_id` is not initialised. -/
def txDataConfigure (rte : RteLibrary) (dataDisable : Bool) (stubTableId : ℕ → BitVec 32)
    (params : PipelineParams RtePipeline) : Option (PipelineParams RtePipeline) := do
  guard (params.type = .txData)
  let s ← invoke rte .create (fun _ c => c) ([], ⟨params, stubTableId⟩)
  let s ← Machine.run (createPortIn rte) (List.range s.2.pp.nbQIn) s
  let s := assignNbQOut s
  guard (s.2.pp.nbQOut ≠ 0)
  let s ← Machine.run (createTable rte) (List.range s.2.pp.nbQOut) s
  let s ← Machine.run (createPortOut rte) (List.range s.2.pp.nbQOut) s
  let s ← Machine.run (addDefaultEntry rte) (List.range s.2.pp.nbQOut) s
  let s ← Machine.run (connectPortIn rte) (List.range s.2.pp.nbQIn) s
  let s ← enablePortsIn rte dataDisable s
  let s ← invoke rte .check (fun _ c => c) s
  some { s.2.pp with pipeline := s.1 }

/-! ## The effect of the loops -/

/-- An array whose entries below `n` were written, after one more write. -/
lemma update_below {α : Type*} (f g : ℕ → α) (n : ℕ) :
    Function.update (fun i => if i < n then g i else f i) n (g n) =
      fun i => if i < n + 1 then g i else f i := by
  funext i
  rcases lt_trichotomy i n with hi | rfl | hi
  · rw [Function.update_of_ne (by omega), if_pos hi, if_pos (by omega)]
  · rw [Function.update_self, if_pos (by omega)]
  · rw [Function.update_of_ne (by omega), if_neg (by omega), if_neg (by omega)]

namespace TxConf

variable (ids : ℕ → BitVec 32) (n : ℕ) (c : TxConf)

lemma uses_setInId :
    uses setInId ids n c =
      { c with
        pp := { c.pp with
          qIn := fun i =>
            if i < n then { c.pp.qIn i with rtePipelinePortId := ids i } else c.pp.qIn i } } := by
  induction n with
  | zero => simp [uses]
  | succ n ih =>
    rw [uses, ih, setInId, ← update_below]
    simp

lemma uses_setTableId :
    uses setTableId ids n c =
      { c with stubTableId := fun i => if i < n then ids i else c.stubTableId i } := by
  induction n with
  | zero => simp [uses]
  | succ n ih => rw [uses, ih, setTableId, ← update_below]

lemma uses_setOutId :
    uses setOutId ids n c =
      { c with
        pp := { c.pp with
          qOut := fun i =>
            if i < n then { c.pp.qOut i with rtePipelinePortId := ids i } else c.pp.qOut i } } := by
  induction n with
  | zero => simp [uses]
  | succ n ih =>
    rw [uses, ih, setOutId, ← update_below]
    simp

lemma uses_setEnabled :
    uses setEnabled ids n c =
      { c with
        pp := { c.pp with
          qIn := fun i =>
            if i < n then { c.pp.qIn i with enabled := true } else c.pp.qIn i } } := by
  induction n with
  | zero => simp [uses]
  | succ n ih =>
    rw [uses, ih, setEnabled, PipelineParams.enableIn, ← update_below]
    simp

lemma uses_id : uses (fun _ _ c => c) ids n c = c := by
  induction n with
  | zero => rfl
  | succ n ih => rw [uses, ih]

end TxConf

section Loops

variable {rte : RteLibrary} {n : ℕ} {s t : RtePipeline × TxConf}

/-- The loop over the inputs passes its check of the rings. -/
lemma run_createPortIn_rings {is : List ℕ} (h : Machine.run (createPortIn rte) is s = some t) :
    Machine.run (round rte (fun c i => .portInCreate (c.pp.qIn i).ring) setInId) is s = some t ∧
      ∀ i ∈ is, (s.2.pp.qIn i).ring ≠ none := by
  induction is generalizing s with
  | nil => exact ⟨h, by simp⟩
  | cons i is ih =>
    obtain ⟨s₁, hfirst, hrest⟩ := Machine.run_cons_eq_some.mp h
    simp only [createPortIn, Option.ite_none_left_eq_some] at hfirst
    obtain ⟨hring, hround⟩ := hfirst
    obtain ⟨hrun, hrings⟩ := ih hrest
    have hkeep : ∀ j, (s₁.2.pp.qIn j).ring = (s.2.pp.qIn j).ring := by
      obtain ⟨id, -, rfl⟩ := Option.map_eq_some_iff.mp hround
      exact fun j => setInId_ring id i s.2 j
    refine ⟨Machine.run_cons_eq_some.mpr ⟨s₁, hround, hrun⟩, ?_⟩
    intro j hj
    rcases List.mem_cons.mp hj with rfl | hj
    · exact hring
    · rw [← hkeep]
      exact hrings j hj

/-- The answers to calls that create objects are distinct. -/
def Distinct (ids : ℕ → BitVec 32) (n : ℕ) : Prop := ∀ i < n, ∀ j < n, ids i = ids j → i = j

lemma run_createPortIn (h : Machine.run (createPortIn rte) (List.range n) s = some t) :
    (∀ i < n, (s.2.pp.qIn i).ring ≠ none) ∧ ∃ ids,
      t = (s.1 ++ entries (fun i => .portInCreate (s.2.pp.qIn i).ring) ids n,
        uses setInId ids n s.2) ∧
      (FreshIds rte RteCall.creates → Distinct ids n) := by
  obtain ⟨hrun, hrings⟩ := run_createPortIn_rings h
  have hcall (id : BitVec 32) (i : ℕ) (c : TxConf) :
      (fun j => RteCall.portInCreate ((setInId id i c).pp.qIn j).ring) =
        fun j => .portInCreate (c.pp.qIn j).ring := by
    funext j
    rw [setInId_ring]
  obtain ⟨ids, rfl, hids⟩ := run_round hcall hrun
  refine ⟨fun i hi => hrings i (List.mem_range.mpr hi), ids, rfl, ?_⟩
  exact fun hfresh _ hi _ hj => hfresh.inj (fun _ => rfl) hids hi hj

lemma run_createTable (h : Machine.run (createTable rte) (List.range n) s = some t) :
    ∃ ids, t = (s.1 ++ entries (fun _ => .tableCreate) ids n, uses setTableId ids n s.2) ∧
      (FreshIds rte RteCall.creates → Distinct ids n) := by
  obtain ⟨ids, rfl, hids⟩ := run_round (by intros; rfl) h
  exact ⟨ids, rfl, fun hfresh _ hi _ hj => hfresh.inj (fun _ => rfl) hids hi hj⟩

lemma run_createPortOut (h : Machine.run (createPortOut rte) (List.range n) s = some t) :
    ∃ ids,
      t = (s.1 ++
          entries (fun i => .portOutCreate (s.2.pp.qOut i).portId (s.2.pp.qOut i).queueId) ids n,
        uses setOutId ids n s.2) ∧
      (FreshIds rte RteCall.creates → Distinct ids n) := by
  have hcall (id : BitVec 32) (i : ℕ) (c : TxConf) :
      (fun j => RteCall.portOutCreate ((setOutId id i c).pp.qOut j).portId
        ((setOutId id i c).pp.qOut j).queueId) =
        fun j => .portOutCreate (c.pp.qOut j).portId (c.pp.qOut j).queueId := by
    funext j
    rw [setOutId_portId, setOutId_queueId]
  obtain ⟨ids, rfl, hids⟩ := run_round hcall h
  exact ⟨ids, rfl, fun hfresh _ hi _ hj => hfresh.inj (fun _ => rfl) hids hi hj⟩

lemma run_addDefaultEntry (h : Machine.run (addDefaultEntry rte) (List.range n) s = some t) :
    ∃ ids, t = (s.1 ++ entries (fun i => .tableDefaultEntryAdd (s.2.stubTableId i)
      (s.2.pp.qOut i).rtePipelinePortId) ids n, s.2) := by
  obtain ⟨ids, rfl, -⟩ := run_round (fun _ _ _ => rfl) h
  exact ⟨ids, by rw [uses_id]⟩

lemma run_connectPortIn (h : Machine.run (connectPortIn rte) (List.range n) s = some t) :
    ∃ ids, t = (s.1 ++ entries (fun i => .portInConnectToTable
      (s.2.pp.qIn i).rtePipelinePortId (s.2.stubTableId i)) ids n, s.2) := by
  obtain ⟨ids, rfl, -⟩ := run_round (fun _ _ _ => rfl) h
  exact ⟨ids, by rw [uses_id]⟩

lemma enablePortsIn_eq_some {dataDisable : Bool} (h : enablePortsIn rte dataDisable s = some t) :
    ∃ ids,
      t = (s.1 ++ (if dataDisable then []
        else entries (fun i => .portInEnable (s.2.pp.qIn i).rtePipelinePortId) ids s.2.pp.nbQIn),
        { s.2 with pp := s.2.pp.enableAll dataDisable }) := by
  cases dataDisable with
  | true =>
    obtain rfl : s = t := by simpa [enablePortsIn] using h
    exact ⟨fun _ => 0, by simp [PipelineParams.enableAll]⟩
  | false =>
    have hcall (id : BitVec 32) (i : ℕ) (c : TxConf) :
        (fun j => RteCall.portInEnable ((setEnabled id i c).pp.qIn j).rtePipelinePortId) =
          fun j => .portInEnable (c.pp.qIn j).rtePipelinePortId := by
      funext j
      rw [setEnabled, PipelineParams.enableIn_rteId]
    obtain ⟨ids, rfl, -⟩ := run_round hcall h
    exact ⟨ids, by simp [uses_setEnabled, PipelineParams.enableAll]⟩

end Loops

/-- What the library answered to the calls. -/
structure RteIds where
  created : BitVec 32
  portIn : ℕ → BitVec 32
  table : ℕ → BitVec 32
  portOut : ℕ → BitVec 32
  entry : ℕ → BitVec 32
  connected : ℕ → BitVec 32
  enabled : ℕ → BitVec 32
  checked : BitVec 32

namespace RteIds

variable (ids : RteIds) (params : PipelineParams RtePipeline) (dataDisable : Bool)

/-- The calls of the function, with their answers. -/
def log : RtePipeline :=
  let n := params.nbQIn
  (.create, ids.created) ::
    (entries (fun i => RteCall.portInCreate (params.qIn i).ring) ids.portIn n ++
      entries (fun _ => RteCall.tableCreate) ids.table n ++
      entries (fun i => RteCall.portOutCreate (params.qOut i).portId (params.qOut i).queueId)
        ids.portOut n ++
      entries (fun i => RteCall.tableDefaultEntryAdd (ids.table i) (ids.portOut i)) ids.entry n ++
      entries (fun i => RteCall.portInConnectToTable (ids.portIn i) (ids.table i))
        ids.connected n ++
      (if dataDisable then []
        else entries (fun i => RteCall.portInEnable (ids.portIn i)) ids.enabled n) ++
      [(.check, ids.checked)])

/-- The pipeline that the function leaves behind. -/
def result : PipelineParams RtePipeline :=
  (({ params with nbQOut := params.nbQIn } : PipelineParams RtePipeline).assignIds
    ⟨ids.log params dataDisable, ids.portIn, ids.portOut⟩).enableAll dataDisable

end RteIds

variable {rte : RteLibrary} {dataDisable : Bool} {stubTableId : ℕ → BitVec 32}
  {params pp : PipelineParams RtePipeline}

/-- A call that does not abort has connected the inputs to the entries of `q_out` one by one. -/
lemma txDataConfigure_eq_some
    (h : txDataConfigure rte dataDisable stubTableId params = some pp) :
    params.type = .txData ∧ (∀ i < params.nbQIn, (params.qIn i).ring ≠ none) ∧
      params.nbQIn ≠ 0 ∧ ∃ ids : RteIds, pp = ids.result params dataDisable ∧
        (FreshIds rte RteCall.creates → Distinct ids.portIn params.nbQIn) ∧
        (FreshIds rte RteCall.creates → Distinct ids.table params.nbQIn) ∧
        (FreshIds rte RteCall.creates → Distinct ids.portOut params.nbQIn) := by
  simp only [txDataConfigure, bind, Option.bind_eq_some_iff, Option.guard_eq_some'] at h
  obtain ⟨-, htype, s₀, hcreate, s₁, hin, -, hne, s₂, htable, s₃, hout, s₄, hentry, s₅, hconn, s₆,
    henable, s₇, hcheck, heq⟩ := h
  obtain ⟨created, -, rfl⟩ := Option.map_eq_some_iff.mp hcreate
  obtain ⟨hrings, portIn, rfl, hportIn⟩ := run_createPortIn hin
  obtain ⟨table, rfl, htables⟩ := run_createTable htable
  obtain ⟨portOut, rfl, hportOut⟩ := run_createPortOut hout
  obtain ⟨entry, rfl⟩ := run_addDefaultEntry hentry
  obtain ⟨connected, rfl⟩ := run_connectPortIn hconn
  obtain ⟨enabled, rfl⟩ := enablePortsIn_eq_some henable
  obtain ⟨checked, -, rfl⟩ := Option.map_eq_some_iff.mp hcheck
  -- the default entries and the connections read the ids back
  have hentries : entries (fun i => RteCall.tableDefaultEntryAdd
      (if i < params.nbQIn then table i else stubTableId i)
      (if i < params.nbQIn then { params.qOut i with rtePipelinePortId := portOut i }
        else params.qOut i).rtePipelinePortId) entry params.nbQIn =
      entries (fun i => .tableDefaultEntryAdd (table i) (portOut i)) entry params.nbQIn :=
    entries_congr (fun i hi => by simp [hi]) fun _ _ => rfl
  have hconnections : entries (fun i => RteCall.portInConnectToTable
      (if i < params.nbQIn then { params.qIn i with rtePipelinePortId := portIn i }
        else params.qIn i).rtePipelinePortId
      (if i < params.nbQIn then table i else stubTableId i)) connected params.nbQIn =
      entries (fun i => .portInConnectToTable (portIn i) (table i)) connected params.nbQIn :=
    entries_congr (fun i hi => by simp [hi]) fun _ _ => rfl
  have henabled : entries (fun i => RteCall.portInEnable
      (if i < params.nbQIn then { params.qIn i with rtePipelinePortId := portIn i }
        else params.qIn i).rtePipelinePortId) enabled params.nbQIn =
      entries (fun i => .portInEnable (portIn i)) enabled params.nbQIn :=
    entries_congr (fun i hi => by simp [hi]) fun _ _ => rfl
  simp only [uses_setInId, uses_setTableId, uses_setOutId, assignNbQOut] at *
  refine ⟨htype, hrings, hne, ⟨created, portIn, table, portOut, entry, connected, enabled, checked⟩,
    ?_, hportIn, htables, hportOut⟩
  rw [← Option.some_inj.mp heq]
  rw [hentries, hconnections, henabled]
  cases dataDisable <;>
    simp [RteIds.result, PipelineParams.assignIds, PipelineParams.enableAll, RteIds.log]

/-- The calls do to the pipeline what the model without the library does. -/
lemma pipelineTxDataConfigure_eq
    (h : txDataConfigure rte dataDisable stubTableId params = some pp) :
    ∃ created, params.pipelineTxDataConfigure created dataDisable = some pp := by
  obtain ⟨htype, hrings, hne, ids, rfl, -⟩ := txDataConfigure_eq_some h
  refine ⟨⟨ids.log params dataDisable, ids.portIn, ids.portOut⟩, ?_⟩
  rw [PipelineParams.pipelineTxDataConfigure, if_pos ⟨htype, hrings, hne⟩]
  rfl

/-! ## One to one -/

/-- What arrives on a ring leaves through a hardware queue. -/
def Connects (p : RtePipeline) (ring : Option ℕ) (portId queueId : ℕ) : Prop :=
  ∃ inId tableId outId connected entry, (.portInCreate ring, inId) ∈ p ∧
    (.portInConnectToTable inId tableId, connected) ∈ p ∧
    (.tableDefaultEntryAdd tableId outId, entry) ∈ p ∧ (.portOutCreate portId queueId, outId) ∈ p

namespace RteIds

variable (ids : RteIds) (params : PipelineParams RtePipeline) (dataDisable : Bool)

lemma portInCreate_mem_log {ring : Option ℕ} {id : BitVec 32} :
    (.portInCreate ring, id) ∈ ids.log params dataDisable ↔
      ∃ i < params.nbQIn, (params.qIn i).ring = ring ∧ ids.portIn i = id := by
  cases dataDisable <;> simp [log, mem_entries]

lemma portOutCreate_mem_log {portId queueId : ℕ} {id : BitVec 32} :
    (.portOutCreate portId queueId, id) ∈ ids.log params dataDisable ↔
      ∃ i < params.nbQIn, (params.qOut i).portId = portId ∧ (params.qOut i).queueId = queueId ∧
        ids.portOut i = id := by
  cases dataDisable <;> simp [log, mem_entries, and_assoc]

lemma tableDefaultEntryAdd_mem_log {tableId outId id : BitVec 32} :
    (.tableDefaultEntryAdd tableId outId, id) ∈ ids.log params dataDisable ↔
      ∃ i < params.nbQIn, ids.table i = tableId ∧ ids.portOut i = outId ∧ ids.entry i = id := by
  cases dataDisable <;> simp [log, mem_entries, and_assoc]

lemma portInConnectToTable_mem_log {inId tableId id : BitVec 32} :
    (.portInConnectToTable inId tableId, id) ∈ ids.log params dataDisable ↔
      ∃ i < params.nbQIn, ids.portIn i = inId ∧ ids.table i = tableId ∧ ids.connected i = id := by
  cases dataDisable <;> simp [log, mem_entries, and_assoc]

/-- When ids are not given twice, the way from a ring through its table is the only one. -/
lemma connects_log (hin : Distinct ids.portIn params.nbQIn)
    (htable : Distinct ids.table params.nbQIn) (hout : Distinct ids.portOut params.nbQIn)
    {ring : Option ℕ} {portId queueId : ℕ} :
    Connects (ids.log params dataDisable) ring portId queueId ↔
      ∃ i < params.nbQIn, (params.qIn i).ring = ring ∧ (params.qOut i).portId = portId ∧
        (params.qOut i).queueId = queueId := by
  simp only [Connects, portInCreate_mem_log, portInConnectToTable_mem_log,
    tableDefaultEntryAdd_mem_log, portOutCreate_mem_log]
  constructor
  · rintro ⟨_, _, _, _, _, ⟨i, hi, hring, rfl⟩, ⟨j, hj, hji, rfl, -⟩, ⟨k, hk, hkj, rfl, -⟩,
      ⟨l, hl, hport, hqueue, hlk⟩⟩
    obtain rfl := hin j hj i hi hji
    obtain rfl := htable k hk j hj hkj
    obtain rfl := hout l hl k hk hlk
    exact ⟨l, hl, hring, hport, hqueue⟩
  · rintro ⟨i, hi, hring, hport, hqueue⟩
    exact ⟨_, _, _, _, _, ⟨i, hi, hring, rfl⟩, ⟨i, hi, rfl, rfl, rfl⟩, ⟨i, hi, rfl, rfl, rfl⟩,
      ⟨i, hi, hport, hqueue, rfl⟩⟩

end RteIds

/-- The numbers and the entries that were registered are kept, the ring of every input is
connected to the hardware queue that was registered for the output of the same index and to no
other, and no output port is made of another entry. -/
structure PairsOneToOne (params pp : PipelineParams RtePipeline) : Prop where
  nbQIn : pp.nbQIn = params.nbQIn
  nbQOut : pp.nbQOut = params.nbQOut
  inputs : ∀ i < params.nbQIn, pp.inPair i = params.inPair i ∧
    (pp.qIn i).ring = (params.qIn i).ring
  outputs : ∀ i < params.nbQOut, (pp.qOut i).portId = (params.qOut i).portId ∧
    (pp.qOut i).queueId = (params.qOut i).queueId ∧ (pp.qOut i).ring = (params.qOut i).ring
  connects : ∀ i < params.nbQIn, i < params.nbQOut ∧
    Connects pp.pipeline (params.qIn i).ring (params.qOut i).portId (params.qOut i).queueId
  noOther : ∀ ring portId queueId, Connects pp.pipeline ring portId queueId →
    ∃ i < params.nbQIn, (params.qIn i).ring = ring ∧ (params.qOut i).portId = portId ∧
      (params.qOut i).queueId = queueId
  registered : ∀ portId queueId id, (.portOutCreate portId queueId, id) ∈ pp.pipeline →
    ∃ i < params.nbQOut, (params.qOut i).portId = portId ∧ (params.qOut i).queueId = queueId

lemma RteIds.result_pipeline (ids : RteIds) (params : PipelineParams RtePipeline)
    (dataDisable : Bool) :
    (ids.result params dataDisable).pipeline = ids.log params dataDisable := by
  cases dataDisable <;> rfl

/-- With as many outputs as inputs the pairs are as registered. -/
lemma pairsOneToOne_of_eq (hfresh : FreshIds rte RteCall.creates)
    (h : txDataConfigure rte dataDisable stubTableId params = some pp)
    (heq : params.nbQOut = params.nbQIn) : PairsOneToOne params pp := by
  obtain ⟨-, -, -, ids, rfl, hin, htable, hout⟩ := txDataConfigure_eq_some h
  have hconnects (ring : Option ℕ) (portId queueId : ℕ) :
      Connects (ids.log params dataDisable) ring portId queueId ↔
        ∃ i < params.nbQIn, (params.qIn i).ring = ring ∧ (params.qOut i).portId = portId ∧
          (params.qOut i).queueId = queueId :=
    ids.connects_log params dataDisable (hin hfresh) (htable hfresh) (hout hfresh)
  constructor
  · cases dataDisable <;> rfl
  · rw [heq]
    cases dataDisable <;> rfl
  · intro i hi
    cases dataDisable <;> simp [RteIds.result, PipelineParams.assignIds,
      PipelineParams.enableAll, PipelineParams.inPair, hi]
  · intro i hi
    rw [heq] at hi
    cases dataDisable <;> simp [RteIds.result, PipelineParams.assignIds,
      PipelineParams.enableAll, hi]
  · intro i hi
    rw [ids.result_pipeline]
    exact ⟨heq ▸ hi, (hconnects _ _ _).mpr ⟨i, hi, rfl, rfl, rfl⟩⟩
  · intro ring portId queueId hconn
    rw [ids.result_pipeline] at hconn
    exact (hconnects _ _ _).mp hconn
  · intro portId queueId id hmem
    rw [ids.result_pipeline, ids.portOutCreate_mem_log] at hmem
    obtain ⟨i, hi, hport, hqueue, -⟩ := hmem
    exact ⟨i, heq ▸ hi, hport, hqueue⟩

/-- Without inputs the assignment in the check is 0, and the call aborts. -/
lemma txDataConfigure_of_nbQIn_eq_zero (h : params.nbQIn = 0) :
    txDataConfigure rte dataDisable stubTableId params = none := by
  rw [Option.eq_none_iff_forall_ne_some]
  intro pp hsome
  obtain ⟨-, -, hne, -⟩ := txDataConfigure_eq_some hsome
  exact hne h

/-- For every pipeline with any numbers of inputs and outputs: a call that does not abort pairs the
rings and the hardware queues one to one if and only if as many outputs as inputs were registered,
and without inputs it aborts. -/
theorem txDataConfigure_pairs_iff (hfresh : FreshIds rte RteCall.creates)
    (params : PipelineParams RtePipeline) :
    (∀ pp, txDataConfigure rte dataDisable stubTableId params = some pp →
        (PairsOneToOne params pp ↔ params.nbQOut = params.nbQIn)) ∧
      (params.nbQIn = 0 → txDataConfigure rte dataDisable stubTableId params = none) := by
  refine ⟨?_, txDataConfigure_of_nbQIn_eq_zero⟩
  intro pp h
  constructor
  · intro hpairs
    obtain ⟨-, -, -, ids, rfl, -⟩ := txDataConfigure_eq_some h
    have hnb : (ids.result params dataDisable).nbQOut = params.nbQIn := by
      cases dataDisable <;> rfl
    rw [← hpairs.nbQOut, hnb]
  · exact pairsOneToOne_of_eq hfresh h

/-- A library that gives the objects of each kind the ids from 0 on, and has no more than 64. -/
def numbering : RteLibrary := fun log call =>
  if call.creates = none then some 0
  else
    ((List.range 64).map (BitVec.ofNat 32)).find? fun id =>
      !log.any fun e => e.1.creates = call.creates ∧ e.2 = id

lemma freshIds_numbering : FreshIds numbering RteCall.creates := by
  intro log call call' id hid hmem hkind heq
  rw [numbering, if_neg hkind] at hid
  have hnew := List.find?_some hid
  simp only [Bool.not_eq_true', List.any_eq_false, decide_eq_true_eq, not_and] at hnew
  exact hnew _ hmem heq rfl

/-- A tx data pipeline, before its ports are registered. -/
def txStart : PipelineParams RtePipeline where
  pipeline := []
  type := .txData
  lcoreId := 0
  qIn _ := ⟨0, 0, none, 0, false⟩
  nbQIn := 0
  qOut _ := ⟨0, 0, none, 0, 0, 0⟩
  nbQOut := 0

/-- Two rings with a hardware queue each. -/
def twoPairs : List PortOp :=
  [.portIn 0 0 (some 7), .portIn 0 1 (some 8), .portOut 3 1 none, .portOut 3 2 none]

/-- The theorem for two rings with a hardware queue each: the call succeeds, and pairs them. -/
theorem txDataConfigure_pairs_iff_twoPairs :
    ((∀ pp, txDataConfigure numbering true (fun _ => 0) (txStart.portCalls twoPairs) = some pp →
        (PairsOneToOne (txStart.portCalls twoPairs) pp ↔
          (txStart.portCalls twoPairs).nbQOut = (txStart.portCalls twoPairs).nbQIn)) ∧
      ((txStart.portCalls twoPairs).nbQIn = 0 →
        txDataConfigure numbering true (fun _ => 0) (txStart.portCalls twoPairs) = none)) ∧
    ∃ pp, txDataConfigure numbering true (fun _ => 0) (txStart.portCalls twoPairs) = some pp ∧
      PairsOneToOne (txStart.portCalls twoPairs) pp := by
  have hiff := @txDataConfigure_pairs_iff numbering true (fun _ => 0) freshIds_numbering
    (txStart.portCalls twoPairs)
  have hsome : (txDataConfigure numbering true (fun _ => 0)
      (txStart.portCalls twoPairs)).isSome = true := by decide +kernel
  obtain ⟨pp, hpp⟩ := Option.isSome_iff_exists.mp hsome
  exact ⟨hiff, pp, hpp, (hiff.1 pp hpp).mpr (by decide +kernel)⟩

/-- Two rings and one hardware queue. -/
def twoRingsOneQueue : List PortOp :=
  [.portIn 0 0 (some 7), .portIn 0 1 (some 8), .portOut 3 1 none]

/-- The second ring is connected to an entry that was never registered. -/
theorem not_pairsOneToOne :
    ∃ pp, txDataConfigure numbering true (fun _ => 0) (txStart.portCalls twoRingsOneQueue) =
        some pp ∧
      (.portOutCreate 0 0, 1) ∈ pp.pipeline ∧
      ¬ PairsOneToOne (txStart.portCalls twoRingsOneQueue) pp := by
  have hresult : (txDataConfigure numbering true (fun _ => 0)
      (txStart.portCalls twoRingsOneQueue)).any (fun pp =>
        decide ((.portOutCreate 0 0, 1) ∈ pp.pipeline ∧ pp.nbQOut = 2)) = true := by
    decide +kernel
  obtain ⟨pp, hpp, h⟩ := (Option.any_eq_true _ _).mp hresult
  obtain ⟨hout, hnb⟩ := of_decide_eq_true h
  refine ⟨pp, hpp, hout, ?_⟩
  intro hpairs
  rw [PairsOneToOne.nbQOut hpairs] at hnb
  exact absurd hnb (by decide +kernel)

end DaqSwitch.Pipeline
