import DaqSwitch.Lib.CallLog
import DaqSwitch.OqHwq.Routes
import DaqSwitch.VoqSwq.Types

/-!
# The default pipeline

`dp_configure_lcore_default` of `dp_lcore_default.c` builds an `rte_pipeline` between the default
queues of the ports, with one table for all of them, and `add_ipv4_rule` fills the table.  A rule
names a port of the switch and the table an output port of the pipeline, which the source assumes
to be the same number.

The `rte_pipeline` is known by the calls that were made on it.
-/

namespace DaqSwitch.VoqSwq

open Lib Lib.Machine Lib.CallLog
open OqHwq (Rule route route_append_singleton)

/-! ## Constants -/

def dpPortTxqIdDefault : ℕ := 0
def dpPortRxqIdDefault : ℕ := 0
def dpForwardingRulesMax : ℕ := 1024

/-! ## The library -/

/-- The calls of the `rte_pipeline` library, for a pipeline with ethernet ports and lpm tables. -/
inductive PipelineCall
  | create (socketId : ℕ)
  | portInCreate (portId queueId burstSize : ℕ)
  | tableCreate (nRules : ℕ)
  | portOutCreate (portId queueId txBurstSz : ℕ)
  | portInConnectToTable (portInId tableId : BitVec 32)
  | portInEnable (portInId : BitVec 32)
  | check
  | tableEntryAdd (tableId ip : BitVec 32) (depth : ℕ) (portId : BitVec 32)
deriving DecidableEq, Repr

/-- The objects of a pipeline that have an id. -/
inductive PipelineObject
  | portIn
  | table
  | portOut
deriving DecidableEq, Repr

/-- The object that a call creates. -/
def PipelineCall.creates : PipelineCall → Option PipelineObject
  | .portInCreate _ _ _ => some .portIn
  | .tableCreate _ => some .table
  | .portOutCreate _ _ _ => some .portOut
  | _ => none

/-- A `struct rte_pipeline`. -/
abbrev PipelineLog := List (PipelineCall × BitVec 32)

/-- The library: a call that fails returns no id. -/
abbrev PipelineLibrary := Library PipelineCall (BitVec 32)

/-! ## Configuring -/

/-- `port_in_id`, `port_out_id` and `table_id`. -/
structure PipelineIds where
  portInId : ℕ → BitVec 32
  portOutId : ℕ → BitVec 32
  tableId : BitVec 32

namespace PipelineIds

/-- `&port_in_id[i]` is written. -/
def setPortIn (id : BitVec 32) (i : ℕ) (ids : PipelineIds) : PipelineIds :=
  { ids with portInId := Function.update ids.portInId i id }

/-- `&port_out_id[i]` is written. -/
def setPortOut (id : BitVec 32) (i : ℕ) (ids : PipelineIds) : PipelineIds :=
  { ids with portOutId := Function.update ids.portOutId i id }

/-- `&table_id` is written. -/
def setTable (id : BitVec 32) (ids : PipelineIds) : PipelineIds := { ids with tableId := id }

end PipelineIds

/-- The static data of `dp_lcore_default.c`; a null pointer is no pipeline. -/
structure DefaultPipeline where
  p : Option PipelineLog
  ids : PipelineIds

namespace DefaultPipeline

/-- The static storage. -/
def zero : DefaultPipeline := ⟨none, fun _ => 0, fun _ => 0, 0⟩

variable (lib : PipelineLibrary)

/-- Input port configuration. -/
def createPortIn : ℕ → PipelineLog × PipelineIds → Option (PipelineLog × PipelineIds) :=
  round lib (fun _ i => .portInCreate i dpPortRxqIdDefault dpPortMaxPktBurstRx) PipelineIds.setPortIn

/-- Output port configuration. -/
def createPortOut : ℕ → PipelineLog × PipelineIds → Option (PipelineLog × PipelineIds) :=
  round lib (fun _ i => .portOutCreate i dpPortTxqIdDefault dpPortMaxPktBurstRx)
    PipelineIds.setPortOut

/-- Interconnect ports. -/
def connectPort : ℕ → PipelineLog × PipelineIds → Option (PipelineLog × PipelineIds) :=
  round lib (fun ids i => .portInConnectToTable (ids.portInId i) ids.tableId) fun _ _ ids => ids

/-- Enable ports. -/
def enablePort : ℕ → PipelineLog × PipelineIds → Option (PipelineLog × PipelineIds) :=
  round lib (fun ids i => .portInEnable (ids.portInId i)) fun _ _ ids => ids

/-- `dp_configure_lcore_default` for an lcore on a socket; `none` stands for a failed
`RTE_VERIFY`. -/
def dpConfigureLcoreDefault (nbPorts socketId : ℕ) (s : DefaultPipeline) :
    Option DefaultPipeline := do
  guard s.p.isNone
  let t ← invoke lib (.create socketId) (fun _ ids => ids) ([], s.ids)
  let t ← run (createPortIn lib) (List.range nbPorts) t
  let t ← invoke lib (.tableCreate dpForwardingRulesMax) PipelineIds.setTable t
  let t ← run (createPortOut lib) (List.range nbPorts) t
  let t ← run (connectPort lib) (List.range nbPorts) t
  let t ← run (enablePort lib) (List.range nbPorts) t
  let t ← invoke lib .check (fun _ ids => ids) t
  some ⟨some t.1, t.2⟩

/-! ## Rules -/

/-- `add_ipv4_rule`: whether it succeeds, and the pipeline after it.  The library refuses a null
pointer. -/
def addIpv4Rule (rule : Rule) (s : DefaultPipeline) : Bool × DefaultPipeline :=
  match s.p with
  | none => (false, s)
  | some log =>
    match invoke lib (.tableEntryAdd s.ids.tableId rule.ipv4 32 (rule.portOutId.setWidth 32))
        (fun _ ids => ids) (log, s.ids) with
    | some t => (true, ⟨some t.1, t.2⟩)
    | none => (false, s)

/-- Calls of `add_ipv4_rule`: the rules that were added, and the pipeline after the calls. -/
def addIpv4Rules : List Rule → DefaultPipeline → List Rule × DefaultPipeline
  | [], s => ([], s)
  | rule :: rules, s =>
    let call := s.addIpv4Rule lib rule
    let rest := addIpv4Rules rules call.2
    ((if call.1 then [rule] else []) ++ rest.1, rest.2)

/-- The rules of `dp_defaults.c`. -/
def defaultRules : List Rule :=
  [⟨0x14010101, 9⟩, ⟨0x14010201, 8⟩, ⟨0x14010301, 6⟩, ⟨0x14010401, 7⟩, ⟨0x14010501, 2⟩,
    ⟨0x14010601, 3⟩, ⟨0x14010701, 0⟩, ⟨0x14010801, 1⟩, ⟨0x14010901, 4⟩, ⟨0x14010a01, 5⟩,
    ⟨0x14010b01, 10⟩, ⟨0x14010c01, 11⟩]

/-- `dp_install_default_tables`, whose result is a success whatever the calls return. -/
def dpInstallDefaultTables (s : DefaultPipeline) : DefaultPipeline :=
  (s.addIpv4Rules lib defaultRules).2

end DefaultPipeline

/-! ## What a pipeline does -/

namespace PipelineLog

/-- The output port that an entry for the whole of an address gives. -/
def entryFor (tableId ip : BitVec 32) : PipelineCall × BitVec 32 → Option (BitVec 32)
  | (.tableEntryAdd t ip' 32 out, _) => if t = tableId ∧ ip = ip' then some out else none
  | _ => none

/-- The output port that a table has for an address: that of the last entry. -/
def lookup (log : PipelineLog) (tableId ip : BitVec 32) : Option (BitVec 32) :=
  log.reverse.findSome? (entryFor tableId ip)

/-- A packet for an address that comes in on an rx queue leaves through a tx queue. -/
def Forwards (log : PipelineLog) (ip : BitVec 32) (portIn rxq portOut txq : ℕ) : Prop :=
  ∃ inId tableId outId rxBurst txBurst, (.portInCreate portIn rxq rxBurst, inId) ∈ log ∧
    (∃ id, (.portInConnectToTable inId tableId, id) ∈ log) ∧
    (∃ id, (.portInEnable inId, id) ∈ log) ∧ lookup log tableId ip = some outId ∧
    (.portOutCreate portOut txq txBurst, outId) ∈ log

end PipelineLog

/-- A pipeline between the default queues of the ports, with the rules that it has taken. -/
structure Built (nbPorts : ℕ) (rules : List Rule) (log : PipelineLog) (ids : PipelineIds) :
    Prop where
  portIn : ∀ p q b id, (.portInCreate p q b, id) ∈ log ↔
    p < nbPorts ∧ (dpPortRxqIdDefault = q ∧ dpPortMaxPktBurstRx = b) ∧ ids.portInId p = id
  portOut : ∀ p q b id, (.portOutCreate p q b, id) ∈ log ↔
    p < nbPorts ∧ (dpPortTxqIdDefault = q ∧ dpPortMaxPktBurstRx = b) ∧ ids.portOutId p = id
  connected : ∀ i t, (∃ id, (.portInConnectToTable i t, id) ∈ log) ↔
    ∃ p < nbPorts, ids.portInId p = i ∧ ids.tableId = t
  enabled : ∀ i, (∃ id, (.portInEnable i, id) ∈ log) ↔ ∃ p < nbPorts, ids.portInId p = i
  lookup : ∀ ip, PipelineLog.lookup log ids.tableId ip = (route rules ip).map (BitVec.setWidth 32)

section Built

variable {lib : PipelineLibrary} {nbPorts socketId : ℕ} {rules : List Rule} {log : PipelineLog}
  {ids : PipelineIds} {s t : DefaultPipeline}

/-- From the default rx queues a packet gets to the output port of the last rule for its address. -/
lemma Built.forwards_iff (h : Built nbPorts rules log ids) {ip : BitVec 32}
    {portIn rxq portOut txq : ℕ} : PipelineLog.Forwards log ip portIn rxq portOut txq ↔
      (portIn < nbPorts ∧ rxq = dpPortRxqIdDefault) ∧ (portOut < nbPorts ∧ txq = dpPortTxqIdDefault) ∧
        (route rules ip).map (BitVec.setWidth 32) = some (ids.portOutId portOut) := by
  simp only [PipelineLog.Forwards, h.portIn, h.portOut, h.connected, h.enabled]
  constructor
  · rintro ⟨_, _, _, _, _, ⟨hin, ⟨rfl, -⟩, rfl⟩, ⟨_, -, -, rfl⟩, -, hlookup, hout, ⟨rfl, -⟩, rfl⟩
    rw [h.lookup] at hlookup
    exact ⟨⟨hin, rfl⟩, ⟨hout, rfl⟩, hlookup⟩
  · rintro ⟨⟨hin, rfl⟩, ⟨hout, rfl⟩, hroute⟩
    refine ⟨_, _, _, _, _, ⟨hin, ⟨rfl, rfl⟩, rfl⟩, ⟨portIn, hin, rfl, rfl⟩, ⟨portIn, hin, rfl⟩, ?_,
      hout, ⟨rfl, rfl⟩, rfl⟩
    rw [h.lookup]
    exact hroute

/-- A rule is added. -/
lemma Built.entry (h : Built nbPorts rules log ids) (rule : Rule) (id : BitVec 32) :
    Built nbPorts (rules ++ [rule])
      (log ++ [(.tableEntryAdd ids.tableId rule.ipv4 32 (rule.portOutId.setWidth 32), id)]) ids where
  portIn p q b id := by simp [h.portIn]
  portOut p q b id := by simp [h.portOut]
  connected i t := by simp [h.connected]
  enabled i := by simp [h.enabled]
  lookup ip := by
    rw [PipelineLog.lookup, List.reverse_append, List.reverse_singleton, List.singleton_append,
      List.findSome?_cons, route_append_singleton]
    by_cases hip : ip = rule.ipv4
    · simp [PipelineLog.entryFor, hip]
    · rw [if_neg hip, ← h.lookup]
      simp [PipelineLog.entryFor, PipelineLog.lookup, hip]

variable (lib) in
/-- A call of `add_ipv4_rule` adds the rule if the library takes it. -/
lemma Built.addIpv4Rule (h : Built nbPorts rules log s.ids) (hp : s.p = some log) (rule : Rule) :
    (s.addIpv4Rule lib rule).2.ids = s.ids ∧ ∃ log', (s.addIpv4Rule lib rule).2.p = some log' ∧
      Built nbPorts (rules ++ if (s.addIpv4Rule lib rule).1 then [rule] else []) log' s.ids := by
  cases hcall : invoke lib (.tableEntryAdd s.ids.tableId rule.ipv4 32 (rule.portOutId.setWidth 32))
      (fun _ ids => ids) (log, s.ids) with
  | none =>
    have heq : s.addIpv4Rule lib rule = (false, s) := by
      simp [DefaultPipeline.addIpv4Rule, hp, hcall]
    rw [heq]
    exact ⟨rfl, log, hp, by simpa using h⟩
  | some t =>
    have heq : s.addIpv4Rule lib rule = (true, ⟨some t.1, t.2⟩) := by
      simp [DefaultPipeline.addIpv4Rule, hp, hcall]
    rw [heq]
    obtain ⟨id, -, rfl⟩ := Option.map_eq_some_iff.mp hcall
    exact ⟨rfl, _, rfl, by simpa using h.entry rule id⟩

variable (lib) in
/-- Calls of `add_ipv4_rule` add the rules that the library takes. -/
lemma Built.addIpv4Rules (h : Built nbPorts rules log s.ids) (hp : s.p = some log)
    (calls : List Rule) :
    (s.addIpv4Rules lib calls).2.ids = s.ids ∧ ∃ log', (s.addIpv4Rules lib calls).2.p = some log' ∧
      Built nbPorts (rules ++ (s.addIpv4Rules lib calls).1) log' s.ids := by
  induction calls generalizing s rules log with
  | nil => exact ⟨rfl, log, hp, by simpa [DefaultPipeline.addIpv4Rules] using h⟩
  | cons rule calls ih =>
    obtain ⟨hids, log₁, hp₁, h₁⟩ := h.addIpv4Rule lib hp rule
    rw [← hids] at h₁
    obtain ⟨hids', log', hp', h'⟩ := ih h₁ hp₁
    rw [hids, List.append_assoc] at h'
    exact ⟨hids'.trans hids, log', hp', h'⟩

end Built

/-! ## The pipeline that is configured -/

/-- A library that numbers the objects of each kind. -/
abbrev PipelineLibrary.Numbers (lib : PipelineLibrary) : Prop :=
  CallLog.Numbers lib PipelineCall.creates (BitVec.ofNat 32)

section Loops

variable {lib : PipelineLibrary} {n : ℕ} {t u : PipelineLog × PipelineIds}

lemma run_createPortIn (h : run (DefaultPipeline.createPortIn lib) (List.range n) t = some u) :
    ∃ ids, u.1 = t.1 ++
        entries (fun i => .portInCreate i dpPortRxqIdDefault dpPortMaxPktBurstRx) ids n ∧
      ∀ i < n, u.2.portInId i = ids i := by
  obtain ⟨ids, rfl, -⟩ := run_round (by intros; rfl) h
  refine ⟨ids, rfl, ?_⟩
  intro i hi
  exact uses_array (f := PipelineIds.portInId) (fun _ _ _ => rfl) ids hi t.2

lemma run_createPortOut (h : run (DefaultPipeline.createPortOut lib) (List.range n) t = some u) :
    ∃ ids, u.1 = t.1 ++
        entries (fun i => .portOutCreate i dpPortTxqIdDefault dpPortMaxPktBurstRx) ids n ∧
      u.2.portInId = t.2.portInId ∧ (∀ i < n, u.2.portOutId i = ids i) ∧
      (lib.Numbers → created PipelineCall.creates .portOut t.1 = 0 →
        ∀ i < n, ids i = BitVec.ofNat 32 i) := by
  obtain ⟨ids, rfl, hids⟩ := run_round (by intros; rfl) h
  refine ⟨ids, rfl, ?_, ?_, ?_⟩
  · exact uses_keeps (f := PipelineIds.portInId) (by intros; rfl) ids n t.2
  · intro i hi
    exact uses_array (f := PipelineIds.portOutId) (fun _ _ _ => rfl) ids hi t.2
  · intro hnum hnone i hi
    rw [hnum.ids (fun _ => rfl) hids hi, hnone, Nat.zero_add]

lemma run_connectPort (h : run (DefaultPipeline.connectPort lib) (List.range n) t = some u) :
    ∃ ids, u = (t.1 ++
      entries (fun i => .portInConnectToTable (t.2.portInId i) t.2.tableId) ids n, t.2) := by
  obtain ⟨ids, rfl, -⟩ := run_round (fun _ _ _ => rfl) h
  exact ⟨ids, Prod.ext rfl (uses_keeps (f := fun ids => ids) (fun _ _ _ => rfl) ids n t.2)⟩

lemma run_enablePort (h : run (DefaultPipeline.enablePort lib) (List.range n) t = some u) :
    ∃ ids, u = (t.1 ++ entries (fun i => .portInEnable (t.2.portInId i)) ids n, t.2) := by
  obtain ⟨ids, rfl, -⟩ := run_round (fun _ _ _ => rfl) h
  exact ⟨ids, Prod.ext rfl (uses_keeps (f := fun ids => ids) (fun _ _ _ => rfl) ids n t.2)⟩

end Loops

variable {lib : PipelineLibrary} {nbPorts socketId : ℕ} {s t : DefaultPipeline}

/-- A call that does not abort has built the pipeline. -/
lemma built_of_dpConfigureLcoreDefault
    (h : s.dpConfigureLcoreDefault lib nbPorts socketId = some t) :
    s.p = none ∧ ∃ log, t.p = some log ∧ Built nbPorts [] log t.ids ∧
      (lib.Numbers → ∀ i < nbPorts, t.ids.portOutId i = BitVec.ofNat 32 i) := by
  simp only [DefaultPipeline.dpConfigureLcoreDefault, bind, Option.bind_eq_some_iff,
    Option.guard_eq_some', Option.isNone_iff_eq_none, Option.some_inj] at h
  obtain ⟨-, hp, t₁, hcreate, t₂, hin, t₃, htable, t₄, hout, t₅, hconn, t₆, henable, t₇, hcheck,
    rfl⟩ := h
  obtain ⟨ret, -, rfl⟩ := Option.map_eq_some_iff.mp hcreate
  obtain ⟨portIn, hlog₂, hportIn⟩ := run_createPortIn hin
  obtain ⟨table, -, rfl⟩ := Option.map_eq_some_iff.mp htable
  obtain ⟨portOut, hlog₄, hinKept, hportOut, houtNum⟩ := run_createPortOut hout
  obtain ⟨connected, rfl⟩ := run_connectPort hconn
  obtain ⟨enabled, rfl⟩ := run_enablePort henable
  obtain ⟨checked, -, rfl⟩ := Option.map_eq_some_iff.mp hcheck
  have hin' : ∀ i < nbPorts, t₄.2.portInId i = portIn i := by
    intro i hi
    rw [hinKept]
    exact hportIn i hi
  simp only [List.nil_append] at hlog₂
  simp only [hlog₂] at hlog₄ houtNum
  have hnone : ∀ ip, PipelineLog.lookup (t₄.1 ++
      entries (fun i => .portInConnectToTable (t₄.2.portInId i) t₄.2.tableId) connected nbPorts ++
      entries (fun i => .portInEnable (t₄.2.portInId i)) enabled nbPorts ++
      [(.check, checked)]) t₄.2.tableId ip = none := by
    intro ip
    simp only [PipelineLog.lookup, List.findSome?_eq_none_iff, List.mem_reverse, hlog₄]
    rintro ⟨call, id⟩ hmem
    cases call with
    | tableEntryAdd => simp [mem_entries] at hmem
    | _ => rfl
  refine ⟨hp, _, rfl, ⟨?_, ?_, ?_, ?_, hnone⟩, ?_⟩
  · intro p q b id
    have hid : p < nbPorts → (portIn p = id ↔ t₄.2.portInId p = id) := fun hp => by rw [hin' p hp]
    simpa [hlog₄, mem_entries] using fun hp _ _ => hid hp
  · intro p q b id
    have hid : p < nbPorts → (portOut p = id ↔ t₄.2.portOutId p = id) := fun hp => by
      rw [hportOut p hp]
    simpa [hlog₄, mem_entries] using fun hp _ _ => hid hp
  · intro i t
    simp [hlog₄, mem_entries]
  · intro i
    simp [hlog₄, mem_entries]
  · intro hnum i hi
    rw [hportOut i hi]
    refine houtNum hnum ?_ i hi
    -- the calls before create no output port
    rw [created, List.countP_eq_zero]
    rintro ⟨call, id⟩ hmem
    cases call with
    | portOutCreate => simp [mem_entries] at hmem
    | _ => simp [PipelineCall.creates]

end DaqSwitch.VoqSwq
