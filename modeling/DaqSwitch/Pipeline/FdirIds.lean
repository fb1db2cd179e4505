import DaqSwitch.Pipeline.Shape
import DaqSwitch.VoqSwq.LcoreDefault

/-!
# Filter ids of the pipelines

`table_action_handler_hit` of `pipeline_default.c` chooses an output of a data pipeline for a
connection and writes its internal id into the ids of two filters, from which the rx pipelines
read it back through a mask of four bits.  The ids that survive are those below 16, and a
pipeline may have 64 outputs.  Only the answers are read by the pipeline that chose the id; the
requests of the connection are polled by the pipeline of the other direction.
-/

namespace DaqSwitch.Pipeline

open Lib VoqSwq

def pipelineQueueFromFdirIdMask : BitVec 32 := 0xf

def pipelineDcmToRosFdirIdShift : ℕ := 0

def pipelineRosToDcmFdirIdShift : ℕ := 4

/-- The address and the event of a flow. -/
abbrev FlowId := BitVec 32 × BitVec 32

/-! ## The allocator -/

namespace PipelineParams

variable {ρ : Type*}

/-- A queue of a port is one of the inputs. -/
def Polls (pp : PipelineParams ρ) (portId queueId : ℕ) : Prop :=
  ∃ i < pp.nbQIn, pp.inPair i = (portId, queueId)

/-- An output that is allocated to a flow. -/
def HoldsFlow (pp : PipelineParams ρ) (dip eventId : BitVec 32) (i : ℕ) : Prop :=
  (pp.qOut i).dip = dip ∧ (pp.qOut i).eventId = eventId

instance (pp : PipelineParams ρ) (dip eventId : BitVec 32) (i : ℕ) :
    Decidable (pp.HoldsFlow dip eventId i) := inferInstanceAs (Decidable (_ ∧ _))

/-- `pp->q_out[i].dip = dip` and the same for the event id. -/
def setFlow (pp : PipelineParams ρ) (dip eventId : BitVec 32) (i : ℕ) : PipelineParams ρ :=
  let q := pp.qOut i
  { pp with qOut := Function.update pp.qOut i { q with dip := dip, eventId := eventId } }

/-- `get_next_data_queue_internal_id`: the internal id of the output that holds the flow, or of
the first free one, which is allocated. -/
def getNextDataQueueInternalId (pp : PipelineParams ρ) (dip eventId : BitVec 32) :
    Option (BitVec 32 × PipelineParams ρ) :=
  match (List.range pp.nbQOut).find? fun i => pp.HoldsFlow dip eventId i with
  | some i => some ((pp.qOut i).rtePipelinePortId, pp)
  | none =>
    match (List.range pp.nbQOut).find? fun i => (pp.qOut i).dip == 0 with
    | some i => some ((pp.qOut i).rtePipelinePortId, pp.setFlow dip eventId i)
    | none => none

/-- The output for a flow: the first that holds it, or the first free one if none does. -/
def IsQueueFor (pp : PipelineParams ρ) (dip eventId : BitVec 32) (i : ℕ) : Prop :=
  i < pp.nbQOut ∧
    (pp.HoldsFlow dip eventId i ∧ (∀ j < i, ¬ pp.HoldsFlow dip eventId j) ∨
      (∀ j < pp.nbQOut, ¬ pp.HoldsFlow dip eventId j) ∧
        (pp.qOut i).dip = 0 ∧ ∀ j < i, (pp.qOut j).dip ≠ 0)

variable {pp pp' : PipelineParams ρ} {dip eventId : BitVec 32} {i j : ℕ}

lemma setFlow_portId (pp : PipelineParams ρ) (dip eventId : BitVec 32) (i j : ℕ) :
    ((pp.setFlow dip eventId i).qOut j).portId = (pp.qOut j).portId := by
  by_cases hj : j = i <;> simp [setFlow, hj]

lemma setFlow_rteId (pp : PipelineParams ρ) (dip eventId : BitVec 32) (i j : ℕ) :
    ((pp.setFlow dip eventId i).qOut j).rtePipelinePortId = (pp.qOut j).rtePipelinePortId := by
  by_cases hj : j = i <;> simp [setFlow, hj]

/-- Writing the flow that an output holds changes nothing. -/
lemma setFlow_of_holdsFlow (h : pp.HoldsFlow dip eventId i) : pp.setFlow dip eventId i = pp := by
  obtain ⟨rfl, rfl⟩ := h
  rw [setFlow, Function.update_eq_self]

lemma IsQueueFor.eq (hi : pp.IsQueueFor dip eventId i) (hj : pp.IsQueueFor dip eventId j) :
    i = j := by
  obtain ⟨hiout, hi⟩ := hi
  obtain ⟨hjout, hj⟩ := hj
  rcases lt_trichotomy i j with hlt | heq | hgt
  · rcases hi with ⟨hholds, -⟩ | ⟨hnone, hfree, -⟩ <;>
      rcases hj with ⟨hholds', hj⟩ | ⟨hnone', -, hj⟩
    · exact absurd hholds (hj i hlt)
    · exact absurd hholds (hnone' i hiout)
    · exact absurd hholds' (hnone j hjout)
    · exact absurd hfree (hj i hlt)
  · exact heq
  · rcases hi with ⟨hholds, hi⟩ | ⟨hnone, -, hi⟩ <;>
      rcases hj with ⟨hholds', -⟩ | ⟨hnone', hfree, -⟩
    · exact absurd hholds' (hi j hgt)
    · exact absurd hholds (hnone' i hiout)
    · exact absurd hholds' (hnone j hjout)
    · exact absurd hfree (hi j hgt)

/-- The allocator returns the internal id of the output for the flow, which holds it then. -/
lemma getNextDataQueueInternalId_eq_some {id : BitVec 32}
    (h : pp.getNextDataQueueInternalId dip eventId = some (id, pp')) :
    ∃ i, pp.IsQueueFor dip eventId i ∧ id = (pp.qOut i).rtePipelinePortId ∧
      pp' = pp.setFlow dip eventId i := by
  unfold getNextDataQueueInternalId at h
  split at h
  · next i hi =>
    obtain ⟨rfl, rfl⟩ := Prod.mk.inj (Option.some_inj.mp h)
    obtain ⟨hholds, hout, hfirst⟩ := List.find?_range_eq_some.mp hi
    have hheld : pp.HoldsFlow dip eventId i := by simpa using hholds
    exact ⟨i, ⟨List.mem_range.mp hout, Or.inl ⟨hheld, by simpa using hfirst⟩⟩, rfl,
      (setFlow_of_holdsFlow hheld).symm⟩
  · next hnone =>
    split at h
    · next i hi =>
      obtain ⟨rfl, rfl⟩ := Prod.mk.inj (Option.some_inj.mp h)
      obtain ⟨hfree, hout, hfirst⟩ := List.find?_range_eq_some.mp hi
      rw [List.find?_range_eq_none] at hnone
      exact ⟨i, ⟨List.mem_range.mp hout, Or.inr ⟨by simpa using hnone, by simpa using hfree,
        by simpa using hfirst⟩⟩, rfl, rfl⟩
    · cases h

/-- When it fails there is no output for the flow. -/
lemma not_isQueueFor_of_eq_none (h : pp.getNextDataQueueInternalId dip eventId = none) :
    ¬ pp.IsQueueFor dip eventId i := by
  unfold getNextDataQueueInternalId at h
  split at h
  · cases h
  · next hnone =>
    split at h
    · cases h
    · next hfull =>
      rw [List.find?_range_eq_none] at hnone hfull
      rintro ⟨hout, ⟨hholds, -⟩ | ⟨-, hfree, -⟩⟩
      · exact absurd hholds (by simpa using hnone i hout)
      · exact absurd hfree (by simpa using hfull i hout)

end PipelineParams

/-! ## The handler -/

/-- The two filters of a connection, the flow that asked for them, and the internal id that the
allocator chose. -/
structure Connection where
  flow : FlowId
  chosen : BitVec 32
  rosToDcm : FdirCall
  dcmToRos : FdirCall
deriving DecidableEq, Repr

/-- What the handler works on: `rx_data_pipelines`, and the record of the filters and of the
calls of `rte_eth_set_queue_rate_limit` by port, queue and rate. -/
structure HitState (ρ : Type*) where
  rxDataPipelines : ℕ → PipelineParams ρ
  nbRxDataPipelines : ℕ
  installed : List Connection
  rateLimits : List (ℕ × BitVec 16 × ℕ)

namespace HitState

variable {ρ : Type*}

/-- `find_data_pipeline`, by the index in `rx_data_pipelines`. -/
def findDataPipeline (s : HitState ρ) (portOutId : ℕ) : Option ℕ :=
  (List.range s.nbRxDataPipelines).find? fun k =>
    ((s.rxDataPipelines k).qOut 0).portId == portOutId

/-- The filters that the NICs were asked for before. -/
def calls (s : HitState ρ) : List FdirCall :=
  s.installed.flatMap fun c => [c.rosToDcm, c.dcmToRos]

end HitState

section Handler

variable {ρ : Type*}

/-- The flow of a request: the address of its sender and the event it asks for. -/
def flowOf (pkt : HitPkt) : FlowId := (pkt.flowKey.sip, pkt.flowKey.eventId)

/-- The two filters for a packet whose flow has the output with the given internal id.
`fdir_id` has 16 bits. -/
def connect (pkt : HitPkt) (id : BitVec 32) (rosQueue dcmQueue : ℕ) : Connection :=
  let fdirId : BitVec 16 := id.setWidth 16 <<< pipelineDcmToRosFdirIdShift
  { flow := flowOf pkt
    chosen := id
    rosToDcm := ⟨pkt.entryPort, (VoqSwq.rosToDcm pkt).filter, fdirId, rosQueue, 0⟩
    dcmToRos := ⟨pkt.port, (VoqSwq.dcmToRos pkt).filter,
      fdirId ||| fdirId <<< pipelineRosToDcmFdirIdShift, dcmQueue, 0⟩ }

/-- The body of the loop over the packets, on the state and the local `filter`.  The program
ends when there is no data pipeline for a port (a null pointer is followed) and when a NIC
refuses a filter (`RTE_VERIFY`). -/
def hitPkt (nic : FdirNic) (pkt : HitPkt) (b : HitState ρ × RteFdirFilter) :
    Option (HitState ρ × RteFdirFilter) :=
  if detects pkt b.2 then
    (b.1.findDataPipeline pkt.port).bind fun k =>
      match (b.1.rxDataPipelines k).getNextDataQueueInternalId pkt.flowKey.sip
        pkt.flowKey.eventId with
      | none => some b
      | some (id, pp) =>
        let s := { b.1 with rxDataPipelines := Function.update b.1.rxDataPipelines k pp }
        (s.findDataPipeline pkt.entryPort).bind fun k' =>
          let c := connect pkt id (pp.qIn 0).queueId ((s.rxDataPipelines k').qIn 0).queueId
          if nic s.calls c.rosToDcm = 0 ∧ nic (s.calls ++ [c.rosToDcm]) c.dcmToRos = 0 then
            some ({ s with
              installed := s.installed ++ [c]
              rateLimits := s.rateLimits ++ [(pkt.port, c.rosToDcm.softId + 1, 1000)] },
              c.dcmToRos.filter)
          else none
  else some b

/-- `table_action_handler_hit`. -/
def tableActionHandlerHit (nic : FdirNic) (burst : PktBurst) (s : HitState ρ) :
    Option (HitState ρ) :=
  (Machine.run (hitPkt nic) burst.masked (s, RteFdirFilter.zero)).map Prod.fst

/-- `pkt_metadata_fill` of the rx pipeline: the output port that it reads off a filter id. -/
def pktMetadataFill (fdirId : BitVec 16) : BitVec 32 :=
  fdirId.setWidth 32 &&& pipelineQueueFromFdirIdMask

/-! ## Where the packets of a filter leave -/

namespace HitState

/-- Output `i` of pipeline `k` is allocated to the flow. -/
def Holds (s : HitState ρ) (k i : ℕ) (flow : FlowId) : Prop :=
  (s.rxDataPipelines k).HoldsFlow flow.1 flow.2 i

/-- Output `i` of pipeline `k` is not allocated. -/
def Free (s : HitState ρ) (k i : ℕ) : Prop := ((s.rxDataPipelines k).qOut i).dip = 0

/-- Pipeline `k` polls a queue of a port, and its output `i` has the given internal id. -/
structure Way (s : HitState ρ) (portId queueId : ℕ) (id : BitVec 32) (k i : ℕ) : Prop where
  pipeline : k < s.nbRxDataPipelines
  polls : (s.rxDataPipelines k).Polls portId queueId
  output : i < (s.rxDataPipelines k).nbQOut
  outId : ((s.rxDataPipelines k).qOut i).rtePipelinePortId = id

/-- The packets of a filter are polled by pipeline `k` and leave through its output `i`. -/
def LeadsTo (s : HitState ρ) (call : FdirCall) (k i : ℕ) : Prop :=
  s.Way call.portId call.rxQueue (pktMetadataFill call.softId) k i

/-- The pipelines as `init_data_rx_pipeline` sets them up.  Each polls one queue on all ports,
which no other one polls, and its outputs have different internal ids. -/
structure Wired (nbPorts : ℕ) (s : HitState ρ) : Prop where
  polls : ∀ k < s.nbRxDataPipelines, ∀ port < nbPorts,
    (s.rxDataPipelines k).Polls port ((s.rxDataPipelines k).qIn 0).queueId
  own : ∀ k < s.nbRxDataPipelines, ∀ k' < s.nbRxDataPipelines, ∀ port queue,
    (s.rxDataPipelines k).Polls port queue → (s.rxDataPipelines k').Polls port queue → k = k'
  outId : ∀ k < s.nbRxDataPipelines, ∀ i < (s.rxDataPipelines k).nbQOut,
    ∀ j < (s.rxDataPipelines k).nbQOut, ((s.rxDataPipelines k).qOut i).rtePipelinePortId =
      ((s.rxDataPipelines k).qOut j).rtePipelinePortId → i = j

end HitState

/-! ## The pipelines as they are built -/

/-- The calls of `init_data_rx_pipeline` after `pipeline_init`: a queue of all ports, and the data
queues of an output port with their rings. -/
def initDataRxPipeline (nbPorts outPortId inQueueId : ℕ) (outQueues : List (ℕ × ℕ)) :
    List PortOp :=
  (List.range nbPorts).map (fun inPortId => .portIn inPortId inQueueId none) ++
    outQueues.map fun q => .portOut outPortId q.1 (some q.2)

/-- A pipeline that was built with these calls, whose outputs got different ids. -/
def BuiltRxData (nbPorts inQueueId : ℕ) (pp : PipelineParams ρ) : Prop :=
  ∃ mem lcoreId outPortId outQueues created dataDisable,
    (∀ i < pipelineQueueOutMax, ∀ j < pipelineQueueOutMax,
      RteCreated.portOut created i = created.portOut j → i = j) ∧
    PipelineParams.build mem lcoreId .rxData (initDataRxPipeline nbPorts outPortId inQueueId outQueues)
      created dataDisable = some pp

section Build

variable {pp : PipelineParams ρ} {n nbPorts inQueueId : ℕ}

/-- One more input on the queue of the others. -/
lemma pipelineInitPortIn_next (htype : pp.type = .rxData) (hnb : pp.nbQIn = n)
    (hn : n < pipelineQueueInMax) (hpair : ∀ i < n, pp.inPair i = (i, inQueueId)) :
    ∃ pp', pp.pipelineInitPortIn n inQueueId none = some pp' ∧ pp'.type = .rxData ∧
      pp'.nbQIn = n + 1 ∧ ∀ i < n + 1, pp'.inPair i = (i, inQueueId) := by
  subst hnb
  have hqueue : ¬ (pp.nbQIn > 0 ∧ pp.type = .rxData ∧
      (pp.qIn (pp.nbQIn - 1)).queueId ≠ inQueueId) := by
    rintro ⟨hpos, -, hne⟩
    exact hne (congrArg Prod.snd (hpair (pp.nbQIn - 1) (by omega)))
  have htx : pp.type ≠ .txData := by
    rw [htype]
    nofun
  refine ⟨{ pp with
    qIn := Function.update pp.qIn pp.nbQIn { pp.qIn pp.nbQIn with
      portId := pp.nbQIn, queueId := inQueueId, ring := none, enabled := false }
    nbQIn := pp.nbQIn + 1 }, ?_, htype, rfl, ?_⟩
  · rw [PipelineParams.pipelineInitPortIn, if_neg (not_le.mpr hn), if_neg fun h => htx h.2,
      if_neg fun h => h.1 rfl, if_neg hqueue, if_neg fun h => htx h.2.1]
  · intro i hi
    rcases Nat.lt_succ_iff_lt_or_eq.mp hi with hlt | rfl
    · rw [← hpair i hlt]
      simp only [PipelineParams.inPair, Function.update_of_ne hlt.ne]
    · simp only [PipelineParams.inPair, Function.update_self]

/-- The calls for the inputs. -/
lemma run_portIns (inQueueId : ℕ) (htype : pp.type = .rxData) (hnb : pp.nbQIn = 0)
    (hn : n ≤ pipelineQueueInMax) :
    ∃ pp', Machine.run initPort
        ((List.range n).map fun inPortId => .portIn inPortId inQueueId none) pp = some pp' ∧
      pp'.type = .rxData ∧ pp'.nbQIn = n ∧ ∀ i < n, pp'.inPair i = (i, inQueueId) := by
  induction n with
  | zero => exact ⟨pp, rfl, htype, hnb, fun i hi => absurd hi (Nat.not_lt_zero i)⟩
  | succ n ih =>
    obtain ⟨pp₁, hrun, htype₁, hnb₁, hpair₁⟩ := ih (by omega)
    obtain ⟨pp₂, hadd, hnext⟩ := pipelineInitPortIn_next htype₁ hnb₁ hn hpair₁
    refine ⟨pp₂, ?_, hnext⟩
    rw [List.range_succ, List.map_append]
    refine Machine.run_append_of_eq_some hrun ?_
    rw [List.map_singleton, Machine.run_singleton, initPort, hadd]
    rfl

/-- A pipeline that was built polls one queue on all ports, and its outputs have different ids. -/
lemma BuiltRxData.spec (hnb : nbPorts ≤ pipelineQueueInMax) (h : BuiltRxData nbPorts inQueueId pp) :
    (∀ port queue, pp.Polls port queue ↔ port < nbPorts ∧ queue = inQueueId) ∧
      (0 < nbPorts → (pp.qIn 0).queueId = inQueueId) ∧
      ∀ i < pp.nbQOut, ∀ j < pp.nbQOut,
        (pp.qOut i).rtePipelinePortId = (pp.qOut j).rtePipelinePortId → i = j := by
  obtain ⟨mem, lcoreId, outPortId, outQueues, created, dataDisable, hids, hbuild⟩ := h
  obtain ⟨pp₁, hinit, -, hbound, hout⟩ := PipelineParams.outputs_of_build hbuild
  rw [PipelineParams.build, hinit, Option.bind_some] at hbuild
  simp only [PipelineParams.pipelineInit, Option.ite_none_left_eq_some, Option.some_inj] at hinit
  obtain ⟨-, hinit⟩ := hinit
  obtain ⟨pp₂, hrun₂, htype₂, hnb₂, hpair₂⟩ := run_portIns inQueueId
    (congrArg PipelineParams.type hinit.symm) (congrArg PipelineParams.nbQIn hinit.symm) hnb
  obtain ⟨pp₃, hrun₃, hconf⟩ := Option.bind_eq_some_iff.mp hbuild
  rw [initDataRxPipeline, Machine.run_append, hrun₂, Option.bind_some] at hrun₃
  -- the outputs leave the inputs alone, and the configuration their names
  have hins : pp₃.nbQIn = pp₂.nbQIn ∧ pp₃.qIn = pp₂.qIn := by
    refine Machine.run_invariant (I := fun pp => pp.nbQIn = pp₂.nbQIn ∧ pp.qIn = pp₂.qIn) ?_ hrun₃
      ⟨rfl, rfl⟩
    rintro op hop pp pp' hstep ⟨hnb, hq⟩
    obtain ⟨q, -, rfl⟩ := List.mem_map.mp hop
    have hpp' : (pp.pipelineInitPortOut outPortId q.1 (some q.2)).getD pp = pp' :=
      Option.some_inj.mp hstep
    cases hadd : pp.pipelineInitPortOut outPortId q.1 (some q.2) with
    | none =>
      rw [hadd, Option.getD_none] at hpp'
      exact hpp' ▸ ⟨hnb, hq⟩
    | some pp₁ =>
      rw [hadd, Option.getD_some] at hpp'
      subst hpp'
      obtain ⟨hnb', hq'⟩ := PipelineParams.pipelineInitPortOut_inputs hadd
      exact ⟨hnb'.trans hnb, hq'.trans hq⟩
  obtain ⟨hnb₄, hpair₄, -⟩ := PipelineParams.pipelineConfigure_inputs hconf
  have hpair : ∀ i < nbPorts, pp.inPair i = (i, inQueueId) := by
    intro i hi
    rw [hpair₄, PipelineParams.inPair, hins.2]
    exact hpair₂ i hi
  have hnbQIn : pp.nbQIn = nbPorts := by rw [hnb₄, hins.1, hnb₂]
  refine ⟨?_, fun hpos => congrArg Prod.snd (hpair 0 hpos), ?_⟩
  · intro port queue
    constructor
    · rintro ⟨i, hi, heq⟩
      rw [hnbQIn] at hi
      rw [hpair i hi, Prod.mk.injEq] at heq
      obtain ⟨rfl, rfl⟩ := heq
      exact ⟨hi, rfl⟩
    · rintro ⟨hport, rfl⟩
      exact ⟨port, hnbQIn ▸ hport, hpair port hport⟩
  · intro i hi j hj heq
    rw [hout i hi, hout j hj] at heq
    exact hids i (by omega) j (by omega) heq

/-- Pipelines that were built for different queues are wired. -/
theorem wired_of_built {s : HitState ρ} {queue : ℕ → ℕ} (hnb : nbPorts ≤ pipelineQueueInMax)
    (hbuilt : ∀ k < s.nbRxDataPipelines, BuiltRxData nbPorts (queue k) (s.rxDataPipelines k))
    (hqueue : ∀ k < s.nbRxDataPipelines, ∀ k' < s.nbRxDataPipelines, queue k = queue k' → k = k') :
    s.Wired nbPorts where
  polls k hk port hport := by
    obtain ⟨hpolls, hfirst, -⟩ := (hbuilt k hk).spec hnb
    exact (hpolls port _).mpr ⟨hport, hfirst (by omega)⟩
  own k hk k' hk' port q h h' := by
    obtain ⟨-, hq⟩ := (((hbuilt k hk).spec hnb).1 port q).mp h
    obtain ⟨-, hq'⟩ := (((hbuilt k' hk').spec hnb).1 port q).mp h'
    exact hqueue k hk k' hk' (hq.symm.trans hq')
  outId k hk := ((hbuilt k hk).spec hnb).2.2

end Build

/-- Both ids are decoded to the internal id that was chosen. -/
def Connection.Decoded (c : Connection) : Prop :=
  pktMetadataFill c.rosToDcm.softId = c.chosen ∧ pktMetadataFill c.dcmToRos.softId = c.chosen

instance (c : Connection) : Decidable c.Decoded := inferInstanceAs (Decidable (_ ∧ _))

/-- Both ids are decoded to the internal id that was chosen, and the packets of both filters
leave through an output for their flow: the answers through the one that is allocated to it,
the requests through one that is allocated to no other flow. -/
structure Connection.RoundTrip (s : HitState ρ) (c : Connection) : Prop where
  decoded : c.Decoded
  rosToDcm : ∃ k i, s.LeadsTo c.rosToDcm k i ∧ s.Holds k i c.flow
  dcmToRos : ∃ k i, s.LeadsTo c.dcmToRos k i ∧ (s.Free k i ∨ s.Holds k i c.flow)

/-- Output `i` of pipeline `k` suits a request.  Its internal id has four bits, it is not the way
of a filter for another flow, and the pipeline towards the port of the table entry has an output
with the same id that is allocated to no other flow. -/
structure QueueSuits (pkt : HitPkt) (s : HitState ρ) (k i : ℕ) : Prop where
  below16 : ((s.rxDataPipelines k).qOut i).rtePipelinePortId.toNat < 16
  unused : ∀ c ∈ s.installed, c.flow ≠ flowOf pkt → ¬ s.LeadsTo c.rosToDcm k i ∧
    ((flowOf pkt).1 ≠ 0 → ¬ s.LeadsTo c.dcmToRos k i)
  back : ∀ k', s.findDataPipeline pkt.entryPort = some k' →
    ∃ j < (s.rxDataPipelines k').nbQOut, ((s.rxDataPipelines k').qOut j).rtePipelinePortId =
      ((s.rxDataPipelines k).qOut i).rtePipelinePortId ∧
      (k' = k ∨ s.Free k' j ∨ s.Holds k' j (flowOf pkt))

/-- A new fragment request finds an output that suits it. -/
def QueueUsable (pkt : HitPkt) (b : HitState ρ × RteFdirFilter) : Prop :=
  detects pkt b.2 = true → ∀ k, b.1.findDataPipeline pkt.port = some k → ∀ i,
    (b.1.rxDataPipelines k).IsQueueFor pkt.flowKey.sip pkt.flowKey.eventId i →
      QueueSuits pkt b.1 k i

/-! ## The round trip of an id -/

lemma toNat_pktMetadataFill (fdirId : BitVec 16) :
    (pktMetadataFill fdirId).toNat = fdirId.toNat % 16 := by
  rw [pktMetadataFill, pipelineQueueFromFdirIdMask, BitVec.toNat_and, BitVec.toNat_setWidth,
    Nat.mod_eq_of_lt (by omega)]
  exact Nat.and_two_pow_sub_one_eq_mod fdirId.toNat 4

/-- The copy of an id in the upper bits does not disturb the lower ones. -/
lemma pktMetadataFill_or_shiftLeft (fdirId : BitVec 16) :
    pktMetadataFill (fdirId ||| fdirId <<< pipelineRosToDcmFdirIdShift) =
      pktMetadataFill fdirId := by
  refine BitVec.eq_of_getLsbD_eq ?_
  intro i hi
  rcases Nat.lt_or_ge i 4 with hlt | hge
  · simp [pktMetadataFill, pipelineRosToDcmFdirIdShift, hlt]
  · have hmask : pipelineQueueFromFdirIdMask.getLsbD i = false := by
      have : ∀ i < 32, 4 ≤ i → pipelineQueueFromFdirIdMask.getLsbD i = false := by decide
      exact this i hi hge
    simp [pktMetadataFill, hmask]

/-- An id survives exactly if it has four bits. -/
lemma connect_decoded_iff (pkt : HitPkt) (id : BitVec 32) (rosQueue dcmQueue : ℕ) :
    (connect pkt id rosQueue dcmQueue).Decoded ↔ id.toNat < 16 := by
  have hros : pktMetadataFill (connect pkt id rosQueue dcmQueue).rosToDcm.softId = id ↔
      id.toNat < 16 := by
    rw [← BitVec.toNat_inj, toNat_pktMetadataFill]
    simp only [connect, pipelineDcmToRosFdirIdShift, BitVec.shiftLeft_zero, BitVec.toNat_setWidth]
    omega
  have hdcm : pktMetadataFill (connect pkt id rosQueue dcmQueue).dcmToRos.softId =
      pktMetadataFill (connect pkt id rosQueue dcmQueue).rosToDcm.softId :=
    pktMetadataFill_or_shiftLeft _
  rw [Connection.Decoded, hdcm, and_self]
  exact hros

/-! ## What a packet does -/

/-- The handler connects: output `i` of pipeline `k` is for the flow of the packet, and `k'` is
the pipeline towards the port of the table entry. -/
structure HitConnects (pkt : HitPkt) (s t : HitState ρ) (k i k' : ℕ) : Prop where
  find : s.findDataPipeline pkt.port = some k
  queue : (s.rxDataPipelines k).IsQueueFor pkt.flowKey.sip pkt.flowKey.eventId i
  findBack : s.findDataPipeline pkt.entryPort = some k'
  pipelines : t.rxDataPipelines = Function.update s.rxDataPipelines k
    ((s.rxDataPipelines k).setFlow (flowOf pkt).1 (flowOf pkt).2 i)
  nbPipelines : t.nbRxDataPipelines = s.nbRxDataPipelines
  installed : t.installed = s.installed ++
    [connect pkt ((s.rxDataPipelines k).qOut i).rtePipelinePortId
      ((s.rxDataPipelines k).qIn 0).queueId ((s.rxDataPipelines k').qIn 0).queueId]

variable {nic : FdirNic} {pkt : HitPkt} {s t : HitState ρ} {k i k' nbPorts : ℕ} {call : FdirCall}
  {c : Connection}

lemma findDataPipeline_lt {port : ℕ} (h : s.findDataPipeline port = some k) :
    k < s.nbRxDataPipelines :=
  List.mem_range.mp (List.mem_of_find?_eq_some h)

/-- A packet is passed over, or it connects. -/
lemma hitPkt_cases {b b' : HitState ρ × RteFdirFilter} (h : hitPkt nic pkt b = some b') :
    b'.1 = b.1 ∧ QueueUsable pkt b ∨
      detects pkt b.2 = true ∧ ∃ k i k', HitConnects pkt b.1 b'.1 k i k' := by
  unfold hitPkt at h
  split at h
  · next hdetects =>
    obtain ⟨k, hk, h⟩ := Option.bind_eq_some_iff.mp h
    split at h
    · next hnone =>
      obtain rfl := Option.some_inj.mp h
      refine Or.inl ⟨rfl, ?_⟩
      intro _ k' hk' i hi
      obtain rfl := Option.some_inj.mp (hk.symm.trans hk')
      exact absurd hi (PipelineParams.not_isQueueFor_of_eq_none hnone)
    · next id pp hsome =>
      obtain ⟨i, hi, rfl, rfl⟩ := PipelineParams.getNextDataQueueInternalId_eq_some hsome
      obtain ⟨k', hk', h⟩ := Option.bind_eq_some_iff.mp h
      simp only [Option.ite_none_right_eq_some, Option.some_inj] at h
      obtain ⟨-, rfl⟩ := h
      -- the ports and the queues of the pipelines are not changed by the allocation
      have hport (l : ℕ) : ((Function.update b.1.rxDataPipelines k
          ((b.1.rxDataPipelines k).setFlow pkt.flowKey.sip pkt.flowKey.eventId i) l).qOut 0).portId =
          ((b.1.rxDataPipelines l).qOut 0).portId :=
        Machine.apply_update_eq (fun pp : PipelineParams ρ => (pp.qOut 0).portId)
          (PipelineParams.setFlow_portId ..) l
      have hqueue (l : ℕ) : ((Function.update b.1.rxDataPipelines k
          ((b.1.rxDataPipelines k).setFlow pkt.flowKey.sip pkt.flowKey.eventId i) l).qIn 0).queueId =
          ((b.1.rxDataPipelines l).qIn 0).queueId :=
        Machine.apply_update_eq (fun pp : PipelineParams ρ => (pp.qIn 0).queueId) (by rfl) l
      refine Or.inr ⟨hdetects, k, i, k', hk, hi, ?_, rfl, rfl, ?_⟩
      · simpa only [HitState.findDataPipeline, hport] using hk'
      · simp only [hqueue]
        rfl
  · next hdetects =>
    obtain rfl := Option.some_inj.mp h
    exact Or.inl ⟨rfl, fun hd => absurd hd hdetects⟩

namespace HitConnects

variable (h : HitConnects pkt s t k i k')

include h

/-- The allocation changes neither inputs nor ids. -/
lemma same (l : ℕ) : (t.rxDataPipelines l).qIn = (s.rxDataPipelines l).qIn ∧
    (t.rxDataPipelines l).nbQIn = (s.rxDataPipelines l).nbQIn ∧
    (t.rxDataPipelines l).nbQOut = (s.rxDataPipelines l).nbQOut ∧
    ∀ j, ((t.rxDataPipelines l).qOut j).rtePipelinePortId =
      ((s.rxDataPipelines l).qOut j).rtePipelinePortId := by
  rw [h.pipelines]
  refine ⟨?_, ?_, ?_, fun j => ?_⟩
  · exact Machine.apply_update_eq PipelineParams.qIn (by rfl) l
  · exact Machine.apply_update_eq PipelineParams.nbQIn (by rfl) l
  · exact Machine.apply_update_eq PipelineParams.nbQOut (by rfl) l
  · exact Machine.apply_update_eq (fun pp : PipelineParams ρ => (pp.qOut j).rtePipelinePortId)
      (PipelineParams.setFlow_rteId ..) l

lemma polls_iff (l port queue : ℕ) :
    (t.rxDataPipelines l).Polls port queue ↔ (s.rxDataPipelines l).Polls port queue := by
  obtain ⟨hin, hnb, -, -⟩ := h.same l
  simp only [PipelineParams.Polls, PipelineParams.inPair, hin, hnb]

lemma way_iff {port queue : ℕ} {id : BitVec 32} {l j : ℕ} :
    t.Way port queue id l j ↔ s.Way port queue id l j := by
  obtain ⟨-, -, hnb, hid⟩ := h.same l
  have hpolls := h.polls_iff l port queue
  constructor
  · rintro ⟨hl, hp, hj, hd⟩
    exact ⟨h.nbPipelines ▸ hl, hpolls.mp hp, hnb ▸ hj, (hid j).symm.trans hd⟩
  · rintro ⟨hl, hp, hj, hd⟩
    exact ⟨h.nbPipelines ▸ hl, hpolls.mpr hp, hnb ▸ hj, (hid j).trans hd⟩

lemma leadsTo_iff {l j : ℕ} : t.LeadsTo call l j ↔ s.LeadsTo call l j := h.way_iff

lemma wired (hw : s.Wired nbPorts) : t.Wired nbPorts where
  polls l hl port hport := by
    rw [h.polls_iff, (h.same l).1]
    exact hw.polls l (h.nbPipelines ▸ hl) port hport
  own l hl l' hl' port queue hp hp' :=
    hw.own l (h.nbPipelines ▸ hl) l' (h.nbPipelines ▸ hl') port queue
      ((h.polls_iff l port queue).mp hp) ((h.polls_iff l' port queue).mp hp')
  outId l hl j hj j' hj' heq := by
    obtain ⟨-, -, hnb, hid⟩ := h.same l
    rw [hid, hid] at heq
    exact hw.outId l (h.nbPipelines ▸ hl) j (hnb ▸ hj) j' (hnb ▸ hj') heq

/-- The output that is allocated holds the flow. -/
lemma holds_self_iff (flow : FlowId) : t.Holds k i flow ↔ flow = flowOf pkt := by
  rw [HitState.Holds, h.pipelines, Function.update_self]
  simp only [PipelineParams.HoldsFlow, PipelineParams.setFlow, Function.update_self]
  exact ⟨fun ⟨hdip, hevent⟩ => (Prod.ext hdip hevent).symm, fun hf => hf ▸ ⟨rfl, rfl⟩⟩

lemma free_self_iff : t.Free k i ↔ (flowOf pkt).1 = 0 := by
  rw [HitState.Free, h.pipelines, Function.update_self]
  simp only [PipelineParams.setFlow, Function.update_self]

/-- The other outputs keep what they hold. -/
lemma qOut_of_ne {l j : ℕ} (hne : ¬ (l = k ∧ j = i)) :
    (t.rxDataPipelines l).qOut j = (s.rxDataPipelines l).qOut j := by
  rw [h.pipelines]
  by_cases hl : l = k
  · subst hl
    rw [Function.update_self]
    exact Function.update_of_ne (fun hj => hne ⟨rfl, hj⟩) ..
  · rw [Function.update_of_ne hl]

lemma holds_of_ne {l j : ℕ} (hne : ¬ (l = k ∧ j = i)) (flow : FlowId) :
    t.Holds l j flow ↔ s.Holds l j flow := by
  rw [HitState.Holds, HitState.Holds, PipelineParams.HoldsFlow, PipelineParams.HoldsFlow,
    h.qOut_of_ne hne]

lemma free_of_ne {l j : ℕ} (hne : ¬ (l = k ∧ j = i)) : t.Free l j ↔ s.Free l j := by
  rw [HitState.Free, HitState.Free, h.qOut_of_ne hne]

/-- Before the allocation the output was free or held the flow. -/
lemma free_or_holds : s.Free k i ∨ s.Holds k i (flowOf pkt) := by
  rcases h.queue.2 with ⟨hholds, -⟩ | ⟨-, hfree, -⟩
  · exact Or.inr hholds
  · exact Or.inl hfree

end HitConnects

/-! ## The exact condition of a step -/

/-- In a wired state a queue and an internal id are one way. -/
lemma HitState.Wired.way_unique (hw : s.Wired nbPorts) {port queue : ℕ} {id : BitVec 32}
    {l j l' j' : ℕ} (h : s.Way port queue id l j) (h' : s.Way port queue id l' j') :
    l = l' ∧ j = j' := by
  obtain rfl := hw.own l h.pipeline l' h'.pipeline port queue h.polls h'.polls
  exact ⟨rfl, hw.outId l h.pipeline j h.output j' h'.output (h.outId.trans h'.outId.symm)⟩

/-- What the answers of a connection were given: the way of the id that was chosen. -/
def Connection.GivenAt (s : HitState ρ) (c : Connection) (k i : ℕ) : Prop :=
  s.Way c.rosToDcm.portId c.rosToDcm.rxQueue c.chosen k i

lemma Connection.Decoded.givenAt_iff (h : c.Decoded) :
    c.GivenAt s k i ↔ s.LeadsTo c.rosToDcm k i := by
  rw [Connection.GivenAt, HitState.LeadsTo, h.1]

/-- An output that was given to a connection holds the flow of such a connection. -/
def HoldersInstalled (s : HitState ρ) : Prop :=
  ∀ c ∈ s.installed, ∀ k i, c.GivenAt s k i →
    ∃ d ∈ s.installed, d.GivenAt s k i ∧ s.Holds k i d.flow

/-- All connections so far survive. -/
def AllRoundTrip (s : HitState ρ) : Prop := ∀ c ∈ s.installed, c.RoundTrip s

namespace HitConnects

/-- The new connection. -/
def connection (pkt : HitPkt) (s : HitState ρ) (k i k' : ℕ) : Connection :=
  connect pkt ((s.rxDataPipelines k).qOut i).rtePipelinePortId
    ((s.rxDataPipelines k).qIn 0).queueId ((s.rxDataPipelines k').qIn 0).queueId

variable (h : HitConnects pkt s t k i k') (hw : s.Wired nbPorts) (hport : pkt.port < nbPorts)
  (hentry : pkt.entryPort < nbPorts)

include h

lemma mem_installed_iff : c ∈ t.installed ↔ c ∈ s.installed ∨ c = connection pkt s k i k' := by
  rw [h.installed, List.mem_append, List.mem_singleton, connection]

include hw

include hentry in
/-- The answers are given the output that was allocated. -/
lemma givenAt : (connection pkt s k i k').GivenAt s k i where
  pipeline := findDataPipeline_lt h.find
  polls := hw.polls k (findDataPipeline_lt h.find) _ hentry
  output := h.queue.1
  outId := rfl

include hport in
/-- The requests are polled by the pipeline towards the port of the table entry. -/
lemma polls_back : (s.rxDataPipelines k').Polls pkt.port ((s.rxDataPipelines k').qIn 0).queueId :=
  hw.polls k' (findDataPipeline_lt h.findBack) _ hport

include hentry in
/-- The step lemma for the holders: the output that is allocated holds the new flow. -/
lemma holdersInstalled (hs : HoldersInstalled s) : HoldersInstalled t := by
  intro c hc l j hgiven
  have hgiven' : c.GivenAt s l j := h.way_iff.mp hgiven
  by_cases hlj : l = k ∧ j = i
  · obtain ⟨rfl, rfl⟩ := hlj
    exact ⟨_, h.mem_installed_iff.mpr (Or.inr rfl), h.way_iff.mpr (h.givenAt hw hentry),
      (h.holds_self_iff _).mpr rfl⟩
  · rcases h.mem_installed_iff.mp hc with hc | rfl
    · obtain ⟨d, hd, hdg, hholds⟩ := hs c hc l j hgiven'
      exact ⟨d, h.mem_installed_iff.mpr (Or.inl hd), h.way_iff.mpr hdg,
        (h.holds_of_ne hlj _).mpr hholds⟩
    · exact absurd (hw.way_unique hgiven' (h.givenAt hw hentry)) hlj

include hport hentry in
/-- The new connection survives exactly if its id has four bits and the pipeline of its requests
has an output with that id for them. -/
lemma roundTrip_new_iff : (connection pkt s k i k').RoundTrip t ↔
    ((s.rxDataPipelines k).qOut i).rtePipelinePortId.toNat < 16 ∧
      ∃ j < (s.rxDataPipelines k').nbQOut, ((s.rxDataPipelines k').qOut j).rtePipelinePortId =
        ((s.rxDataPipelines k).qOut i).rtePipelinePortId ∧
        (k' = k ∨ s.Free k' j ∨ s.Holds k' j (flowOf pkt)) := by
  have hgiven := h.givenAt hw hentry
  have hdec : (connection pkt s k i k').Decoded ↔ _ := connect_decoded_iff ..
  constructor
  · rintro ⟨hd, -, l, j, hlead, hfor⟩
    refine ⟨hdec.mp hd, j, ?_⟩
    have hlead' := h.leadsTo_iff.mp hlead
    obtain rfl : l = k' := hw.own l hlead'.pipeline k' (findDataPipeline_lt h.findBack) _ _
      hlead'.polls (h.polls_back hw hport)
    refine ⟨hlead'.output, hlead'.outId.trans hd.2, ?_⟩
    by_cases hk : l = k
    · exact Or.inl hk
    · have hne : ¬ (l = k ∧ j = i) := fun hlj => hk hlj.1
      rw [h.free_of_ne hne, h.holds_of_ne hne] at hfor
      exact Or.inr hfor
  · rintro ⟨hlt, j, hj, hid, hfor⟩
    have hd := hdec.mpr hlt
    have hback : t.LeadsTo (connection pkt s k i k').dcmToRos k' j :=
      h.leadsTo_iff.mpr ⟨findDataPipeline_lt h.findBack, h.polls_back hw hport, hj,
        hid.trans hd.2.symm⟩
    refine ⟨hd, ⟨k, i, h.leadsTo_iff.mpr (hd.givenAt_iff.mp hgiven), (h.holds_self_iff _).mpr rfl⟩,
      k', j, hback, ?_⟩
    by_cases hlj : k' = k ∧ j = i
    · obtain ⟨rfl, rfl⟩ := hlj
      exact Or.inr ((h.holds_self_iff _).mpr rfl)
    · rw [h.free_of_ne hlj, h.holds_of_ne hlj]
      rcases hfor with rfl | hfor
      · -- in the same pipeline the id is that of the output that was allocated
        exact absurd ⟨rfl, hw.outId k' hgiven.pipeline j hj i hgiven.output hid⟩ hlj
      · exact hfor

omit hw in
/-- A connection that survives keeps its ways, if the new flow does not take them. -/
lemma roundTrip_keep (hc : c.RoundTrip s)
    (hunused : c.flow ≠ flowOf pkt → ¬ s.LeadsTo c.rosToDcm k i ∧
      ((flowOf pkt).1 ≠ 0 → ¬ s.LeadsTo c.dcmToRos k i)) : c.RoundTrip t := by
  obtain ⟨hd, ⟨l, j, hlead, hholds⟩, l', j', hlead', hfor⟩ := hc
  refine ⟨hd, ⟨l, j, h.leadsTo_iff.mpr hlead, ?_⟩, l', j', h.leadsTo_iff.mpr hlead', ?_⟩
  · by_cases hlj : l = k ∧ j = i
    · obtain ⟨rfl, rfl⟩ := hlj
      rw [h.holds_self_iff]
      by_contra hne
      exact (hunused hne).1 hlead
    · exact (h.holds_of_ne hlj _).mpr hholds
  · by_cases hlj : l' = k ∧ j' = i
    · obtain ⟨rfl, rfl⟩ := hlj
      rw [h.holds_self_iff, h.free_self_iff]
      by_contra hne
      rw [not_or] at hne
      exact (hunused hne.2).2 hne.1 hlead'
    · rwa [h.free_of_ne hlj, h.holds_of_ne hlj]

/-- A connection that survives the step was not in the way of the new flow. -/
lemma unused_of_roundTrip (hc : c.RoundTrip t) (hne : c.flow ≠ flowOf pkt) :
    ¬ s.LeadsTo c.rosToDcm k i ∧ ((flowOf pkt).1 ≠ 0 → ¬ s.LeadsTo c.dcmToRos k i) := by
  obtain ⟨-, ⟨l, j, hlead, hholds⟩, l', j', hlead', hfor⟩ := hc
  refine ⟨?_, fun haddr => ?_⟩
  · intro hki
    obtain ⟨rfl, rfl⟩ := hw.way_unique (h.leadsTo_iff.mp hlead) hki
    exact hne ((h.holds_self_iff _).mp hholds)
  · intro hki
    obtain ⟨rfl, rfl⟩ := hw.way_unique (h.leadsTo_iff.mp hlead') hki
    rcases hfor with hfree | hholds
    · exact haddr (h.free_self_iff.mp hfree)
    · exact hne ((h.holds_self_iff _).mp hholds)

/-- If all connections survive the step, those that were there did so before. -/
lemma roundTrip_before (hs : HoldersInstalled s) (ht : AllRoundTrip t) (hc : c ∈ s.installed) :
    c.RoundTrip s := by
  obtain ⟨hd, ⟨l, j, hlead, hholds⟩, l', j', hlead', hfor⟩ :=
    ht c (h.mem_installed_iff.mpr (Or.inl hc))
  have hlead := h.leadsTo_iff.mp hlead
  refine ⟨hd, ⟨l, j, hlead, ?_⟩, l', j', h.leadsTo_iff.mp hlead', ?_⟩
  · by_cases hlj : l = k ∧ j = i
    · obtain ⟨rfl, rfl⟩ := hlj
      -- the holder before the step is installed, and survives with the new flow only
      obtain ⟨d, hdmem, hdgiven, hdholds⟩ := hs c hc l j (hd.givenAt_iff.mpr hlead)
      have hdt := ht d (h.mem_installed_iff.mpr (Or.inl hdmem))
      obtain ⟨l₁, j₁, hlead₁, hholds₁⟩ := hdt.rosToDcm
      obtain ⟨rfl, rfl⟩ := hw.way_unique (h.leadsTo_iff.mp hlead₁)
        (hdt.decoded.givenAt_iff.mp hdgiven)
      rw [h.holds_self_iff] at hholds hholds₁
      rw [hholds, ← hholds₁]
      exact hdholds
    · exact (h.holds_of_ne hlj _).mp hholds
  · by_cases hlj : l' = k ∧ j' = i
    · obtain ⟨rfl, rfl⟩ := hlj
      rw [h.holds_self_iff, h.free_self_iff] at hfor
      rcases h.free_or_holds with hfree | hholds
      · exact Or.inl hfree
      · rcases hfor with hzero | hflow
        · exact Or.inl (hholds.1.trans hzero)
        · exact Or.inr (hflow ▸ hholds)
    · rwa [h.free_of_ne hlj, h.holds_of_ne hlj] at hfor

end HitConnects

/-! ## Runs -/

/-- What holds in every state of a run. -/
structure Sound (nbPorts : ℕ) (s : HitState ρ) : Prop where
  wired : s.Wired nbPorts
  holders : HoldersInstalled s

/-- One packet keeps the invariant. -/
lemma Sound.hitPkt {b b' : HitState ρ × RteFdirFilter} (hs : Sound nbPorts b.1)
    (hentry : pkt.entryPort < nbPorts) (h : hitPkt nic pkt b = some b') : Sound nbPorts b'.1 := by
  rcases hitPkt_cases h with ⟨hsame, -⟩ | ⟨-, k, i, k', hconn⟩
  · rwa [hsame]
  · exact ⟨hconn.wired hs.wired, hconn.holdersInstalled hs.wired hentry hs.holders⟩

/-- One packet: the connections survive it exactly if it finds an output that suits it. -/
lemma Sound.hitPkt_roundTrip {b b' : HitState ρ × RteFdirFilter} (hs : Sound nbPorts b.1)
    (hport : pkt.port < nbPorts) (hentry : pkt.entryPort < nbPorts)
    (h : Pipeline.hitPkt nic pkt b = some b') :
    AllRoundTrip b'.1 ↔ AllRoundTrip b.1 ∧ QueueUsable pkt b := by
  rcases hitPkt_cases h with ⟨hsame, husable⟩ | ⟨hdetects, k, i, k', hconn⟩
  · rw [hsame]
    exact (and_iff_left husable).symm
  · have hsuits : QueueUsable pkt b ↔ QueueSuits pkt b.1 k i := by
      constructor
      · exact fun hu => hu hdetects k hconn.find i hconn.queue
      · intro hu _ l hl j hj
        obtain rfl := Option.some_inj.mp (hconn.find.symm.trans hl)
        exact hconn.queue.eq hj ▸ hu
    have hnew := hconn.roundTrip_new_iff hs.wired hport hentry
    rw [hsuits]
    constructor
    · intro ht
      obtain ⟨hlt, hback⟩ := hnew.mp (ht _ (hconn.mem_installed_iff.mpr (Or.inr rfl)))
      refine ⟨fun c hc => hconn.roundTrip_before hs.wired hs.holders ht hc, hlt, ?_, ?_⟩
      · intro c hc
        exact hconn.unused_of_roundTrip hs.wired (ht c (hconn.mem_installed_iff.mpr (Or.inl hc)))
      · intro l hl
        obtain rfl := Option.some_inj.mp (hconn.findBack.symm.trans hl)
        exact hback
    · rintro ⟨hall, hlt, hunused, hback⟩ c hc
      rcases hconn.mem_installed_iff.mp hc with hc | rfl
      · exact hconn.roundTrip_keep (hall c hc) (hunused c hc)
      · exact hnew.mpr ⟨hlt, hback k' hconn.findBack⟩

/-- The condition for all packets of a burst. -/
def BurstUsable (nic : FdirNic) (burst : PktBurst) (s : HitState ρ) : Prop :=
  Machine.Throughout (hitPkt nic) QueueUsable burst.masked (s, RteFdirFilter.zero)

/-- One burst keeps the invariant. -/
lemma Sound.tableActionHandlerHit {burst : PktBurst} (hs : Sound nbPorts s)
    (hports : burst.PortsBelow nbPorts) (h : tableActionHandlerHit nic burst s = some t) :
    Sound nbPorts t := by
  obtain ⟨b, hrun, rfl⟩ := Option.map_eq_some_iff.mp h
  exact Machine.run_invariant (I := fun b => Sound nbPorts b.1)
    (fun pkt hpkt _ _ hstep hb => hb.hitPkt (hports pkt hpkt).2 hstep) hrun hs

/-- One burst. -/
lemma Sound.tableActionHandlerHit_roundTrip {burst : PktBurst} (hs : Sound nbPorts s)
    (hports : burst.PortsBelow nbPorts) (h : Pipeline.tableActionHandlerHit nic burst s = some t) :
    AllRoundTrip t ↔ AllRoundTrip s ∧ BurstUsable nic burst s := by
  obtain ⟨b, hrun, rfl⟩ := Option.map_eq_some_iff.mp h
  exact Machine.run_iff_throughout (I := fun b => Sound nbPorts b.1) (J := fun b => AllRoundTrip b.1)
    (fun pkt hpkt _ _ hstep hb => hb.hitPkt (hports pkt hpkt).2 hstep)
    (fun pkt hpkt _ _ hstep hb hJ hK =>
      (hb.hitPkt_roundTrip (hports pkt hpkt).1 (hports pkt hpkt).2 hstep).mpr ⟨hJ, hK⟩)
    (fun pkt hpkt _ _ hstep hb =>
      (hb.hitPkt_roundTrip (hports pkt hpkt).1 (hports pkt hpkt).2 hstep).mp) hrun hs

/-- In every run of the handler, both filter ids of all connections are decoded to the internal
id that was chosen and their packets leave through outputs for their flows, if and only if every
new request found an output that suits it. -/
theorem fdirIds_roundTrip_iff {bursts : List PktBurst} (hwired : s.Wired nbPorts)
    (hports : ∀ b ∈ bursts, b.PortsBelow nbPorts) (hnew : s.installed = [])
    (hrun : Machine.run (tableActionHandlerHit nic) bursts s = some t) :
    (∀ c ∈ t.installed, c.RoundTrip t) ↔
      Machine.Throughout (tableActionHandlerHit nic) (BurstUsable nic) bursts s := by
  have hnone : ∀ c, c ∉ s.installed := fun c => hnew ▸ List.not_mem_nil
  have hiff := Machine.run_iff_throughout (I := Sound nbPorts) (J := AllRoundTrip)
    (fun b hb _ _ hstep hs => hs.tableActionHandlerHit (hports b hb) hstep)
    (fun b hb _ _ hstep hs hJ hK =>
      (hs.tableActionHandlerHit_roundTrip (hports b hb) hstep).mpr ⟨hJ, hK⟩)
    (fun b hb _ _ hstep hs => (hs.tableActionHandlerHit_roundTrip (hports b hb) hstep).mp)
    hrun ⟨hwired, fun c hc => absurd hc (hnone c)⟩
  exact hiff.trans (and_iff_right fun c hc => absurd hc (hnone c))

/-- Two data pipelines, for the output ports 0 and 1, with 17 outputs each. -/
def seventeenOutputs : HitState Unit where
  rxDataPipelines k :=
    { pipeline := ()
      type := .rxData
      lcoreId := k
      qIn i := ⟨i, k + 1, none, 0, true⟩
      nbQIn := 2
      qOut i := ⟨k, i, some i, BitVec.ofNat 32 i, 0, 0⟩
      nbQOut := 17 }
  nbRxDataPipelines := 2
  installed := []
  rateLimits := []

lemma wired_seventeenOutputs : seventeenOutputs.Wired 2 where
  polls k _ port hport := ⟨port, hport, rfl⟩
  own := by
    rintro k - k' - port queue ⟨i, -, hi⟩ ⟨i', -, hi'⟩
    exact Nat.succ_injective (congrArg Prod.snd (hi.trans hi'.symm))
  outId k _ i hi j hj h := by
    have hsame : ∀ i < 17, ∀ j < 17, BitVec.ofNat 32 i = BitVec.ofNat 32 j → i = j := by decide
    exact hsame i hi j hj h

/-- Requests for different events. -/
def requests (n : ℕ) : List PktBurst :=
  (List.range n).map fun i => .single (.request (BitVec.ofNat 16 (i + 1)) (BitVec.ofNat 32 (i + 1)))

lemma requests_portsBelow (n : ℕ) : ∀ b ∈ requests n, b.PortsBelow 2 := by
  intro b hb
  obtain ⟨i, -, rfl⟩ := List.mem_map.mp hb
  intro pkt hpkt
  rw [PktBurst.masked_single, List.mem_singleton] at hpkt
  subst hpkt
  exact ⟨Nat.zero_lt_two, Nat.one_lt_two⟩

/-- The theorem for two requests. -/
theorem fdirIds_roundTrip_iff_two :
    ∃ t, Machine.run (tableActionHandlerHit .accepting) (requests 2) seventeenOutputs = some t ∧
      ((∀ c ∈ t.installed, c.RoundTrip t) ↔
        Machine.Throughout (tableActionHandlerHit .accepting) (BurstUsable .accepting) (requests 2)
          seventeenOutputs) := by
  obtain ⟨t, ht⟩ : ∃ t, Machine.run (tableActionHandlerHit .accepting) (requests 2)
      seventeenOutputs = some t := ⟨_, rfl⟩
  exact ⟨t, ht, fdirIds_roundTrip_iff wired_seventeenOutputs (requests_portsBelow 2) rfl ht⟩

/-- The seventeenth connection is sent to output 0. -/
theorem seventeenth_not_roundTrip :
    ∃ t, Machine.run (tableActionHandlerHit .accepting) (requests 17) seventeenOutputs = some t ∧
      ¬ ∀ c ∈ t.installed, c.RoundTrip t := by
  have hbad : (Machine.run (tableActionHandlerHit .accepting) (requests 17)
      seventeenOutputs).all (fun t => decide (∀ c ∈ t.installed, c.Decoded)) = false := by
    decide +kernel
  rw [Option.all_eq_false] at hbad
  obtain ⟨t, ht, hc⟩ := hbad
  exact ⟨t, ht, fun hall => of_decide_eq_false hc fun c hmem => (hall c hmem).decoded⟩

end Handler

end DaqSwitch.Pipeline
