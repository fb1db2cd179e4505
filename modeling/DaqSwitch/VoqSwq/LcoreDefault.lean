import DaqSwitch.Lib.CInt
import DaqSwitch.VoqSwq.Types

/-!
# The default lcore

`table_action_handler_hit` of `dp_lcore_default.c` detects the fragment requests among the
packets that hit the forwarding table.  For each new one it looks up or allocates a flow
slot towards the requester and one towards the data source, and installs a flow-director
filter for either direction of the connection.
-/

namespace DaqSwitch.VoqSwq

open Lib Lib.Machine

/-! ## Packets and filters -/

/-- `struct pipeline_flow_key`, the metadata of a packet. -/
structure PipelineFlowKey where
  ttl : BitVec 8 := 0
  proto : BitVec 8 := 0
  headerChecksum : BitVec 16 := 0
  sip : BitVec 32
  dip : BitVec 32
  sport : BitVec 16
  dport : BitVec 16
  typeId : BitVec 32
  transactionId : BitVec 32 := 0
  size : BitVec 32 := 0
  eventId : BitVec 32
deriving DecidableEq, Repr

def tdaqTypeIdFragmentRequestMessage : BitVec 32 := 0x00dcdf20

/-- The `sink_id` of a flow of requests. -/
def reqSinkId : BitVec 32 := 0xffffffff

/-- A packet that hit the table: the port it came in on, its flow key and the output port
of its table entry. -/
structure HitPkt where
  port : ℕ
  flowKey : PipelineFlowKey
  entryPort : ℕ
deriving DecidableEq, Repr

/-- The packets and the packet mask of one call of the handler. -/
structure PktBurst where
  pkts : ℕ → HitPkt
  pktsMask : BitVec 64

/-- The masked packets in the order in which `__builtin_ctzll` picks them. -/
def PktBurst.masked (b : PktBurst) : List HitPkt :=
  ((List.range 64).filter fun i => b.pktsMask.getLsbD i).map b.pkts

inductive RteL4Type
  | none
  | udp
  | tcp
  | sctp
deriving DecidableEq, Repr

/-- `struct rte_fdir_filter`, the fields that are not left zero. -/
structure RteFdirFilter where
  l4type : RteL4Type
  ipDst : BitVec 32
  portDst : BitVec 16
  ipSrc : BitVec 32
  portSrc : BitVec 16
deriving DecidableEq, Repr

/-- The filter after `memset`. -/
def RteFdirFilter.zero : RteFdirFilter := ⟨.none, 0, 0, 0, 0⟩

/-- The arguments of `rte_eth_dev_fdir_add_perfect_filter`. -/
structure FdirCall where
  portId : ℕ
  filter : RteFdirFilter
  softId : BitVec 16
  rxQueue : ℕ
  drop : ℕ
deriving DecidableEq, Repr

/-- The answers of the NICs to a request for a filter, given the earlier requests. -/
abbrev FdirNic := List FdirCall → FdirCall → ℤ

/-! ## The two directions of a connection -/

inductive Dir
  | rosToDcm
  | dcmToRos
deriving DecidableEq, Repr

/-- One direction of a connection, as the handler sets it up: the port towards the
destination, whose flow table is searched, the NIC that gets the filter, the flow that is
looked for and the filter. -/
structure Path where
  dir : Dir
  outPort : ℕ
  nicPort : ℕ
  destIp : BitVec 32
  sinkId : BitVec 32
  reqFlow : Bool
  filter : RteFdirFilter
deriving DecidableEq, Repr

/-- The path of the answers to a fragment request. -/
def rosToDcm (pkt : HitPkt) : Path where
  dir := .rosToDcm
  outPort := pkt.port
  nicPort := pkt.entryPort
  destIp := pkt.flowKey.sip
  sinkId := pkt.flowKey.eventId
  reqFlow := false
  filter := ⟨.tcp, pkt.flowKey.sip, pkt.flowKey.sport, pkt.flowKey.dip, pkt.flowKey.dport⟩

/-- The path of the fragment requests. -/
def dcmToRos (pkt : HitPkt) : Path where
  dir := .dcmToRos
  outPort := pkt.entryPort
  nicPort := pkt.port
  destIp := pkt.flowKey.dip
  sinkId := reqSinkId
  reqFlow := true
  filter := ⟨.tcp, pkt.flowKey.dip, pkt.flowKey.dport, pkt.flowKey.sip, pkt.flowKey.sport⟩

/-- An accepted request for a filter, with the path and the packet it was made for. -/
structure Installed where
  path : Path
  pkt : HitPkt
  call : FdirCall
deriving DecidableEq, Repr

/-- The data that the default lcore works on.  `installed` and `shifts` record the run:
the accepted filters, and for each port the `n` of every `1 << n` that was evaluated to
activate the polling of a ring. -/
structure DefState where
  dp : DpParams
  fdirId : ℕ → BitVec 16
  installed : List Installed
  shifts : ℕ → List ℕ

/-- The state before the first packet. -/
def DefState.init (dp : DpParams) : DefState := ⟨dp, fun _ => 0, [], fun _ => []⟩

/-! ## Flow slots -/

/-- The search for a known flow. -/
def findFlow (flows : ℕ → DataFlow) (destIp sinkId : BitVec 32) : Option ℕ :=
  (List.range dpPortMaxDataFlows).find? fun i =>
    (flows i).active == true && (flows i).destIp == destIp && (flows i).sinkId == sinkId

/-- The search for a free slot. -/
def findFree (flows : ℕ → DataFlow) : Option ℕ :=
  (List.range dpPortMaxDataFlows).find? fun i => (flows i).active == false

/-- The search for the tx configuration of a port; the last match counts. -/
def findTxPortConf (dp : DpParams) (port : ℕ) : Option (ℕ × ℕ) :=
  ((List.range dp.nbLcores).flatMap fun l =>
    if (dp.lcores l).type ≠ .dataTx then []
    else ((List.range (dp.lcores l).nbPorts).filter fun k =>
      ((dp.lcores l).tx k).portId == port).map fun k => (l, k)).getLast?

/-- `tx_port_conf->active_flows |= (1 << slot)`. -/
def DpParams.setActive (dp : DpParams) (C : OneShl) (conf : ℕ × ℕ) (slot : ℕ) : DpParams :=
  let lp := dp.lcores conf.1
  let txp := lp.tx conf.2
  dp.setLcore conf.1 { lp with
    tx := Function.update lp.tx conf.2
      { txp with activeFlows := txp.activeFlows ||| C.val64 slot } }

/-- Write a flow slot. -/
def DpParams.setFlow (dp : DpParams) (port slot : ℕ) (flow : DataFlow) : DpParams :=
  { dp with flows := Function.update dp.flows port (Function.update (dp.flows port) slot flow) }

/-- The slot that a path allocates. -/
def Path.flow (path : Path) : DataFlow := ⟨true, path.reqFlow, path.destIp, path.sinkId⟩

/-- Fill a free slot and activate the polling of its ring. -/
def activate (C : OneShl) (path : Path) (conf : ℕ × ℕ) (slot : ℕ) (s : DefState) : DefState :=
  { s with
    dp := (s.dp.setFlow path.outPort slot path.flow).setActive C conf slot
    shifts := Function.update s.shifts path.outPort (s.shifts path.outPort ++ [slot]) }

/-! ## Filters -/

/-- `fdir_id_local`: the slot, and the counter shifted into the other bits of the 16. -/
def fdirIdLocal (slot : ℕ) (counter : BitVec 16) : BitVec 16 :=
  ((BitVec.ofNat 16 slot).setWidth 32 |||
    counter.setWidth 32 <<< dpFdirOutQueueMaskSize).setWidth 16

/-- Ask the NIC for the filter of a path whose flow is in the given slot; a NIC that
refuses ends the program. -/
def installFilter (nic : FdirNic) (path : Path) (pkt : HitPkt) (slot : ℕ) (s : DefState) :
    Option DefState :=
  let counter := s.fdirId path.nicPort + 1
  let call : FdirCall :=
    ⟨path.nicPort, path.filter, fdirIdLocal slot counter, path.outPort + dpPortRxqIdDataMin, 0⟩
  if nic (s.installed.map (·.call)) call = 0 then
    some { s with
      fdirId := Function.update s.fdirId path.nicPort counter
      installed := s.installed ++ [⟨path, pkt, call⟩] }
  else none

/-- Set up one direction.  The outer `none` ends the program, the inner one is the warning
that no more filters are available. -/
def setupPath (C : OneShl) (nic : FdirNic) (path : Path) (pkt : HitPkt) (s : DefState) :
    Option (Option DefState) :=
  match findTxPortConf s.dp path.outPort with
  | none => none -- RTE_VERIFY(tx_port_conf != NULL)
  | some conf =>
    match findFlow (s.dp.flows path.outPort) path.destIp path.sinkId with
    | some slot => (installFilter nic path pkt slot s).map some
    | none =>
      -- an unknown flow gets the first free slot
      match findFree (s.dp.flows path.outPort) with
      | some slot => (installFilter nic path pkt slot (activate C path conf slot s)).map some
      | none => some none

/-! ## The handler -/

/-- Whether a packet is taken for a new fragment request, given the filter that the
previous one left behind. -/
def detects (pkt : HitPkt) (filter : RteFdirFilter) : Bool :=
  pkt.flowKey.typeId == tdaqTypeIdFragmentRequestMessage && pkt.flowKey.sport != filter.portSrc

/-- The body of the loop over the packets, on the state and the local `filter`. -/
def handlePkt (C : OneShl) (nic : FdirNic) (pkt : HitPkt) (b : DefState × RteFdirFilter) :
    Option (DefState × RteFdirFilter) :=
  if detects pkt b.2 then
    (setupPath C nic (rosToDcm pkt) pkt b.1).bind fun
      | none => some b -- `continue`: `filter` keeps what the previous packet left
      | some s => (setupPath C nic (dcmToRos pkt) pkt s).map fun
        | none => (s, (rosToDcm pkt).filter)
        | some s' => (s', (dcmToRos pkt).filter)
  else some b

def tableActionHandlerHit (C : OneShl) (nic : FdirNic) (burst : PktBurst) (s : DefState) :
    Option DefState :=
  (run (handlePkt C nic) burst.masked (s, RteFdirFilter.zero)).map Prod.fst

/-- All packets of a burst come from a port of the switch and go to one. -/
def PktBurst.PortsBelow (b : PktBurst) (nbPorts : ℕ) : Prop :=
  ∀ pkt ∈ b.masked, pkt.port < nbPorts ∧ pkt.entryPort < nbPorts

/-- A burst of one packet. -/
def PktBurst.single (pkt : HitPkt) : PktBurst := ⟨fun _ => pkt, 1⟩

@[simp] lemma PktBurst.masked_single (pkt : HitPkt) : (PktBurst.single pkt).masked = [pkt] := by
  have h : (List.range 64).filter ((1 : BitVec 64).getLsbD ·) = [0] := by decide
  exact congrArg (List.map fun _ => pkt) h

/-- A fragment request that came in on port 0 and leaves on port 1. -/
def HitPkt.request (sport : BitVec 16) (eventId : BitVec 32) : HitPkt where
  port := 0
  flowKey :=
    { sip := 0x0a000001
      dip := 0x0a000002
      sport := sport
      dport := 9000
      typeId := tdaqTypeIdFragmentRequestMessage
      eventId := eventId }
  entryPort := 1

/-- A NIC that takes every filter. -/
def FdirNic.accepting : FdirNic := fun _ _ => 0

end DaqSwitch.VoqSwq
