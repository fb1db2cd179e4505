import DaqSwitch.Lib.KeyedTable
import DaqSwitch.Lib.Text

/-!
# Bridges, flows and the topology

The classes `Bridge` and `Topology` of `odl_utils/of.py`.  A Python dictionary is the list of
its items in the order of iteration, with distinct keys.  The configuration datastore holds
the flows of table 0 of each bridge, the only table in use.
-/

namespace DaqSwitch.Odl

open Lib Lib.Text Lib.KeyedTable

/-! ## Flows -/

/-- An IPv4 address. -/
structure Ipv4 where
  a : ℕ
  b : ℕ
  c : ℕ
  d : ℕ
deriving DecidableEq, Repr

def Ipv4.octets (ip : Ipv4) : List ℕ := [ip.a, ip.b, ip.c, ip.d]

/-- `ip/length`; only whole octets are used. -/
structure Ipv4Prefix where
  ip : Ipv4
  octets : ℕ
deriving DecidableEq, Repr

def Ipv4Prefix.covers (p : Ipv4Prefix) (ip : Ipv4) : Bool :=
  p.ip.octets.take p.octets == ip.octets.take p.octets

/-- An OpenFlow port: a number or one of the reserved ports. -/
inductive Port
  | num (n : ℕ)
  | LOCAL
  | CONTROLLER
deriving DecidableEq, Repr

/-- The entries of the action list of a flow. -/
inductive Action
  | output (order : ℕ) (outputNodeConnector : Port)
  | setDlDst (order : ℕ) (address : List ℕ)
  | drop (order : ℕ)
deriving DecidableEq, Repr

/-- The `match` of a flow; a field that is not set matches everything.  `inPort` is
`openflow:<of_id>:<port>`. -/
structure Match where
  inPort : Option (ℕ × Port) := none
  ethernetType : Option ℕ := none
  ipProtocol : Option ℕ := none
  ipv4Destination : Option Ipv4Prefix := none
  ipv4Source : Option Ipv4Prefix := none
  tcpSourcePort : Option ℕ := none
  tcpDestinationPort : Option ℕ := none
  udpSourcePort : Option ℕ := none
  udpDestinationPort : Option ℕ := none
deriving DecidableEq, Repr

structure Flow where
  flowName : Str
  id : Str
  priority : ℕ
  flowMatch : Match
  actions : List Action
deriving DecidableEq, Repr

/-- `Bridge.flow_init`. -/
def flowInit : Flow where
  flowName := []
  id := "default_in".toList
  priority := 1
  flowMatch := {}
  actions := []

/-- Where a flow sends its packets. -/
def Flow.output (f : Flow) : Option Port :=
  f.actions.findSome? fun
    | .output _ port => some port
    | _ => none

/-- The flows in the configuration datastore, by the OpenFlow id of the bridge. -/
abbrev Datastore := ℕ → List Flow

/-- A PUT request for a flow: the bridge and the flow, which goes under its id. -/
abbrev Request := ℕ × Flow

/-- `Bridge.flow_add`. -/
def flowAdd (ds : Datastore) (r : Request) : Datastore := putAt Flow.id ds r

/-- `Bridge.flow_delete` of the flow with the given id. -/
def flowDelete (ds : Datastore) (ofId : ℕ) (flowId : Str) : Datastore :=
  Function.update ds ofId (delete Flow.id flowId (ds ofId))

/-! ## Bridges -/

/-- A `Bridge`, with its `__ports`: the port number, and the OpenFlow id and the port at the
other end of the link. -/
structure Bridge where
  ofId : ℕ
  ports : List (ℕ × ℕ × ℕ)
  mgmtIp : Ipv4
  portsNodup : (ports.map Prod.fst).Nodup := by decide

/-- `get_port_for_dst`. -/
def Bridge.getPortForDst (b : Bridge) (dstOfId : ℕ) : List ℕ :=
  (b.ports.filter fun p => p.2.1 == dstOfId).map Prod.fst

/-- `get_mac`: the bytes of the id, the highest first. -/
def Bridge.getMac (b : Bridge) : List ℕ :=
  (List.range 6).reverse.map fun i => b.ofId / 256 ^ i % 256

lemma Bridge.mem_getPortForDst {b : Bridge} {dstOfId p : ℕ} :
    p ∈ b.getPortForDst dstOfId ↔ ∃ dstPort, (p, dstOfId, dstPort) ∈ b.ports := by
  simp only [Bridge.getPortForDst, List.mem_map, List.mem_filter, beq_iff_eq]
  constructor
  · rintro ⟨⟨p', dst, dstPort⟩, ⟨hmem, rfl⟩, rfl⟩
    exact ⟨dstPort, hmem⟩
  · rintro ⟨dstPort, hmem⟩
    exact ⟨_, ⟨hmem, rfl⟩, rfl⟩

/-! ## The topology -/

/-- A `Topology`: its bridges by name. -/
structure Topology where
  bridges : List (Str × Bridge)
  namesNodup : (bridges.map Prod.fst).Nodup := by decide

namespace Topology

variable (T : Topology)

/-- `get_bridge`; an unknown name is a `KeyError`. -/
def getBridge (name : Str) : Option Bridge := T.bridges.lookup name

/-- `get_name_from_of_id`. -/
def getNameFromOfId (ofId : ℕ) : Option Str :=
  (T.bridges.find? fun nb => nb.2.ofId == ofId).map Prod.fst

def names : List Str := T.bridges.map Prod.fst

/-- `get_endnodes`. -/
def getEndnodes : List Str :=
  T.names.filter fun n => !contains n "plane".toList && contains n "pod-".toList

/-- `get_pod_endnodes`. -/
def getPodEndnodes (i : ℕ) : List Str :=
  T.names.filter fun n => !contains n "plane".toList && contains n ("pod-".toList ++ str i)

/-- `get_npods`. -/
def getNpods : ℕ := (T.names.filter fun n => contains n "plane-1-pod-".toList).length

variable {T}

lemma getBridge_eq_some_iff {name : Str} {b : Bridge} :
    T.getBridge name = some b ↔ (name, b) ∈ T.bridges :=
  ⟨mem_of_lookup_eq_some, lookup_eq_some_of_mem T.namesNodup⟩

lemma mem_names {name : Str} : name ∈ T.names ↔ ∃ b, T.getBridge name = some b := by
  simp [names, getBridge_eq_some_iff]

end Topology

end DaqSwitch.Odl
