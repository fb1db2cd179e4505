import DaqSwitch.Odl.Topology

/-!
# Paths of Dcms

The class `Dcm` of `odl_utils/of.py`: the flows that `install_path` writes, the ones that
`remove_path` deletes, and the links that `is_path_available` checks.  An exception of Python
is modelled by `none`; a call that raises one has made the requests before it.
-/

namespace DaqSwitch.Odl

open Lib Lib.Text Lib.KeyedTable

/-- A TCP flow into a Dcm. -/
structure Inflow where
  dport : ℕ
  sip : Ipv4
  sport : ℕ
deriving DecidableEq, Repr

structure Dcm where
  id : ℕ
  node : Str
  dip : Ipv4
  inflows : List Inflow
  pid : ℕ
deriving DecidableEq, Repr

/-! ## Names -/

/-- `'plane-' + str(iplane) + '-pod-' + str(i)`. -/
def podNode (iplane i : ℕ) : Str :=
  "plane-".toList ++ str iplane ++ "-pod-".toList ++ str i

lemma podNode_def (iplane i : ℕ) :
    podNode iplane i = "plane-".toList ++ str iplane ++ "-pod-".toList ++ str i := rfl

/-- `__get_plane_id`: match `plane-(\d+)-spine-(\d+).*`. -/
def getPlaneId (spine : Str) : Option ℕ := do
  let s ← stripPrefix "plane-".toList spine
  let (iplane, s) ← readNat s
  let s ← stripPrefix "-spine-".toList s
  let _ ← readNat s
  return iplane

/-- `__get_pod_id`: match `pod-(\d+)-.*`. -/
def Dcm.getPodId (d : Dcm) : Option ℕ := do
  let s ← stripPrefix "pod-".toList d.node
  let (pod, s) ← readNat s
  let _ ← stripPrefix "-".toList s
  return pod

/-- The prefix of the ids of a Dcm's flows. -/
def Dcm.flowPrefix (d : Dcm) : Str := "dcm_".toList ++ str d.id ++ "_".toList

def Dcm.outdaqringflowId (d : Dcm) : Str :=
  "dcm_".toList ++ str d.id ++ "_outdaqringflow".toList

def Dcm.inflowId (d : Dcm) (i : ℕ) : Str :=
  "dcm_".toList ++ str d.id ++ "_inflow_".toList ++ str i

/-! ## Installing -/

/-- The arguments of a call of `__install_subpath`. -/
structure Hop where
  atNode : Str
  toNode : Option Str
  usedaqring : Bool
deriving DecidableEq, Repr

namespace Dcm

/-- `daqring_id`. -/
def daqringId (d : Dcm) : ℕ := d.id + 100

/-- The flow from the daqring port to the output. -/
def flowDaqringOut (d : Dcm) (ofId ofDport : ℕ) : Flow :=
  { flowInit with
    id := d.outdaqringflowId
    priority := 111
    flowMatch := { inPort := some (ofId, .num d.daqringId) }
    actions := [.output 0 (.num ofDport)] }

/-- The flow of the `i`-th inflow to an output port. -/
def flowIn (d : Dcm) (i : ℕ) (inflow : Inflow) (port : ℕ) : Flow :=
  { flowInit with
    id := d.inflowId i
    priority := 110
    flowMatch :=
      { ethernetType := some 2048
        ipProtocol := some 6
        ipv4Destination := some ⟨d.dip, 4⟩
        ipv4Source := some ⟨inflow.sip, 4⟩
        tcpSourcePort := some inflow.sport
        tcpDestinationPort := some inflow.dport }
    actions := [.output 0 (.num port)] }

/-- `of_dports[self.__id % len(of_dports)]`; without a port it is a division by zero. -/
def ofDport (d : Dcm) (b dstB : Bridge) : Option ℕ :=
  let ofDports := b.getPortForDst dstB.ofId
  ofDports[d.id % ofDports.length]?

/-- The flows that `__install_subpath` adds at a bridge, for a chosen port. -/
def subpathRequests (d : Dcm) (ofId ofDport : ℕ) (usedaqring : Bool) : List Request :=
  let out := if usedaqring then [(ofId, d.flowDaqringOut ofId ofDport)] else []
  let port := if usedaqring then d.daqringId else ofDport
  out ++ (d.inflows.zipIdx 1).map fun ji => (ofId, d.flowIn ji.2 ji.1 port)

/-- `__install_subpath`: its PUT requests. -/
def installSubpath (d : Dcm) (T : Topology) (h : Hop) : Option (List Request) := do
  let b ← T.getBridge h.atNode
  let toNode ← h.toNode
  let dstB ← T.getBridge toNode
  let ofDport ← d.ofDport b dstB
  return d.subpathRequests b.ofId ofDport h.usedaqring

/-- The calls of `__install_subpath` that `install_path` makes.  `spine` is `none` for `None`. -/
def installPathHops (d : Dcm) (T : Topology) (spine : Option Str) (usedaqring atDcmPodOnly : Bool) :
    Option (List Hop) := do
  let dcmPod ← d.getPodId
  let iplane ← match spine with
    | some spine => getPlaneId spine
    | none => some 1
  let dcmPodNode := if podNode iplane dcmPod ∈ T.names then some (podNode iplane dcmPod) else none
  let atDcmPodOnly := atDcmPodOnly || !usedaqring
  -- pod-node to the end-node
  let atPod := dcmPodNode.toList.map fun n => ⟨n, some d.node, usedaqring⟩
  -- the spine-node to the pod-node
  let atSpine := spine.toList.map fun s => ⟨s, dcmPodNode, !atDcmPodOnly⟩
  -- all other pod-nodes to the spine-node, and the end-nodes to their pod-nodes
  let others := (List.range T.getNpods).flatMap fun i =>
    (if i + 1 ≠ dcmPod then [⟨podNode iplane (i + 1), spine, !atDcmPodOnly⟩] else []) ++
      ((T.getPodEndnodes (i + 1)).filter (· ≠ d.node)).map fun e =>
        ⟨e, some (podNode iplane (i + 1)), false⟩
  -- special case for the back-back setup
  let backBack := if dcmPodNode = none then
      ((T.getPodEndnodes dcmPod).filter (· ≠ d.node)).map fun e => ⟨e, some d.node, false⟩
    else []
  return atPod ++ atSpine ++ others ++ backBack

/-- The requests of a list of calls, up to the first that raises an exception; whether none
does. -/
def requests (d : Dcm) (T : Topology) : List Hop → List Request × Bool
  | [] => ([], true)
  | h :: hs =>
    match d.installSubpath T h with
    | none => ([], false)
    | some rs => (rs ++ (d.requests T hs).1, (d.requests T hs).2)

/-- The PUT requests of `install_path`. -/
def installRequests (d : Dcm) (T : Topology) (spine : Option Str) (usedaqring atDcmPodOnly : Bool) :
    List Request :=
  match d.installPathHops T spine usedaqring atDcmPodOnly with
  | none => []
  | some hops => (d.requests T hops).1

/-- `install_path`, when the REST requests succeed. -/
def installPath (d : Dcm) (T : Topology) (spine : Option Str) (usedaqring atDcmPodOnly : Bool)
    (ds : Datastore) : Datastore :=
  (d.installRequests T spine usedaqring atDcmPodOnly).foldl flowAdd ds

section Requests

variable {d : Dcm} {T : Topology} {h : Hop} {hops : List Hop} {r : Request}

/-- Where there is a link a port is chosen. -/
lemma ofDport_eq_some {b dstB : Bridge} (h : b.getPortForDst dstB.ofId ≠ []) :
    ∃ port, d.ofDport b dstB = some port := by
  have hlt : d.id % (b.getPortForDst dstB.ofId).length < (b.getPortForDst dstB.ofId).length :=
    Nat.mod_lt _ (List.length_pos_iff.mpr h)
  exact ⟨_, List.getElem?_eq_getElem hlt⟩

/-- What a call of `__install_subpath` that raises no exception does. -/
lemma installSubpath_eq_some_iff {rs : List Request} : d.installSubpath T h = some rs ↔
    ∃ toNode b dstB ofDport, h.toNode = some toNode ∧ T.getBridge h.atNode = some b ∧
      T.getBridge toNode = some dstB ∧ d.ofDport b dstB = some ofDport ∧
      rs = d.subpathRequests b.ofId ofDport h.usedaqring := by
  simp only [installSubpath, Option.bind_eq_bind, Option.bind_eq_some_iff, Option.pure_def,
    Option.some_inj]
  constructor
  · rintro ⟨b, hb, toNode, hto, dstB, hdst, ofDport, hport, rfl⟩
    exact ⟨toNode, b, dstB, ofDport, hto, hb, hdst, hport, rfl⟩
  · rintro ⟨toNode, b, dstB, ofDport, hto, hb, hdst, hport, rfl⟩
    exact ⟨b, hb, toNode, hto, dstB, hdst, ofDport, hport, rfl⟩

/-- Every request is one of a call. -/
lemma exists_hop_of_mem_requests (hr : r ∈ (d.requests T hops).1) :
    ∃ h ∈ hops, ∃ rs, d.installSubpath T h = some rs ∧ r ∈ rs := by
  induction hops with
  | nil => cases hr
  | cons h hops ih =>
    rw [requests] at hr
    split at hr
    · cases hr
    · next rs hrs =>
      rcases List.mem_append.mp hr with hr | hr
      · exact ⟨h, List.mem_cons_self, rs, hrs, hr⟩
      · obtain ⟨h', hmem, hr⟩ := ih hr
        exact ⟨h', List.mem_cons_of_mem _ hmem, hr⟩

/-- When no call raises an exception, the requests of all of them are made. -/
lemma mem_requests_of_forall (hall : ∀ h ∈ hops, ∃ rs, d.installSubpath T h = some rs)
    {rs : List Request} (hh : h ∈ hops) (hrs : d.installSubpath T h = some rs) (hr : r ∈ rs) :
    r ∈ (d.requests T hops).1 := by
  induction hops with
  | nil => cases hh
  | cons h' hops ih =>
    obtain ⟨rs', hrs'⟩ := hall h' List.mem_cons_self
    rw [requests, hrs']
    rcases List.mem_cons.mp hh with rfl | hh
    · rw [hrs, Option.some_inj] at hrs'
      exact List.mem_append_left _ (hrs' ▸ hr)
    · exact List.mem_append_right _ (ih (fun g hg => hall g (List.mem_cons_of_mem _ hg)) hh)

/-- The hops of a path through a spine, when there is the pod node of the Dcm. -/
lemma mem_installPathHops {spine : Str} {usedaqring atDcmPodOnly : Bool} {pod iplane : ℕ}
    (hpod : d.getPodId = some pod) (hplane : getPlaneId spine = some iplane)
    (hnode : podNode iplane pod ∈ T.names)
    (hhops : d.installPathHops T (some spine) usedaqring atDcmPodOnly = some hops) :
    h ∈ hops ↔ h = ⟨podNode iplane pod, some d.node, usedaqring⟩ ∨
      h = ⟨spine, some (podNode iplane pod), !(atDcmPodOnly || !usedaqring)⟩ ∨
      ∃ i < T.getNpods,
        i + 1 ≠ pod ∧
          h = ⟨podNode iplane (i + 1), some spine, !(atDcmPodOnly || !usedaqring)⟩ ∨
        ∃ e ∈ T.getPodEndnodes (i + 1), e ≠ d.node ∧
          h = ⟨e, some (podNode iplane (i + 1)), false⟩ := by
  simp only [installPathHops, hpod, hplane, hnode, Option.bind_eq_bind, Option.bind_some,
    Option.pure_def, Option.some_inj, if_true, reduceCtorEq, if_false] at hhops
  subst hhops
  have hothers (i : ℕ) : h ∈ (if i + 1 ≠ pod then
        [(⟨podNode iplane (i + 1), some spine, !(atDcmPodOnly || !usedaqring)⟩ : Hop)] else []) ↔
      i + 1 ≠ pod ∧
        h = ⟨podNode iplane (i + 1), some spine, !(atDcmPodOnly || !usedaqring)⟩ := by
    split <;> simp [*]
  simp only [List.append_nil, Option.toList_some, List.map_cons, List.map_nil, List.mem_append,
    List.mem_singleton, List.mem_flatMap, List.mem_range, List.mem_map, List.mem_filter,
    hothers, or_assoc, decide_eq_true_eq, and_assoc, eq_comm (a := h)]

lemma exists_installPathHops {spine : Str} {usedaqring atDcmPodOnly : Bool} {pod iplane : ℕ}
    (hpod : d.getPodId = some pod) (hplane : getPlaneId spine = some iplane) :
    ∃ hops, d.installPathHops T (some spine) usedaqring atDcmPodOnly = some hops := by
  simp only [installPathHops, hpod, hplane, Option.bind_eq_bind, Option.bind_some]
  exact ⟨_, rfl⟩

lemma mem_subpathRequests {ofId ofDport : ℕ} {usedaqring : Bool} :
    r ∈ d.subpathRequests ofId ofDport usedaqring ↔
      usedaqring = true ∧ r = (ofId, d.flowDaqringOut ofId ofDport) ∨
      ∃ ji ∈ d.inflows.zipIdx 1,
        r = (ofId, d.flowIn ji.2 ji.1 (if usedaqring then d.daqringId else ofDport)) := by
  cases usedaqring <;> simp [subpathRequests, eq_comm]

end Requests

/-! ## Removing -/

/-- `__get_installed_flows`. -/
def getInstalledFlows (d : Dcm) (ds : Datastore) (b : Bridge) : List Str :=
  ((ds b.ofId).map Flow.id).filter fun flowId => startsWith flowId d.flowPrefix

/-- The body of the loop of `remove_path`. -/
def removeAt (d : Dcm) (ds : Datastore) (b : Bridge) : Datastore :=
  let flowIds := d.getInstalledFlows ds b
  let ds := (flowIds.filter fun flowId => contains flowId "inflow".toList).foldl
    (fun ds flowId => flowDelete ds b.ofId flowId) ds
  (flowIds.filter fun flowId => contains flowId "outdaqringflow".toList).foldl
    (fun ds flowId => flowDelete ds b.ofId flowId) ds

/-- `remove_path`, when the REST requests succeed. -/
def removePath (d : Dcm) (T : Topology) (ds : Datastore) : Datastore :=
  T.bridges.foldl (fun ds nb => d.removeAt ds nb.2) ds

end Dcm

/-! ## Checking -/

/-- A node connector in the operational datastore. -/
structure NodeConnector where
  configuration : Str
  linkDown : Bool
deriving DecidableEq, Repr

/-- The node connectors by bridge and port; a missing one is a REST error. -/
abbrev Connectors := ℕ → ℕ → Option NodeConnector

/-- `get_port_status`. -/
def Bridge.getPortStatus (b : Bridge) (nc : Connectors) (port : ℕ) : Bool :=
  match nc b.ofId port with
  | none => false
  | some c => c.configuration ≠ "PORT-DOWN".toList && !c.linkDown

namespace Dcm

/-- `__check_path`.  The index `[0]` of an empty list of ports is an exception. -/
def checkPath (T : Topology) (nc : Connectors) (atNode toNode : Str) : Option Bool := do
  let atB ← T.getBridge atNode
  let toB ← T.getBridge toNode
  let ofPortAtnode ← (atB.getPortForDst toB.ofId)[0]?
  let ofPortTonode ← (toB.getPortForDst atB.ofId)[0]?
  return atB.getPortStatus nc ofPortAtnode && toB.getPortStatus nc ofPortTonode

/-- The links that `is_path_available` checks, from and to. -/
def availabilityHops (d : Dcm) (T : Topology) (spine : Str) : Option (List (Str × Str)) := do
  let dcmPod ← d.getPodId
  let iplane ← getPlaneId spine
  let dcmPodNode := podNode iplane dcmPod
  return [(dcmPodNode, d.node), (spine, dcmPodNode)] ++
    (List.range T.getNpods).flatMap fun i =>
      (if i + 1 ≠ dcmPod then [(podNode iplane (i + 1), spine)] else []) ++
        (T.getPodEndnodes (i + 1)).map fun e => (e, podNode iplane (i + 1))

/-- `is_path_available`; `&=` evaluates every check. -/
def isPathAvailable (d : Dcm) (T : Topology) (nc : Connectors) (spine : Str) : Option Bool := do
  let hops ← d.availabilityHops T spine
  let checks ← hops.mapM fun hop => checkPath T nc hop.1 hop.2
  return checks.all fun c => c

end Dcm

end DaqSwitch.Odl
