import DaqSwitch.Odl.LeafSpine
import DaqSwitch.Odl.PathFlows

/-!
# Default flows

The flows that the class `Topology` installs on all bridges: the default routes of
`set_default_flows`, and the drop, LLDP and DHCP flows.  Each method goes through the bridges
and their ports and makes PUT requests until something raises an exception, a name without a
fourth part, say.
-/

namespace DaqSwitch.Odl

open Lib Lib.Text Lib.KeyedTable

/-- The requests of a method that raises an exception at the first `none`. -/
def untilException (steps : List (Option Request)) : List Request :=
  (steps.takeWhile Option.isSome).reduceOption

/-- The number in `name.split('-')[3]`.  For a part that is no number `none` stands for an exception
also where the source makes a malformed prefix of it, which a name of the scheme never has. -/
def nameNumber (name : Str) : Option ℕ := (name.splitOn '-')[3]?.bind parseNat

/-! ## Default routes -/

/-- The flow out of an end node.  The template keeps the order 1 after the first end node. -/
def defaultOut (ofId order defaultPort : ℕ) : Flow :=
  { flowInit with
    flowName := "default_out".toList
    id := "default_out".toList
    priority := 98
    flowMatch := { inPort := some (ofId, .LOCAL) }
    actions := [.output order (.num defaultPort)] }

/-- The flow of packets that come in on a port of an end node. -/
def defaultIn (b : Bridge) (port : ℕ) : Flow :=
  { flowInit with
    flowName := "default_in".toList ++ str port
    id := "default_in".toList ++ str port
    priority := 98
    flowMatch := { inPort := some (b.ofId, .num port) }
    actions := [.output 1 .LOCAL, .setDlDst 0 b.getMac] }

/-- A route to the node at the other end of a port. -/
def routeTo (priority : ℕ) (dst : Ipv4Prefix) (dstName : Str) (dstPort : ℕ) : Flow :=
  { flowInit with
    flowName := "to-".toList ++ dstName
    id := "to-".toList ++ dstName
    priority := priority
    flowMatch := { ethernetType := some 2048, ipv4Destination := some dst }
    actions := [.output 0 (.num dstPort)] }

/-- The DHCP flow to a port. -/
def dhcpFlow (port : ℕ) : Flow :=
  { flowInit with
    flowName := "dhcp".toList
    id := "dhcp".toList
    priority := 100
    flowMatch :=
      { ethernetType := some 2048, ipProtocol := some 17, udpSourcePort := some 68
        udpDestinationPort := some 67 }
    actions := [.output 0 (.num port)] }

section Fields

variable {ofId order defaultPort port priority dstPort : ℕ} {b : Bridge} {dst : Ipv4Prefix}
  {dstName : Str}

@[simp] lemma defaultOut_id : (defaultOut ofId order defaultPort).id = "default_out".toList := rfl

@[simp] lemma defaultOut_match :
    (defaultOut ofId order defaultPort).flowMatch = { inPort := some (ofId, .LOCAL) } := rfl

@[simp] lemma defaultIn_id : (defaultIn b port).id = "default_in".toList ++ str port := rfl

@[simp] lemma defaultIn_match :
    (defaultIn b port).flowMatch = { inPort := some (b.ofId, .num port) } := rfl

@[simp] lemma routeTo_id :
    (routeTo priority dst dstName dstPort).id = "to-".toList ++ dstName := rfl

@[simp] lemma routeTo_match : (routeTo priority dst dstName dstPort).flowMatch =
    { ethernetType := some 2048, ipv4Destination := some dst } := rfl

@[simp] lemma dhcpFlow_id : (dhcpFlow port).id = "dhcp".toList := rfl

end Fields

namespace Topology

variable (T : Topology)

/-- The requests for an end node. -/
def endNodeSteps (defaultPort : ℕ) (ni : Str × ℕ) : List (Option Request) :=
  match T.getBridge ni.1 with
  | none => [none]
  | some b =>
    [(b.ofId, defaultOut b.ofId (min ni.2 1) defaultPort), (b.ofId, defaultIn b 1),
      (b.ofId, defaultIn b 2)].map some

/-- The request for a port of a spine. -/
def spineStep (spine : Bridge) (l : ℕ × ℕ × ℕ) : Option Request := do
  let dstPodName ← T.getNameFromOfId l.2.1
  let podNo ← nameNumber dstPodName
  return (spine.ofId, routeTo 98 ⟨⟨20, 1, podNo, 0⟩, 3⟩ dstPodName l.1)

/-- The request for a port of a leaf; there is none for a spine that is not the default one. -/
def leafSteps (defaultPort : ℕ) (pod : Bridge) (podNo : ℕ) (l : ℕ × ℕ × ℕ) :
    List (Option Request) :=
  match T.getNameFromOfId l.2.1 with
  | none => [none]
  | some dstName =>
    if contains dstName "spine".toList then
      match nameNumber dstName with
      | none => [none]
      | some spineNo =>
        if defaultPort ≠ spineNo then []
        else [some (pod.ofId, routeTo 97 ⟨⟨20, 1, 0, 0⟩, 2⟩ dstName l.1)]
    else
      match T.getBridge dstName with
      | none => [none]
      | some b => [some (pod.ofId, routeTo 97 ⟨⟨20, 1, podNo, b.mgmtIp.d⟩, 4⟩ dstName l.1)]

/-- The requests for a bridge in the loop over the spines. -/
def spineSteps (nb : Str × Bridge) : List (Option Request) :=
  if contains nb.1 "spine".toList then nb.2.ports.map (T.spineStep nb.2) else []

/-- The requests for a bridge in the loop over the leaves. -/
def podSteps (defaultPort : ℕ) (nb : Str × Bridge) : List (Option Request) :=
  if contains nb.1 "pod".toList && contains nb.1 "plane".toList then
    match nameNumber nb.1 with
    | none => [none]
    | some podNo => nb.2.ports.flatMap (T.leafSteps defaultPort nb.2 podNo)
  else []

def defaultSteps (defaultPort : ℕ) : List (Option Request) :=
  T.getEndnodes.zipIdx.flatMap (T.endNodeSteps defaultPort) ++
    T.bridges.flatMap T.spineSteps ++ T.bridges.flatMap (T.podSteps defaultPort)

/-- `set_default_flows`. -/
def setDefaultFlows (defaultPort : ℕ) (ds : Datastore) : Datastore :=
  (untilException (T.defaultSteps defaultPort)).foldl flowAdd ds

/-! ## The other flows of the program -/

/-- `set_drop_flows`. -/
def setDropFlows (ds : Datastore) : Datastore :=
  let flow := { flowInit with
    priority := 1, flowName := "drop".toList, id := "drop".toList, actions := [.drop 0] }
  (T.bridges.map fun nb => (nb.2.ofId, flow)).foldl flowAdd ds

/-- `set_lldp_flows`. -/
def setLldpFlows (ds : Datastore) : Datastore :=
  let flow := { flowInit with
    priority := 200, flowName := "lldp".toList, id := "lldp".toList
    flowMatch := { ethernetType := some 0x88cc }, actions := [.output 0 .CONTROLLER] }
  (T.bridges.map fun nb => (nb.2.ofId, flow)).foldl flowAdd ds

/-- The requests for the bridges next to a pod switch, those of other switches left out. -/
def dhcpHostSteps (pod : Bridge) : List (Option Request) :=
  pod.ports.flatMap fun l =>
    match T.getNameFromOfId l.2.1 with
    | none => [none]
    | some hostName =>
      if contains hostName "plane".toList then []
      else [(T.getBridge hostName).map fun host => (host.ofId, dhcpFlow l.2.2)]

def dhcpSteps (nodeName : Str) (ofPort : ℕ) : List (Option Request) :=
  match T.getBridge nodeName with
  | none => [none]
  | some b =>
    some (b.ofId, dhcpFlow ofPort) :: b.ports.flatMap fun l =>
      match (T.getNameFromOfId l.2.1).bind T.getBridge with
      | none => [none]
      | some pod => some (pod.ofId, dhcpFlow l.2.2) :: T.dhcpHostSteps pod

/-- `set_dhcp_paths`. -/
def setDhcpPaths (nodeName : Str) (ofPort : ℕ) (ds : Datastore) : Datastore :=
  (untilException (T.dhcpSteps nodeName ofPort)).foldl flowAdd ds

/-- `clear_flows`. -/
def clearFlows (ds : Datastore) : Datastore := fun b =>
  if ∃ nb ∈ T.bridges, nb.2.ofId = b then [] else ds b

end Topology

/-! ## All of them are flows of the program -/

section Steps

variable {T : Topology} {defaultPort : ℕ} {r : Request}

lemma mem_untilException {steps : List (Option Request)} (h : r ∈ untilException steps) :
    some r ∈ steps := by
  obtain ⟨o, ho, rfl⟩ := List.mem_filterMap.mp h
  exact (List.takeWhile_sublist _).subset ho

namespace Topology

lemma mem_endNodeSteps {ni : Str × ℕ} (h : some r ∈ T.endNodeSteps defaultPort ni) :
    ∃ b, T.getBridge ni.1 = some b ∧ r.1 = b.ofId ∧
      (r.2 = defaultOut b.ofId (min ni.2 1) defaultPort ∨ r.2 = defaultIn b 1 ∨
        r.2 = defaultIn b 2) := by
  unfold endNodeSteps at h
  split at h
  · simp at h
  · next b hb =>
    simp only [List.map_cons, List.map_nil, List.mem_cons, List.not_mem_nil, or_false,
      Option.some_inj] at h
    refine ⟨b, hb, ?_⟩
    rcases h with rfl | rfl | rfl
    · exact ⟨rfl, Or.inl rfl⟩
    · exact ⟨rfl, Or.inr (Or.inl rfl)⟩
    · exact ⟨rfl, Or.inr (Or.inr rfl)⟩

lemma spineStep_eq_some {spine : Bridge} {l : ℕ × ℕ × ℕ} (h : T.spineStep spine l = some r) :
    ∃ dstName dst, T.getNameFromOfId l.2.1 = some dstName ∧
      r = (spine.ofId, routeTo 98 dst dstName l.1) := by
  simp only [spineStep, Option.bind_eq_bind, Option.bind_eq_some_iff, Option.pure_def,
    Option.some_inj] at h
  obtain ⟨dstName, hname, podNo, -, rfl⟩ := h
  exact ⟨dstName, _, hname, rfl⟩

lemma mem_leafSteps {pod : Bridge} {podNo : ℕ} {l : ℕ × ℕ × ℕ}
    (h : some r ∈ T.leafSteps defaultPort pod podNo l) :
    ∃ dstName dst, T.getNameFromOfId l.2.1 = some dstName ∧
      r = (pod.ofId, routeTo 97 dst dstName l.1) := by
  unfold leafSteps at h
  split at h
  · simp at h
  · next dstName hname =>
    refine ⟨dstName, ?_⟩
    split at h
    · split at h
      · simp at h
      · split at h
        · cases h
        · exact ⟨_, hname, Option.some_inj.mp (List.mem_singleton.mp h)⟩
    · split at h
      · simp at h
      · exact ⟨_, hname, Option.some_inj.mp (List.mem_singleton.mp h)⟩

lemma mem_spineSteps {nb : Str × Bridge} (h : some r ∈ T.spineSteps nb) :
    contains nb.1 "spine".toList = true ∧ ∃ l ∈ nb.2.ports, T.spineStep nb.2 l = some r := by
  unfold spineSteps at h
  split at h
  · next hspine => exact ⟨hspine, List.mem_map.mp h⟩
  · cases h

lemma mem_podSteps {nb : Str × Bridge} (h : some r ∈ T.podSteps defaultPort nb) :
    ∃ podNo, nameNumber nb.1 = some podNo ∧
      ∃ l ∈ nb.2.ports, some r ∈ T.leafSteps defaultPort nb.2 podNo l := by
  unfold podSteps at h
  split at h
  · split at h
    · simp at h
    · next podNo hno => exact ⟨podNo, hno, List.mem_flatMap.mp h⟩
  · cases h

/-- The kinds of requests of `set_default_flows`, and where they come from. -/
lemma mem_defaultSteps (h : some r ∈ T.defaultSteps defaultPort) :
    (∃ ni ∈ T.getEndnodes.zipIdx, some r ∈ T.endNodeSteps defaultPort ni) ∨
      (∃ nb ∈ T.bridges, some r ∈ T.spineSteps nb) ∨
      ∃ nb ∈ T.bridges, some r ∈ T.podSteps defaultPort nb := by
  rw [defaultSteps, List.append_assoc, List.mem_append, List.mem_append] at h
  exact h.imp List.mem_flatMap.mp (Or.imp List.mem_flatMap.mp List.mem_flatMap.mp)

end Topology

end Steps

section ProgramStores

variable {T : Topology} {ds : Datastore}

lemma programStore_foldl_flowAdd {rs : List Request} (hds : ProgramStore ds)
    (hrs : ∀ r ∈ rs, ProgramId r.2.id) : ProgramStore (rs.foldl flowAdd ds) := by
  intro b f hf
  rcases mem_foldl_putAt hf with hf | hf
  · exact hds b f hf
  · exact hrs _ hf

/-- The ids of the default flows. -/
lemma id_of_mem_defaultSteps {defaultPort : ℕ} {r : Request}
    (h : some r ∈ T.defaultSteps defaultPort) :
    r.2.id ∈ ["default_out", "default_in1", "default_in2"].map String.toList ∨
      "to-".toList <+: r.2.id := by
  rcases Topology.mem_defaultSteps h with ⟨ni, -, h⟩ | ⟨nb, -, h⟩ | ⟨nb, -, h⟩
  · obtain ⟨b, -, -, h | h | h⟩ := Topology.mem_endNodeSteps h <;> rw [h] <;>
      exact Or.inl (by simp [str_of_lt])
  · obtain ⟨-, l, -, h⟩ := Topology.mem_spineSteps h
    obtain ⟨dstName, dst, -, rfl⟩ := Topology.spineStep_eq_some h
    exact Or.inr (List.prefix_append _ _)
  · obtain ⟨podNo, -, l, -, h⟩ := Topology.mem_podSteps h
    obtain ⟨dstName, dst, -, rfl⟩ := Topology.mem_leafSteps h
    exact Or.inr (List.prefix_append _ _)

lemma programStore_setDefaultFlows (hds : ProgramStore ds) (defaultPort : ℕ) :
    ProgramStore (T.setDefaultFlows defaultPort ds) := by
  refine programStore_foldl_flowAdd hds ?_
  intro r hr
  rcases id_of_mem_defaultSteps (mem_untilException hr) with h | h
  · refine Or.inl (List.Sublist.subset ?_ h)
    exact (List.sublist_append_left _ ["drop", "lldp", "dhcp"]).map _
  · exact Or.inr (Or.inl h)

lemma programStore_setDropFlows (hds : ProgramStore ds) : ProgramStore (T.setDropFlows ds) := by
  refine programStore_foldl_flowAdd hds fun r hr => Or.inl ?_
  obtain ⟨nb, -, rfl⟩ := List.mem_map.mp hr
  simp

lemma programStore_setLldpFlows (hds : ProgramStore ds) : ProgramStore (T.setLldpFlows ds) := by
  refine programStore_foldl_flowAdd hds fun r hr => Or.inl ?_
  obtain ⟨nb, -, rfl⟩ := List.mem_map.mp hr
  simp

/-- All requests of `set_dhcp_paths` are for the same flow, up to the port. -/
lemma dhcpFlow_of_mem_dhcpSteps {nodeName : Str} {ofPort : ℕ} {r : Request}
    (h : some r ∈ T.dhcpSteps nodeName ofPort) : ∃ port, r.2 = dhcpFlow port := by
  unfold Topology.dhcpSteps at h
  split at h
  · simp at h
  · rcases List.mem_cons.mp h with h | h
    · exact ⟨_, congrArg Prod.snd (Option.some_inj.mp h)⟩
    · obtain ⟨l, -, h⟩ := List.mem_flatMap.mp h
      split at h
      · simp at h
      · rcases List.mem_cons.mp h with h | h
        · exact ⟨_, congrArg Prod.snd (Option.some_inj.mp h)⟩
        · obtain ⟨l', -, h⟩ := List.mem_flatMap.mp h
          split at h
          · simp at h
          · split at h
            · cases h
            · obtain ⟨host, -, rfl⟩ := Option.map_eq_some_iff.mp (List.mem_singleton.mp h).symm
              exact ⟨_, rfl⟩

lemma programStore_setDhcpPaths (hds : ProgramStore ds) (nodeName : Str) (ofPort : ℕ) :
    ProgramStore (T.setDhcpPaths nodeName ofPort ds) := by
  refine programStore_foldl_flowAdd hds fun r hr => Or.inl ?_
  obtain ⟨port, hport⟩ := dhcpFlow_of_mem_dhcpSteps (mem_untilException hr)
  rw [hport]
  simp

lemma programStore_clearFlows (hds : ProgramStore ds) : ProgramStore (T.clearFlows ds) := by
  intro b f hf
  rw [Topology.clearFlows] at hf
  split at hf
  · cases hf
  · exact hds b f hf

end ProgramStores

end DaqSwitch.Odl
