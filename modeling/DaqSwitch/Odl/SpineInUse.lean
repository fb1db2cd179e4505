import DaqSwitch.Odl.Availability
import DaqSwitch.Odl.DefaultFlows
import DaqSwitch.Odl.Naming
import DaqSwitch.Odl.PathDelivery

/-!
# The spine in use

The program keeps no record of the path of a Dcm: `spine_in_use` looks for flows of the Dcm at the
spines.  After any history of calls that write to the datastore, the spines with flows of the Dcm
are those that it was installed through since it was removed, or all flows were cleared, for the
last time.  From this follows what `is_path_up` says when all links are up.
-/

namespace DaqSwitch.Odl

open Lib Lib.Text Lib.KeyedTable

/-! ## The methods -/

/-- `spine_in_use`. -/
def Dcm.spineInUse (d : Dcm) (T : Topology) (ds : Datastore) : Option Str :=
  T.getSpines.find? fun spine => (T.getBridge spine).any fun b => d.getInstalledFlows ds b ≠ []

/-- `is_path_up`, which looks for the spine in the same way. -/
def Dcm.isPathUp (d : Dcm) (T : Topology) (nc : Connectors) (ds : Datastore) : Option Bool :=
  match d.spineInUse T ds with
  | some spine => d.isPathAvailable T nc spine
  | none => some false

/-- `check_links`. -/
def Topology.checkLinks (T : Topology) (nc : Connectors) : Bool :=
  T.bridges.all fun nb => nb.2.ports.all fun l => nb.2.getPortStatus nc l.1

/-! ## Histories -/

/-- A call that writes to the datastore. -/
inductive FlowOp
  | path (op : PathOp)
  | setDefaultFlows (defaultPort : ℕ)
  | setDropFlows
  | setLldpFlows
  | setDhcpPaths (nodeName : Str) (ofPort : ℕ)
  | clearFlows

def FlowOp.apply (T : Topology) (ds : Datastore) : FlowOp → Datastore
  | path op => op.apply T ds
  | setDefaultFlows defaultPort => T.setDefaultFlows defaultPort ds
  | setDropFlows => T.setDropFlows ds
  | setLldpFlows => T.setLldpFlows ds
  | setDhcpPaths nodeName ofPort => T.setDhcpPaths nodeName ofPort ds
  | clearFlows => T.clearFlows ds

/-- A Dcm is installed through a spine of the topology, or without one. -/
def FlowOp.Known (T : Topology) : FlowOp → Prop
  | path (.install d (some spine) usedaqring atDcmPodOnly) =>
    PathCall.Known T ⟨d, spine, usedaqring, atDcmPodOnly⟩
  | _ => True

/-- Whether a call leaves a flow at the spine: one for each inflow, and the one out of the ring. -/
def PathCall.writesAtSpine (c : PathCall) : Bool := c.dcm.inflows ≠ [] || c.spineRing

/-- The spines that a Dcm is installed through, after a call. -/
def Dcm.spinesAfter (d : Dcm) (spines : List Str) : FlowOp → List Str
  | .path (.install d' (some spine) usedaqring atDcmPodOnly) =>
    if d'.id = d.id ∧ (PathCall.mk d' spine usedaqring atDcmPodOnly).writesAtSpine = true then
      spine :: spines
    else spines
  | .path (.remove d') => if d'.id = d.id then [] else spines
  | .clearFlows => []
  | _ => spines

section Writes

variable {T : Topology} {planes pods x z : ℕ} {ds : Datastore} {d : Dcm} {b : Bridge}

lemma programStore_flowOp (hds : ProgramStore ds) (op : FlowOp) : ProgramStore (op.apply T ds) := by
  cases op with
  | path op => exact programStore_foldl hds [op]
  | setDefaultFlows defaultPort => exact programStore_setDefaultFlows hds defaultPort
  | setDropFlows => exact programStore_setDropFlows hds
  | setLldpFlows => exact programStore_setLldpFlows hds
  | setDhcpPaths nodeName ofPort => exact programStore_setDhcpPaths hds nodeName ofPort
  | clearFlows => exact programStore_clearFlows hds

/-- A Dcm has a flow at a bridge. -/
def Dcm.HasFlows (d : Dcm) (ds : Datastore) (b : Bridge) : Prop := ∃ f ∈ ds b.ofId, d.Owns f.id

/-- The program finds the flows. -/
lemma getInstalledFlows_ne_nil_iff (hds : ProgramStore ds) :
    d.getInstalledFlows ds b ≠ [] ↔ d.HasFlows ds b := by
  rw [Dcm.getInstalledFlows, Ne, List.filter_eq_nil_iff]
  push Not
  constructor
  · rintro ⟨flowId, hmem, hpre⟩
    obtain ⟨f, hf, rfl⟩ := List.mem_map.mp hmem
    exact ⟨f, hf, (Dcm.owns_iff_startsWith (hds _ f hf)).mpr hpre⟩
  · rintro ⟨f, hf, howns⟩
    exact ⟨f.id, List.mem_map_of_mem hf, (Dcm.owns_iff_startsWith (hds _ f hf)).mp howns⟩

/-- Whether there are flows after PUT requests. -/
lemma hasFlows_foldl_iff {rs : List Request} : d.HasFlows (rs.foldl flowAdd ds) b ↔
    d.HasFlows ds b ∨ ∃ r ∈ rs, r.1 = b.ofId ∧ d.Owns r.2.id :=
  exists_key_foldl_putAt (P := d.Owns)

/-! ## The writes of `install_path` at the spines -/

/-- A call writes at a spine if this is its spine and it has something to write. -/
lemma exists_request_at_spine_iff (hT : LeafSpine T planes pods) {c : PathCall} (hc : c.Known T)
    (hb : T.getBridge (spineName x z) = some b) :
    (∃ r ∈ c.requests T, r.1 = b.ofId) ↔ c.spine = spineName x z ∧ c.writesAtSpine = true := by
  obtain ⟨x', y, hops, H⟩ := exists_hopsOf hT hc
  simp only [H.mem_requests_iff hT hc, PathCall.writesAtSpine, Bool.or_eq_true, decide_eq_true_eq]
  constructor
  · rintro ⟨r, ⟨h, hh, rs, hrs, hr⟩, hid⟩
    obtain ⟨toNode, b', dstB, ofDport, -, hb', -, -, rfl⟩ := Dcm.installSubpath_eq_some_iff.mp hrs
    have hr' := Dcm.mem_subpathRequests.mp hr
    have hid' : b'.ofId = b.ofId := by
      rw [← hid]
      rcases hr' with ⟨-, rfl⟩ | ⟨ji, -, rfl⟩ <;> rfl
    -- so the hop is the one of the spine
    have hat : h.atNode = spineName x z := by
      by_contra hne
      exact hT.ofIds.ne hb' hb hne hid'
    rcases (H.mem_iff h).mp hh with rfl | rfl | ⟨i, -, -, rfl⟩ | ⟨i, host, -, -, rfl⟩
    · exact absurd hat podNode_ne_spineName
    · refine ⟨hat, ?_⟩
      rcases hr' with ⟨hring, -⟩ | ⟨ji, hji, -⟩
      · exact Or.inr hring
      · refine Or.inl fun hnil => ?_
        simp [hnil] at hji
    · exact absurd hat podNode_ne_spineName
    · exact absurd hat endName_ne_spineName
  · rintro ⟨hspine, hwrites⟩
    have hh : (⟨c.spine, some (podNode x' y), c.spineRing⟩ : Hop) ∈ hops :=
      (H.mem_iff _).mpr (Or.inr (Or.inl rfl))
    obtain ⟨toNode, hto, hlink⟩ := H.linked hT hc hh
    obtain ⟨b', dstB, ofDport, hb', -, -, hrs⟩ := exists_installSubpath c.dcm hto hlink
    obtain rfl : b' = b := by
      rw [hspine, hb] at hb'
      exact (Option.some_inj.mp hb').symm
    rcases hwrites with hinflows | hring
    · obtain ⟨inflow, inflows, hcons⟩ := List.exists_cons_of_ne_nil hinflows
      refine ⟨_, ⟨_, hh, _, hrs, Dcm.mem_subpathRequests.mpr (Or.inr ⟨(inflow, 1), ?_, rfl⟩)⟩, rfl⟩
      simp [hcons]
    · exact ⟨_, ⟨_, hh, _, hrs, Dcm.mem_subpathRequests.mpr (Or.inl ⟨hring, rfl⟩)⟩, rfl⟩

/-- Without a spine nothing is written at the spines. -/
lemma not_request_at_spine (hT : LeafSpine T planes pods) {usedaqring atDcmPodOnly : Bool}
    (hb : T.getBridge (spineName x z) = some b) {r : Request}
    (hr : r ∈ d.installRequests T none usedaqring atDcmPodOnly) : r.1 ≠ b.ofId := by
  unfold Dcm.installRequests at hr
  split at hr
  · cases hr
  · next hops hhops =>
    obtain ⟨h, hh, rs, hrs, hr⟩ := Dcm.exists_hop_of_mem_requests hr
    obtain ⟨toNode, b', dstB, ofDport, -, hb', -, -, rfl⟩ := Dcm.installSubpath_eq_some_iff.mp hrs
    have hid : r.1 = b'.ofId := by
      rcases Dcm.mem_subpathRequests.mp hr with ⟨-, rfl⟩ | ⟨ji, -, rfl⟩ <;> rfl
    rw [hid]
    refine hT.ofIds.ne hb' hb ?_
    -- the calls are made at pod nodes and end nodes
    have hend {i : ℕ} {e : Str} (he : e ∈ T.getPodEndnodes i) : e ≠ spineName x z := by
      rintro rfl
      have hplane := (mem_getPodEndnodes_iff.mp he).2.1
      rw [contains_plane_spineName] at hplane
      cases hplane
    simp only [Dcm.installPathHops, Option.bind_eq_bind, Option.bind_some, Option.pure_def,
      Option.bind_eq_some_iff, Option.some_inj] at hhops
    obtain ⟨pod, -, rfl⟩ := hhops
    simp only [List.mem_append, List.mem_map, List.mem_flatMap, Option.mem_toList] at hh
    rcases hh with ((⟨n, hn, rfl⟩ | ⟨s, hs, -⟩) | ⟨i, -, hh | ⟨e, he, rfl⟩⟩) | hh
    · split at hn
      · rw [← Option.some_inj.mp hn]
        exact podNode_ne_spineName
      · cases hn
    · cases hs
    · split at hh
      · rw [List.mem_singleton.mp hh]
        exact podNode_ne_spineName
      · cases hh
    · exact hend (List.mem_filter.mp he).1
    · split at hh
      · simp only [reduceCtorEq, if_false, List.not_mem_nil] at hh
      · rw [if_pos rfl] at hh
        obtain ⟨e, he, rfl⟩ := List.mem_map.mp hh
        exact hend (List.mem_filter.mp he).1

end Writes

/-! ## The spines of a Dcm -/

/-- The spines of a list are the ones with flows of a Dcm. -/
def Dcm.FlowsAt (d : Dcm) (T : Topology) (ds : Datastore) (spines : List Str) : Prop :=
  ∀ x z b, T.getBridge (spineName x z) = some b → (d.HasFlows ds b ↔ spineName x z ∈ spines)

section Histories

variable {T : Topology} {planes pods : ℕ} {ds : Datastore} {d : Dcm} {spines : List Str}

/-- PUT requests for flows whose ids do not begin with `dcm_` do not matter. -/
lemma Dcm.FlowsAt.foldl_flowAdd (h : d.FlowsAt T ds spines) {rs : List Request}
    (hrs : ∀ r ∈ rs, ¬ "dcm_".toList <+: r.2.id) : d.FlowsAt T (rs.foldl flowAdd ds) spines := by
  intro x z b hb
  rw [hasFlows_foldl_iff, ← h x z b hb, or_iff_left]
  rintro ⟨r, hr, -, howns⟩
  refine hrs r hr (List.IsPrefix.trans ?_ (Dcm.flowPrefix_prefixes howns))
  rw [Dcm.flowPrefix, List.append_assoc]
  exact List.prefix_append _ _

/-- One call of `install_path` through a spine. -/
lemma flowsAt_install (hT : LeafSpine T planes pods) {c : PathCall} (hc : c.Known T)
    (h : d.FlowsAt T ds spines) : d.FlowsAt T (c.apply T ds)
      (if c.dcm.id = d.id ∧ c.writesAtSpine = true then c.spine :: spines else spines) := by
  intro x z b hb
  have hall : ∀ r ∈ c.requests T, d.Owns r.2.id ↔ c.dcm.id = d.id := by
    intro r hr
    have howns := (Dcm.installRequests_requestOf hr).owns
    exact ⟨fun h' => by_contra fun hne => Dcm.not_owns howns hne h',
      fun hid => Dcm.owns_of_id_eq howns hid⟩
  have hiff : d.HasFlows (c.apply T ds) b ↔ d.HasFlows ds b ∨
      c.dcm.id = d.id ∧ c.spine = spineName x z ∧ c.writesAtSpine = true := by
    rw [← exists_request_at_spine_iff hT hc hb]
    refine hasFlows_foldl_iff.trans (or_congr_right ?_)
    constructor
    · rintro ⟨r, hr, hid, howns⟩
      exact ⟨(hall r hr).mp howns, r, hr, hid⟩
    · rintro ⟨hid, r, hr, hbridge⟩
      exact ⟨r, hr, hbridge, (hall r hr).mpr hid⟩
  rw [hiff, h x z b hb]
  split
  · next hif => simp [hif, or_comm, eq_comm]
  · next hif =>
    refine or_iff_left ?_
    rintro ⟨hid, -, hwrites⟩
    exact hif ⟨hid, hwrites⟩

/-- One call of `remove_path`. -/
lemma flowsAt_remove (hds : ProgramStore ds) (d' : Dcm) (h : d.FlowsAt T ds spines) :
    d.FlowsAt T (d'.removePath T ds) (if d'.id = d.id then [] else spines) := by
  intro x z b hb
  have hat : d'.removePath T ds b.ofId = d'.others ds b.ofId := by
    rw [Dcm.removePath_apply hds, if_pos ⟨_, Topology.getBridge_eq_some_iff.mp hb, rfl⟩]
  simp only [Dcm.HasFlows, hat, Dcm.others, List.mem_filter, decide_eq_true_eq]
  split
  · next hid =>
    refine iff_of_false ?_ List.not_mem_nil
    rintro ⟨f, ⟨-, hnot⟩, howns⟩
    exact hnot (Dcm.owns_of_id_eq howns hid.symm)
  · next hid =>
    rw [← h x z b hb]
    refine exists_congr fun f => ?_
    constructor
    · rintro ⟨⟨hf, -⟩, howns⟩
      exact ⟨hf, howns⟩
    · rintro ⟨hf, howns⟩
      exact ⟨⟨hf, Dcm.not_owns howns fun heq => hid heq.symm⟩, howns⟩

/-- The step lemma: an operation changes the spines with flows of the Dcm as `spinesAfter` says. -/
lemma flowsAt_step (hT : LeafSpine T planes pods) (hds : ProgramStore ds) {op : FlowOp}
    (hop : op.Known T) (h : d.FlowsAt T ds spines) :
    d.FlowsAt T (op.apply T ds) (d.spinesAfter spines op) := by
  cases op with
  | path op =>
    cases op with
    | install d' spine usedaqring atDcmPodOnly =>
      cases spine with
      | none =>
        intro x z b hb
        refine (hasFlows_foldl_iff.trans (or_iff_left ?_)).trans (h x z b hb)
        rintro ⟨r, hr, hid, -⟩
        exact not_request_at_spine hT hb hr hid
      | some spine => exact flowsAt_install hT hop h
    | remove d' => exact flowsAt_remove hds d' h
  | setDefaultFlows defaultPort =>
    refine h.foldl_flowAdd fun r hr => ?_
    rcases id_of_mem_defaultSteps (mem_untilException hr) with hid | ⟨name, hid⟩
    · simp only [List.map_cons, List.map_nil, List.mem_cons, List.not_mem_nil, or_false] at hid
      rcases hid with hid | hid | hid <;> simp [hid, List.cons_prefix_cons]
    · simp [← hid, List.cons_prefix_cons]
  | setDropFlows =>
    refine h.foldl_flowAdd fun r hr => ?_
    obtain ⟨nb, -, rfl⟩ := List.mem_map.mp hr
    simp [List.cons_prefix_cons]
  | setLldpFlows =>
    refine h.foldl_flowAdd fun r hr => ?_
    obtain ⟨nb, -, rfl⟩ := List.mem_map.mp hr
    simp [List.cons_prefix_cons]
  | setDhcpPaths nodeName ofPort =>
    refine h.foldl_flowAdd fun r hr => ?_
    obtain ⟨port, hport⟩ := dhcpFlow_of_mem_dhcpSteps (mem_untilException hr)
    simp [hport, List.cons_prefix_cons]
  | clearFlows =>
    intro x z b hb
    have hat : T.clearFlows ds b.ofId = [] :=
      if_pos ⟨_, Topology.getBridge_eq_some_iff.mp hb, rfl⟩
    simp [FlowOp.apply, Dcm.HasFlows, hat, Dcm.spinesAfter]

/-- The run lemma: the spines with flows of the Dcm after any operations. -/
lemma flowsAt_foldl (hT : LeafSpine T planes pods) {ops : List FlowOp}
    (hops : ∀ op ∈ ops, op.Known T) (hds : ProgramStore ds) (h : d.FlowsAt T ds spines) :
    ProgramStore (ops.foldl (FlowOp.apply T) ds) ∧
      d.FlowsAt T (ops.foldl (FlowOp.apply T) ds) (ops.foldl d.spinesAfter spines) := by
  induction ops generalizing ds spines with
  | nil => exact ⟨hds, h⟩
  | cons op ops ih =>
    exact ih (fun op' hop' => hops op' (List.mem_cons_of_mem _ hop')) (programStore_flowOp hds op)
      (flowsAt_step hT hds (hops op List.mem_cons_self) h)

/-- The hosts of end nodes are not called spines. -/
def NoSpineHosts (T : Topology) : Prop :=
  ∀ y host, endName y host ∈ T.names → ¬ "spine".toList <:+: host

lemma mem_getSpines_iff (hT : LeafSpine T planes pods) (hhosts : NoSpineHosts T) {name : Str} :
    name ∈ T.getSpines ↔ name ∈ T.names ∧ ∃ x z, name = spineName x z := by
  rw [Topology.getSpines, List.mem_filter]
  refine and_congr_right fun hname => ?_
  rcases hT.names _ hname with ⟨x, y, -, -, rfl⟩ | ⟨x, z, -, rfl⟩ | ⟨y, host, -, -, -, rfl⟩
  · rw [not_contains_spine_podNode]
    refine iff_of_false Bool.false_ne_true ?_
    rintro ⟨x', z', heq⟩
    exact podNode_ne_spineName heq
  · exact iff_of_true contains_spine_spineName ⟨x, z, rfl⟩
  · rw [contains_spine_endName_iff]
    refine iff_of_false (hhosts y host hname) ?_
    rintro ⟨x', z', heq⟩
    exact endName_ne_spineName heq

/-- `spine_in_use` returns the first of the spines with flows. -/
lemma spineInUse_of_flowsAt (hT : LeafSpine T planes pods) (hhosts : NoSpineHosts T)
    (hds : ProgramStore ds) (h : d.FlowsAt T ds spines) :
    d.spineInUse T ds = T.getSpines.find? fun spine => spine ∈ spines := by
  refine List.find?_congr fun spine hspine => ?_
  obtain ⟨hname, x, z, rfl⟩ := (mem_getSpines_iff hT hhosts).mp hspine
  obtain ⟨b, hb⟩ := Topology.mem_names.mp hname
  rw [hb, Option.any_some, decide_eq_decide, getInstalledFlows_ne_nil_iff hds]
  exact h x z b hb

lemma flowsAt_nil (hnone : ∀ nb ∈ T.bridges, ∀ f ∈ ds nb.2.ofId, ¬ d.Owns f.id) :
    d.FlowsAt T ds [] := by
  intro x z b hb
  refine iff_of_false ?_ List.not_mem_nil
  rintro ⟨f, hf, howns⟩
  exact hnone _ (Topology.getBridge_eq_some_iff.mp hb) f hf howns

end Histories

/-- **The spine in use.**  After any history of calls that write to the datastore, `spine_in_use`
returns the first spine that the Dcm was installed through since it was removed, or all flows were
cleared, for the last time.  A Dcm without inflows and rings has nothing to install at a spine. -/
theorem spineInUse_foldl {T : Topology} {planes pods : ℕ} (hT : LeafSpine T planes pods)
    (hhosts : NoSpineHosts T) {ds : Datastore} (hds : ProgramStore ds) {d : Dcm}
    (hnone : ∀ nb ∈ T.bridges, ∀ f ∈ ds nb.2.ofId, ¬ d.Owns f.id) {ops : List FlowOp}
    (hops : ∀ op ∈ ops, op.Known T) :
    d.spineInUse T (ops.foldl (FlowOp.apply T) ds) =
      T.getSpines.find? fun spine => spine ∈ ops.foldl d.spinesAfter [] := by
  obtain ⟨hds', hat⟩ := flowsAt_foldl hT hops hds (flowsAt_nil hnone)
  exact spineInUse_of_flowsAt hT hhosts hds' hat

lemma noSpineHosts_twoPods : NoSpineHosts twoPods := by
  intro y host hname
  refine (twoPods_hosts host ?_).2.2
  rcases twoPods_endName hname with ⟨-, rfl⟩ | ⟨-, rfl⟩
  · simp
  · simp

/-- A history of the two pods: the Dcm is installed with rings and removed, and then installed
without. -/
def twoPodsOps : List FlowOp :=
  [.setDefaultFlows 1, .path (.install twoPodsCall.dcm (some (spineName 1 1)) true false),
    .path (.remove twoPodsCall.dcm), .setDropFlows,
    .path (.install twoPodsCall.dcm (some (spineName 1 1)) false false)]

lemma known_twoPods : ∀ op ∈ twoPodsOps, op.Known twoPods := by
  have hcall (usedaqring : Bool) : FlowOp.Known twoPods
      (.path (.install twoPodsCall.dcm (some (spineName 1 1)) usedaqring false)) :=
    ⟨⟨1, ['a'], rfl, by simp [twoPods_names]⟩, 1, 1, rfl, by simp [twoPods_names]⟩
  simp only [twoPodsOps, List.forall_mem_cons, List.not_mem_nil, false_implies, implies_true,
    and_true]
  exact ⟨trivial, hcall true, trivial, trivial, hcall false⟩

lemma programStore_empty : ProgramStore fun _ => [] := fun _ _ hf => absurd hf List.not_mem_nil

/-- The theorem for this history. -/
theorem spineInUse_foldl_twoPods :
    twoPodsCall.dcm.spineInUse twoPods (twoPodsOps.foldl (FlowOp.apply twoPods) fun _ => []) =
      some (spineName 1 1) := by
  rw [spineInUse_foldl leafSpine_twoPods noSpineHosts_twoPods programStore_empty
    (fun _ _ _ hf => absurd hf List.not_mem_nil) known_twoPods]
  decide

/-! ## Whether the path is up -/

section Links

variable {T : Topology} {planes pods : ℕ} {nc : Connectors} {d : Dcm} {spine name name' : Str}

/-- When the links are up, every link is. -/
lemma firstUp_of_checkLinks (hT : LeafSpine T planes pods) (hup : T.checkLinks nc = true)
    (hlink : T.Linked name name') : Dcm.FirstUp T nc (name, name') := by
  have hstatus {n : Str} {b : Bridge} (hb : T.getBridge n = some b) {dst : ℕ}
      (hne : b.getPortForDst dst ≠ []) :
      ∃ p, (b.getPortForDst dst)[0]? = some p ∧ b.getPortStatus nc p = true := by
    obtain ⟨p, ps, hcons⟩ := List.exists_cons_of_ne_nil hne
    have hmem : p ∈ b.getPortForDst dst := by simp [hcons]
    obtain ⟨dstPort, hl⟩ := Bridge.mem_getPortForDst.mp hmem
    have hports := List.all_eq_true.mp hup _ (Topology.getBridge_eq_some_iff.mp hb)
    exact ⟨p, by simp [hcons], List.all_eq_true.mp hports _ hl⟩
  obtain ⟨b, b', hb, hb', hne⟩ := hlink
  obtain ⟨b₂, b₂', hb₂, hb₂', hne'⟩ := hT.linked_symm ⟨b, b', hb, hb', hne⟩
  obtain rfl : b' = b₂ := Option.some_inj.mp (hb'.symm.trans hb₂)
  obtain rfl : b = b₂' := Option.some_inj.mp (hb.symm.trans hb₂')
  obtain ⟨p, hp, hpUp⟩ := hstatus hb hne
  obtain ⟨p', hp', hpUp'⟩ := hstatus hb' hne'
  exact ⟨b, b', p, p', hb, hb', hp, hp', hpUp, hpUp'⟩

/-- Then the path of a Dcm through any spine is available. -/
lemma isPathAvailable_of_checkLinks (hT : LeafSpine T planes pods) (hhosts : NoSpineHosts T)
    (hup : T.checkLinks nc = true)
    (hnode : ∃ y host, d.node = endName y host ∧ endName y host ∈ T.names)
    (hspine : spine ∈ T.getSpines) : d.isPathAvailable T nc spine = some true := by
  obtain ⟨y, host, hnode, hnodeMem⟩ := hnode
  obtain ⟨hspineMem, x, z, rfl⟩ := (mem_getSpines_iff hT hhosts).mp hspine
  have hplane := hT.spine_mem hspineMem
  have hpod := (hT.endNode_mem hnodeMem).1
  have hnpods := hT.getNpods_eq (hplane.1.trans hplane.2)
  have hplaneId : getPlaneId (spineName x z) = some x := getPlaneId_spineName
  rw [Dcm.isPathAvailable_eq_true_iff]
  refine ⟨⟨_, (Dcm.checkedLink_iff (getPodId_endName hnode) hplaneId).mpr (Or.inl rfl)⟩, ?_⟩
  intro link hlink
  rcases (Dcm.checkedLink_iff (getPodId_endName hnode) hplaneId).mp hlink with
    rfl | rfl | ⟨i, hi, ⟨-, rfl⟩ | ⟨e, he, rfl⟩⟩
  · rw [hnode]
    exact firstUp_of_checkLinks hT hup (hT.linked_symm (hT.endLinked y host x hnodeMem hplane))
  · exact firstUp_of_checkLinks hT hup (hT.linked_symm (hT.spineLinked x y z hspineMem hpod))
  · exact firstUp_of_checkLinks hT hup (hT.spineLinked x (i + 1) z hspineMem (by omega))
  · obtain ⟨host', rfl, hmem⟩ := (hT.mem_getPodEndnodes (by omega)).mp he
    exact firstUp_of_checkLinks hT hup (hT.endLinked (i + 1) host' x hmem hplane)

/-- The spines of a history are in the topology. -/
lemma mem_getSpines_of_mem_foldl (hT : LeafSpine T planes pods) (hhosts : NoSpineHosts T)
    {ops : List FlowOp} (hops : ∀ op ∈ ops, op.Known T) {spines : List Str}
    (h : ∀ spine ∈ spines, spine ∈ T.getSpines) :
    ∀ spine ∈ ops.foldl d.spinesAfter spines, spine ∈ T.getSpines := by
  induction ops generalizing spines with
  | nil => exact h
  | cons op ops ih =>
    refine ih (fun op' hop' => hops op' (List.mem_cons_of_mem _ hop')) ?_
    have hop := hops op List.mem_cons_self
    unfold Dcm.spinesAfter
    split
    · next d' spine usedaqring atDcmPodOnly =>
      split
      · obtain ⟨x, z, hspine, hmem⟩ := hop.spine
        obtain rfl : spine = spineName x z := hspine
        exact List.forall_mem_cons.mpr ⟨(mem_getSpines_iff hT hhosts).mpr ⟨hmem, x, z, rfl⟩, h⟩
      · exact h
    · split
      · simp
      · exact h
    · simp
    · exact h

end Links

/-- **Links and paths.**  When `check_links` finds all links up, `is_path_up` is true of a Dcm if
and only if it has been installed through a spine, and has not been removed since; this after any
history. -/
theorem isPathUp_of_checkLinks {T : Topology} {planes pods : ℕ} (hT : LeafSpine T planes pods)
    (hhosts : NoSpineHosts T) {ds : Datastore} (hds : ProgramStore ds) {d : Dcm}
    (hnone : ∀ nb ∈ T.bridges, ∀ f ∈ ds nb.2.ofId, ¬ d.Owns f.id)
    (hnode : ∃ y host, d.node = endName y host ∧ endName y host ∈ T.names) {ops : List FlowOp}
    (hops : ∀ op ∈ ops, op.Known T) {nc : Connectors} (hup : T.checkLinks nc = true) :
    d.isPathUp T nc (ops.foldl (FlowOp.apply T) ds) =
      some (decide (ops.foldl d.spinesAfter [] ≠ [])) := by
  obtain ⟨hds', hat⟩ := flowsAt_foldl hT hops hds (flowsAt_nil hnone)
  have huse := spineInUse_of_flowsAt hT hhosts hds' hat
  have hsub : ∀ spine ∈ ops.foldl d.spinesAfter [], spine ∈ T.getSpines :=
    mem_getSpines_of_mem_foldl hT hhosts hops (by simp)
  rw [Dcm.isPathUp, huse]
  cases hfind : T.getSpines.find? fun spine => spine ∈ ops.foldl d.spinesAfter [] with
  | none =>
    have hnil : ops.foldl d.spinesAfter [] = [] := by
      refine List.eq_nil_iff_forall_not_mem.mpr fun spine hmem => ?_
      exact List.find?_eq_none.mp hfind spine (hsub spine hmem) (decide_eq_true hmem)
    simp [hnil]
  | some spine =>
    have hmem : spine ∈ ops.foldl d.spinesAfter [] := by simpa using List.find?_some hfind
    rw [decide_eq_true (List.ne_nil_of_mem hmem)]
    exact isPathAvailable_of_checkLinks hT hhosts hup hnode (List.mem_of_find?_eq_some hfind)

/-- The theorem for this history, with all ports up. -/
theorem isPathUp_of_checkLinks_twoPods : twoPodsCall.dcm.isPathUp twoPods
    (fun _ _ => some ⟨[], false⟩) (twoPodsOps.foldl (FlowOp.apply twoPods) fun _ => []) =
      some true := by
  rw [isPathUp_of_checkLinks leafSpine_twoPods noSpineHosts_twoPods programStore_empty
    (fun _ _ _ hf => absurd hf List.not_mem_nil) ⟨1, ['a'], rfl, by simp [twoPods_names]⟩
    known_twoPods (by decide)]
  decide

end DaqSwitch.Odl
