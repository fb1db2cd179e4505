import DaqSwitch.Odl.LeafSpine
import DaqSwitch.Odl.PathFlows

/-!
# Delivery along the paths of Dcms

After any sequence of calls of `install_path`, by any Dcms and with any choices of spines and
rings, a packet of an inflow gets from every end node to the one of the Dcm, and comes to no
bridge twice.  The last call of the Dcm counts: within one call a bridge has one hop, so what
the call writes is in place at its end (`InPlace`), and calls of other Dcms leave it there.
Everything else in the tables does not match the packet, has a lower priority, or is the way
out of a ring that the packet is not in.
-/

namespace DaqSwitch.Odl

open Lib Lib.Text Lib.KeyedTable Lib.Forwarding

/-! ## Calls -/

/-- A call of `install_path` through a spine. -/
structure PathCall where
  dcm : Dcm
  spine : Str
  usedaqring : Bool
  atDcmPodOnly : Bool
deriving DecidableEq, Repr

namespace PathCall

variable (T : Topology) (c : PathCall)

def requests : List Request := c.dcm.installRequests T (some c.spine) c.usedaqring c.atDcmPodOnly

def apply (ds : Datastore) (c : PathCall) : Datastore :=
  c.dcm.installPath T (some c.spine) c.usedaqring c.atDcmPodOnly ds

/-- Whether the spine and the leaves of the other pods send to the ring. -/
def spineRing : Bool := !(c.atDcmPodOnly || !c.usedaqring)

/-- The end node of the Dcm and the spine are in the topology. -/
structure Known : Prop where
  node : ∃ y host, c.dcm.node = endName y host ∧ endName y host ∈ T.names
  spine : ∃ x z, c.spine = spineName x z ∧ spineName x z ∈ T.names

/-- What a call writes is in the datastore, and nothing else under the same ids. -/
def InPlace (ds : Datastore) : Prop := ∀ r ∈ c.requests T, Settled Flow.id (ds r.1) r.2

end PathCall

/-! ## The hops of a call -/

/-- The hops of a call in a leaf-spine topology, for a spine in the plane `x` and a Dcm in the
pod `y`. -/
structure HopsOf (T : Topology) (pods : ℕ) (c : PathCall) (x y : ℕ) (hops : List Hop) : Prop where
  eq : c.dcm.installPathHops T (some c.spine) c.usedaqring c.atDcmPodOnly = some hops
  node : ∃ host, c.dcm.node = endName y host
  spine : ∃ z, c.spine = spineName x z
  mem_iff : ∀ h, h ∈ hops ↔ h = ⟨podNode x y, some c.dcm.node, c.usedaqring⟩ ∨
    h = ⟨c.spine, some (podNode x y), c.spineRing⟩ ∨
    (∃ i, (1 ≤ i ∧ i ≤ pods) ∧ i ≠ y ∧ h = ⟨podNode x i, some c.spine, c.spineRing⟩) ∨
    ∃ i host, endName i host ∈ T.names ∧ endName i host ≠ c.dcm.node ∧
      h = ⟨endName i host, some (podNode x i), false⟩

section Hops

variable {T : Topology} {planes pods : ℕ} {c : PathCall} {h h' : Hop} {hops : List Hop} {x y : ℕ}

lemma exists_hopsOf (hT : LeafSpine T planes pods) (hc : c.Known T) :
    ∃ x y hops, HopsOf T pods c x y hops := by
  obtain ⟨y, host, hnode, hnodeMem⟩ := hc.node
  obtain ⟨x, z, hspine, hspineMem⟩ := hc.spine
  have hplane := hT.spine_mem hspineMem
  have hpod := (hT.endNode_mem hnodeMem).1
  have hpods := hT.getNpods_eq (hplane.1.trans hplane.2)
  have hgetPlane : getPlaneId c.spine = some x := hspine ▸ getPlaneId_spineName
  obtain ⟨hops, hhops⟩ : ∃ hops,
      c.dcm.installPathHops T (some c.spine) c.usedaqring c.atDcmPodOnly = some hops :=
    Dcm.exists_installPathHops (getPodId_endName hnode) hgetPlane
  refine ⟨x, y, hops, hhops, ⟨host, hnode⟩, ⟨z, hspine⟩, ?_⟩
  intro h
  rw [Dcm.mem_installPathHops (getPodId_endName hnode) hgetPlane (hT.leaf x y hplane hpod) hhops,
    hpods, PathCall.spineRing]
  refine or_congr Iff.rfl (or_congr Iff.rfl ?_)
  -- the program counts the pods from 0
  constructor
  · rintro ⟨i, hi, ⟨hne, rfl⟩ | ⟨e, he, hne, rfl⟩⟩
    · exact Or.inl ⟨i + 1, by omega, hne, rfl⟩
    · obtain ⟨host', rfl, hmem⟩ := (hT.mem_getPodEndnodes (by omega)).mp he
      exact Or.inr ⟨i + 1, host', hmem, hne, rfl⟩
  · rintro (⟨i, hi, hne, rfl⟩ | ⟨i, host', hmem, hne, rfl⟩)
    · obtain ⟨k, rfl⟩ : ∃ k, i = k + 1 := ⟨i - 1, by omega⟩
      exact ⟨k, by omega, Or.inl ⟨hne, rfl⟩⟩
    · have hi := (hT.endNode_mem hmem).1
      obtain ⟨k, rfl⟩ : ∃ k, i = k + 1 := ⟨i - 1, by omega⟩
      exact ⟨k, by omega, Or.inr ⟨_, (hT.mem_getPodEndnodes hi.2).mpr ⟨host', rfl, hmem⟩, hne, rfl⟩⟩

/-- A bridge has one hop. -/
lemma HopsOf.eq_of_atNode (H : HopsOf T pods c x y hops) (hh : h ∈ hops) (hh' : h' ∈ hops)
    (hat : h.atNode = h'.atNode) : h = h' := by
  obtain ⟨z, hz⟩ := H.spine
  rcases (H.mem_iff h).mp hh with rfl | rfl | ⟨i, -, hi, rfl⟩ | ⟨i, host, -, -, rfl⟩ <;>
    rcases (H.mem_iff h').mp hh' with rfl | rfl | ⟨j, -, hj, rfl⟩ | ⟨j, host', -, -, rfl⟩ <;>
    simp only [hz] at hat ⊢
  · exact absurd hat podNode_ne_spineName
  · exact absurd (podNode_inj.mp hat).2.symm hj
  · exact absurd hat.symm endName_ne_podNode
  · exact absurd hat.symm podNode_ne_spineName
  · exact absurd hat.symm podNode_ne_spineName
  · exact absurd hat.symm endName_ne_spineName
  · exact absurd (podNode_inj.mp hat).2 hi
  · exact absurd hat podNode_ne_spineName
  · rw [(podNode_inj.mp hat).2]
  · exact absurd hat.symm endName_ne_podNode
  · exact absurd hat endName_ne_podNode
  · exact absurd hat endName_ne_spineName
  · exact absurd hat endName_ne_podNode
  · obtain ⟨rfl, rfl⟩ := endName_inj.mp hat
    rfl

/-- The bridges of a hop are linked. -/
lemma HopsOf.linked (H : HopsOf T pods c x y hops) (hT : LeafSpine T planes pods)
    (hc : c.Known T) (hh : h ∈ hops) :
    ∃ toNode, h.toNode = some toNode ∧ T.Linked h.atNode toNode := by
  obtain ⟨host, hnode⟩ := H.node
  obtain ⟨z, hspine⟩ := H.spine
  have hnodeMem : endName y host ∈ T.names := by
    obtain ⟨y', host', heq, hmem⟩ := hc.node
    rwa [← hnode, heq]
  have hspineMem : spineName x z ∈ T.names := by
    obtain ⟨x', z', heq, hmem⟩ := hc.spine
    rwa [← hspine, heq]
  have hplane := hT.spine_mem hspineMem
  have hpod := (hT.endNode_mem hnodeMem).1
  rcases (H.mem_iff h).mp hh with rfl | rfl | ⟨i, hi, -, rfl⟩ | ⟨i, host', hmem, -, rfl⟩
  · exact ⟨_, rfl, hnode ▸ hT.linked_symm (hT.endLinked y host x hnodeMem hplane)⟩
  · exact ⟨_, rfl, hspine ▸ hT.linked_symm (hT.spineLinked x y z hspineMem hpod)⟩
  · exact ⟨_, rfl, hspine ▸ hT.spineLinked x i z hspineMem hi⟩
  · exact ⟨_, rfl, hT.endLinked i host' x hmem hplane⟩

/-- A hop with linked bridges can be installed: the chosen port, and the requests for it. -/
lemma exists_installSubpath (d : Dcm) {toNode : Str} (hto : h.toNode = some toNode)
    (hlink : T.Linked h.atNode toNode) :
    ∃ b dstB ofDport, T.getBridge h.atNode = some b ∧ T.getBridge toNode = some dstB ∧
      ofDport ∈ b.getPortForDst dstB.ofId ∧
      d.installSubpath T h = some (d.subpathRequests b.ofId ofDport h.usedaqring) := by
  obtain ⟨b, dstB, hb, hdst, hne⟩ := hlink
  obtain ⟨ofDport, hport⟩ := Dcm.ofDport_eq_some (d := d) hne
  exact ⟨b, dstB, ofDport, hb, hdst, List.mem_of_getElem? hport,
    Dcm.installSubpath_eq_some_iff.mpr ⟨toNode, b, dstB, ofDport, hto, hb, hdst, hport, rfl⟩⟩

variable {r r' : Request}

lemma HopsOf.mem_requests_iff (H : HopsOf T pods c x y hops) (hT : LeafSpine T planes pods)
    (hc : c.Known T) : r ∈ c.requests T ↔
      ∃ h ∈ hops, ∃ rs, c.dcm.installSubpath T h = some rs ∧ r ∈ rs := by
  rw [PathCall.requests, Dcm.installRequests, H.eq]
  refine ⟨Dcm.exists_hop_of_mem_requests, fun ⟨h, hh, rs, hrs, hr⟩ =>
    Dcm.mem_requests_of_forall ?_ hh hrs hr⟩
  intro g hg
  obtain ⟨toNode, hto, hlink⟩ := H.linked hT hc hg
  obtain ⟨b, dstB, ofDport, -, -, -, hsome⟩ := exists_installSubpath c.dcm hto hlink
  exact ⟨_, hsome⟩

/-- In the requests for a hop, an id stands for one flow. -/
lemma subpathRequests_consistent {d : Dcm} {ofId ofDport : ℕ} {usedaqring : Bool}
    (hr : r ∈ d.subpathRequests ofId ofDport usedaqring)
    (hr' : r' ∈ d.subpathRequests ofId ofDport usedaqring) (hid : r.2.id = r'.2.id) : r = r' := by
  have hne (i : ℕ) : d.outdaqringflowId ≠ d.inflowId i := by
    simp [Dcm.outdaqringflowId, Dcm.inflowId]
  rcases Dcm.mem_subpathRequests.mp hr with ⟨-, rfl⟩ | ⟨ji, hji, rfl⟩ <;>
    rcases Dcm.mem_subpathRequests.mp hr' with ⟨-, rfl⟩ | ⟨ji', hji', rfl⟩
  · rfl
  · exact absurd hid (hne _)
  · exact absurd hid.symm (hne _)
  · have hi : ji.2 = ji'.2 := by
      simpa [Dcm.flowIn, Dcm.inflowId, str_inj] using hid
    obtain ⟨inflow, i⟩ := ji
    obtain ⟨inflow', i'⟩ := ji'
    obtain rfl : i = i' := hi
    rw [List.mk_mem_zipIdx_iff_le_and_getElem?_sub] at hji hji'
    obtain rfl : inflow = inflow' := Option.some_inj.mp (hji.2.symm.trans hji'.2)
    rfl

/-- So it does in the requests of a call at one bridge. -/
lemma HopsOf.consistent (H : HopsOf T pods c x y hops) (hT : LeafSpine T planes pods)
    (hc : c.Known T) (hr : r ∈ c.requests T) (hr' : r' ∈ c.requests T) (hb : r.1 = r'.1)
    (hid : r.2.id = r'.2.id) : r = r' := by
  obtain ⟨h, hh, rs, hrs, hr⟩ := (H.mem_requests_iff hT hc).mp hr
  obtain ⟨h', hh', rs', hrs', hr'⟩ := (H.mem_requests_iff hT hc).mp hr'
  have hofId {g : Hop} {qs : List Request} {q : Request}
      (hqs : c.dcm.installSubpath T g = some qs) (hq : q ∈ qs) :
      ∃ b, T.getBridge g.atNode = some b ∧ q.1 = b.ofId := by
    obtain ⟨toNode, b, dstB, ofDport, -, hb, -, -, rfl⟩ := Dcm.installSubpath_eq_some_iff.mp hqs
    rcases Dcm.mem_subpathRequests.mp hq with ⟨-, rfl⟩ | ⟨ji, -, rfl⟩ <;> exact ⟨b, hb, rfl⟩
  obtain ⟨b, hbridge, hrb⟩ := hofId hrs hr
  obtain ⟨b', hbridge', hrb'⟩ := hofId hrs' hr'
  have hsame := hT.ofIds.eq (Topology.getBridge_eq_some_iff.mp hbridge)
    (Topology.getBridge_eq_some_iff.mp hbridge') (hrb.symm.trans (hb.trans hrb'))
  obtain rfl : h = h' := H.eq_of_atNode hh hh' (congrArg Prod.fst hsame)
  obtain rfl : rs = rs' := Option.some_inj.mp (hrs.symm.trans hrs')
  obtain ⟨toNode, b, dstB, ofDport, -, -, -, -, rfl⟩ := Dcm.installSubpath_eq_some_iff.mp hrs
  exact subpathRequests_consistent hr hr' hid

end Hops

/-! ## Histories -/

section History

variable {T : Topology} {planes pods : ℕ} {c c' : PathCall} {calls : List PathCall} {ds : Datastore}

/-- A call puts its own requests in place. -/
lemma inPlace_apply (hT : LeafSpine T planes pods) (hc : c.Known T) (ds : Datastore) :
    c.InPlace T (c.apply T ds) := by
  obtain ⟨x, y, hops, H⟩ := exists_hopsOf hT hc
  refine fun r hr => settled_foldl_putAt hr ?_ ds
  intro w hw hb hkey
  rw [H.consistent hT hc hw hr hb hkey]

/-- The call of another Dcm leaves them there. -/
lemma PathCall.InPlace.apply (h : c.InPlace T ds) (hid : c'.dcm.id ≠ c.dcm.id) :
    c.InPlace T (c'.apply T ds) := by
  refine fun r hr => (h r hr).foldl_putAt fun w hw _ hkey => absurd ?_
    (Dcm.not_owns (Dcm.installRequests_requestOf hw).owns hid)
  rw [hkey]
  exact (Dcm.installRequests_requestOf hr).owns

/-- After a sequence of calls, some call of every Dcm is in place. -/
lemma exists_inPlace (hT : LeafSpine T planes pods) (ds : Datastore)
    (hknown : ∀ c ∈ calls, c.Known T)
    (hids : ∀ c ∈ calls, ∀ c' ∈ calls, c.dcm.id = c'.dcm.id → c.dcm = c'.dcm) :
    ∀ c ∈ calls, ∃ c' ∈ calls,
      c'.dcm = c.dcm ∧ c'.InPlace T (calls.foldl (PathCall.apply T) ds) := by
  induction calls using List.reverseRecOn with
  | nil => simp
  | append_singleton calls last ih =>
    have hold := ih (fun c hc => hknown c (List.mem_append_left _ hc))
      (fun c hc c' hc' => hids c (List.mem_append_left _ hc) c' (List.mem_append_left _ hc'))
    have hlast : last ∈ calls ++ [last] := by simp
    intro c hc
    rw [List.foldl_append, List.foldl_cons, List.foldl_nil]
    by_cases hsame : last.dcm = c.dcm
    · exact ⟨last, hlast, hsame, inPlace_apply hT (hknown last hlast) _⟩
    · have hcmem : c ∈ calls := by
        rcases List.mem_append.mp hc with hc | hc
        · exact hc
        · exact absurd (congrArg PathCall.dcm (List.mem_singleton.mp hc)).symm hsame
      obtain ⟨c', hc', hdcm, hplace⟩ := hold c hcmem
      refine ⟨c', List.mem_append_left _ hc', hdcm, hplace.apply fun hid => hsame ?_⟩
      rw [← hdcm]
      exact hids last hlast c' (List.mem_append_left _ hc') hid

/-- What is in the datastore was there before or comes from a call. -/
lemma mem_foldl_apply {b : ℕ} {f : Flow} (h : f ∈ calls.foldl (PathCall.apply T) ds b) :
    f ∈ ds b ∨ ∃ c ∈ calls, (b, f) ∈ c.requests T := by
  induction calls generalizing ds with
  | nil => exact Or.inl h
  | cons c calls ih =>
    rcases ih h with h | ⟨c', hc', h⟩
    · exact (mem_foldl_putAt h).imp_right fun h => ⟨c, List.mem_cons_self, h⟩
    · exact Or.inr ⟨c', List.mem_cons_of_mem _ hc', h⟩

end History

/-! ## Matching flows -/

/-- A TCP packet of an inflow. -/
def Dcm.packet (d : Dcm) (inflow : Inflow) : Packet where
  ethernetType := 2048
  ipProtocol := 6
  ipv4Source := inflow.sip
  ipv4Destination := d.dip
  sourcePort := inflow.sport
  destinationPort := inflow.dport

/-- The flows that are there before do not match TCP packets, or have lower priorities. -/
def Background (ds : Datastore) : Prop :=
  ∀ b, ∀ f ∈ ds b, f.priority < 110 ∨ ∃ t ∈ f.flowMatch.ethernetType, t ≠ 2048

/-- Calls of Dcms with distinct ids and disjoint connections, with the daqring ports of a
list. -/
structure PathCalls (T : Topology) (rings : List ℕ) (calls : List PathCall) : Prop where
  known : ∀ c ∈ calls, c.Known T
  ids : ∀ c ∈ calls, ∀ c' ∈ calls, c.dcm.id = c'.dcm.id → c.dcm = c'.dcm
  connections : ∀ c ∈ calls, ∀ c' ∈ calls, c.dcm.dip = c'.dcm.dip →
    ∀ inflow ∈ c.dcm.inflows, inflow ∈ c'.dcm.inflows → c.dcm = c'.dcm
  daqrings : ∀ c ∈ calls, c.dcm.daqringId ∈ rings
  notPhysical : ∀ nb ∈ T.bridges, ∀ l ∈ nb.2.ports, l.1 ∉ rings

section Matching

variable {d d' : Dcm} {inflow inflow' : Inflow} {i ofId port : ℕ} {inPort : ℕ × Port}

lemma flowIn_hits_iff : (d.flowIn i inflow port).Hits ⟨inPort, d'.packet inflow'⟩ ↔
    d.dip = d'.dip ∧ inflow = inflow' := by
  obtain ⟨dport, sip, sport⟩ := inflow
  obtain ⟨dport', sip', sport'⟩ := inflow'
  simp only [Flow.Hits, Match.hits, Dcm.flowIn, Dcm.packet, Option.all_none, Option.all_some,
    Bool.and_eq_true, beq_iff_eq, Ipv4Prefix.covers_four, Inflow.mk.injEq]
  grind

lemma flowDaqringOut_hits_iff {pk : Packet} :
    (d.flowDaqringOut ofId port).Hits ⟨inPort, pk⟩ ↔ inPort = (ofId, .num d.daqringId) := by
  simp only [Flow.Hits, Match.hits, Dcm.flowDaqringOut, flowInit, Option.all_none, Option.all_some,
    Bool.and_true, beq_iff_eq]
  exact eq_comm

end Matching

section Matching

variable {T : Topology} {rings : List ℕ} {calls : List PathCall} {ds : Datastore} {c : PathCall}
  {inflow : Inflow} {b port : ℕ} {inPort : Port}

/-- The two kinds of flows of a call. -/
lemma PathCall.requests_cases {f : Flow} (h : (b, f) ∈ c.requests T) :
    (∃ port, f = c.dcm.flowDaqringOut b port) ∨
      ∃ ji ∈ c.dcm.inflows.zipIdx 1, ∃ port, f = c.dcm.flowIn ji.2 ji.1 port := by
  unfold requests Dcm.installRequests at h
  split at h
  · cases h
  · obtain ⟨hop, -, rs, hrs, hr⟩ := Dcm.exists_hop_of_mem_requests h
    obtain ⟨toNode, b, dstB, ofDport, -, -, -, -, rfl⟩ := Dcm.installSubpath_eq_some_iff.mp hrs
    rcases Dcm.mem_subpathRequests.mp hr with ⟨-, heq⟩ | ⟨ji, hji, heq⟩
    · obtain ⟨rfl, rfl⟩ := Prod.mk.inj heq
      exact Or.inl ⟨_, rfl⟩
    · obtain ⟨rfl, rfl⟩ := Prod.mk.inj heq
      exact Or.inr ⟨ji, hji, _, rfl⟩

/-- The flows that may be picked for a packet of an inflow: those for the inflow itself, and
the way out of the ring that the packet is in. -/
lemma matching_cases (hcalls : PathCalls T rings calls) (hds : Background ds) (hc : c ∈ calls)
    (hinflow : inflow ∈ c.dcm.inflows) {f : Flow}
    (hf : f ∈ calls.foldl (PathCall.apply T) ds b)
    (hhit : f.Hits ⟨(b, inPort), c.dcm.packet inflow⟩) (hprio : 110 ≤ f.priority) :
    (∃ i port, (inflow, i) ∈ c.dcm.inflows.zipIdx 1 ∧ f = c.dcm.flowIn i inflow port) ∨
      ∃ c' ∈ calls, inPort = .num c'.dcm.daqringId ∧ ∃ port, f = c'.dcm.flowDaqringOut b port := by
  rcases mem_foldl_apply hf with hf | ⟨c', hc', hf⟩
  · exfalso
    rcases hds b f hf with hlow | ⟨t, ht, hne⟩
    · omega
    · simp only [Flow.Hits, Match.hits, Option.mem_def.mp ht, Option.all_some, Bool.and_eq_true,
        beq_iff_eq] at hhit
      exact hne hhit.1.1.1.1.1.1.1.2
  · rcases PathCall.requests_cases hf with ⟨port, rfl⟩ | ⟨⟨inflow', i⟩, hji, port, rfl⟩
    · have hin := (Prod.mk.inj (flowDaqringOut_hits_iff.mp hhit)).2
      exact Or.inr ⟨c', hc', hin, port, rfl⟩
    · obtain ⟨hdip, rfl⟩ := flowIn_hits_iff.mp hhit
      have hmem : inflow' ∈ c'.dcm.inflows := List.fst_mem_of_mem_zipIdx hji
      have hsame := hcalls.connections c' hc' c hc hdip inflow' hmem hinflow
      exact Or.inl ⟨i, port, hsame ▸ hji, hsame ▸ rfl⟩

variable (S : FlowSwitching (calls.foldl (PathCall.apply T) ds))

/-- Outside of the rings, a bridge sends the packet to the port of its hop. -/
lemma output_of_inflow (hcalls : PathCalls T rings calls) (hds : Background ds) (hc : c ∈ calls)
    (hplace : c.InPlace T (calls.foldl (PathCall.apply T) ds)) (hinflow : inflow ∈ c.dcm.inflows)
    (hport : ∀ ji ∈ c.dcm.inflows.zipIdx 1, (b, c.dcm.flowIn ji.2 ji.1 port) ∈ c.requests T)
    (hin : ∀ c' ∈ calls, inPort ≠ .num c'.dcm.daqringId) :
    (S.pick b ⟨(b, inPort), c.dcm.packet inflow⟩).bind Flow.output = some (.num port) := by
  obtain ⟨k, hk⟩ := List.mem_iff_getElem?.mp hinflow
  have hi : (inflow, 1 + k) ∈ c.dcm.inflows.zipIdx 1 := List.mk_add_mem_zipIdx_iff_getElem?.mpr hk
  obtain ⟨f, hpick, -, hout⟩ := S.exists_pick (hplace _ (hport _ hi)).1
    (flowIn_hits_iff.mpr ⟨rfl, rfl⟩) (P := fun f => f.output = some (.num port))
    (fun f hf hhit hprio => by
      rcases matching_cases hcalls hds hc hinflow hf hhit hprio with
        ⟨j, port', hj, rfl⟩ | ⟨c', hc', heq, -⟩
      · rw [(hplace _ (hport _ hj)).2 _ hf rfl]
        rfl
      · exact absurd heq (hin c' hc'))
  rw [hpick, Option.bind_some, hout]

/-- In the ring of the Dcm, it sends the packet out of the ring. -/
lemma output_of_ring (hcalls : PathCalls T rings calls) (hds : Background ds) (hc : c ∈ calls)
    (hplace : c.InPlace T (calls.foldl (PathCall.apply T) ds)) (hinflow : inflow ∈ c.dcm.inflows)
    (hport : (b, c.dcm.flowDaqringOut b port) ∈ c.requests T) :
    (S.pick b ⟨(b, .num c.dcm.daqringId), c.dcm.packet inflow⟩).bind Flow.output =
      some (.num port) := by
  obtain ⟨f, hpick, -, hout⟩ := S.exists_pick (hplace _ hport).1
    (flowDaqringOut_hits_iff.mpr rfl) (P := fun f => f.output = some (.num port))
    (fun f hf hhit hprio => by
      have hprio' : 111 ≤ f.priority := hprio
      rcases matching_cases hcalls hds hc hinflow hf hhit (by omega) with
        ⟨j, port', hj, rfl⟩ | ⟨c', hc', heq, port', rfl⟩
      · exact absurd hprio' (by simp [Dcm.flowIn])
      · have hid : c'.dcm.id = c.dcm.id := by
          simpa [Dcm.daqringId] using heq.symm
        rw [hcalls.ids c' hc' c hc hid] at hf ⊢
        rw [(hplace _ hport).2 _ hf rfl]
        rfl)
  rw [hpick, Option.bind_some, hout]

end Matching

/-! ## Following the hops -/

section Following

variable {T : Topology} {planes pods : ℕ} {rings : List ℕ} {calls : List PathCall}
  {ds : Datastore} {c : PathCall} {x y : ℕ} {hops : List Hop} {inflow : Inflow} {inPort : Port}
  (S : FlowSwitching (calls.foldl (PathCall.apply T) ds))

/-- Over one hop: the packet comes to the next bridge, perhaps through the ring. -/
lemma delivers_hop (hT : LeafSpine T planes pods) (hcalls : PathCalls T rings calls)
    (hds : Background ds) (hc : c ∈ calls) (H : HopsOf T pods c x y hops)
    (hplace : c.InPlace T (calls.foldl (PathCall.apply T) ds)) (hinflow : inflow ∈ c.dcm.inflows)
    {h : Hop} (hh : h ∈ hops) {toNode : Str} (hto : h.toNode = some toNode) {b dstB : Bridge}
    (hb : T.getBridge h.atNode = some b) (hdst : T.getBridge toNode = some dstB)
    (hin : ∀ p ∈ b.getPortForDst dstB.ofId, inPort ≠ .num p)
    (hclear : ∀ q ∈ rings, inPort ≠ .num q) :
    ∃ dstPort p, (dstPort, b.ofId, p) ∈ dstB.ports ∧ ∀ goal path,
      Delivers (forward T rings S.pick (c.dcm.packet inflow)) goal
        (.bridge dstB.ofId (.num dstPort)) path →
      ∃ path', Delivers (forward T rings S.pick (c.dcm.packet inflow)) goal
          (.bridge b.ofId inPort) path' ∧
        visits rings path' = b.ofId :: visits rings path := by
  have hknown := hcalls.known c hc
  have hbMem := Topology.getBridge_eq_some_iff.mp hb
  obtain ⟨toNode', hto', hlink⟩ := H.linked hT hknown hh
  obtain rfl : toNode' = toNode := Option.some_inj.mp (hto'.symm.trans hto)
  obtain ⟨b', dstB', ofDport, hb', hdst', hport, hrs⟩ := exists_installSubpath c.dcm hto hlink
  obtain rfl : b' = b := Option.some_inj.mp (hb'.symm.trans hb)
  obtain rfl : dstB' = dstB := Option.some_inj.mp (hdst'.symm.trans hdst)
  obtain ⟨dstPort, hlinkPort⟩ := Bridge.mem_getPortForDst.mp hport
  -- the other end of the link
  have hback : (dstPort, b'.ofId, ofDport) ∈ dstB'.ports := by
    obtain ⟨nb, hnb, hid, hmem⟩ := hT.links _ hbMem _ hlinkPort
    rwa [hT.ofIds.eq hnb (Topology.getBridge_eq_some_iff.mp hdst) hid] at hmem
  have hmem {r : Request} (hr : r ∈ c.dcm.subpathRequests b'.ofId ofDport h.usedaqring) :
      r ∈ c.requests T := (H.mem_requests_iff hT hknown).mpr ⟨h, hh, _, hrs, hr⟩
  have hnotRing : ∀ c' ∈ calls, inPort ≠ .num c'.dcm.daqringId :=
    fun c' hc' => hclear _ (hcalls.daqrings c' hc')
  refine ⟨dstPort, ofDport, hback, ?_⟩
  intro goal path hpath
  cases hring : h.usedaqring with
  | false =>
    have hout := output_of_inflow S hcalls hds hc hplace hinflow
      (fun ji hji => hmem (Dcm.mem_subpathRequests.mpr (Or.inr ⟨ji, hji, rfl⟩))) hnotRing
    rw [hring, if_neg Bool.false_ne_true] at hout
    refine ⟨_, .hop ?_ hpath, visits_cons_of_clear hclear⟩
    rw [forward, hout, Option.bind_some]
    exact transmit_link hT.ofIds hbMem hlinkPort (hin _ hport)
  | true =>
    have hout := output_of_inflow S hcalls hds hc hplace hinflow
      (fun ji hji => hmem (Dcm.mem_subpathRequests.mpr (Or.inr ⟨ji, hji, rfl⟩))) hnotRing
    rw [hring, if_pos rfl] at hout
    have hout' := output_of_ring S hcalls hds hc hplace hinflow
      (hmem (Dcm.mem_subpathRequests.mpr (Or.inl ⟨hring, rfl⟩)))
    have hqring := hcalls.daqrings c hc
    have hphys : ∀ l ∈ b'.ports, l.1 ≠ c.dcm.daqringId :=
      fun l hl heq => hcalls.notPhysical _ hbMem l hl (heq ▸ hqring)
    have henter : forward T rings S.pick (c.dcm.packet inflow) (.bridge b'.ofId inPort) =
        some (.bridge b'.ofId (.num c.dcm.daqringId)) := by
      rw [forward, hout, Option.bind_some]
      exact transmit_ring hT.ofIds hbMem hphys hqring (hnotRing c hc)
    have hleave : forward T rings S.pick (c.dcm.packet inflow)
        (.bridge b'.ofId (.num c.dcm.daqringId)) = some (.bridge dstB'.ofId (.num dstPort)) := by
      rw [forward, hout', Option.bind_some]
      exact transmit_link hT.ofIds hbMem hlinkPort
        fun heq => hphys _ hlinkPort (Port.num.inj heq).symm
    exact ⟨_, .hop henter (.hop hleave hpath),
      (visits_cons_of_clear hclear).trans (congrArg _ (visits_cons_of_ring hqring))⟩

/-- The OpenFlow ids of the bridges of a route. -/
def Topology.routeIds (T : Topology) (route : List Str) : List (Option ℕ) :=
  route.map fun name => (T.getBridge name).map Bridge.ofId

/-- Along a list of bridges that are joined by hops, the packet gets to the last one, and comes
to these bridges in turn and to none twice. -/
lemma delivers_chain (hT : LeafSpine T planes pods) (hcalls : PathCalls T rings calls)
    (hds : Background ds) (hc : c ∈ calls) (H : HopsOf T pods c x y hops)
    (hplace : c.InPlace T (calls.foldl (PathCall.apply T) ds)) (hinflow : inflow ∈ c.dcm.inflows)
    {route : List Str} {name target : Str} {b dst : Bridge}
    (hchain : (name :: route).IsChain fun n n' => ∃ ring, (⟨n, some n', ring⟩ : Hop) ∈ hops)
    (hnodup : (name :: route).Nodup) (hb : T.getBridge name = some b)
    (htarget : (name :: route).getLast? = some target) (hdst : T.getBridge target = some dst)
    (hin : ∀ n ∈ route, ∀ b', T.getBridge n = some b' → ∀ p ∈ b.getPortForDst b'.ofId,
      inPort ≠ .num p)
    (hclear : ∀ q ∈ rings, inPort ≠ .num q) :
    ∃ goalPort path, Delivers (forward T rings S.pick (c.dcm.packet inflow))
        (.bridge dst.ofId goalPort) (.bridge b.ofId inPort) path ∧
      (visits rings path).Nodup ∧
      (visits rings path).map some = T.routeIds (name :: route) := by
  induction route generalizing name b inPort with
  | nil =>
    obtain rfl : name = target := by simpa using htarget
    obtain rfl : b = dst := Option.some_inj.mp (hb.symm.trans hdst)
    have hvisits : visits rings [.bridge b.ofId inPort] = [b.ofId] :=
      visits_cons_of_clear hclear
    refine ⟨inPort, _, .arrive, ?_, ?_⟩
    · rw [hvisits]
      exact List.nodup_singleton _
    · simp [hvisits, Topology.routeIds, hb]
  | cons name' route ih =>
    obtain ⟨⟨ring, hh⟩, hchain'⟩ := List.isChain_cons_cons.mp hchain
    obtain ⟨hnotMem, hnodup'⟩ := List.nodup_cons.mp hnodup
    obtain ⟨toNode, hto, b₀, b', -, hb', -⟩ := H.linked hT (hcalls.known c hc) hh
    obtain rfl : name' = toNode := Option.some_inj.mp hto
    obtain ⟨dstPort, p, hback, hfollow⟩ := delivers_hop S hT hcalls hds hc H hplace hinflow hh rfl
      hb hb' (hin name' List.mem_cons_self b' hb') hclear
    have hbMem := Topology.getBridge_eq_some_iff.mp hb
    have hb'Mem := Topology.getBridge_eq_some_iff.mp hb'
    -- the packet does not go back: the port that it comes in on has its other end at `name`
    have hin' : ∀ n ∈ route, ∀ b'', T.getBridge n = some b'' →
        ∀ q ∈ b'.getPortForDst b''.ofId, Port.num dstPort ≠ .num q := by
      intro n hn b'' hb'' q hq heq
      obtain rfl := Port.num.inj heq
      obtain ⟨q', hq'⟩ := Bridge.mem_getPortForDst.mp hq
      have hends := List.inj_on_of_nodup_map b'.portsNodup hback hq' rfl
      have hid : b.ofId = b''.ofId := (Prod.mk.inj (Prod.mk.inj hends).2).1
      have hsame := hT.ofIds.eq hbMem (Topology.getBridge_eq_some_iff.mp hb'') hid
      exact hnotMem (List.mem_cons_of_mem _ ((Prod.mk.inj hsame).1 ▸ hn))
    have hclear' : ∀ q ∈ rings, Port.num dstPort ≠ .num q := by
      intro q hq heq
      exact hcalls.notPhysical _ hb'Mem _ hback (Port.num.inj heq ▸ hq)
    obtain ⟨goalPort, path, hpath, hvisits, hids⟩ :=
      ih hchain' hnodup' hb' (by simpa using htarget) hin' hclear'
    obtain ⟨path', hpath', hvisits'⟩ := hfollow _ path hpath
    refine ⟨goalPort, path', hpath', ?_, ?_⟩
    · rw [hvisits', List.nodup_cons]
      refine ⟨?_, hvisits⟩
      intro hmem
      have hmemIds : some b.ofId ∈ T.routeIds (name' :: route) := hids ▸ List.mem_map_of_mem hmem
      obtain ⟨n, hn, hfound⟩ := List.mem_map.mp hmemIds
      obtain ⟨b'', hb'', hid⟩ := Option.map_eq_some_iff.mp hfound
      have hsame := hT.ofIds.eq hbMem (Topology.getBridge_eq_some_iff.mp hb'') hid.symm
      exact hnotMem ((Prod.mk.inj hsame).1 ▸ hn)
    · rw [hvisits', List.map_cons, hids]
      simp [Topology.routeIds, hb]

/-- From an end node in another pod: up to its leaf and the spine, and down to the Dcm. -/
lemma HopsOf.route_of_ne (H : HopsOf T pods c x y hops) (hT : LeafSpine T planes pods) {i : ℕ}
    {host : Str} (hname : endName i host ∈ T.names) (hne : endName i host ≠ c.dcm.node)
    (hi : i ≠ y) :
    [endName i host, podNode x i, c.spine, podNode x y, c.dcm.node].IsChain
        (fun n n' => ∃ ring, (⟨n, some n', ring⟩ : Hop) ∈ hops) ∧
      [endName i host, podNode x i, c.spine, podNode x y, c.dcm.node].Nodup := by
  obtain ⟨host', hnode⟩ := H.node
  obtain ⟨z, hspine⟩ := H.spine
  have hup : (⟨endName i host, some (podNode x i), false⟩ : Hop) ∈ hops :=
    (H.mem_iff _).mpr (Or.inr (Or.inr (Or.inr ⟨i, host, hname, hne, rfl⟩)))
  have hdown : (⟨podNode x y, some c.dcm.node, c.usedaqring⟩ : Hop) ∈ hops :=
    (H.mem_iff _).mpr (Or.inl rfl)
  have hpod := (hT.endNode_mem hname).1
  have hleaf : (⟨podNode x i, some c.spine, c.spineRing⟩ : Hop) ∈ hops :=
    (H.mem_iff _).mpr (Or.inr (Or.inr (Or.inl ⟨i, hpod, hi, rfl⟩)))
  have hspineHop : (⟨c.spine, some (podNode x y), c.spineRing⟩ : Hop) ∈ hops :=
    (H.mem_iff _).mpr (Or.inr (Or.inl rfl))
  constructor
  · simp only [List.isChain_cons_cons, List.isChain_singleton, and_true]
    exact ⟨⟨_, hup⟩, ⟨_, hleaf⟩, ⟨_, hspineHop⟩, _, hdown⟩
  · have hleafNode (k : ℕ) : podNode x k ≠ c.dcm.node := hnode ▸ endName_ne_podNode.symm
    have hspineNode : c.spine ≠ c.dcm.node := by
      rw [hspine, hnode]
      exact endName_ne_spineName.symm
    have hnames : podNode x i ≠ podNode x y := fun h => hi (podNode_inj.mp h).2
    simp [endName_ne_podNode, hne, hleafNode, hspine ▸ endName_ne_spineName,
      hspine ▸ podNode_ne_spineName, hspine ▸ podNode_ne_spineName.symm, hspineNode, hnames]

/-- The bridges from an end node to the one of the Dcm. -/
lemma HopsOf.exists_route (H : HopsOf T pods c x y hops) (hT : LeafSpine T planes pods) {i : ℕ}
    {host : Str} (hname : endName i host ∈ T.names) (hne : endName i host ≠ c.dcm.node) :
    ∃ route, (endName i host :: route).IsChain
        (fun n n' => ∃ ring, (⟨n, some n', ring⟩ : Hop) ∈ hops) ∧
      (endName i host :: route).Nodup ∧ (endName i host :: route).getLast? = some c.dcm.node := by
  by_cases hi : i = y
  · subst hi
    obtain ⟨host', hnode⟩ := H.node
    have hup : (⟨endName i host, some (podNode x i), false⟩ : Hop) ∈ hops :=
      (H.mem_iff _).mpr (Or.inr (Or.inr (Or.inr ⟨i, host, hname, hne, rfl⟩)))
    have hdown : (⟨podNode x i, some c.dcm.node, c.usedaqring⟩ : Hop) ∈ hops :=
      (H.mem_iff _).mpr (Or.inl rfl)
    have hleafNode : podNode x i ≠ c.dcm.node := hnode ▸ endName_ne_podNode.symm
    refine ⟨[podNode x i, c.dcm.node], ?_, ?_, rfl⟩
    · simp only [List.isChain_cons_cons, List.isChain_singleton, and_true]
      exact ⟨⟨_, hup⟩, _, hdown⟩
    · simp [endName_ne_podNode, hne, hleafNode]
  · obtain ⟨hchain, hnodup⟩ := H.route_of_ne hT hname hne hi
    exact ⟨[podNode x i, c.spine, podNode x y, c.dcm.node], hchain, hnodup, rfl⟩

end Following

/-- Path delivery: after any calls of `install_path`, a packet of an inflow of a Dcm that was
installed gets from every other end node to the end node of the Dcm, and comes to no bridge
twice. -/
theorem installPath_delivers {T : Topology} {planes pods : ℕ} {rings : List ℕ}
    {calls : List PathCall} {ds : Datastore} (hT : LeafSpine T planes pods)
    (hcalls : PathCalls T rings calls) (hds : Background ds)
    (S : FlowSwitching (calls.foldl (PathCall.apply T) ds)) {c : PathCall} (hc : c ∈ calls)
    {inflow : Inflow} (hinflow : inflow ∈ c.dcm.inflows) {i : ℕ} {host : Str} {b dst : Bridge}
    (hb : T.getBridge (endName i host) = some b) (hdst : T.getBridge c.dcm.node = some dst)
    (hne : endName i host ≠ c.dcm.node) :
    ∃ inPort path, Delivers (forward T rings S.pick (c.dcm.packet inflow))
        (.bridge dst.ofId inPort) (.bridge b.ofId .LOCAL) path ∧
      (visits rings path).Nodup := by
  obtain ⟨c', hc', hdcm, hplace⟩ := exists_inPlace hT ds hcalls.known hcalls.ids c hc
  rw [← hdcm] at hinflow hdst hne ⊢
  obtain ⟨x, y, hops, H⟩ := exists_hopsOf hT (hcalls.known c' hc')
  obtain ⟨route, hchain, hnodup, hlast⟩ := H.exists_route hT
    (Topology.mem_names.mpr ⟨b, hb⟩) hne
  have hin (p : ℕ) : Port.LOCAL ≠ .num p := by simp
  obtain ⟨goalPort, path, hpath, hvisits, -⟩ := delivers_chain S hT hcalls hds hc' H hplace hinflow
    hchain hnodup hb hlast hdst (fun _ _ _ _ p _ => hin p) (fun q _ => hin q)
  exact ⟨goalPort, path, hpath, hvisits⟩

/-- A Dcm at the first end node that uses rings everywhere. -/
def twoPodsCall : PathCall where
  dcm :=
    { id := 1, node := endName 1 ['a'], dip := ⟨20, 1, 1, 4⟩
      inflows := [⟨1000, ⟨20, 1, 2, 5⟩, 2000⟩], pid := 0 }
  spine := spineName 1 1
  usedaqring := true
  atDcmPodOnly := false

theorem installPath_delivers_twoPods :
    ∃ inPort path, Delivers
        (forward twoPods [101]
          (Switching.first : FlowSwitching (twoPodsCall.apply twoPods fun _ => [])).pick
          (twoPodsCall.dcm.packet ⟨1000, ⟨20, 1, 2, 5⟩, 2000⟩))
        (.bridge 4 inPort) (.bridge 5 .LOCAL) path ∧
      (visits [101] path).Nodup := by
  have hcalls : PathCalls twoPods [101] [twoPodsCall] :=
    { known := by
        intro c hc
        obtain rfl := List.mem_singleton.mp hc
        exact ⟨⟨1, ['a'], rfl, by simp [twoPods_names]⟩, 1, 1, rfl, by simp [twoPods_names]⟩
      ids := by simp
      connections := by simp
      daqrings := by decide
      notPhysical := by decide }
  have hb : twoPods.getBridge (endName 2 ['b']) =
      some { ofId := 5, ports := [(1, 3, 2)], mgmtIp := ⟨10, 0, 0, 5⟩ } := rfl
  have hdst : twoPods.getBridge twoPodsCall.dcm.node =
      some { ofId := 4, ports := [(1, 2, 2)], mgmtIp := ⟨10, 0, 0, 4⟩ } := rfl
  exact installPath_delivers leafSpine_twoPods hcalls (fun _ _ hf => absurd hf List.not_mem_nil)
    Switching.first List.mem_cons_self List.mem_cons_self hb hdst (by decide)

end DaqSwitch.Odl
