import DaqSwitch.Odl.DefaultTables

/-!
# Delivery by the default routes

A packet from one end node to another goes to the leaf of its pod, and from there to the leaf
of the destination: so far there is only one flow that can be picked.  At that leaf the route
of the end node (`/32`) and the default route to the spine (`/16`) have the same priority.
With the first the packet arrives, if the link comes in at the port 1 or 2 of the end node;
with the second it is lost or comes back.
-/

namespace DaqSwitch.Odl

open Lib Lib.Text Lib.KeyedTable Lib.Forwarding

/-- The flows that are there before do not match IPv4 packets, or have lower priorities and
drop them. -/
def DefaultBackground (ds : Datastore) : Prop :=
  ∀ b, ∀ f ∈ ds b, (∃ t ∈ f.flowMatch.ethernetType, t ≠ 2048) ∨ f.priority < 97 ∧ f.output = none

/-- A packet to the address of an end node, by its pod and its bridge. -/
structure Packet.IsTo (pk : Packet) (pod : ℕ) (b : Bridge) : Prop where
  ethernetType : pk.ethernetType = 2048
  ipv4Destination : pk.ipv4Destination = ⟨20, 1, pod, b.mgmtIp.d⟩

/-! ## Matching flows -/

section Matching

variable {pk : Packet} {inPort : ℕ × Port} {ofId order defaultPort port priority y pod : ℕ}
  {b : Bridge} {dst : Ipv4Prefix} {dstName : Str} {ds : Datastore} {f : Flow}

lemma defaultOut_hits_iff :
    (defaultOut ofId order defaultPort).Hits ⟨inPort, pk⟩ ↔ inPort = (ofId, .LOCAL) := by
  simp only [Flow.Hits, Match.hits, defaultOut_match, Option.all_none, Option.all_some,
    Bool.and_true, beq_iff_eq]
  exact eq_comm

lemma defaultIn_hits_iff :
    (defaultIn b port).Hits ⟨inPort, pk⟩ ↔ inPort = (b.ofId, .num port) := by
  simp only [Flow.Hits, Match.hits, defaultIn_match, Option.all_none, Option.all_some,
    Bool.and_true, beq_iff_eq]
  exact eq_comm

lemma defaultOut_id_ne : (defaultOut ofId order defaultPort).id ≠ (defaultIn b port).id := by
  simp

lemma defaultIn_id_inj {port' : ℕ} (h : (defaultIn b port).id = (defaultIn b port').id) :
    port = port' := by
  rw [defaultIn_id, defaultIn_id] at h
  exact str_inj.mp (List.append_cancel_left h)

lemma Packet.IsTo.routeTo_hits_iff (h : pk.IsTo pod b) :
    (routeTo priority dst dstName port).Hits ⟨inPort, pk⟩ ↔
      dst.covers ⟨20, 1, pod, b.mgmtIp.d⟩ = true := by
  simp [Flow.Hits, Match.hits, h.ethernetType, h.ipv4Destination]

/-- The prefix of a pod covers the addresses of the pod. -/
lemma covers_three {d : ℕ} : (⟨⟨20, 1, y, 0⟩, 3⟩ : Ipv4Prefix).covers ⟨20, 1, pod, d⟩ = true ↔
    y = pod := by
  simp [Ipv4Prefix.covers, Ipv4.octets]

lemma covers_two {d : ℕ} : (⟨⟨20, 1, 0, 0⟩, 2⟩ : Ipv4Prefix).covers ⟨20, 1, pod, d⟩ = true := by
  simp [Ipv4Prefix.covers, Ipv4.octets]

/-- The flows that are there before drop the packet if they match it. -/
lemma DefaultBackground.of_hits (hds : DefaultBackground ds) (hpk : pk.ethernetType = 2048)
    (hf : f ∈ ds ofId) (hhit : f.Hits ⟨inPort, pk⟩) : f.priority < 97 ∧ f.output = none := by
  rcases hds ofId f hf with ⟨t, ht, hne⟩ | hlow
  · simp only [Flow.Hits, Match.hits, Option.mem_def.mp ht, Option.all_some, Bool.and_eq_true,
      beq_iff_eq, hpk] at hhit
    exact absurd hhit.1.1.1.1.1.1.1.2 hne
  · exact hlow

end Matching

/-! ## Picked flows -/

section Picked

variable {T : Topology} {podOf : Str → ℕ} {defaultPort : ℕ} {ds : Datastore} {pk : Packet}
  {x y z : ℕ} {name : Str} {b leaf spine : Bridge} {inPort : Port}
  (S : FlowSwitching (T.setDefaultFlows defaultPort ds))

/-- Under the id of a request there is a flow, and it is one of a request. -/
lemma DefaultScheme.exists_mem (hT : DefaultScheme T podOf defaultPort) {n : ℕ} {f : Flow}
    (h : some (n, f) ∈ T.defaultSteps defaultPort) (ds : Datastore) :
    ∃ f' ∈ T.setDefaultFlows defaultPort ds n, f'.id = f.id ∧
      some (n, f') ∈ T.defaultSteps defaultPort := by
  obtain ⟨f', hmem, hid, hf'⟩ : ∃ f', (n, f') ∈ (T.defaultSteps defaultPort).reduceOption ∧
      f'.id = f.id ∧ f' ∈ T.setDefaultFlows defaultPort ds n := by
    rw [Topology.setDefaultFlows, hT.untilException_eq]
    exact exists_mem_foldl_putAt (List.reduceOption_mem_iff.mpr h) ds
  exact ⟨f', hf', hid, List.reduceOption_mem_iff.mp hmem⟩

/-- The flows of an end node are in its table; the order of the flow out is 0 or 1. -/
lemma DefaultScheme.mem_endNode (hT : DefaultScheme T podOf defaultPort)
    (he : EndNodeName name) (hb : T.getBridge name = some b) (ds : Datastore) :
    (∃ order, defaultOut b.ofId order defaultPort ∈ T.setDefaultFlows defaultPort ds b.ofId) ∧
      ∀ port, port = 1 ∨ port = 2 → defaultIn b port ∈ T.setDefaultFlows defaultPort ds b.ofId := by
  have hname : name ∈ T.getEndnodes := by
    refine List.mem_filter.mpr ⟨Topology.mem_names.mpr ⟨b, hb⟩, ?_⟩
    rw [he.plane, he.pod]
    rfl
  obtain ⟨i, hi⟩ := List.mem_iff_getElem?.mp hname
  have hsteps {f : Flow} (hf : some (b.ofId, f) ∈ T.endNodeSteps defaultPort (name, i)) :
      some (b.ofId, f) ∈ T.defaultSteps defaultPort :=
    List.mem_append_left _ (List.mem_append_left _
      (List.mem_flatMap.mpr ⟨_, List.mk_mem_zipIdx_iff_getElem?.mpr hi, hf⟩))
  have hkinds {f : Flow} (hf : some (b.ofId, f) ∈ T.defaultSteps defaultPort) :
      (∃ order, f = defaultOut b.ofId order defaultPort) ∨
        f = defaultIn b 1 ∨ f = defaultIn b 2 := by
    rcases hT.request_cases hb hf with ⟨-, h⟩ | ⟨x, z, rfl, -⟩ | ⟨x, y, rfl, -⟩
    · exact h
    · exact absurd rfl he.ne_spineName
    · exact absurd rfl he.ne_podNode
  constructor
  · obtain ⟨f', hmem, hid, hf'⟩ := hT.exists_mem
      (hsteps (f := defaultOut b.ofId (min i 1) defaultPort)
        (by rw [Topology.endNodeSteps, hb]; exact List.mem_cons_self)) ds
    rcases hkinds hf' with ⟨order, rfl⟩ | rfl | rfl
    · exact ⟨order, hmem⟩
    · exact absurd hid.symm defaultOut_id_ne
    · exact absurd hid.symm defaultOut_id_ne
  · intro port hport
    obtain ⟨f', hmem, hid, hf'⟩ := hT.exists_mem
      (hsteps (f := defaultIn b port)
        (by rw [Topology.endNodeSteps, hb]; rcases hport with rfl | rfl <;> simp)) ds
    rcases hkinds hf' with ⟨order, rfl⟩ | rfl | rfl
    · exact absurd hid defaultOut_id_ne
    · rwa [← defaultIn_id_inj hid]
    · rwa [← defaultIn_id_inj hid]

/-- Out of an end node there is the flow to the default port. -/
lemma DefaultScheme.pick_out (hT : DefaultScheme T podOf defaultPort) (hds : DefaultBackground ds)
    (hpk : pk.ethernetType = 2048) (he : EndNodeName name) (hb : T.getBridge name = some b) :
    ∃ f, S.pick b.ofId ⟨(b.ofId, .LOCAL), pk⟩ = some f ∧ f.output = some (.num defaultPort) := by
  obtain ⟨order, hmem⟩ := (hT.mem_endNode he hb ds).1
  obtain ⟨f, hpick, -, hout⟩ := S.exists_pick hmem (defaultOut_hits_iff.mpr rfl)
    (P := fun f => f.output = some (.num defaultPort)) (fun f hf hhit hprio => by
      have hprio : 98 ≤ f.priority := hprio
      rcases hT.table_endNode he hb hf with hold | ⟨order', rfl⟩ | rfl | rfl
      · have := (hds.of_hits hpk hold hhit).1
        omega
      · rfl
      · exact absurd (defaultIn_hits_iff.mp hhit) (by simp)
      · exact absurd (defaultIn_hits_iff.mp hhit) (by simp))
  exact ⟨f, hpick, hout⟩

/-- At the ports 1 and 2 of an end node there is the flow to the host, at other ports none that
sends the packet anywhere. -/
lemma DefaultScheme.output_in (hT : DefaultScheme T podOf defaultPort) (hds : DefaultBackground ds)
    (hpk : pk.ethernetType = 2048) (he : EndNodeName name) (hb : T.getBridge name = some b)
    (port : ℕ) : (S.pick b.ofId ⟨(b.ofId, .num port), pk⟩).bind Flow.output =
      if port = 1 ∨ port = 2 then some .LOCAL else none := by
  split
  · next hport =>
    have hmem := (hT.mem_endNode he hb ds).2 port hport
    obtain ⟨f, hpick, -, hout⟩ := S.exists_pick hmem (defaultIn_hits_iff.mpr rfl)
      (P := fun f => f.output = some .LOCAL) (fun f hf hhit hprio => by
        have hprio : 98 ≤ f.priority := hprio
        rcases hT.table_endNode he hb hf with hold | ⟨order, rfl⟩ | rfl | rfl
        · have := (hds.of_hits hpk hold hhit).1
          omega
        · exact absurd (defaultOut_hits_iff.mp hhit) (by simp)
        · rfl
        · rfl)
    rw [hpick, Option.bind_some, hout]
  · next hport =>
    cases hpick : S.pick b.ofId ⟨(b.ofId, .num port), pk⟩ with
    | none => rfl
    | some f =>
      have hbest := S.best _ _ _ hpick
      have hhit := hbest.hit
      rcases hT.table_endNode he hb hbest.mem with hold | ⟨order, rfl⟩ | rfl | rfl
      · exact (hds.of_hits hpk hold hhit).2
      · exact absurd (defaultOut_hits_iff.mp hhit) (by simp)
      · exact absurd (Or.inl (Port.num.inj (Prod.mk.inj (defaultIn_hits_iff.mp hhit)).2)) hport
      · exact absurd (Or.inr (Port.num.inj (Prod.mk.inj (defaultIn_hits_iff.mp hhit)).2)) hport

/-- A spine sends the packet to the leaf of its pod. -/
lemma DefaultScheme.pick_spine (hT : DefaultScheme T podOf defaultPort) (hds : DefaultBackground ds)
    (hpk : pk.IsTo y b) (hspine : T.getBridge (spineName x z) = some spine)
    (hleaf : T.getBridge (podNode x y) = some leaf) {p k : ℕ}
    (hlast : spine.lastLink leaf.ofId = some (p, k)) :
    S.pick spine.ofId ⟨(spine.ofId, inPort), pk⟩ =
      some (routeTo 98 ⟨⟨20, 1, y, 0⟩, 3⟩ (podNode x y) p) := by
  obtain ⟨f, hpick, -, rfl⟩ := S.exists_pick (h := ⟨(spine.ofId, inPort), pk⟩)
    (hT.settled_spine hspine hleaf hlast).1 (hpk.routeTo_hits_iff.mpr (covers_three.mpr rfl))
    (P := fun f => f = routeTo 98 ⟨⟨20, 1, y, 0⟩, 3⟩ (podNode x y) p) (fun f hf hhit hprio => by
      have hprio : 98 ≤ f.priority := hprio
      rcases hT.table_spine hspine hf with hold | ⟨y', leaf', p', k', hleaf', hlast', rfl⟩
      · have := (hds.of_hits hpk.ethernetType hold hhit).1
        omega
      · obtain rfl : y' = y := covers_three.mp (hpk.routeTo_hits_iff.mp hhit)
        obtain rfl : leaf' = leaf := Option.some_inj.mp (hleaf'.symm.trans hleaf)
        obtain rfl : p' = p := (Prod.mk.inj (Option.some_inj.mp (hlast'.symm.trans hlast))).1
        rfl)
  exact hpick

/-- The best flows of a leaf for the packet: the default route, and the route of the end node
if it is in the pod. -/
lemma DefaultScheme.best_leaf (hT : DefaultScheme T podOf defaultPort) (hds : DefaultBackground ds)
    {pod : ℕ} (hpk : pk.IsTo pod b) (he : EndNodeName name) (hb : T.getBridge name = some b)
    (hpod : podOf name = pod) (hleaf : T.getBridge (podNode x y) = some leaf)
    (hspine : T.getBridge (spineName x defaultPort) = some spine) {s k : ℕ}
    (hlast : leaf.lastLink spine.ofId = some (s, k)) (inPort : Port) {f : Flow} :
    Best Flow.priority Flow.Hits (T.setDefaultFlows defaultPort ds leaf.ofId)
        ⟨(leaf.ofId, inPort), pk⟩ f ↔
      f = routeTo 97 ⟨⟨20, 1, 0, 0⟩, 2⟩ (spineName x defaultPort) s ∨
        y = pod ∧ ∃ p k, leaf.lastLink b.ofId = some (p, k) ∧
          f = routeTo 97 ⟨⟨20, 1, y, b.mgmtIp.d⟩, 4⟩ name p := by
  have hdefault := (hT.settled_leaf ds hleaf hspine hlast
    (by rw [hT.leafSteps_spine hspine rfl, if_neg (not_not.mpr rfl)])).1
  -- no flow that matches has a higher priority
  have hle : ∀ f' ∈ T.setDefaultFlows defaultPort ds leaf.ofId,
      f'.Hits ⟨(leaf.ofId, inPort), pk⟩ → f'.priority ≤ 97 := by
    intro f' hf' hhit
    rcases hT.table_leaf hleaf hf' with hold | ⟨spine', s', k', -, -, rfl⟩ |
      ⟨e, b', p, k', -, -, -, -, rfl⟩
    · exact (hds.of_hits hpk.ethernetType hold hhit).1.le
    · exact le_rfl
    · exact le_rfl
  constructor
  · intro hbest
    have hprio : 97 ≤ f.priority :=
      hbest.priority _ hdefault (hpk.routeTo_hits_iff.mpr covers_two)
    rcases hT.table_leaf hleaf hbest.mem with hold | ⟨spine', s', k', hspine', hlast', rfl⟩ |
      ⟨e, b', p, k', he', rfl, hb', hlast', rfl⟩
    · have := (hds.of_hits hpk.ethernetType hold hbest.hit).1
      omega
    · obtain rfl : spine' = spine := Option.some_inj.mp (hspine'.symm.trans hspine)
      obtain rfl : s' = s := (Prod.mk.inj (Option.some_inj.mp (hlast'.symm.trans hlast))).1
      exact Or.inl rfl
    · have hip := Ipv4Prefix.covers_four.mp (hpk.routeTo_hits_iff.mp hbest.hit)
      obtain ⟨-, -, hc, hd⟩ := Ipv4.mk.inj hip
      obtain rfl := hT.addresses e name b' b he' he hb' hb (hc.trans hpod.symm) hd
      obtain rfl : b' = b := Option.some_inj.mp (hb'.symm.trans hb)
      exact Or.inr ⟨hc, p, k', hlast', rfl⟩
  · rintro (rfl | ⟨rfl, p, k', hlast', rfl⟩)
    · exact ⟨hdefault, hpk.routeTo_hits_iff.mpr covers_two, hle⟩
    · refine ⟨?_, hpk.routeTo_hits_iff.mpr (Ipv4Prefix.covers_four.mpr rfl), hle⟩
      exact (hT.settled_leaf ds hleaf hb hlast' (hT.leafSteps_endNode he hb rfl)).1

/-- So a leaf picks one of them. -/
lemma DefaultScheme.pick_leaf (hT : DefaultScheme T podOf defaultPort) (hds : DefaultBackground ds)
    {pod : ℕ} (hpk : pk.IsTo pod b) (he : EndNodeName name) (hb : T.getBridge name = some b)
    (hpod : podOf name = pod) (hleaf : T.getBridge (podNode x y) = some leaf)
    (hspine : T.getBridge (spineName x defaultPort) = some spine) {s k : ℕ}
    (hlast : leaf.lastLink spine.ofId = some (s, k)) (inPort : Port) :
    ∃ f, S.pick leaf.ofId ⟨(leaf.ofId, inPort), pk⟩ = some f ∧
      (f = routeTo 97 ⟨⟨20, 1, 0, 0⟩, 2⟩ (spineName x defaultPort) s ∨
        y = pod ∧ ∃ p k, leaf.lastLink b.ofId = some (p, k) ∧
          f = routeTo 97 ⟨⟨20, 1, y, b.mgmtIp.d⟩, 4⟩ name p) := by
  obtain ⟨f, hpick, hbest⟩ := S.exists_best
    ((hT.best_leaf hds hpk he hb hpod hleaf hspine hlast inPort).mpr (Or.inl rfl))
  exact ⟨f, hpick, (hT.best_leaf hds hpk he hb hpod hleaf hspine hlast inPort).mp hbest⟩

end Picked

/-! ## The way to the leaf of the destination -/

/-- Where the packets from one end node to another come in at the leaf of the destination, in a
plane: from the end node itself, or from the default spine. -/
inductive ComesIn (T : Topology) (podOf : Str → ℕ) (defaultPort : ℕ) (src dst : Str) :
    ℕ → Bridge → ℕ → Prop
  | samePod {x q : ℕ} {b leaf : Bridge} (hsrc : T.getBridge src = some b)
      (hleaf : T.getBridge (podNode x (podOf dst)) = some leaf)
      (hup : (defaultPort, leaf.ofId, q) ∈ b.ports) (hpod : podOf src = podOf dst) :
      ComesIn T podOf defaultPort src dst x leaf q
  | otherPod {x q p i : ℕ} {b leaf' spine leaf : Bridge} (hsrc : T.getBridge src = some b)
      (hleaf' : T.getBridge (podNode x (podOf src)) = some leaf')
      (hup : (defaultPort, leaf'.ofId, q) ∈ b.ports) (hpod : podOf src ≠ podOf dst)
      (hspine : T.getBridge (spineName x defaultPort) = some spine)
      (hleaf : T.getBridge (podNode x (podOf dst)) = some leaf)
      (hlast : spine.lastLink leaf.ofId = some (p, i)) :
      ComesIn T podOf defaultPort src dst x leaf i

section Way

variable {T : Topology} {podOf : Str → ℕ} {defaultPort : ℕ} {ds : Datastore} {pk : Packet}
  {x y z i : ℕ} {src dst : Str} {b b' leaf spine : Bridge}

/-- A leaf and the default spine have links to each other. -/
lemma DefaultScheme.exists_lastLinks (hT : DefaultScheme T podOf defaultPort)
    (hspine : T.getBridge (spineName x z) = some spine)
    (hleaf : T.getBridge (podNode x y) = some leaf) :
    (∃ s k, leaf.lastLink spine.ofId = some (s, k)) ∧
      ∃ p i, spine.lastLink leaf.ofId = some (p, i) := by
  obtain ⟨leaf', spine', hleaf', hspine', hne⟩ := hT.mesh x y z
    (Topology.mem_names.mpr ⟨_, hleaf⟩) (Topology.mem_names.mpr ⟨_, hspine⟩)
  obtain rfl : leaf' = leaf := Option.some_inj.mp (hleaf'.symm.trans hleaf)
  obtain rfl : spine' = spine := Option.some_inj.mp (hspine'.symm.trans hspine)
  obtain ⟨p, hp⟩ := List.exists_mem_of_ne_nil _ hne
  obtain ⟨k, hk⟩ := Bridge.mem_getPortForDst.mp hp
  exact ⟨Bridge.exists_lastLink hk rfl,
    Bridge.exists_lastLink (hT.links.back hT.ofIds hleaf hspine hk) rfl⟩

lemma DefaultScheme.exists_comesIn (hT : DefaultScheme T podOf defaultPort)
    (hsrc : EndNodeName src) (hdst : EndNodeName dst) (hb : T.getBridge src = some b)
    (hb' : T.getBridge dst = some b') :
    ∃ x leaf i, ComesIn T podOf defaultPort src dst x leaf i := by
  obtain ⟨x, leaf', q, hleaf', hup, hspineMem⟩ := hT.uplink src b hsrc hb
  by_cases hpod : podOf src = podOf dst
  · exact ⟨x, leaf', q, .samePod hb (hpod ▸ hleaf') hup hpod⟩
  · obtain ⟨spine, hspine⟩ := Topology.mem_names.mp hspineMem
    obtain ⟨leaf, hleaf⟩ := Topology.mem_names.mp
      (hT.leaf x defaultPort dst hspineMem hdst (Topology.mem_names.mpr ⟨b', hb'⟩))
    obtain ⟨-, p, i, hlast⟩ := hT.exists_lastLinks hspine hleaf
    exact ⟨x, leaf, i, .otherPod hb hleaf' hup hpod hspine hleaf hlast⟩

/-- The leaf, and the default spine of its plane. -/
lemma ComesIn.getBridge_leaf (h : ComesIn T podOf defaultPort src dst x leaf i) :
    T.getBridge (podNode x (podOf dst)) = some leaf := by
  cases h with
  | samePod _ hleaf _ _ => exact hleaf
  | otherPod _ _ _ _ _ hleaf _ => exact hleaf

lemma ComesIn.exists_spine (h : ComesIn T podOf defaultPort src dst x leaf i)
    (hT : DefaultScheme T podOf defaultPort) (hsrc : EndNodeName src) :
    ∃ spine, T.getBridge (spineName x defaultPort) = some spine := by
  cases h with
  | samePod hb hleaf hup _ =>
    -- the default port leads to one plane
    obtain ⟨x', leaf', q', hleaf', hup', hspineMem⟩ := hT.uplink src _ hsrc hb
    have hends := List.inj_on_of_nodup_map (Bridge.portsNodup _) hup hup' rfl
    have hsame := hT.ofIds.eq (Topology.getBridge_eq_some_iff.mp hleaf)
      (Topology.getBridge_eq_some_iff.mp hleaf') (Prod.mk.inj (Prod.mk.inj hends).2).1
    rw [(podNode_inj.mp (Prod.mk.inj hsame).1).1]
    exact Topology.mem_names.mp hspineMem
  | otherPod _ _ _ _ hspine _ _ => exact ⟨_, hspine⟩

/-- The link that the packets come in on does not lead to the destination. -/
lemma ComesIn.exists_link (h : ComesIn T podOf defaultPort src dst x leaf i)
    (hT : DefaultScheme T podOf defaultPort) (hdst : EndNodeName dst) (hne : src ≠ dst)
    (hb' : T.getBridge dst = some b') : ∃ n k, (i, n, k) ∈ leaf.ports ∧ n ≠ b'.ofId := by
  cases h with
  | samePod hb hleaf hup _ =>
    exact ⟨_, _, hT.links.back hT.ofIds hb hleaf hup, hT.ofIds.ne hb hb' hne⟩
  | otherPod _ _ _ _ hspine hleaf hlast =>
    exact ⟨_, _, hT.links.back hT.ofIds hspine hleaf (Bridge.mem_of_lastLink hlast),
      hT.ofIds.ne hspine hb' hdst.ne_spineName.symm⟩

variable (S : FlowSwitching (T.setDefaultFlows defaultPort ds))

/-- Out of an end node the packet comes to the leaf at the default port. -/
lemma DefaultScheme.forward_out (hT : DefaultScheme T podOf defaultPort)
    (hds : DefaultBackground ds) (hpk : pk.ethernetType = 2048) (hsrc : EndNodeName src)
    (hb : T.getBridge src = some b) {n q : ℕ} (hup : (defaultPort, n, q) ∈ b.ports) :
    forward T [] S.pick pk (.bridge b.ofId .LOCAL) = some (.bridge n (.num q)) := by
  obtain ⟨f, hpick, hout⟩ := hT.pick_out S hds hpk hsrc hb
  exact forward_link hT.ofIds hb hpick hout hup (by simp)

/-- Every packet gets to the leaf of its destination, and has not been there or at the
destination before. -/
lemma ComesIn.reach (h : ComesIn T podOf defaultPort src dst x leaf i)
    (hT : DefaultScheme T podOf defaultPort) (hds : DefaultBackground ds)
    (hpk : pk.IsTo (podOf dst) b') (hsrc : EndNodeName src) (hdst : EndNodeName dst)
    (hne : src ≠ dst) (hb : T.getBridge src = some b) (hb' : T.getBridge dst = some b') :
    ∃ before, (∀ path,
      Delivers (forward T [] S.pick pk) (.host b'.ofId) (.bridge b.ofId .LOCAL) path ↔
        ∃ rest, path = before ++ rest ∧
          Delivers (forward T [] S.pick pk) (.host b'.ofId) (.bridge leaf.ofId (.num i)) rest) ∧
      (visits [] before ++ [leaf.ofId, b'.ofId]).Nodup := by
  have hne' (n : ℕ) (p : Port) : Place.bridge n p ≠ .host b'.ofId := by simp
  cases h with
  | @samePod _ b₀ _ hb₀ hleaf hup hpod =>
    obtain rfl : b₀ = b := Option.some_inj.mp (hb₀.symm.trans hb)
    have hout := hT.forward_out S hds hpk.ethernetType hsrc hb hup
    refine ⟨[.bridge b₀.ofId .LOCAL], fun path => Delivers.step_iff (hne' _ _) hout, ?_⟩
    refine hT.ofIds.nodup (?_ : ∀ nb ∈ [(src, b₀), (podNode x (podOf dst), leaf), (dst, b')],
      T.getBridge nb.1 = some nb.2) ?_
    · simp [hb, hleaf, hb']
    · simp [hsrc.ne_podNode, hne, hdst.ne_podNode.symm]
  | @otherPod q p _ b₀ leaf' spine _ hb₀ hleaf' hup hpod hspine hleaf hlast =>
    obtain rfl : b₀ = b := Option.some_inj.mp (hb₀.symm.trans hb)
    have hout := hT.forward_out S hds hpk.ethernetType hsrc hb hup
    -- from the leaf of the source to the spine
    obtain ⟨⟨s, k, hlast'⟩, -⟩ := hT.exists_lastLinks hspine hleaf'
    have hup' : forward T [] S.pick pk (.bridge leaf'.ofId (.num q)) =
        some (.bridge spine.ofId (.num k)) := by
      obtain ⟨f, hpick, rfl | ⟨heq, -⟩⟩ :=
        hT.pick_leaf S hds hpk hdst hb' rfl hleaf' hspine hlast' (.num q)
      · exact forward_link hT.ofIds hleaf' hpick rfl (Bridge.mem_of_lastLink hlast')
          (Bridge.port_ne (hT.links.back hT.ofIds hb hleaf' hup) (Bridge.mem_of_lastLink hlast')
            (hT.ofIds.ne hb hspine hsrc.ne_spineName))
      · exact absurd heq hpod
    -- and from there to the leaf of the destination
    have hdown : forward T [] S.pick pk (.bridge spine.ofId (.num k)) =
        some (.bridge leaf.ofId (.num i)) := by
      refine forward_link hT.ofIds hspine (hT.pick_spine S hds hpk hspine hleaf hlast) rfl
        (Bridge.mem_of_lastLink hlast)
        (Bridge.port_ne (hT.links.back hT.ofIds hleaf' hspine (Bridge.mem_of_lastLink hlast'))
          (Bridge.mem_of_lastLink hlast) (hT.ofIds.ne hleaf' hleaf ?_))
      exact fun heq => hpod (podNode_inj.mp heq).2
    refine ⟨[.bridge b₀.ofId .LOCAL, .bridge leaf'.ofId (.num q), .bridge spine.ofId (.num k)],
      ?_, ?_⟩
    · intro path
      rw [Delivers.step_iff (hne' _ _) hout]
      simp only [Delivers.step_iff (hne' _ _) hup', Delivers.step_iff (hne' _ _) hdown]
      simp only [List.cons_append, List.nil_append]
      grind
    · have hpods : podNode x (podOf src) ≠ podNode x (podOf dst) :=
        fun heq => hpod (podNode_inj.mp heq).2
      refine hT.ofIds.nodup (?_ : ∀ nb ∈ [(src, b₀), (podNode x (podOf src), leaf'),
        (spineName x defaultPort, spine), (podNode x (podOf dst), leaf), (dst, b')],
        T.getBridge nb.1 = some nb.2) ?_
      · simp [hb, hleaf', hspine, hleaf, hb']
      · simp [hsrc.ne_podNode, hsrc.ne_spineName, hne, podNode_ne_spineName, hpods,
          hdst.ne_podNode.symm, hdst.ne_spineName.symm, podNode_ne_spineName.symm]

end Way

/-! ## At the leaf of the destination -/

section Leaf

variable {T : Topology} {podOf : Str → ℕ} {defaultPort : ℕ} {ds : Datastore} {pk : Packet}
  {x y i : ℕ} {dst : Str} {b' leaf spine : Bridge} {inPort : Port} {path : List Place}
  (S : FlowSwitching (T.setDefaultFlows defaultPort ds))

/-- At an end node the packet is handed to the host at the ports 1 and 2, and lost at others. -/
lemma DefaultScheme.delivers_endNode_iff (hT : DefaultScheme T podOf defaultPort)
    (hds : DefaultBackground ds) (hpk : pk.ethernetType = 2048) (hdst : EndNodeName dst)
    (hb' : T.getBridge dst = some b') {k : ℕ} :
    Delivers (forward T [] S.pick pk) (.host b'.ofId) (.bridge b'.ofId (.num k)) path ↔
      (k = 1 ∨ k = 2) ∧ path = [.bridge b'.ofId (.num k), .host b'.ofId] := by
  have hne : Place.bridge b'.ofId (.num k) ≠ .host b'.ofId := by simp
  have hout := hT.output_in S hds hpk hdst hb' k
  split at hout
  · next hk =>
    have hstep : forward T [] S.pick pk (.bridge b'.ofId (.num k)) = some (.host b'.ofId) := by
      rw [forward, hout]
      rfl
    rw [Delivers.step_iff hne hstep]
    constructor
    · rintro ⟨rest, rfl, hrest⟩
      cases hrest with
      | arrive => exact ⟨hk, rfl⟩
      | hop hnext _ => cases hnext
    · rintro ⟨-, rfl⟩
      exact ⟨_, rfl, .arrive⟩
  · next hk =>
    have hstep : forward T [] S.pick pk (.bridge b'.ofId (.num k)) = none := by
      rw [forward, hout]
      rfl
    exact iff_of_false (Delivers.not_of_none hstep hne) fun h => hk h.1

/-- By the default route it goes to the spine, and comes back or is lost. -/
lemma DefaultScheme.not_once_of_default (hT : DefaultScheme T podOf defaultPort)
    (hds : DefaultBackground ds) (hpk : pk.IsTo y b')
    (hleaf : T.getBridge (podNode x y) = some leaf)
    (hspine : T.getBridge (spineName x defaultPort) = some spine) {s k : ℕ}
    (hlast : leaf.lastLink spine.ofId = some (s, k))
    (hpick : S.pick leaf.ofId ⟨(leaf.ofId, .num i), pk⟩ =
      some (routeTo 97 ⟨⟨20, 1, 0, 0⟩, 2⟩ (spineName x defaultPort) s))
    (hpath : Delivers (forward T [] S.pick pk) (.host b'.ofId) (.bridge leaf.ofId (.num i)) path) :
    ¬ (visits [] path).Nodup := by
  have hne (n p : ℕ) : Place.bridge n (.num p) ≠ .host b'.ofId := by simp
  by_cases his : i = s
  · subst his
    exact absurd hpath (Delivers.not_of_none (forward_back hpick rfl) (hne _ _))
  obtain ⟨rest, rfl, hrest⟩ := hpath.step (hne _ _)
    (forward_link hT.ofIds hleaf hpick rfl (Bridge.mem_of_lastLink hlast)
      fun h => his (Port.num.inj h))
  obtain ⟨-, p, i', hlast'⟩ := hT.exists_lastLinks hspine hleaf
  have hpick' : S.pick spine.ofId ⟨(spine.ofId, .num k), pk⟩ = _ :=
    hT.pick_spine S hds hpk hspine hleaf hlast'
  by_cases hkp : k = p
  · subst hkp
    exact absurd hrest (Delivers.not_of_none (forward_back hpick' rfl) (hne _ _))
  obtain ⟨rest', rfl, hrest'⟩ := hrest.step (hne _ _)
    (forward_link hT.ofIds hspine hpick' rfl (Bridge.mem_of_lastLink hlast')
      fun h => hkp (Port.num.inj h))
  -- the leaf is on the path again
  have hagain : leaf.ofId ∈ visits [] rest' :=
    List.mem_filterMap.mpr ⟨_, hrest'.head_mem, rfl⟩
  intro hnodup
  exact (List.nodup_cons.mp hnodup).1 (List.mem_cons_of_mem _ hagain)

end Leaf

/-! ## Delivery -/

/-- A packet from the host of a bridge gets to the host of another one, and comes to no bridge
twice. -/
def DeliversOnce (T : Topology) (pick : ℕ → Header → Option Flow) (pk : Packet) (b b' : Bridge) :
    Prop :=
  ∃ path, Delivers (forward T [] pick pk) (.host b'.ofId) (.bridge b.ofId .LOCAL) path ∧
    (visits [] path).Nodup

/-- The leaf where the packets from one end node to another come in picks the route of the end
node, and the link to the end node comes in at its port 1 or 2. -/
def LeafPicksHost (T : Topology) (podOf : Str → ℕ) (defaultPort : ℕ)
    (pick : ℕ → Header → Option Flow) (pk : Packet) (src dst : Str) (b' : Bridge) : Prop :=
  ∃ x leaf i p k, ComesIn T podOf defaultPort src dst x leaf i ∧
    (pick leaf.ofId ⟨(leaf.ofId, .num i), pk⟩).map Flow.id = some ("to-".toList ++ dst) ∧
    leaf.lastLink b'.ofId = some (p, k) ∧ (k = 1 ∨ k = 2)

section Delivery

variable {T : Topology} {podOf : Str → ℕ} {defaultPort : ℕ} {ds : Datastore} {pk : Packet}
  {src dst : Str} {b b' : Bridge}

lemma deliversOnce_iff (hT : DefaultScheme T podOf defaultPort) (hds : DefaultBackground ds)
    (hpk : pk.IsTo (podOf dst) b') (hsrc : EndNodeName src) (hdst : EndNodeName dst)
    (hne : src ≠ dst) (hb : T.getBridge src = some b) (hb' : T.getBridge dst = some b')
    (S : FlowSwitching (T.setDefaultFlows defaultPort ds)) :
    DeliversOnce T S.pick pk b b' ↔
      LeafPicksHost T podOf defaultPort S.pick pk src dst b' := by
  -- the way over the leaf, for either direction
  have hover {x i : ℕ} {leaf : Bridge} (hin : ComesIn T podOf defaultPort src dst x leaf i)
      {p k : ℕ} (hlast : leaf.lastLink b'.ofId = some (p, k)) {r : Ipv4Prefix}
      (hpick : S.pick leaf.ofId ⟨(leaf.ofId, .num i), pk⟩ = some (routeTo 97 r dst p))
      (rest : List Place) :
      Delivers (forward T [] S.pick pk) (.host b'.ofId) (.bridge leaf.ofId (.num i)) rest ↔
        (k = 1 ∨ k = 2) ∧
          rest = [.bridge leaf.ofId (.num i), .bridge b'.ofId (.num k), .host b'.ofId] := by
    obtain ⟨n, m, hlink, hn⟩ := hin.exists_link hT hdst hne hb'
    have hstep : forward T [] S.pick pk (.bridge leaf.ofId (.num i)) =
        some (.bridge b'.ofId (.num k)) :=
      forward_link hT.ofIds hin.getBridge_leaf hpick rfl (Bridge.mem_of_lastLink hlast)
        (Bridge.port_ne hlink (Bridge.mem_of_lastLink hlast) hn)
    rw [Delivers.step_iff (by simp) hstep]
    simp only [hT.delivers_endNode_iff S hds hpk.ethernetType hdst hb']
    constructor
    · rintro ⟨rest, rfl, hk, rfl⟩
      exact ⟨hk, rfl⟩
    · rintro ⟨hk, rfl⟩
      exact ⟨_, rfl, hk, rfl⟩
  constructor
  · rintro ⟨path, hpath, hnodup⟩
    obtain ⟨x, leaf, i, hin⟩ := hT.exists_comesIn hsrc hdst hb hb'
    have hleaf := hin.getBridge_leaf
    obtain ⟨spine, hspine⟩ := hin.exists_spine hT hsrc
    obtain ⟨⟨s, k, hlast⟩, -⟩ := hT.exists_lastLinks hspine hleaf
    obtain ⟨before, hbefore, -⟩ := hin.reach S hT hds hpk hsrc hdst hne hb hb'
    obtain ⟨rest, rfl, hrest⟩ := (hbefore path).mp hpath
    rw [visits, List.filterMap_append] at hnodup
    obtain ⟨f, hpick, rfl | ⟨-, p, k', hlast', rfl⟩⟩ :=
      hT.pick_leaf S hds hpk hdst hb' rfl hleaf hspine hlast (.num i)
    · exact absurd hnodup.of_append_right
        (hT.not_once_of_default S hds hpk hleaf hspine hlast hpick hrest)
    · refine ⟨x, leaf, i, p, k', hin, ?_, hlast', ((hover hin hlast' hpick rest).mp hrest).1⟩
      rw [hpick]
      rfl
  · rintro ⟨x, leaf, i, p, k, hin, hid, hlast', hk⟩
    have hleaf := hin.getBridge_leaf
    obtain ⟨spine, hspine⟩ := hin.exists_spine hT hsrc
    obtain ⟨⟨s, k', hlast⟩, -⟩ := hT.exists_lastLinks hspine hleaf
    obtain ⟨before, hbefore, hnodup⟩ := hin.reach S hT hds hpk hsrc hdst hne hb hb'
    obtain ⟨f, hpick, hf⟩ := Option.map_eq_some_iff.mp hid
    rcases (hT.best_leaf hds hpk hdst hb' rfl hleaf hspine hlast (.num i)).mp
      (S.best _ _ _ hpick) with rfl | ⟨-, p', k'', hlast'', rfl⟩
    · rw [routeTo_id] at hf
      exact absurd (List.append_cancel_left hf).symm hdst.ne_spineName
    · obtain ⟨rfl, rfl⟩ := Prod.mk.inj (Option.some_inj.mp (hlast''.symm.trans hlast'))
      refine ⟨_, (hbefore _).mpr ⟨_, rfl, (hover hin hlast' hpick _).mpr ⟨hk, rfl⟩⟩, ?_⟩
      rw [visits, List.filterMap_append]
      exact hnodup

/-- A switch may pick the default route at the leaf of the destination. -/
lemma exists_not_deliversOnce (hT : DefaultScheme T podOf defaultPort) (hds : DefaultBackground ds)
    (hpk : pk.IsTo (podOf dst) b') (hsrc : EndNodeName src) (hdst : EndNodeName dst)
    (hne : src ≠ dst) (hb : T.getBridge src = some b) (hb' : T.getBridge dst = some b') :
    ∃ S : FlowSwitching (T.setDefaultFlows defaultPort ds), ¬ DeliversOnce T S.pick pk b b' := by
  obtain ⟨x, leaf, i, hin⟩ := hT.exists_comesIn hsrc hdst hb hb'
  have hleaf := hin.getBridge_leaf
  obtain ⟨spine, hspine⟩ := hin.exists_spine hT hsrc
  obtain ⟨⟨s, k, hlast⟩, -⟩ := hT.exists_lastLinks hspine hleaf
  have hbest := (hT.best_leaf hds hpk hdst hb' rfl hleaf hspine hlast (.num i)).mpr
    (Or.inl rfl)
  let S : FlowSwitching (T.setDefaultFlows defaultPort ds) := Switching.first.prefer hbest
  refine ⟨S, ?_⟩
  rintro ⟨path, hpath, hnodup⟩
  obtain ⟨before, hbefore, -⟩ := hin.reach S hT hds hpk hsrc hdst hne hb hb'
  obtain ⟨rest, rfl, hrest⟩ := (hbefore path).mp hpath
  rw [visits, List.filterMap_append] at hnodup
  exact hT.not_once_of_default S hds hpk hleaf hspine hlast (Switching.prefer_pick _ hbest) hrest
    hnodup.of_append_right

/-- Delivery by the default routes: a packet from one end node to another arrives without
coming to a bridge twice if and only if the leaf of the destination resolves the tie of its two
routes for the one of the end node, over a link to the port 1 or 2.  It does not arrive for
every way to resolve the ties. -/
theorem setDefaultFlows_delivers_iff (hT : DefaultScheme T podOf defaultPort)
    (hds : DefaultBackground ds) (hpk : pk.IsTo (podOf dst) b') (hsrc : EndNodeName src)
    (hdst : EndNodeName dst) (hne : src ≠ dst) (hb : T.getBridge src = some b)
    (hb' : T.getBridge dst = some b') :
    (∀ S : FlowSwitching (T.setDefaultFlows defaultPort ds), DeliversOnce T S.pick pk b b' ↔
        LeafPicksHost T podOf defaultPort S.pick pk src dst b') ∧
      ¬ ∀ S : FlowSwitching (T.setDefaultFlows defaultPort ds), DeliversOnce T S.pick pk b b' := by
  refine ⟨deliversOnce_iff hT hds hpk hsrc hdst hne hb hb', not_forall.mpr ?_⟩
  exact exists_not_deliversOnce hT hds hpk hsrc hdst hne hb hb'

end Delivery

/-! ## Examples -/

namespace TwoPods

/-- The pods of the end nodes. -/
def podOf (name : Str) : ℕ := if name = endName 1 ['a'] then 1 else 2

lemma podOf_a : podOf (endName 1 ['a']) = 1 := if_pos rfl

lemma podOf_b : podOf (endName 2 ['b']) = 2 := if_neg (by decide)

lemma endNodeName_a : EndNodeName (endName 1 ['a']) := ⟨by decide, by decide, by decide⟩

lemma endNodeName_b : EndNodeName (endName 2 ['b']) := ⟨by decide, by decide, by decide⟩

/-- A packet from the first pod to the second one. -/
def packet : Packet where
  ethernetType := 2048
  ipProtocol := 6
  ipv4Source := ⟨20, 1, 1, 4⟩
  ipv4Destination := ⟨20, 1, 2, 5⟩
  sourcePort := 2000
  destinationPort := 1000

variable {x y z : ℕ} {name : Str} {b : Bridge}

lemma getBridge_podNode (h : twoPods.getBridge (podNode x y) = some b) :
    x = 1 ∧ (y = 1 ∧ b.ofId = 2 ∧ b.ports = [(1, 1, 1), (2, 4, 1)] ∨
      y = 2 ∧ b.ofId = 3 ∧ b.ports = [(1, 1, 2), (2, 5, 1)]) := by
  have hmem := Topology.getBridge_eq_some_iff.mp h
  simp only [twoPods, List.mem_cons, List.not_mem_nil, or_false, Prod.mk.injEq,
    podNode_ne_spineName, podNode_inj, endName_ne_podNode.symm, false_and, false_or] at hmem
  rcases hmem with ⟨⟨rfl, rfl⟩, rfl⟩ | ⟨⟨rfl, rfl⟩, rfl⟩
  · exact ⟨rfl, Or.inl ⟨rfl, rfl, rfl⟩⟩
  · exact ⟨rfl, Or.inr ⟨rfl, rfl, rfl⟩⟩

lemma getBridge_spineName (h : twoPods.getBridge (spineName x z) = some b) :
    (x = 1 ∧ z = 1) ∧ b.ofId = 1 ∧ b.ports = [(1, 2, 1), (2, 3, 1)] := by
  have hmem := Topology.getBridge_eq_some_iff.mp h
  simp only [twoPods, List.mem_cons, List.not_mem_nil, or_false, Prod.mk.injEq,
    podNode_ne_spineName.symm, spineName_inj, endName_ne_spineName.symm, false_and] at hmem
  obtain ⟨hxz, rfl⟩ := hmem
  exact ⟨hxz, rfl, rfl⟩

lemma getBridge_endNode (he : EndNodeName name) (h : twoPods.getBridge name = some b) :
    name = endName 1 ['a'] ∧ (1, 2, 2) ∈ b.ports ∨ name = endName 2 ['b'] ∧ (1, 3, 2) ∈ b.ports := by
  have hmem := Topology.getBridge_eq_some_iff.mp h
  simp only [twoPods, List.mem_cons, List.not_mem_nil, or_false, Prod.mk.injEq,
    he.ne_spineName, he.ne_podNode, false_and, false_or] at hmem
  rcases hmem with ⟨rfl, rfl⟩ | ⟨rfl, rfl⟩
  · exact Or.inl ⟨rfl, by simp⟩
  · exact Or.inr ⟨rfl, by simp⟩

lemma defaultScheme : DefaultScheme twoPods podOf 1 where
  ofIds := by decide
  links := by decide
  names name hname := by
    simp only [twoPods_names, List.mem_cons, List.not_mem_nil, or_false] at hname
    rcases hname with rfl | rfl | rfl | rfl | rfl
    · exact Or.inr (Or.inl ⟨1, 1, rfl⟩)
    · exact Or.inl ⟨1, 1, rfl⟩
    · exact Or.inl ⟨1, 2, rfl⟩
    · exact Or.inr (Or.inr endNodeName_a)
    · exact Or.inr (Or.inr endNodeName_b)
  spinePorts x z spine h l hl := by
    obtain ⟨⟨rfl, rfl⟩, -, hports⟩ := getBridge_spineName h
    simp only [hports, List.mem_cons, List.not_mem_nil, or_false] at hl
    rcases hl with rfl | rfl
    · exact ⟨1, _, rfl, rfl⟩
    · exact ⟨2, _, rfl, rfl⟩
  leafPorts x y leaf h l hl := by
    obtain ⟨rfl, ⟨rfl, -, hports⟩ | ⟨rfl, -, hports⟩⟩ := getBridge_podNode h <;>
      simp only [hports, List.mem_cons, List.not_mem_nil, or_false] at hl <;>
        rcases hl with rfl | rfl
    · exact Or.inl ⟨1, _, rfl, rfl⟩
    · exact Or.inr ⟨_, _, endNodeName_a, podOf_a, rfl, rfl⟩
    · exact Or.inl ⟨1, _, rfl, rfl⟩
    · exact Or.inr ⟨_, _, endNodeName_b, podOf_b, rfl, rfl⟩
  leaf x z e hspine he hename := by
    obtain ⟨spine, hspine⟩ := Topology.mem_names.mp hspine
    obtain ⟨⟨rfl, rfl⟩, -⟩ := getBridge_spineName hspine
    obtain ⟨b, hb⟩ := Topology.mem_names.mp hename
    rcases getBridge_endNode he hb with ⟨rfl, -⟩ | ⟨rfl, -⟩
    · simp [podOf_a, twoPods_names]
    · simp [podOf_b, twoPods_names]
  mesh x y z hleaf hspine := by
    obtain ⟨leaf, hleaf⟩ := Topology.mem_names.mp hleaf
    obtain ⟨spine, hspine⟩ := Topology.mem_names.mp hspine
    obtain ⟨⟨-, rfl⟩, -⟩ := getBridge_spineName hspine
    obtain ⟨rfl, ⟨rfl, -⟩ | ⟨rfl, -⟩⟩ := getBridge_podNode hleaf
    · exact ⟨_, _, rfl, rfl, by decide⟩
    · exact ⟨_, _, rfl, rfl, by decide⟩
  uplink e b he hb := by
    rcases getBridge_endNode he hb with ⟨rfl, hport⟩ | ⟨rfl, hport⟩
    · exact ⟨1, _, 2, by rw [podOf_a]; rfl, hport, by simp [twoPods_names]⟩
    · exact ⟨1, _, 2, by rw [podOf_b]; rfl, hport, by simp [twoPods_names]⟩
  addresses e e' b b' he he' hb hb' hpod _ := by
    -- the end nodes are in different pods
    rcases getBridge_endNode he hb with ⟨rfl, -⟩ | ⟨rfl, -⟩ <;>
      rcases getBridge_endNode he' hb' with ⟨rfl, -⟩ | ⟨rfl, -⟩
    · rfl
    · rw [podOf_a, podOf_b] at hpod
      cases hpod
    · rw [podOf_a, podOf_b] at hpod
      cases hpod
    · rfl

/-- The theorem for a packet between two pods. -/
theorem setDefaultFlows_delivers_iff_twoPods :
    (∀ S : FlowSwitching (twoPods.setDefaultFlows 1 fun _ => []),
        DeliversOnce twoPods S.pick packet
            { ofId := 4, ports := [(1, 2, 2)], mgmtIp := ⟨10, 0, 0, 4⟩ }
            { ofId := 5, ports := [(1, 3, 2)], mgmtIp := ⟨10, 0, 0, 5⟩ } ↔
          LeafPicksHost twoPods podOf 1 S.pick packet (endName 1 ['a']) (endName 2 ['b'])
            { ofId := 5, ports := [(1, 3, 2)], mgmtIp := ⟨10, 0, 0, 5⟩ }) ∧
      ¬ ∀ S : FlowSwitching (twoPods.setDefaultFlows 1 fun _ => []),
        DeliversOnce twoPods S.pick packet
          { ofId := 4, ports := [(1, 2, 2)], mgmtIp := ⟨10, 0, 0, 4⟩ }
          { ofId := 5, ports := [(1, 3, 2)], mgmtIp := ⟨10, 0, 0, 5⟩ } :=
  setDefaultFlows_delivers_iff defaultScheme (fun _ _ hf => absurd hf List.not_mem_nil)
    ⟨rfl, by rw [podOf_b]; rfl⟩ endNodeName_a endNodeName_b (by decide) rfl rfl

end TwoPods

namespace OnePod

lemma spine_ports : (([(1, 2, 1)] : List (ℕ × ℕ × ℕ)).map Prod.fst).Nodup := by decide

lemma endNode_ports : (([(1, 2, 2)] : List (ℕ × ℕ × ℕ)).map Prod.fst).Nodup := by decide

/-- One plane with a spine, one pod with two end nodes. -/
def topology : Topology where
  bridges :=
    [(spineName 1 1,
        { ofId := 1, ports := [(1, 2, 1)], mgmtIp := ⟨10, 0, 0, 1⟩, portsNodup := spine_ports }),
      (podNode 1 1,
        { ofId := 2, ports := [(1, 1, 1), (2, 3, 1), (3, 4, 1)], mgmtIp := ⟨10, 0, 0, 2⟩ }),
      (endName 1 ['a'],
        { ofId := 3, ports := [(1, 2, 2)], mgmtIp := ⟨10, 0, 0, 3⟩, portsNodup := endNode_ports }),
      (endName 1 ['b'], { ofId := 4, ports := [(1, 2, 3)], mgmtIp := ⟨10, 0, 0, 4⟩ })]

/-- A packet from the first end node to the second one. -/
def packet : Packet where
  ethernetType := 2048
  ipProtocol := 6
  ipv4Source := ⟨20, 1, 1, 3⟩
  ipv4Destination := ⟨20, 1, 1, 4⟩
  sourcePort := 2000
  destinationPort := 1000

/-- The switches that take the first of the best flows, by the order of the requests. -/
def switching : FlowSwitching (topology.setDefaultFlows 1 fun _ => []) := Switching.first

lemma names_eq : topology.names =
    [spineName 1 1, podNode 1 1, endName 1 ['a'], endName 1 ['b']] := rfl

lemma endNodeName_a : EndNodeName (endName 1 ['a']) := ⟨by decide, by decide, by decide⟩

lemma endNodeName_b : EndNodeName (endName 1 ['b']) := ⟨by decide, by decide, by decide⟩

variable {x y z : ℕ} {name : Str} {b : Bridge}

lemma getBridge_podNode (h : topology.getBridge (podNode x y) = some b) :
    (x = 1 ∧ y = 1) ∧ b.ofId = 2 ∧ b.ports = [(1, 1, 1), (2, 3, 1), (3, 4, 1)] := by
  have hmem := Topology.getBridge_eq_some_iff.mp h
  simp only [topology, List.mem_cons, List.not_mem_nil, or_false, Prod.mk.injEq,
    podNode_ne_spineName, podNode_inj, endName_ne_podNode.symm, false_and, false_or] at hmem
  obtain ⟨hxy, rfl⟩ := hmem
  exact ⟨hxy, rfl, rfl⟩

lemma getBridge_spineName (h : topology.getBridge (spineName x z) = some b) :
    (x = 1 ∧ z = 1) ∧ b.ofId = 1 ∧ b.ports = [(1, 2, 1)] := by
  have hmem := Topology.getBridge_eq_some_iff.mp h
  simp only [topology, List.mem_cons, List.not_mem_nil, or_false, Prod.mk.injEq,
    podNode_ne_spineName.symm, spineName_inj, endName_ne_spineName.symm, false_and] at hmem
  obtain ⟨hxz, rfl⟩ := hmem
  exact ⟨hxz, rfl, rfl⟩

lemma getBridge_endNode (he : EndNodeName name) (h : topology.getBridge name = some b) :
    name = endName 1 ['a'] ∧ b.mgmtIp.d = 3 ∧ (1, 2, 2) ∈ b.ports ∨
      name = endName 1 ['b'] ∧ b.mgmtIp.d = 4 ∧ (1, 2, 3) ∈ b.ports := by
  have hmem := Topology.getBridge_eq_some_iff.mp h
  simp only [topology, List.mem_cons, List.not_mem_nil, or_false, Prod.mk.injEq,
    he.ne_spineName, he.ne_podNode, false_and, false_or] at hmem
  rcases hmem with ⟨rfl, rfl⟩ | ⟨rfl, rfl⟩
  · exact Or.inl ⟨rfl, rfl, by simp⟩
  · exact Or.inr ⟨rfl, rfl, by simp⟩

lemma defaultScheme : DefaultScheme topology (fun _ => 1) 1 where
  ofIds := by decide
  links := by decide
  names name hname := by
    simp only [names_eq, List.mem_cons, List.not_mem_nil, or_false] at hname
    rcases hname with rfl | rfl | rfl | rfl
    · exact Or.inr (Or.inl ⟨1, 1, rfl⟩)
    · exact Or.inl ⟨1, 1, rfl⟩
    · exact Or.inr (Or.inr endNodeName_a)
    · exact Or.inr (Or.inr endNodeName_b)
  spinePorts x z spine h l hl := by
    obtain ⟨⟨rfl, rfl⟩, -, hports⟩ := getBridge_spineName h
    rw [hports, List.mem_singleton] at hl
    subst hl
    exact ⟨1, _, rfl, rfl⟩
  leafPorts x y leaf h l hl := by
    obtain ⟨⟨rfl, rfl⟩, -, hports⟩ := getBridge_podNode h
    simp only [hports, List.mem_cons, List.not_mem_nil, or_false] at hl
    rcases hl with rfl | rfl | rfl
    · exact Or.inl ⟨1, _, rfl, rfl⟩
    · exact Or.inr ⟨_, _, endNodeName_a, rfl, rfl, rfl⟩
    · exact Or.inr ⟨_, _, endNodeName_b, rfl, rfl, rfl⟩
  leaf x z e hspine _ _ := by
    obtain ⟨spine, hspine⟩ := Topology.mem_names.mp hspine
    obtain ⟨⟨rfl, rfl⟩, -⟩ := getBridge_spineName hspine
    simp [names_eq]
  mesh x y z hleaf hspine := by
    obtain ⟨leaf, hleaf⟩ := Topology.mem_names.mp hleaf
    obtain ⟨spine, hspine⟩ := Topology.mem_names.mp hspine
    obtain ⟨⟨rfl, rfl⟩, -⟩ := getBridge_podNode hleaf
    obtain ⟨⟨-, rfl⟩, -⟩ := getBridge_spineName hspine
    exact ⟨_, _, rfl, rfl, by decide⟩
  uplink e b he hb := by
    rcases getBridge_endNode he hb with ⟨-, -, hport⟩ | ⟨-, -, hport⟩
    · exact ⟨1, _, 2, rfl, hport, by simp [names_eq]⟩
    · exact ⟨1, _, 3, rfl, hport, by simp [names_eq]⟩
  addresses e e' b b' he he' hb hb' _ hd := by
    rcases getBridge_endNode he hb with ⟨rfl, h, -⟩ | ⟨rfl, h, -⟩ <;>
      rcases getBridge_endNode he' hb' with ⟨rfl, h', -⟩ | ⟨rfl, h', -⟩
    · rfl
    · omega
    · omega
    · rfl

/-- From the leaf the packet goes to the spine, which would have to send it back to its input
port. -/
theorem not_delivers : DefaultScheme topology (fun _ => 1) 1 ∧
    topology.getBridge (endName 1 ['a']) =
      some { ofId := 3, ports := [(1, 2, 2)], mgmtIp := ⟨10, 0, 0, 3⟩ } ∧
    topology.getBridge (endName 1 ['b']) =
      some { ofId := 4, ports := [(1, 2, 3)], mgmtIp := ⟨10, 0, 0, 4⟩ } ∧
    ¬ ∃ path, Delivers (forward topology [] switching.pick packet) (.host 4) (.bridge 3 .LOCAL)
      path := by
  refine ⟨defaultScheme, rfl, rfl, ?_⟩
  rintro ⟨path, hpath⟩
  have hout : forward topology [] switching.pick packet (.bridge 3 .LOCAL) =
      some (.bridge 2 (.num 2)) := by decide +kernel
  have hup : forward topology [] switching.pick packet (.bridge 2 (.num 2)) =
      some (.bridge 1 (.num 1)) := by decide +kernel
  have hback : forward topology [] switching.pick packet (.bridge 1 (.num 1)) = none := by
    decide +kernel
  obtain ⟨rest, -, hrest⟩ := hpath.step (by simp) hout
  obtain ⟨rest', -, hrest'⟩ := hrest.step (by simp) hup
  exact Delivers.not_of_none hback (by simp) hrest'

end OnePod

end DaqSwitch.Odl
