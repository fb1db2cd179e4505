import DaqSwitch.Odl.DefaultFlows

/-!
# Tables of the default routes

What the bridges of a leaf-spine topology hold after `set_default_flows`.  The requests for a
bridge are those of one of the three loops, and of parallel links to the same bridge the last
one counts, as all of them write under the name of that bridge.
-/

namespace DaqSwitch.Odl

open Lib Lib.Text Lib.KeyedTable Lib.Forwarding

/-! ## The scheme -/

/-- The name of an end node. -/
structure EndNodeName (name : Str) : Prop where
  pod : contains name "pod-".toList = true
  plane : contains name "plane".toList = false
  spine : contains name "spine".toList = false

/-- A leaf-spine topology with the scheme of names and addresses of the class `Topology`, where
the default port of every end node leads to a leaf of its pod, in a plane with the default
spine. -/
structure DefaultScheme (T : Topology) (podOf : Str → ℕ) (defaultPort : ℕ) : Prop where
  ofIds : T.OfIdsDistinct
  links : T.LinksAgree
  names : ∀ name ∈ T.names, (∃ x y, name = podNode x y) ∨ (∃ x z, name = spineName x z) ∨
    EndNodeName name
  spinePorts : ∀ x z spine, T.getBridge (spineName x z) = some spine → ∀ l ∈ spine.ports,
    ∃ y leaf, T.getBridge (podNode x y) = some leaf ∧ leaf.ofId = l.2.1
  leafPorts : ∀ x y leaf, T.getBridge (podNode x y) = some leaf → ∀ l ∈ leaf.ports,
    (∃ z spine, T.getBridge (spineName x z) = some spine ∧ spine.ofId = l.2.1) ∨
      ∃ e b, EndNodeName e ∧ podOf e = y ∧ T.getBridge e = some b ∧ b.ofId = l.2.1
  leaf : ∀ x z e, spineName x z ∈ T.names → EndNodeName e → e ∈ T.names →
    podNode x (podOf e) ∈ T.names
  mesh : ∀ x y z, podNode x y ∈ T.names → spineName x z ∈ T.names →
    T.Linked (podNode x y) (spineName x z)
  uplink : ∀ e b, EndNodeName e → T.getBridge e = some b →
    ∃ x leaf q, T.getBridge (podNode x (podOf e)) = some leaf ∧
      (defaultPort, leaf.ofId, q) ∈ b.ports ∧ spineName x defaultPort ∈ T.names
  addresses : ∀ e e' b b', EndNodeName e → EndNodeName e' → T.getBridge e = some b →
    T.getBridge e' = some b' → podOf e = podOf e' → b.mgmtIp.d = b'.mgmtIp.d → e = e'

/-! ## Names -/

section Names

variable {x y z : ℕ} {name : Str}

lemma nameNumber_eq {a b c : Str} (n : ℕ) (ha : '-' ∉ a) (hb : '-' ∉ b) (hc : '-' ∉ c) :
    nameNumber (a ++ '-' :: (b ++ '-' :: (c ++ '-' :: str n))) = some n := by
  have hsplit {u v : Str} (hu : '-' ∉ u) : (u ++ '-' :: v).splitOn '-' = u :: v.splitOn '-' := by
    rw [List.splitOn_append_cons_of_beq _ _ (by rfl), List.splitOn_eq_singleton hu,
      List.singleton_append]
  rw [nameNumber, hsplit ha, hsplit hb, hsplit hc,
    List.splitOn_eq_singleton (not_mem_str (by decide))]
  exact parseNat_str n

lemma nameNumber_podNode : nameNumber (podNode x y) = some y := by
  have h := nameNumber_eq (a := "plane".toList) (b := str x) (c := "pod".toList) y (by decide)
    (not_mem_str (by decide)) (by decide)
  simpa [podNode_def] using h

lemma nameNumber_spineName : nameNumber (spineName x z) = some z := by
  have h := nameNumber_eq (a := "plane".toList) (b := str x) (c := "spine".toList) z (by decide)
    (not_mem_str (by decide)) (by decide)
  simpa [spineName_def] using h

lemma contains_pod_podNode : contains (podNode x y) "pod".toList = true :=
  contains_iff.mpr ⟨"plane-".toList ++ str x ++ "-".toList, "-".toList ++ str y,
    by simp [podNode_def]⟩

lemma contains_spine_podNode : contains (podNode x y) "spine".toList = false := by
  rw [← Bool.not_eq_true, contains_iff]
  exact not_infix_of_mem (a := 's') (by simp) (not_mem_podNode (by decide) (by decide))

lemma contains_pod_spineName : contains (spineName x z) "pod".toList = false := by
  rw [← Bool.not_eq_true, contains_iff]
  exact not_infix_of_mem (a := 'd') (by simp) (not_mem_spineName (by decide) (by decide))

lemma EndNodeName.ne_podNode (h : EndNodeName name) : name ≠ podNode x y := by
  rintro rfl
  exact Bool.false_ne_true (h.plane.symm.trans contains_plane_podNode)

lemma EndNodeName.ne_spineName (h : EndNodeName name) : name ≠ spineName x z := by
  rintro rfl
  exact Bool.false_ne_true (h.plane.symm.trans contains_plane_spineName)

end Names

/-! ## The requests -/

section Requests

variable {T : Topology} {podOf : Str → ℕ} {defaultPort : ℕ} {x y z : ℕ} {name : Str}
  {b leaf spine : Bridge} {l : ℕ × ℕ × ℕ} {ds : Datastore}

lemma DefaultScheme.getNameFromOfId (hT : DefaultScheme T podOf defaultPort)
    (hb : T.getBridge name = some b) : T.getNameFromOfId b.ofId = some name := by
  rw [Topology.getNameFromOfId, hT.ofIds.find? (Topology.getBridge_eq_some_iff.mp hb)]
  rfl

/-- At a leaf: the route of an end node, for its address. -/
lemma DefaultScheme.leafSteps_endNode (hT : DefaultScheme T podOf defaultPort)
    (he : EndNodeName name) (hb : T.getBridge name = some b) (hl : b.ofId = l.2.1) :
    T.leafSteps defaultPort leaf y l =
      [some (leaf.ofId, routeTo 97 ⟨⟨20, 1, y, b.mgmtIp.d⟩, 4⟩ name l.1)] := by
  rw [Topology.leafSteps, ← hl, hT.getNameFromOfId hb]
  simp only [he.spine, Bool.false_eq_true, if_false, hb]

/-- The default route, to the default spine only. -/
lemma DefaultScheme.leafSteps_spine (hT : DefaultScheme T podOf defaultPort)
    (hb : T.getBridge (spineName x z) = some b) (hl : b.ofId = l.2.1) :
    T.leafSteps defaultPort leaf y l = if defaultPort ≠ z then []
      else [some (leaf.ofId, routeTo 97 ⟨⟨20, 1, 0, 0⟩, 2⟩ (spineName x z) l.1)] := by
  rw [Topology.leafSteps, ← hl, hT.getNameFromOfId hb]
  simp only [contains_spine_spineName, if_true, nameNumber_spineName]

/-- At a spine: the route to a pod. -/
lemma DefaultScheme.spineStep_eq (hT : DefaultScheme T podOf defaultPort)
    (hb : T.getBridge (podNode x y) = some b) (hl : b.ofId = l.2.1) : T.spineStep spine l =
      some (spine.ofId, routeTo 98 ⟨⟨20, 1, y, 0⟩, 3⟩ (podNode x y) l.1) := by
  rw [Topology.spineStep, ← hl, hT.getNameFromOfId hb]
  simp only [Option.bind_eq_bind, Option.bind_some, nameNumber_podNode, Option.pure_def]

lemma podSteps_podNode : T.podSteps defaultPort (podNode x y, leaf) =
    leaf.ports.flatMap (T.leafSteps defaultPort leaf y) := by
  simp only [Topology.podSteps, contains_pod_podNode, contains_plane_podNode, Bool.and_self,
    if_true, nameNumber_podNode]

lemma spineSteps_spineName : T.spineSteps (spineName x z, spine) =
    spine.ports.map (T.spineStep spine) := by
  rw [Topology.spineSteps, if_pos contains_spine_spineName]

/-- Only leaves have requests in the loop over the leaves. -/
lemma DefaultScheme.podNode_of_mem_podSteps (hT : DefaultScheme T podOf defaultPort)
    {nb : Str × Bridge} (hnb : nb ∈ T.bridges) {o : Option Request}
    (ho : o ∈ T.podSteps defaultPort nb) : ∃ x y, nb.1 = podNode x y := by
  have hcontains : contains nb.1 "pod".toList = true ∧ contains nb.1 "plane".toList = true := by
    unfold Topology.podSteps at ho
    split at ho
    · next h => simpa using h
    · cases ho
  rcases hT.names nb.1 (List.mem_map_of_mem hnb) with h | ⟨x, z, h⟩ | he
  · exact h
  · rw [h, contains_pod_spineName] at hcontains
    exact absurd hcontains.1 Bool.false_ne_true
  · exact absurd (he.plane.symm.trans hcontains.2) Bool.false_ne_true

/-- Only spines have requests in the loop over the spines. -/
lemma DefaultScheme.spineName_of_mem_spineSteps (hT : DefaultScheme T podOf defaultPort)
    {nb : Str × Bridge} (hnb : nb ∈ T.bridges) {o : Option Request}
    (ho : o ∈ T.spineSteps nb) : ∃ x z, nb.1 = spineName x z := by
  have hcontains : contains nb.1 "spine".toList = true := by
    unfold Topology.spineSteps at ho
    split at ho
    · next h => exact h
    · cases ho
  rcases hT.names nb.1 (List.mem_map_of_mem hnb) with ⟨x, y, h⟩ | h | he
  · rw [h, contains_spine_podNode] at hcontains
    exact absurd hcontains Bool.false_ne_true
  · exact h
  · exact absurd (he.spine.symm.trans hcontains) Bool.false_ne_true

/-- A request for a leaf. -/
lemma DefaultScheme.mem_leaf_steps (hT : DefaultScheme T podOf defaultPort)
    (hleaf : T.getBridge (podNode x y) = some leaf) {o : Option Request} (hl : l ∈ leaf.ports)
    (ho : o ∈ T.leafSteps defaultPort leaf y l) :
    (∃ spine, T.getBridge (spineName x defaultPort) = some spine ∧ spine.ofId = l.2.1 ∧
        o = some (leaf.ofId, routeTo 97 ⟨⟨20, 1, 0, 0⟩, 2⟩ (spineName x defaultPort) l.1)) ∨
      ∃ e b, EndNodeName e ∧ podOf e = y ∧ T.getBridge e = some b ∧ b.ofId = l.2.1 ∧
        o = some (leaf.ofId, routeTo 97 ⟨⟨20, 1, y, b.mgmtIp.d⟩, 4⟩ e l.1) := by
  rcases hT.leafPorts x y leaf hleaf l hl with ⟨z, spine, hspine, hid⟩ | ⟨e, b, he, hpod, hb, hid⟩
  · rw [hT.leafSteps_spine hspine hid] at ho
    split at ho
    · cases ho
    · next hz =>
      obtain rfl : defaultPort = z := not_not.mp hz
      exact Or.inl ⟨spine, hspine, hid, List.mem_singleton.mp ho⟩
  · rw [hT.leafSteps_endNode he hb hid] at ho
    exact Or.inr ⟨e, b, he, hpod, hb, hid, List.mem_singleton.mp ho⟩

/-- No name is without a number or a bridge: there is no exception. -/
lemma DefaultScheme.untilException_eq (hT : DefaultScheme T podOf defaultPort) :
    untilException (T.defaultSteps defaultPort) = (T.defaultSteps defaultPort).reduceOption := by
  have hall : ∀ o ∈ T.defaultSteps defaultPort, o.isSome = true := by
    intro o ho
    rw [Topology.defaultSteps, List.append_assoc, List.mem_append, List.mem_append] at ho
    rcases ho with ho | ho | ho
    · obtain ⟨ni, hni, ho⟩ := List.mem_flatMap.mp ho
      have hname : ni.1 ∈ T.names := (List.mem_filter.mp (List.fst_mem_of_mem_zipIdx hni)).1
      obtain ⟨b, hb⟩ := Topology.mem_names.mp hname
      rw [Topology.endNodeSteps, hb] at ho
      obtain ⟨r, -, rfl⟩ := List.mem_map.mp ho
      rfl
    · obtain ⟨⟨name, spine⟩, hnb, ho⟩ := List.mem_flatMap.mp ho
      obtain ⟨x, z, rfl⟩ := hT.spineName_of_mem_spineSteps hnb ho
      rw [spineSteps_spineName] at ho
      obtain ⟨l, hl, rfl⟩ := List.mem_map.mp ho
      obtain ⟨y, leaf, hleaf, hid⟩ :=
        hT.spinePorts x z spine (Topology.getBridge_eq_some_iff.mpr hnb) l hl
      rw [hT.spineStep_eq hleaf hid]
      rfl
    · obtain ⟨⟨name, leaf⟩, hnb, ho⟩ := List.mem_flatMap.mp ho
      obtain ⟨x, y, rfl⟩ := hT.podNode_of_mem_podSteps hnb ho
      rw [podSteps_podNode] at ho
      obtain ⟨l, hl, ho⟩ := List.mem_flatMap.mp ho
      rcases hT.mem_leaf_steps (Topology.getBridge_eq_some_iff.mpr hnb) hl ho with
        ⟨-, -, -, rfl⟩ | ⟨-, -, -, -, -, -, rfl⟩ <;> rfl
  rw [untilException, List.takeWhile_eq_self_iff.mpr hall]

/-- A request that is the last one for its bridge and id puts its flow in place. -/
lemma DefaultScheme.settled (hT : DefaultScheme T podOf defaultPort)
    {pre post : List (Option Request)} {n : ℕ} {f : Flow}
    (hsteps : T.defaultSteps defaultPort = pre ++ some (n, f) :: post)
    (hpost : ∀ r, some r ∈ post → r.1 = n → r.2.id ≠ f.id) :
    Settled Flow.id (T.setDefaultFlows defaultPort ds n) f := by
  rw [Topology.setDefaultFlows, hT.untilException_eq, hsteps, List.reduceOption_append,
    List.reduceOption_cons_of_some]
  exact settled_foldl_putAt_append
    (fun r hr => hpost r (List.reduceOption_mem_iff.mp hr)) ds

/-- A route names the bridge that it leads to. -/
lemma ofId_eq_of_name (hb : T.getBridge name = some b) {ofId : ℕ}
    (hname : T.getNameFromOfId ofId = some name) : ofId = b.ofId := by
  rw [Topology.getNameFromOfId, Option.map_eq_some_iff] at hname
  obtain ⟨⟨name', b'⟩, hfind, rfl⟩ := hname
  have hb' := Topology.getBridge_eq_some_iff.mpr (List.mem_of_find?_eq_some hfind)
  obtain rfl : b' = b := Option.some_inj.mp (hb'.symm.trans hb)
  have hid := List.find?_some hfind
  exact (beq_iff_eq.mp hid).symm

/-- The bridges before and after a bridge are others. -/
lemma DefaultScheme.exists_split (hT : DefaultScheme T podOf defaultPort)
    (hb : T.getBridge name = some b) : ∃ before after, T.bridges = before ++ (name, b) :: after ∧
      ∀ nb ∈ after, nb.2.ofId ≠ b.ofId := by
  have hmem := Topology.getBridge_eq_some_iff.mp hb
  obtain ⟨before, after, hsplit⟩ := List.append_of_mem hmem
  refine ⟨before, after, hsplit, ?_⟩
  intro nb hnb hid
  have hnbMem : nb ∈ T.bridges := by
    rw [hsplit]
    simp [hnb]
  obtain rfl := hT.ofIds.eq hnbMem hmem hid
  have hnodup := T.namesNodup
  rw [hsplit, List.map_append, List.map_cons, List.nodup_append, List.nodup_cons] at hnodup
  exact hnodup.2.1.1 (List.mem_map_of_mem hnb)

/-- At a leaf the route over the last link to a bridge is in place. -/
lemma DefaultScheme.settled_leaf (hT : DefaultScheme T podOf defaultPort) (ds : Datastore)
    (hleaf : T.getBridge (podNode x y) = some leaf) (hb : T.getBridge name = some b) {p k : ℕ}
    (hlast : leaf.lastLink b.ofId = some (p, k)) {dst : Ipv4Prefix}
    (hstep : T.leafSteps defaultPort leaf y (p, b.ofId, k) =
      [some (leaf.ofId, routeTo 97 dst name p)]) :
    Settled Flow.id (T.setDefaultFlows defaultPort ds leaf.ofId) (routeTo 97 dst name p) := by
  obtain ⟨before, after, hports, hafter⟩ := Bridge.lastLink_eq_some hlast
  obtain ⟨bs, bs', hsplit, hbs'⟩ := hT.exists_split hleaf
  have hsteps : T.defaultSteps defaultPort =
      (T.getEndnodes.zipIdx.flatMap (T.endNodeSteps defaultPort) ++
        T.bridges.flatMap T.spineSteps ++ bs.flatMap (T.podSteps defaultPort) ++
        before.flatMap (T.leafSteps defaultPort leaf y)) ++
      some (leaf.ofId, routeTo 97 dst name p) ::
        (after.flatMap (T.leafSteps defaultPort leaf y) ++
          bs'.flatMap (T.podSteps defaultPort)) := by
    have hloop : T.bridges.flatMap (T.podSteps defaultPort) =
        bs.flatMap (T.podSteps defaultPort) ++ (before.flatMap (T.leafSteps defaultPort leaf y) ++
          some (leaf.ofId, routeTo 97 dst name p) ::
            after.flatMap (T.leafSteps defaultPort leaf y) ++
              bs'.flatMap (T.podSteps defaultPort)) := by
      rw [hsplit, List.flatMap_append, List.flatMap_cons, podSteps_podNode, hports,
        List.flatMap_append, List.flatMap_cons, hstep]
      simp
    rw [Topology.defaultSteps, hloop]
    simp
  refine hT.settled hsteps ?_
  intro r hr hn hid
  rcases List.mem_append.mp hr with hr | hr
  · obtain ⟨l, hl, hr⟩ := List.mem_flatMap.mp hr
    obtain ⟨dstName, dst', hname, rfl⟩ := Topology.mem_leafSteps hr
    simp only [routeTo_id, List.append_cancel_left_eq] at hid
    subst hid
    exact hafter l hl (ofId_eq_of_name hb hname)
  · obtain ⟨nb, hnb, hr⟩ := List.mem_flatMap.mp hr
    obtain ⟨podNo, -, l, -, hr⟩ := Topology.mem_podSteps hr
    obtain ⟨dstName, dst', -, rfl⟩ := Topology.mem_leafSteps hr
    exact hbs' nb hnb hn

/-- At a spine, the route over the last link to a leaf. -/
lemma DefaultScheme.settled_spine (hT : DefaultScheme T podOf defaultPort)
    (hspine : T.getBridge (spineName x z) = some spine)
    (hleaf : T.getBridge (podNode x y) = some leaf) {p k : ℕ}
    (hlast : spine.lastLink leaf.ofId = some (p, k)) :
    Settled Flow.id (T.setDefaultFlows defaultPort ds spine.ofId)
      (routeTo 98 ⟨⟨20, 1, y, 0⟩, 3⟩ (podNode x y) p) := by
  obtain ⟨before, after, hports, hafter⟩ := Bridge.lastLink_eq_some hlast
  obtain ⟨bs, bs', hsplit, hbs'⟩ := hT.exists_split hspine
  have hsteps : T.defaultSteps defaultPort =
      (T.getEndnodes.zipIdx.flatMap (T.endNodeSteps defaultPort) ++ bs.flatMap T.spineSteps ++
        before.map (T.spineStep spine)) ++
      some (spine.ofId, routeTo 98 ⟨⟨20, 1, y, 0⟩, 3⟩ (podNode x y) p) ::
        (after.map (T.spineStep spine) ++ bs'.flatMap T.spineSteps ++
          T.bridges.flatMap (T.podSteps defaultPort)) := by
    have hloop : T.bridges.flatMap T.spineSteps =
        bs.flatMap T.spineSteps ++ (before.map (T.spineStep spine) ++
          some (spine.ofId, routeTo 98 ⟨⟨20, 1, y, 0⟩, 3⟩ (podNode x y) p) ::
            after.map (T.spineStep spine) ++ bs'.flatMap T.spineSteps) := by
      rw [hsplit, List.flatMap_append, List.flatMap_cons, spineSteps_spineName, hports,
        List.map_append, List.map_cons, hT.spineStep_eq hleaf rfl]
    rw [Topology.defaultSteps, hloop]
    simp
  refine hT.settled hsteps ?_
  intro r hr hn hid
  rw [List.mem_append, List.mem_append] at hr
  rcases hr with (hr | hr) | hr
  · obtain ⟨l, hl, hr⟩ := List.mem_map.mp hr
    obtain ⟨dstName, dst', hname, rfl⟩ := Topology.spineStep_eq_some hr
    simp only [routeTo_id, List.append_cancel_left_eq] at hid
    subst hid
    exact hafter l hl (ofId_eq_of_name hleaf hname)
  · obtain ⟨nb, hnb, hr⟩ := List.mem_flatMap.mp hr
    obtain ⟨-, l, -, hr⟩ := Topology.mem_spineSteps hr
    obtain ⟨dstName, dst', -, rfl⟩ := Topology.spineStep_eq_some hr
    exact hbs' nb hnb hn
  · -- the loop over the leaves writes to other bridges
    obtain ⟨nb, hnb, hr⟩ := List.mem_flatMap.mp hr
    obtain ⟨x', y', hname⟩ := hT.podNode_of_mem_podSteps hnb hr
    obtain ⟨podNo, -, l, -, hr⟩ := Topology.mem_podSteps hr
    obtain ⟨dstName, dst', -, rfl⟩ := Topology.mem_leafSteps hr
    have hsame := hT.ofIds.eq hnb (Topology.getBridge_eq_some_iff.mp hspine) hn
    exact podNode_ne_spineName (hname.symm.trans (congrArg Prod.fst hsame))

/-- A request for a bridge is one of the loop for its kind. -/
lemma DefaultScheme.request_cases (hT : DefaultScheme T podOf defaultPort)
    (hb : T.getBridge name = some b) {f : Flow}
    (h : some (b.ofId, f) ∈ T.defaultSteps defaultPort) :
    (EndNodeName name ∧ ((∃ order, f = defaultOut b.ofId order defaultPort) ∨ f = defaultIn b 1 ∨
        f = defaultIn b 2)) ∨
      (∃ x z, name = spineName x z ∧ ∃ l ∈ b.ports, T.spineStep b l = some (b.ofId, f)) ∨
      ∃ x y, name = podNode x y ∧
        ∃ l ∈ b.ports, some (b.ofId, f) ∈ T.leafSteps defaultPort b y l := by
  have hbMem := Topology.getBridge_eq_some_iff.mp hb
  rcases Topology.mem_defaultSteps h with
    ⟨ni, hni, h⟩ | ⟨⟨name', b'⟩, hnb, h⟩ | ⟨⟨name', b'⟩, hnb, h⟩
  · obtain ⟨b', hb', hid, hflow⟩ := Topology.mem_endNodeSteps h
    have hsame := hT.ofIds.eq hbMem (Topology.getBridge_eq_some_iff.mp hb') hid
    obtain ⟨hname, rfl⟩ := Prod.mk.inj hsame
    have hend := List.mem_filter.mp (List.fst_mem_of_mem_zipIdx hni)
    rw [← hname, Bool.and_eq_true, Bool.not_eq_true'] at hend
    refine Or.inl ⟨?_, hflow.imp_left fun h => ⟨_, h⟩⟩
    rcases hT.names name hend.1 with ⟨x, y, rfl⟩ | ⟨x, z, rfl⟩ | he
    · exact absurd (hend.2.1.symm.trans contains_plane_podNode) Bool.false_ne_true
    · exact absurd (hend.2.1.symm.trans contains_plane_spineName) Bool.false_ne_true
    · exact he
  · obtain ⟨x, z, rfl⟩ := hT.spineName_of_mem_spineSteps hnb h
    obtain ⟨-, l, hl, h⟩ := Topology.mem_spineSteps h
    obtain ⟨dstName, dst, -, heq⟩ := Topology.spineStep_eq_some h
    obtain ⟨rfl, rfl⟩ := Prod.mk.inj (hT.ofIds.eq hbMem hnb (Prod.mk.inj heq).1)
    exact Or.inr (Or.inl ⟨x, z, rfl, l, hl, h⟩)
  · obtain ⟨x, y, rfl⟩ := hT.podNode_of_mem_podSteps hnb h
    obtain ⟨podNo, hno, l, hl, h⟩ := Topology.mem_podSteps h
    obtain rfl : y = podNo := Option.some_inj.mp (nameNumber_podNode.symm.trans hno)
    obtain ⟨dstName, dst, -, heq⟩ := Topology.mem_leafSteps h
    obtain ⟨rfl, rfl⟩ := Prod.mk.inj (hT.ofIds.eq hbMem hnb (Prod.mk.inj heq).1)
    exact Or.inr (Or.inr ⟨x, y, rfl, l, hl, h⟩)

end Requests

/-! ## The tables -/

section Tables

variable {T : Topology} {podOf : Str → ℕ} {defaultPort : ℕ} {x y z : ℕ} {name : Str}
  {b leaf spine : Bridge} {ds : Datastore} {f : Flow}

lemma mem_setDefaultFlows (h : f ∈ T.setDefaultFlows defaultPort ds b.ofId) :
    f ∈ ds b.ofId ∨ some (b.ofId, f) ∈ T.defaultSteps defaultPort :=
  (mem_foldl_putAt h).imp_right mem_untilException

/-- The table of a leaf: a default route, and the routes of the end nodes. -/
lemma DefaultScheme.table_leaf (hT : DefaultScheme T podOf defaultPort)
    (hleaf : T.getBridge (podNode x y) = some leaf)
    (hf : f ∈ T.setDefaultFlows defaultPort ds leaf.ofId) : f ∈ ds leaf.ofId ∨
      (∃ spine s k, T.getBridge (spineName x defaultPort) = some spine ∧
        leaf.lastLink spine.ofId = some (s, k) ∧
        f = routeTo 97 ⟨⟨20, 1, 0, 0⟩, 2⟩ (spineName x defaultPort) s) ∨
      ∃ e b p k, EndNodeName e ∧ podOf e = y ∧ T.getBridge e = some b ∧
        leaf.lastLink b.ofId = some (p, k) ∧
        f = routeTo 97 ⟨⟨20, 1, y, b.mgmtIp.d⟩, 4⟩ e p := by
  refine (mem_setDefaultFlows hf).imp_right ?_
  intro h
  rcases hT.request_cases hleaf h with ⟨he, -⟩ | ⟨x', z', heq, -⟩ | ⟨x', y', heq, l, hl, h⟩
  · exact absurd rfl he.ne_podNode
  · exact absurd heq podNode_ne_spineName
  · obtain ⟨rfl, rfl⟩ := podNode_inj.mp heq
    rcases hT.mem_leaf_steps hleaf hl h with
      ⟨spine, hspine, hid, heq⟩ | ⟨e, b, he, hpod, hb, hid, heq⟩
    · obtain ⟨s, k, hlast⟩ := Bridge.exists_lastLink hl hid.symm
      have hstep : T.leafSteps defaultPort leaf y (s, spine.ofId, k) = _ :=
        hT.leafSteps_spine hspine rfl
      rw [if_neg (not_not.mpr rfl)] at hstep
      refine Or.inl ⟨spine, s, k, hspine, hlast, ?_⟩
      refine (hT.settled_leaf ds hleaf hspine hlast hstep).2 f hf ?_
      rw [(Prod.mk.inj (Option.some_inj.mp heq)).2, routeTo_id, routeTo_id]
    · obtain ⟨p, k, hlast⟩ := Bridge.exists_lastLink hl hid.symm
      have hstep : T.leafSteps defaultPort leaf y (p, b.ofId, k) = _ :=
        hT.leafSteps_endNode he hb rfl
      refine Or.inr ⟨e, b, p, k, he, hpod, hb, hlast, ?_⟩
      refine (hT.settled_leaf ds hleaf hb hlast hstep).2 f hf ?_
      rw [(Prod.mk.inj (Option.some_inj.mp heq)).2, routeTo_id, routeTo_id]

/-- The table of a spine: the routes to the pods. -/
lemma DefaultScheme.table_spine (hT : DefaultScheme T podOf defaultPort)
    (hspine : T.getBridge (spineName x z) = some spine)
    (hf : f ∈ T.setDefaultFlows defaultPort ds spine.ofId) : f ∈ ds spine.ofId ∨
      ∃ y leaf p k, T.getBridge (podNode x y) = some leaf ∧
        spine.lastLink leaf.ofId = some (p, k) ∧
        f = routeTo 98 ⟨⟨20, 1, y, 0⟩, 3⟩ (podNode x y) p := by
  refine (mem_setDefaultFlows hf).imp_right ?_
  intro h
  rcases hT.request_cases hspine h with ⟨he, -⟩ | ⟨x', z', heq, l, hl, h⟩ | ⟨x', y', heq, -⟩
  · exact absurd rfl he.ne_spineName
  · obtain ⟨rfl, rfl⟩ := spineName_inj.mp heq
    obtain ⟨y, leaf, hleaf, hid⟩ := hT.spinePorts x z spine hspine l hl
    obtain ⟨p, k, hlast⟩ := Bridge.exists_lastLink hl hid.symm
    rw [hT.spineStep_eq hleaf hid] at h
    refine ⟨y, leaf, p, k, hleaf, hlast, ?_⟩
    refine (hT.settled_spine hspine hleaf hlast).2 f hf ?_
    rw [← (Prod.mk.inj (Option.some_inj.mp h)).2, routeTo_id, routeTo_id]
  · exact absurd heq.symm podNode_ne_spineName

/-- The table of an end node. -/
lemma DefaultScheme.table_endNode (hT : DefaultScheme T podOf defaultPort)
    (he : EndNodeName name) (hb : T.getBridge name = some b)
    (hf : f ∈ T.setDefaultFlows defaultPort ds b.ofId) : f ∈ ds b.ofId ∨
      (∃ order, f = defaultOut b.ofId order defaultPort) ∨
        f = defaultIn b 1 ∨ f = defaultIn b 2 := by
  refine (mem_setDefaultFlows hf).imp_right ?_
  intro h
  rcases hT.request_cases hb h with ⟨-, h⟩ | ⟨x, z, rfl, -⟩ | ⟨x, y, rfl, -⟩
  · exact h
  · exact absurd rfl he.ne_spineName
  · exact absurd rfl he.ne_podNode

end Tables

end DaqSwitch.Odl
