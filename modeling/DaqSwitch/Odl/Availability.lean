import DaqSwitch.Odl.Dcm

/-!
# Checked links and installed links

`is_path_available` looks at the first port of each link of a path, `install_path` uses the
one at the index `id % n` of the `n` parallel ports.  The two traversals visit the same links,
so what they disagree on is the port alone.  Where two bridges are not linked the check has no
first port and raises an exception before it compares with `None`.
-/

namespace DaqSwitch.Odl

open Lib Lib.Text

namespace Dcm

variable {d : Dcm} {T : Topology} {nc : Connectors} {spine : Str}

/-! ## The two traversals -/

/-- A link that `is_path_available` checks. -/
def CheckedLink (d : Dcm) (T : Topology) (spine : Str) (link : Str × Str) : Prop :=
  ∃ hops, d.availabilityHops T spine = some hops ∧ link ∈ hops

/-- The links that are checked when the path has a pod and a plane. -/
lemma checkedLink_iff {pod iplane : ℕ} (hpod : d.getPodId = some pod)
    (hplane : getPlaneId spine = some iplane) {link : Str × Str} :
    d.CheckedLink T spine link ↔ link = (podNode iplane pod, d.node) ∨
      link = (spine, podNode iplane pod) ∨
      ∃ i < T.getNpods, i + 1 ≠ pod ∧ link = (podNode iplane (i + 1), spine) ∨
        ∃ e ∈ T.getPodEndnodes (i + 1), link = (e, podNode iplane (i + 1)) := by
  have hothers (i : ℕ) : link ∈ (if i + 1 ≠ pod then [(podNode iplane (i + 1), spine)] else []) ↔
      i + 1 ≠ pod ∧ link = (podNode iplane (i + 1), spine) := by
    split <;> simp [*]
  simp only [CheckedLink, availabilityHops, hpod, hplane, Option.bind_eq_bind, Option.bind_some,
    Option.pure_def, Option.some_inj, exists_eq_left', List.mem_append, List.mem_cons,
    List.not_mem_nil, or_false, List.mem_flatMap, List.mem_range, List.mem_map, hothers, or_assoc,
    eq_comm (a := link)]

/-- A checked link has a pod and a plane. -/
lemma CheckedLink.ids {link : Str × Str} (h : d.CheckedLink T spine link) :
    ∃ pod iplane, d.getPodId = some pod ∧ getPlaneId spine = some iplane := by
  obtain ⟨hops, hhops, -⟩ := h
  simp only [availabilityHops, Option.bind_eq_bind, Option.bind_eq_some_iff] at hhops
  obtain ⟨pod, hpod, iplane, hplane, -⟩ := hhops
  exact ⟨pod, iplane, hpod, hplane⟩

/-- The links that a path is installed on are checked. -/
lemma checkedLink_of_installed {pod iplane : ℕ} (hpod : d.getPodId = some pod)
    (hplane : getPlaneId spine = some iplane) (hnode : podNode iplane pod ∈ T.names)
    {usedaqring atDcmPodOnly : Bool} {hops : List Hop} {h : Hop}
    (hhops : d.installPathHops T (some spine) usedaqring atDcmPodOnly = some hops)
    (hh : h ∈ hops) :
    ∃ toNode, h.toNode = some toNode ∧ d.CheckedLink T spine (h.atNode, toNode) := by
  simp only [checkedLink_iff hpod hplane]
  rcases (mem_installPathHops hpod hplane hnode hhops).mp hh with
    rfl | rfl | ⟨i, hi, ⟨hne, rfl⟩ | ⟨e, he, -, rfl⟩⟩
  · exact ⟨_, rfl, Or.inl rfl⟩
  · exact ⟨_, rfl, Or.inr (Or.inl rfl)⟩
  · exact ⟨_, rfl, Or.inr (Or.inr ⟨i, hi, Or.inl ⟨hne, rfl⟩⟩)⟩
  · exact ⟨_, rfl, Or.inr (Or.inr ⟨i, hi, Or.inr ⟨e, he, rfl⟩⟩)⟩

/-! ## The check -/

/-- A link is up at both ends, by the first port of each. -/
def FirstUp (T : Topology) (nc : Connectors) (link : Str × Str) : Prop :=
  ∃ atB toB atPort toPort, T.getBridge link.1 = some atB ∧ T.getBridge link.2 = some toB ∧
    (atB.getPortForDst toB.ofId)[0]? = some atPort ∧
    (toB.getPortForDst atB.ofId)[0]? = some toPort ∧
    atB.getPortStatus nc atPort = true ∧ toB.getPortStatus nc toPort = true

lemma checkPath_eq_true_iff {link : Str × Str} :
    checkPath T nc link.1 link.2 = some true ↔ FirstUp T nc link := by
  simp only [checkPath, FirstUp, Option.bind_eq_bind, Option.bind_eq_some_iff, Option.pure_def,
    Option.some_inj, Bool.and_eq_true, exists_and_left]

lemma mapM_all_eq_true_iff {α : Type*} {l : List α} {f : α → Option Bool} :
    (∃ cs, l.mapM f = some cs ∧ cs.all (fun c => c) = true) ↔ ∀ a ∈ l, f a = some true := by
  induction l with
  | nil => simp
  | cons a l ih =>
    rw [List.forall_mem_cons, ← ih]
    cases ha : f a with
    | none => simp [List.mapM_cons, ha]
    | some c => cases hl : l.mapM f <;> simp [List.mapM_cons, ha, hl]

lemma checkedLink_iff_mem {hops : List (Str × Str)} (hhops : d.availabilityHops T spine = some hops)
    {link : Str × Str} : d.CheckedLink T spine link ↔ link ∈ hops := by
  simp only [CheckedLink, hhops, Option.some_inj, exists_eq_left']

lemma ne_none_of_mapM {α β : Type*} {l : List α} {f : α → Option β} {cs : List β}
    (h : l.mapM f = some cs) {a : α} (ha : a ∈ l) : f a ≠ none := by
  induction l generalizing cs with
  | nil => cases ha
  | cons b l ih =>
    simp only [List.mapM_cons, Option.bind_eq_bind, Option.bind_eq_some_iff, Option.pure_def] at h
    obtain ⟨c, hb, cs', hl, -⟩ := h
    rcases List.mem_cons.mp ha with rfl | ha
    · simp [hb]
    · exact ih hl ha

/-- `is_path_available` returns `True` when there is a path and the first ports of its links
are up. -/
lemma isPathAvailable_eq_true_iff : d.isPathAvailable T nc spine = some true ↔
    (∃ link, d.CheckedLink T spine link) ∧
      ∀ link, d.CheckedLink T spine link → FirstUp T nc link := by
  cases hhops : d.availabilityHops T spine with
  | none => simp [isPathAvailable, CheckedLink, hhops]
  | some hops =>
    have hex : ∃ link, link ∈ hops := by
      simp only [availabilityHops, Option.bind_eq_bind, Option.bind_eq_some_iff, Option.pure_def,
        Option.some_inj] at hhops
      obtain ⟨pod, -, iplane, -, rfl⟩ := hhops
      exact ⟨_, List.mem_cons_self⟩
    simp only [isPathAvailable, hhops, Option.bind_eq_bind, Option.bind_some, Option.pure_def,
      Option.bind_eq_some_iff, Option.some_inj, mapM_all_eq_true_iff, checkedLink_iff_mem hhops,
      hex, true_and, checkPath_eq_true_iff]

/-- Whenever it returns, no check has raised an exception. -/
lemma checkPath_ne_none {c : Bool} (h : d.isPathAvailable T nc spine = some c) {link : Str × Str}
    (hlink : d.CheckedLink T spine link) : checkPath T nc link.1 link.2 ≠ none := by
  obtain ⟨hops, hhops, hmem⟩ := hlink
  simp only [isPathAvailable, hhops, Option.bind_eq_bind, Option.bind_some,
    Option.bind_eq_some_iff] at h
  obtain ⟨cs, hcs, -⟩ := h
  exact ne_none_of_mapM hcs hmem

/-! ## Exactness -/

/-- The two bridges of a link have ports to each other. -/
def Linked (T : Topology) (link : Str × Str) : Prop :=
  ∀ atB toB, T.getBridge link.1 = some atB → T.getBridge link.2 = some toB →
    atB.getPortForDst toB.ofId ≠ [] ∧ toB.getPortForDst atB.ofId ≠ []

/-- The port at the index `id % n` of a link is up. -/
def SelectedUp (d : Dcm) (T : Topology) (nc : Connectors) (h : Hop) : Prop :=
  ∀ toNode b dstB ofDport, h.toNode = some toNode → T.getBridge h.atNode = some b →
    T.getBridge toNode = some dstB → d.ofDport b dstB = some ofDport →
    b.getPortStatus nc ofDport = true

/-- What the check promises: a path that it calls available is up once it is installed, and it
returns `False` for one with bridges that are not linked. -/
structure AvailableMeansUp (d : Dcm) (T : Topology) (nc : Connectors) (spine : Str) : Prop where
  up : d.isPathAvailable T nc spine = some true → ∀ atDcmPodOnly,
    ∀ r ∈ d.installRequests T (some spine) false atDcmPodOnly, ∀ port,
      r.2.output = some (.num port) → ∀ nb ∈ T.bridges, nb.2.ofId = r.1 →
      nb.2.getPortStatus nc port = true
  unlinked : (∃ link, d.CheckedLink T spine link ∧ ¬ Linked T link) →
    d.isPathAvailable T nc spine = some false

/-- The bridges of the path are linked, and if the first ports are up then so are the ones at
the index `id % n`, unless there is no connection to install. -/
structure PortsAgree (d : Dcm) (T : Topology) (nc : Connectors) (spine : Str) : Prop where
  linked : ∀ link, d.CheckedLink T spine link → Linked T link
  selected : d.inflows ≠ [] → (∃ link, d.CheckedLink T spine link) →
    (∀ link, d.CheckedLink T spine link → FirstUp T nc link) →
    ∀ atDcmPodOnly hops, d.installPathHops T (some spine) false atDcmPodOnly = some hops →
    ∀ h ∈ hops, d.SelectedUp T nc h

/-- The bridges of a link exist. -/
def BridgesExist (T : Topology) (link : Str × Str) : Prop :=
  link.1 ∈ T.names ∧ link.2 ∈ T.names

/-- A port that the check looks at: the first one of a link, at one of its ends. -/
def CheckedPort (d : Dcm) (T : Topology) (spine : Str) (ofId port : ℕ) : Prop :=
  ∃ link atB toB, d.CheckedLink T spine link ∧ T.getBridge link.1 = some atB ∧
    T.getBridge link.2 = some toB ∧
    (atB.ofId = ofId ∧ (atB.getPortForDst toB.ofId)[0]? = some port ∨
      toB.ofId = ofId ∧ (toB.getPortForDst atB.ofId)[0]? = some port)

/-- The bridges of the path are linked, and the ports at the index `id % n` are among those
that the check looks at. -/
structure SelectedChecked (d : Dcm) (T : Topology) (spine : Str) : Prop where
  linked : ∀ link, d.CheckedLink T spine link → Linked T link
  selected : d.inflows ≠ [] → (∃ link, d.CheckedLink T spine link) →
    (∀ link, d.CheckedLink T spine link → BridgesExist T link) →
    ∀ atDcmPodOnly hops, d.installPathHops T (some spine) false atDcmPodOnly = some hops →
    ∀ h ∈ hops, ∀ toNode b dstB ofDport, h.toNode = some toNode → T.getBridge h.atNode = some b →
      T.getBridge toNode = some dstB → d.ofDport b dstB = some ofDport →
      d.CheckedPort T spine b.ofId ofDport

lemma getPortStatus_congr {b b' : Bridge} (h : b.ofId = b'.ofId) (nc : Connectors) (port : ℕ) :
    b.getPortStatus nc port = b'.getPortStatus nc port := by
  rw [Bridge.getPortStatus, Bridge.getPortStatus, h]

/-- A link without ports makes the check raise an exception. -/
lemma isPathAvailable_of_not_linked {link : Str × Str} (hlink : d.CheckedLink T spine link)
    (h : ¬ Linked T link) : d.isPathAvailable T nc spine = none := by
  by_contra hne
  obtain ⟨c, hc⟩ := Option.ne_none_iff_exists'.mp hne
  refine h ?_
  intro atB toB hat hto
  have hcheck := checkPath_ne_none hc hlink
  refine ⟨fun hnil => hcheck ?_, fun hnil => hcheck ?_⟩
  · simp [checkPath, hat, hto, hnil]
  · cases hports : atB.getPortForDst toB.ofId <;> simp [checkPath, hat, hto, hnil, hports]

lemma FirstUp.bridgesExist {link : Str × Str} (h : FirstUp T nc link) : BridgesExist T link := by
  obtain ⟨atB, toB, -, -, hat, hto, -⟩ := h
  exact ⟨Topology.mem_names.mpr ⟨atB, hat⟩, Topology.mem_names.mpr ⟨toB, hto⟩⟩

/-- The hops of a path whose links are up can all be installed. -/
lemma installSubpath_of_firstUp
    (hup : ∀ link, d.CheckedLink T spine link → FirstUp T nc link)
    (hex : ∃ link, d.CheckedLink T spine link) {atDcmPodOnly : Bool} {hops : List Hop}
    (hhops : d.installPathHops T (some spine) false atDcmPodOnly = some hops) :
    ∀ h ∈ hops, ∃ rs, d.installSubpath T h = some rs := by
  obtain ⟨link, hlink⟩ := hex
  obtain ⟨pod, iplane, hpod, hplane⟩ := hlink.ids
  have hnode : podNode iplane pod ∈ T.names :=
    (hup _ ((checkedLink_iff hpod hplane).mpr (Or.inl rfl))).bridgesExist.1
  intro h hh
  obtain ⟨toNode, hto, hchecked⟩ := checkedLink_of_installed hpod hplane hnode hhops hh
  obtain ⟨b, dstB, port, -, hb, hdst, hport, -⟩ := hup _ hchecked
  have hne : b.getPortForDst dstB.ofId ≠ [] := by
    intro hnil
    simp [hnil] at hport
  obtain ⟨ofDport, hofDport⟩ := ofDport_eq_some (d := d) hne
  exact ⟨_, installSubpath_eq_some_iff.mpr ⟨toNode, b, dstB, ofDport, hto, hb, hdst, hofDport, rfl⟩⟩

lemma output_flowIn (i : ℕ) (inflow : Inflow) (port : ℕ) :
    (d.flowIn i inflow port).output = some (.num port) := rfl

/-- The rules of a path without daqrings lead to the ports at the index `id % n`. -/
lemma selectedUp_of_up (hinflows : d.inflows ≠ [])
    (hex : ∃ link, d.CheckedLink T spine link)
    (hfirst : ∀ link, d.CheckedLink T spine link → FirstUp T nc link) {atDcmPodOnly : Bool}
    (hup : ∀ r ∈ d.installRequests T (some spine) false atDcmPodOnly, ∀ port,
      r.2.output = some (.num port) → ∀ nb ∈ T.bridges, nb.2.ofId = r.1 →
      nb.2.getPortStatus nc port = true) {hops : List Hop}
    (hhops : d.installPathHops T (some spine) false atDcmPodOnly = some hops) {h : Hop}
    (hh : h ∈ hops) (hring : h.usedaqring = false) : d.SelectedUp T nc h := by
  intro toNode b dstB ofDport hto hb hdst hport
  obtain ⟨inflow, inflows, hcons⟩ := List.exists_cons_of_ne_nil hinflows
  have hmem : (b.ofId, d.flowIn 1 inflow ofDport) ∈
      d.installRequests T (some spine) false atDcmPodOnly := by
    rw [installRequests, hhops]
    refine mem_requests_of_forall (installSubpath_of_firstUp hfirst hex hhops) hh
      (installSubpath_eq_some_iff.mpr ⟨toNode, b, dstB, ofDport, hto, hb, hdst, hport, rfl⟩) ?_
    refine mem_subpathRequests.mpr (Or.inr ⟨(inflow, 1), by simp [hcons], ?_⟩)
    simp [hring]
  exact hup _ hmem ofDport rfl _ (Topology.getBridge_eq_some_iff.mp hb) rfl

/-- Without daqrings every hop leads to a link. -/
lemma usedaqring_eq_false {pod iplane : ℕ} (hpod : d.getPodId = some pod)
    (hplane : getPlaneId spine = some iplane) (hnode : podNode iplane pod ∈ T.names)
    {atDcmPodOnly : Bool} {hops : List Hop}
    (hhops : d.installPathHops T (some spine) false atDcmPodOnly = some hops) {h : Hop}
    (hh : h ∈ hops) : h.usedaqring = false := by
  rcases (mem_installPathHops hpod hplane hnode hhops).mp hh with
    rfl | rfl | ⟨i, -, ⟨-, rfl⟩ | ⟨e, -, -, rfl⟩⟩ <;> simp

/-- The ports agree exactly when the check keeps its promise. -/
lemma availableMeansUp_iff_portsAgree :
    d.AvailableMeansUp T nc spine ↔ d.PortsAgree T nc spine := by
  constructor
  · intro h
    constructor
    · intro link hlink
      by_contra hnot
      have hfalse := h.unlinked ⟨link, hlink, hnot⟩
      rw [isPathAvailable_of_not_linked hlink hnot] at hfalse
      cases hfalse
    · intro hinflows hex hfirst atDcmPodOnly hops hhops hop hh
      obtain ⟨link, hlink⟩ := hex
      obtain ⟨pod, iplane, hpod, hplane⟩ := hlink.ids
      have hnode : podNode iplane pod ∈ T.names :=
        (hfirst _ ((checkedLink_iff hpod hplane).mpr (Or.inl rfl))).bridgesExist.1
      exact selectedUp_of_up hinflows ⟨link, hlink⟩ hfirst
        (h.up (isPathAvailable_eq_true_iff.mpr ⟨⟨link, hlink⟩, hfirst⟩) atDcmPodOnly) hhops hh
        (usedaqring_eq_false hpod hplane hnode hhops hh)
  · intro h
    constructor
    · intro havail atDcmPodOnly r hr port hport nb hnb hid
      obtain ⟨hex, hfirst⟩ := isPathAvailable_eq_true_iff.mp havail
      obtain ⟨link, hlink⟩ := hex
      obtain ⟨pod, iplane, hpod, hplane⟩ := hlink.ids
      have hnode : podNode iplane pod ∈ T.names :=
        (hfirst _ ((checkedLink_iff hpod hplane).mpr (Or.inl rfl))).bridgesExist.1
      obtain ⟨hops, hhops⟩ :
          ∃ hops, d.installPathHops T (some spine) false atDcmPodOnly = some hops :=
        exists_installPathHops hpod hplane
      rw [installRequests, hhops] at hr
      obtain ⟨hop, hh, rs, hrs, hr⟩ := exists_hop_of_mem_requests hr
      obtain ⟨toNode, b, dstB, ofDport, hto, hb, hdst, hofDport, rfl⟩ :=
        installSubpath_eq_some_iff.mp hrs
      rw [usedaqring_eq_false hpod hplane hnode hhops hh, mem_subpathRequests] at hr
      rcases hr with ⟨hring, -⟩ | ⟨ji, hji, rfl⟩
      · cases hring
      · obtain rfl : ofDport = port := by simpa [output_flowIn] using hport
        have hinflows : d.inflows ≠ [] := by
          intro hnil
          simp [hnil] at hji
        rw [getPortStatus_congr hid]
        exact h.selected hinflows ⟨link, hlink⟩ hfirst atDcmPodOnly hops hhops hop hh toNode b dstB
          ofDport hto hb hdst hofDport
    · rintro ⟨link, hlink, hnot⟩
      exact absurd (h.linked link hlink) hnot

/-- Statuses with a single port down. -/
def allUpBut (ofId port : ℕ) : Connectors := fun n p =>
  if n = ofId ∧ p = port then none else some ⟨[], false⟩

lemma getPortStatus_allUpBut {b : Bridge} {ofId port p : ℕ} :
    b.getPortStatus (allUpBut ofId port) p = true ↔ ¬ (b.ofId = ofId ∧ p = port) := by
  rw [Bridge.getPortStatus, allUpBut]
  by_cases h : b.ofId = ofId ∧ p = port
  · simp [h]
  · simp [h]

/-- When the check does not look at a port, that port may be down and the first ones up. -/
lemma firstUp_allUpBut (hlinked : ∀ link, d.CheckedLink T spine link → Linked T link)
    {ofId port : ℕ} (hport : ¬ d.CheckedPort T spine ofId port) {link : Str × Str}
    (hlink : d.CheckedLink T spine link) (hexist : BridgesExist T link) :
    FirstUp T (allUpBut ofId port) link := by
  obtain ⟨atB, hat⟩ := Topology.mem_names.mp hexist.1
  obtain ⟨toB, hto⟩ := Topology.mem_names.mp hexist.2
  obtain ⟨hatPorts, htoPorts⟩ := hlinked link hlink atB toB hat hto
  obtain ⟨atPort, atRest, hatCons⟩ := List.exists_cons_of_ne_nil hatPorts
  obtain ⟨toPort, toRest, htoCons⟩ := List.exists_cons_of_ne_nil htoPorts
  refine ⟨atB, toB, atPort, toPort, hat, hto, by simp [hatCons], by simp [htoCons], ?_, ?_⟩
  · rw [getPortStatus_allUpBut]
    rintro ⟨rfl, rfl⟩
    exact hport ⟨link, atB, toB, hlink, hat, hto, Or.inl ⟨rfl, by simp [hatCons]⟩⟩
  · rw [getPortStatus_allUpBut]
    rintro ⟨rfl, rfl⟩
    exact hport ⟨link, atB, toB, hlink, hat, hto, Or.inr ⟨rfl, by simp [htoCons]⟩⟩

lemma forall_portsAgree_iff : (∀ nc, d.PortsAgree T nc spine) ↔ d.SelectedChecked T spine := by
  constructor
  · intro h
    have hlinked := (h fun _ _ => none).linked
    refine ⟨hlinked, ?_⟩
    intro hinflows hex hexist atDcmPodOnly hops hhops hop hh toNode b dstB ofDport hto hb hdst hport
    by_contra hnot
    have hup := (h (allUpBut b.ofId ofDport)).selected hinflows hex
      (fun link hlink => firstUp_allUpBut hlinked hnot hlink (hexist link hlink))
      atDcmPodOnly hops hhops hop hh toNode b dstB ofDport hto hb hdst hport
    exact getPortStatus_allUpBut.mp hup ⟨rfl, rfl⟩
  · intro h nc
    refine ⟨h.linked, ?_⟩
    intro hinflows hex hfirst atDcmPodOnly hops hhops hop hh toNode b dstB ofDport hto hb hdst hport
    obtain ⟨link, atB, toB, hlink, hat, hto', hchecked⟩ :=
      h.selected hinflows hex (fun link hlink => (hfirst link hlink).bridgesExist) atDcmPodOnly hops
        hhops hop hh toNode b dstB ofDport hto hb hdst hport
    obtain ⟨atB', toB', atPort, toPort, hat', hto'', hatPort, htoPort, hatUp, htoUp⟩ :=
      hfirst link hlink
    rw [hat, Option.some_inj] at hat'
    rw [hto', Option.some_inj] at hto''
    subst hat' hto''
    rcases hchecked with ⟨hid, hsel⟩ | ⟨hid, hsel⟩
    · rw [hatPort, Option.some_inj] at hsel
      rwa [← getPortStatus_congr hid, ← hsel]
    · rw [htoPort, Option.some_inj] at hsel
      rwa [← getPortStatus_congr hid, ← hsel]

end Dcm

/-- The check keeps its promise exactly when the bridges of the path are linked and the ports
at the index `id % n` are up with the first ones; whatever the statuses, exactly when the
check looks at the ports at these indices. -/
theorem availableMeansUp_iff (d : Dcm) (T : Topology) (spine : Str) :
    (∀ nc, d.AvailableMeansUp T nc spine ↔ d.PortsAgree T nc spine) ∧
      ((∀ nc, d.AvailableMeansUp T nc spine) ↔ d.SelectedChecked T spine) := by
  refine ⟨fun nc => Dcm.availableMeansUp_iff_portsAgree, ?_⟩
  rw [← Dcm.forall_portsAgree_iff]
  exact forall_congr' fun nc => Dcm.availableMeansUp_iff_portsAgree

/-- One pod with a spine; the second end node has two links. -/
def twoUplinks : Topology where
  bridges :=
    [("plane-1-spine-1".toList, { ofId := 1, ports := [(1, 2, 1)], mgmtIp := ⟨10, 0, 0, 1⟩ }),
      ("plane-1-pod-1".toList,
        { ofId := 2, ports := [(1, 1, 1), (2, 3, 1), (3, 4, 1), (4, 4, 2)]
          mgmtIp := ⟨10, 0, 0, 2⟩ }),
      ("pod-1-a".toList, { ofId := 3, ports := [(1, 2, 2)], mgmtIp := ⟨10, 0, 0, 3⟩ }),
      ("pod-1-b".toList, { ofId := 4, ports := [(1, 2, 3), (2, 2, 4)], mgmtIp := ⟨10, 0, 0, 4⟩ })]

def twoUplinksDcm : Dcm where
  id := 1
  node := "pod-1-a".toList
  dip := ⟨20, 1, 1, 3⟩
  inflows := [⟨1000, ⟨20, 1, 1, 4⟩, 2000⟩]
  pid := 0

/-- The second link is down; the path is called available and uses it. -/
theorem not_availableMeansUp :
    ¬ twoUplinksDcm.AvailableMeansUp twoUplinks (Dcm.allUpBut 4 2) "plane-1-spine-1".toList := by
  intro h
  have hdown := h.up (by decide) false (4, twoUplinksDcm.flowIn 1 ⟨1000, ⟨20, 1, 1, 4⟩, 2000⟩ 2)
    (by decide) 2 rfl
    ("pod-1-b".toList, { ofId := 4, ports := [(1, 2, 3), (2, 2, 4)], mgmtIp := ⟨10, 0, 0, 4⟩ })
    (by simp [twoUplinks]) rfl
  revert hdown
  decide

end DaqSwitch.Odl
