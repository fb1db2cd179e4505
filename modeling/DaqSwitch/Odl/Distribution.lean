import DaqSwitch.Lib.Turns
import DaqSwitch.Odl.SpineInUse

/-!
# Distributing the Dcms

`odl_distribute_dcms.py` installs the Dcms through the spines in turn.  Afterwards, and after any
calls of `install_path` that come to one for each Dcm, `spine_in_use` returns the spine of the call
of a Dcm, and this is the one that its packets pass on their way between pods.
-/

namespace DaqSwitch.Odl

open Lib Lib.Text Lib.Forwarding

/-! ## Installing alone -/

lemma find?_eq_some {α : Type*} {l : List α} {p : α → Bool} {a : α} (ha : a ∈ l)
    (h : ∀ x, p x = true ↔ x = a) : l.find? p = some a := by
  cases hfind : l.find? p with
  | none => exact absurd ((h a).mpr rfl) (List.find?_eq_none.mp hfind a ha)
  | some x => rw [(h x).mp (List.find?_some hfind)]

/-- A call of `install_path` with its arguments. -/
def installOp (call : Dcm × Option Str × Bool × Bool) : FlowOp :=
  .path (.install call.1 call.2.1 call.2.2.1 call.2.2.2)

section Installing

variable {d : Dcm}

/-- What calls of `install_path` alone add. -/
lemma mem_foldl_spinesAfter_iff {calls : List (Dcm × Option Str × Bool × Bool)}
    {spines : List Str} {s : Str} :
    s ∈ (calls.map installOp).foldl d.spinesAfter spines ↔
      s ∈ spines ∨ ∃ c ∈ calls, c.2.1 = some s ∧ c.1.id = d.id ∧
        (PathCall.mk c.1 s c.2.2.1 c.2.2.2).writesAtSpine = true := by
  induction calls generalizing spines with
  | nil => simp
  | cons c calls ih =>
    rw [List.map_cons, List.foldl_cons, ih, List.exists_mem_cons_iff, ← or_assoc]
    refine or_congr_left ?_
    obtain ⟨d', spine, usedaqring, atDcmPodOnly⟩ := c
    cases spine with
    | none => simp [installOp, Dcm.spinesAfter]
    | some spine =>
      rw [installOp, Dcm.spinesAfter]
      split
      · next hif =>
        rw [List.mem_cons, or_comm]
        refine or_congr_right ⟨?_, fun h => (Option.some_inj.mp h.1).symm⟩
        rintro rfl
        exact ⟨rfl, hif⟩
      · next hif =>
        refine (or_iff_left ?_).symm
        rintro ⟨heq, hwrites⟩
        obtain rfl := Option.some_inj.mp heq
        exact hif hwrites

end Installing

/-! ## Distributing -/

/-- The loop of `odl_distribute_dcms.py`.  Without spines the spine is `None`.  An exception in
`install_path` ends the script but not this fold; on a leaf-spine topology no call for a known node
through a known spine raises one. -/
def distribute (T : Topology) (usedaqring : Bool) (dcms : List Dcm) (ds : Datastore) : Datastore :=
  dcms.zipIdx.foldl
    (fun ds di => di.1.installPath T T.getSpines[di.2 % T.getSpines.length]? usedaqring false ds) ds

section Distribute

variable {T : Topology} {planes pods : ℕ} {usedaqring : Bool} {dcms : List Dcm} {d : Dcm}

/-- The calls of the loop: the Dcms with their spines. -/
def distributeCalls (T : Topology) (usedaqring : Bool) (dcms : List Dcm) :
    List (Dcm × Option Str × Bool × Bool) :=
  dcms.zipIdx.map fun di => (di.1, T.getSpines[di.2 % T.getSpines.length]?, usedaqring, false)

lemma distribute_eq (ds : Datastore) : distribute T usedaqring dcms ds =
    ((distributeCalls T usedaqring dcms).map installOp).foldl (FlowOp.apply T) ds := by
  rw [distributeCalls, List.map_map, List.foldl_map]
  rfl

lemma mem_distributeCalls {call : Dcm × Option Str × Bool × Bool} :
    call ∈ distributeCalls T usedaqring dcms ↔
      ∃ d i, dcms[i]? = some d ∧
        (d, T.getSpines[i % T.getSpines.length]?, usedaqring, false) = call := by
  simp only [distributeCalls, List.mem_map, Prod.exists, List.mk_mem_zipIdx_iff_getElem?]

lemma writesAtSpine_iff {spine : Str} :
    (PathCall.mk d spine usedaqring false).writesAtSpine = true ↔
      d.inflows ≠ [] ∨ usedaqring = true := by
  simp [PathCall.writesAtSpine, PathCall.spineRing]

/-- A Dcm is installed once, through its spine. -/
lemma mem_spinesAfter_distribute (hids : (dcms.map Dcm.id).Nodup) {i : ℕ} (hd : dcms[i]? = some d)
    (hwrites : d.inflows ≠ [] ∨ usedaqring = true) {s : Str} :
    s ∈ ((distributeCalls T usedaqring dcms).map installOp).foldl d.spinesAfter [] ↔
      T.getSpines[i % T.getSpines.length]? = some s := by
  rw [mem_foldl_spinesAfter_iff, or_iff_right List.not_mem_nil]
  constructor
  · rintro ⟨call, hcall, hspine, hid, -⟩
    obtain ⟨d', j, hd', rfl⟩ := mem_distributeCalls.mp hcall
    have hlt : i < (dcms.map Dcm.id).length := by
      rw [List.length_map]
      exact (List.getElem?_eq_some_iff.mp hd).1
    obtain rfl : i = j := by
      refine (List.getElem?_inj hlt hids).mp ?_
      rw [List.getElem?_map, List.getElem?_map, hd, hd']
      exact congrArg some hid.symm
    exact hspine
  · intro hspine
    exact ⟨_, mem_distributeCalls.mpr ⟨d, i, hd, rfl⟩, hspine, rfl, writesAtSpine_iff.mpr hwrites⟩

lemma known_distribute (hT : LeafSpine T planes pods) (hhosts : NoSpineHosts T)
    (hnodes : ∀ d ∈ dcms, ∃ y host, d.node = endName y host ∧ endName y host ∈ T.names) :
    ∀ op ∈ (distributeCalls T usedaqring dcms).map installOp, op.Known T := by
  intro op hop
  obtain ⟨call, hcall, rfl⟩ := List.mem_map.mp hop
  obtain ⟨d, i, hd, rfl⟩ := mem_distributeCalls.mp hcall
  cases hspine : T.getSpines[i % T.getSpines.length]? with
  | none => exact trivial
  | some spine =>
    have hmem := List.mem_of_getElem? hspine
    obtain ⟨hname, x, z, rfl⟩ := (mem_getSpines_iff hT hhosts).mp hmem
    exact ⟨hnodes d (List.mem_of_getElem? hd), x, z, rfl, hname⟩

end Distribute

/-- **Distributing.**  `odl_distribute_dcms.py` gives the Dcms the spines in turn, as `spine_in_use`
finds them afterwards, so that the numbers of Dcms that two spines have differ by one at most. -/
theorem distribute_spread {T : Topology} {planes pods : ℕ} (hT : LeafSpine T planes pods)
    (hhosts : NoSpineHosts T) (hspines : T.getSpines ≠ []) {ds : Datastore} (hds : ProgramStore ds)
    {dcms : List Dcm} (hids : (dcms.map Dcm.id).Nodup)
    (hnodes : ∀ d ∈ dcms, ∃ y host, d.node = endName y host ∧ endName y host ∈ T.names)
    {usedaqring : Bool} (hwrites : ∀ d ∈ dcms, d.inflows ≠ [] ∨ usedaqring = true)
    (hnone : ∀ d ∈ dcms, ∀ nb ∈ T.bridges, ∀ f ∈ ds nb.2.ofId, ¬ d.Owns f.id) :
    (∀ i d, dcms[i]? = some d → d.spineInUse T (distribute T usedaqring dcms ds) =
        T.getSpines[i % T.getSpines.length]?) ∧
      ∀ spine ∈ T.getSpines,
        let nb := dcms.countP fun d => d.spineInUse T (distribute T usedaqring dcms ds) = some spine
        dcms.length / T.getSpines.length ≤ nb ∧ nb ≤ dcms.length / T.getSpines.length + 1 := by
  have hpos : 0 < T.getSpines.length := List.length_pos_iff.mpr hspines
  have hknown : ∀ op ∈ (distributeCalls T usedaqring dcms).map installOp, op.Known T :=
    known_distribute hT hhosts hnodes
  have hturn : ∀ i d, dcms[i]? = some d → d.spineInUse T (distribute T usedaqring dcms ds) =
      T.getSpines[i % T.getSpines.length]? := by
    intro i d hd
    have hmem := List.mem_of_getElem? hd
    have hused (s : Str) := mem_spinesAfter_distribute (T := T) (s := s) hids hd (hwrites d hmem)
    obtain ⟨hds', hat⟩ := flowsAt_foldl hT hknown hds (flowsAt_nil (hnone d hmem))
    rw [distribute_eq, spineInUse_of_flowsAt hT hhosts hds' hat]
    obtain ⟨spine, hspine⟩ : ∃ spine, T.getSpines[i % T.getSpines.length]? = some spine :=
      ⟨_, List.getElem?_eq_getElem (Nat.mod_lt i hpos)⟩
    rw [hspine]
    refine find?_eq_some (List.mem_of_getElem? hspine) fun s => decide_eq_true_iff.trans ?_
    rw [hused s, hspine, Option.some_inj, eq_comm]
  refine ⟨hturn, ?_⟩
  intro spine hspine
  have hnodup : T.getSpines.Nodup := List.Nodup.filter _ T.namesNodup
  refine Turns.countP_turn_bounds hnodup hspine fun i d hd => ?_
  rw [decide_eq_true_eq, hturn i d hd]

/-- One plane with two spines, two pods with an end node each. -/
def twoSpines : Topology where
  bridges :=
    [(spineName 1 1, { ofId := 1, ports := [(1, 3, 1), (2, 4, 1)], mgmtIp := ⟨10, 0, 0, 1⟩ }),
      (spineName 1 2, { ofId := 2, ports := [(1, 3, 2), (2, 4, 2)], mgmtIp := ⟨10, 0, 0, 2⟩ }),
      (podNode 1 1,
        { ofId := 3, ports := [(1, 1, 1), (2, 2, 1), (3, 5, 1)], mgmtIp := ⟨10, 0, 0, 3⟩ }),
      (podNode 1 2,
        { ofId := 4, ports := [(1, 1, 2), (2, 2, 2), (3, 6, 1)], mgmtIp := ⟨10, 0, 0, 4⟩ }),
      (endName 1 ['a'], { ofId := 5, ports := [(1, 3, 3)], mgmtIp := ⟨10, 0, 0, 5⟩ }),
      (endName 2 ['b'], { ofId := 6, ports := [(1, 4, 3)], mgmtIp := ⟨10, 0, 0, 6⟩ })]

lemma twoSpines_names : twoSpines.names = [spineName 1 1, spineName 1 2, podNode 1 1, podNode 1 2,
    endName 1 ['a'], endName 2 ['b']] := rfl

lemma twoSpines_endName {y : ℕ} {host : Str} (h : endName y host ∈ twoSpines.names) :
    y = 1 ∧ host = ['a'] ∨ y = 2 ∧ host = ['b'] := by
  simpa only [twoSpines_names, List.mem_cons, List.not_mem_nil, or_false, endName_ne_spineName,
    endName_ne_podNode, false_or, endName_inj] using h

lemma leafSpine_twoSpines : LeafSpine twoSpines 1 2 where
  podsLe := by decide
  names name hname := by
    simp only [twoSpines_names, List.mem_cons, List.not_mem_nil, or_false] at hname
    rcases hname with rfl | rfl | rfl | rfl | rfl | rfl
    · exact Or.inr (Or.inl ⟨1, 1, by omega, rfl⟩)
    · exact Or.inr (Or.inl ⟨1, 2, by omega, rfl⟩)
    · exact Or.inl ⟨1, 1, by omega, by omega, rfl⟩
    · exact Or.inl ⟨1, 2, by omega, by omega, rfl⟩
    · exact inScheme_endName (by omega) (by simp)
    · exact inScheme_endName (by omega) (by simp)
  leaf x y hx hy := by
    obtain rfl : x = 1 := by omega
    obtain rfl | rfl : y = 1 ∨ y = 2 := by omega
    · simp [twoSpines_names]
    · simp [twoSpines_names]
  ofIds := by decide
  links := by decide
  endLinked y host x hname hx := by
    obtain rfl : x = 1 := by omega
    rcases twoSpines_endName hname with ⟨rfl, rfl⟩ | ⟨rfl, rfl⟩
    · exact ⟨_, _, rfl, rfl, by decide⟩
    · exact ⟨_, _, rfl, rfl, by decide⟩
  spineLinked x y z hname hy := by
    simp only [twoSpines_names, List.mem_cons, List.not_mem_nil, or_false, spineName_inj,
      podNode_ne_spineName.symm, endName_ne_spineName.symm] at hname
    obtain rfl | rfl : y = 1 ∨ y = 2 := by omega
    · rcases hname with ⟨rfl, rfl⟩ | ⟨rfl, rfl⟩
      · exact ⟨_, _, rfl, rfl, by decide⟩
      · exact ⟨_, _, rfl, rfl, by decide⟩
    · rcases hname with ⟨rfl, rfl⟩ | ⟨rfl, rfl⟩
      · exact ⟨_, _, rfl, rfl, by decide⟩
      · exact ⟨_, _, rfl, rfl, by decide⟩

lemma noSpineHosts_twoSpines : NoSpineHosts twoSpines := by
  intro y host hname
  refine (twoPods_hosts host ?_).2.2
  rcases twoSpines_endName hname with ⟨-, rfl⟩ | ⟨-, rfl⟩
  · simp
  · simp

/-- Three Dcms, with rings. -/
def threeDcms : List Dcm :=
  [twoPodsCall.dcm, { twoPodsCall.dcm with id := 12, node := endName 2 ['b'] },
    { twoPodsCall.dcm with id := 3 }]

/-- The theorem for three Dcms and two spines: the first and the last Dcm share a spine. -/
theorem distribute_spread_twoSpines :
    (∀ i d, threeDcms[i]? = some d →
      d.spineInUse twoSpines (distribute twoSpines true threeDcms fun _ => []) =
        twoSpines.getSpines[i % twoSpines.getSpines.length]?) ∧
    twoSpines.getSpines = [spineName 1 1, spineName 1 2] ∧
    ∀ spine ∈ twoSpines.getSpines,
      let nb := threeDcms.countP fun d =>
        d.spineInUse twoSpines (distribute twoSpines true threeDcms fun _ => []) = some spine
      1 ≤ nb ∧ nb ≤ 2 := by
  have hnodes : ∀ d ∈ threeDcms, ∃ y host, d.node = endName y host ∧
      endName y host ∈ twoSpines.names := by
    simp only [threeDcms, List.forall_mem_cons, List.not_mem_nil, false_implies, implies_true,
      and_true]
    exact ⟨⟨1, ['a'], rfl, by simp [twoSpines_names]⟩, ⟨2, ['b'], rfl, by simp [twoSpines_names]⟩,
      ⟨1, ['a'], rfl, by simp [twoSpines_names]⟩⟩
  obtain ⟨hturn, hcount⟩ := @distribute_spread twoSpines 1 2 leafSpine_twoSpines
    noSpineHosts_twoSpines (by decide) (fun _ => []) programStore_empty threeDcms (by decide)
    hnodes true (by decide) fun _ _ _ _ _ hf => absurd hf List.not_mem_nil
  exact ⟨hturn, by decide, hcount⟩

/-! ## The spine that packets take -/

section Routes

variable {T : Topology} {planes pods : ℕ} {calls : List PathCall} {ds : Datastore} {c : PathCall}

/-- Calls of `install_path` through spines are such a history. -/
lemma foldl_apply_eq (ds : Datastore) : calls.foldl (PathCall.apply T) ds =
    ((calls.map fun c => (c.dcm, some c.spine, c.usedaqring, c.atDcmPodOnly)).map installOp).foldl
      (FlowOp.apply T) ds := by
  rw [List.map_map, List.foldl_map]
  rfl

/-- A Dcm that is installed once uses the spine of its call. -/
lemma spineInUse_of_mem (hT : LeafSpine T planes pods) (hhosts : NoSpineHosts T)
    (hknown : ∀ c ∈ calls, c.Known T) (hids : (calls.map fun c => c.dcm.id).Nodup)
    (hds : ProgramStore ds) (hc : c ∈ calls) (hwrites : c.writesAtSpine = true)
    (hnone : ∀ nb ∈ T.bridges, ∀ f ∈ ds nb.2.ofId, ¬ c.dcm.Owns f.id) :
    c.dcm.spineInUse T (calls.foldl (PathCall.apply T) ds) = some c.spine := by
  have hops : ∀ op ∈ (calls.map fun c =>
      (c.dcm, some c.spine, c.usedaqring, c.atDcmPodOnly)).map installOp, op.Known T := by
    intro op hop
    rw [List.map_map] at hop
    obtain ⟨c', hc', rfl⟩ := List.mem_map.mp hop
    exact hknown c' hc'
  obtain ⟨hds', hat⟩ := flowsAt_foldl hT hops hds (flowsAt_nil hnone)
  rw [foldl_apply_eq, spineInUse_of_flowsAt hT hhosts hds' hat]
  have hused (s : Str) : s ∈ ((calls.map fun c =>
      (c.dcm, some c.spine, c.usedaqring, c.atDcmPodOnly)).map installOp).foldl c.dcm.spinesAfter
        [] ↔ s = c.spine := by
    rw [mem_foldl_spinesAfter_iff, or_iff_right List.not_mem_nil]
    constructor
    · rintro ⟨call, hcall, hspine, hid, -⟩
      obtain ⟨c', hc', rfl⟩ := List.mem_map.mp hcall
      obtain rfl : c' = c := List.inj_on_of_nodup_map hids hc' hc hid
      exact (Option.some_inj.mp hspine).symm
    · rintro rfl
      exact ⟨_, List.mem_map_of_mem hc, rfl, rfl, hwrites⟩
  obtain ⟨x, z, hspine, hmem⟩ := (hknown c hc).spine
  have hget : c.spine ∈ T.getSpines :=
    (mem_getSpines_iff hT hhosts).mpr ⟨hspine ▸ hmem, x, z, hspine⟩
  exact find?_eq_some hget fun s => decide_eq_true_iff.trans (hused s)

end Routes

/-- **The spine in use is on the way.**  After any calls of `install_path`, one for each Dcm, a
packet of an inflow from an end node of another pod comes to exactly these bridges, in this order:
its end node, the leaf of its pod, the spine that `spine_in_use` returns, the leaf of the Dcm's pod
in the same plane, and the end node of the Dcm. -/
theorem visits_spineInUse {T : Topology} {planes pods : ℕ} {rings : List ℕ} {calls : List PathCall}
    {ds : Datastore} (hT : LeafSpine T planes pods) (hhosts : NoSpineHosts T)
    (hcalls : PathCalls T rings calls) (hids : (calls.map fun c => c.dcm.id).Nodup)
    (hds : Background ds) (hprogram : ProgramStore ds)
    (S : FlowSwitching (calls.foldl (PathCall.apply T) ds)) {c : PathCall} (hc : c ∈ calls)
    (hnone : ∀ nb ∈ T.bridges, ∀ f ∈ ds nb.2.ofId, ¬ c.dcm.Owns f.id) {inflow : Inflow}
    (hinflow : inflow ∈ c.dcm.inflows) {i y : ℕ} {host host' : Str}
    (hnode : c.dcm.node = endName y host') (hi : i ≠ y) {b dst : Bridge}
    (hb : T.getBridge (endName i host) = some b) (hdst : T.getBridge c.dcm.node = some dst) :
    ∃ spine x inPort path,
      c.dcm.spineInUse T (calls.foldl (PathCall.apply T) ds) = some spine ∧
      getPlaneId spine = some x ∧
      Delivers (forward T rings S.pick (c.dcm.packet inflow)) (.bridge dst.ofId inPort)
        (.bridge b.ofId .LOCAL) path ∧
      (visits rings path).map some =
        T.routeIds [endName i host, podNode x i, spine, podNode x y, c.dcm.node] := by
  have hwrites : c.writesAtSpine = true := by
    simp [PathCall.writesAtSpine, List.ne_nil_of_mem hinflow]
  have huse := spineInUse_of_mem hT hhosts hcalls.known hids hprogram hc hwrites hnone
  -- the calls of the Dcm are this one
  obtain ⟨c', hc', hdcm, hplace⟩ := exists_inPlace hT ds hcalls.known hcalls.ids c hc
  obtain rfl : c' = c := List.inj_on_of_nodup_map hids hc' hc (congrArg Dcm.id hdcm)
  obtain ⟨x, y', hops, H⟩ := exists_hopsOf hT (hcalls.known c' hc)
  obtain ⟨host'', hnode'⟩ := H.node
  obtain ⟨rfl, rfl⟩ := endName_inj.mp (hnode'.symm.trans hnode)
  have hne : endName i host ≠ c'.dcm.node := by
    rw [hnode]
    exact fun heq => hi (endName_inj.mp heq).1
  obtain ⟨hchain, hnodup⟩ := H.route_of_ne hT (Topology.mem_names.mpr ⟨b, hb⟩) hne hi
  have hin (p : ℕ) : Port.LOCAL ≠ .num p := by simp
  obtain ⟨goalPort, path, hpath, -, hvisits⟩ := delivers_chain S hT hcalls hds hc H hplace hinflow
    hchain hnodup hb rfl hdst (fun _ _ _ _ p _ => hin p) (fun q _ => hin q)
  obtain ⟨z, hspine⟩ := H.spine
  exact ⟨c'.spine, x, goalPort, path, huse, hspine ▸ getPlaneId_spineName, hpath, hvisits⟩

/-- A Dcm in each of the two pods, one with rings. -/
def twoPodsCalls : List PathCall :=
  [twoPodsCall,
    { dcm :=
        { id := 2, node := endName 2 ['b'], dip := ⟨20, 1, 2, 5⟩
          inflows := [⟨1000, ⟨20, 1, 1, 4⟩, 2000⟩], pid := 0 }
      spine := spineName 1 1
      usedaqring := false
      atDcmPodOnly := false }]

lemma pathCalls_twoPods : PathCalls twoPods [101, 102] twoPodsCalls where
  known c hc := by
    have hspine : ∃ x z, spineName 1 1 = spineName x z ∧ spineName x z ∈ twoPods.names :=
      ⟨1, 1, rfl, by simp [twoPods_names]⟩
    simp only [twoPodsCalls, List.mem_cons, List.not_mem_nil, or_false] at hc
    rcases hc with rfl | rfl
    · exact ⟨⟨1, ['a'], rfl, by simp [twoPods_names]⟩, hspine⟩
    · exact ⟨⟨2, ['b'], rfl, by simp [twoPods_names]⟩, hspine⟩
  ids := by decide
  connections := by decide
  daqrings := by decide
  notPhysical := by decide

/-- The theorem for the Dcm with rings, and a packet from the other pod. -/
theorem visits_spineInUse_twoPods : ∃ spine x inPort path,
    twoPodsCall.dcm.spineInUse twoPods
      (twoPodsCalls.foldl (PathCall.apply twoPods) fun _ => []) = some spine ∧
    getPlaneId spine = some x ∧
    Delivers (forward twoPods [101, 102]
        (Switching.first : FlowSwitching
          (twoPodsCalls.foldl (PathCall.apply twoPods) fun _ => [])).pick
        (twoPodsCall.dcm.packet ⟨1000, ⟨20, 1, 2, 5⟩, 2000⟩))
      (.bridge 4 inPort) (.bridge 5 .LOCAL) path ∧
    (visits [101, 102] path).map some = twoPods.routeIds
      [endName 2 ['b'], podNode x 2, spine, podNode x 1, endName 1 ['a']] := by
  have hb : twoPods.getBridge (endName 2 ['b']) =
      some { ofId := 5, ports := [(1, 3, 2)], mgmtIp := ⟨10, 0, 0, 5⟩ } := rfl
  have hdst : twoPods.getBridge twoPodsCall.dcm.node =
      some { ofId := 4, ports := [(1, 2, 2)], mgmtIp := ⟨10, 0, 0, 4⟩ } := rfl
  exact visits_spineInUse leafSpine_twoPods noSpineHosts_twoPods pathCalls_twoPods (by decide)
    (fun _ _ hf => absurd hf List.not_mem_nil) programStore_empty Switching.first List.mem_cons_self
    (fun _ _ _ hf => absurd hf List.not_mem_nil) List.mem_cons_self rfl (by decide) hb hdst

end DaqSwitch.Odl
