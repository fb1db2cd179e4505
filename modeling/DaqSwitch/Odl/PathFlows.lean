import DaqSwitch.Odl.Dcm

/-!
# Whose flow it is

A flow belongs to a Dcm by its id alone.  `remove_path` looks for the decimal id of the Dcm at
the beginning and for `inflow` or `outdaqringflow` anywhere, and on the flows that the program
writes this finds exactly the ids that `install_path` uses: the digits of a Dcm end at the
underscore.
-/

namespace DaqSwitch.Odl

open Lib Lib.Text Lib.KeyedTable

namespace Dcm

/-- The ids under which `install_path` writes. -/
def Owns (d : Dcm) (flowId : Str) : Prop :=
  flowId = d.outdaqringflowId ∨ ∃ i, flowId = d.inflowId i

instance (d : Dcm) (flowId : Str) : Decidable (d.Owns flowId) :=
  decidable_of_iff (flowId = d.outdaqringflowId ∨ ∃ i ∈
      (stripPrefix ("dcm_".toList ++ str d.id ++ "_inflow_".toList) flowId).bind parseNat,
      flowId = d.inflowId i) <| by
    refine or_congr Iff.rfl ⟨fun ⟨i, _, hi⟩ => ⟨i, hi⟩, fun ⟨i, hi⟩ => ⟨i, ?_, hi⟩⟩
    rw [hi, inflowId, stripPrefix_append, Option.bind_some, parseNat_str]
    rfl

/-- What the datastore holds besides the flows of a Dcm. -/
def others (d : Dcm) (ds : Datastore) : Datastore := fun b =>
  (ds b).filter fun f => ¬ d.Owns f.id

end Dcm

/-- The ids of the flows of the program: the default, drop, LLDP and DHCP flows, and those of
Dcms. -/
def ProgramId (flowId : Str) : Prop :=
  flowId ∈ ["default_out", "default_in1", "default_in2", "drop", "lldp", "dhcp"].map String.toList ∨
    "to-".toList <+: flowId ∨ ∃ d : Dcm, d.Owns flowId

/-- A datastore with flows of the program. -/
def ProgramStore (ds : Datastore) : Prop := ∀ b, ∀ f ∈ ds b, ProgramId f.id

/-! ## Prefixes -/

namespace Dcm

variable {d d' : Dcm} {flowId : Str}

lemma flowPrefix_prefixes (h : d.Owns flowId) : d.flowPrefix <+: flowId := by
  rcases h with rfl | ⟨i, rfl⟩
  · exact ⟨"outdaqringflow".toList, by simp [flowPrefix, outdaqringflowId]⟩
  · exact ⟨"inflow_".toList ++ str i, by simp [flowPrefix, inflowId]⟩

/-- The prefix of a Dcm is on no flow of another one, however many digits their ids have. -/
lemma id_eq_of_prefix_str (h : d.flowPrefix <+: flowId) (h' : d'.Owns flowId) : d.id = d'.id := by
  have key {s t : Str} (hp : "dcm_".toList ++ str d.id ++ '_' :: s <+:
      "dcm_".toList ++ str d'.id ++ '_' :: t) : d.id = d'.id := by
    rw [List.append_assoc, List.append_assoc, List.prefix_append_right_inj] at hp
    exact eq_of_prefix_str_append (by decide) (by decide) hp
  rcases h' with rfl | ⟨i, rfl⟩
  · exact key h
  · exact key (t := "inflow_".toList ++ str i) (by simpa [flowPrefix, inflowId] using h)

lemma owns_of_id_eq (h : d.Owns flowId) (hid : d.id = d'.id) : d'.Owns flowId := by
  simpa only [Owns, outdaqringflowId, inflowId, hid] using h

/-- Different Dcms have different flows. -/
lemma not_owns (h : d'.Owns flowId) (hid : d'.id ≠ d.id) : ¬ d.Owns flowId :=
  fun h' => hid (id_eq_of_prefix_str (flowPrefix_prefixes h') h).symm

/-- Among the flows of the program, the prefix finds those of the Dcm. -/
lemma owns_iff_startsWith (h : ProgramId flowId) :
    d.Owns flowId ↔ startsWith flowId d.flowPrefix = true := by
  rw [startsWith_iff]
  refine ⟨flowPrefix_prefixes, ?_⟩
  intro hpre
  rcases h with hfix | hto | ⟨d', hd'⟩
  · -- no fixed id begins with `dcm_`
    simp only [List.map_cons, List.map_nil, List.mem_cons, List.not_mem_nil, or_false] at hfix
    rcases hfix with rfl | rfl | rfl | rfl | rfl | rfl <;>
      simp [flowPrefix, List.cons_prefix_cons] at hpre
  · obtain ⟨name, rfl⟩ := hto
    simp [flowPrefix, List.cons_prefix_cons] at hpre
  · exact owns_of_id_eq hd' (id_eq_of_prefix_str hpre hd').symm

/-- The ids that `remove_path` finds among the flows of the program. -/
lemma owns_iff (h : ProgramId flowId) : d.Owns flowId ↔ startsWith flowId d.flowPrefix = true ∧
    (contains flowId "inflow".toList = true ∨ contains flowId "outdaqringflow".toList = true) := by
  rw [← owns_iff_startsWith h, contains_iff, contains_iff]
  refine ⟨fun howns => ⟨howns, ?_⟩, And.left⟩
  rcases howns with rfl | ⟨i, rfl⟩
  · exact Or.inr ⟨"dcm_".toList ++ str d.id ++ "_".toList, [], by simp [outdaqringflowId]⟩
  · exact Or.inl
      ⟨"dcm_".toList ++ str d.id ++ "_".toList, "_".toList ++ str i, by simp [inflowId]⟩

end Dcm

/-! ## Removing -/

namespace Dcm

variable {d : Dcm} {T : Topology} {ds : Datastore}

lemma foldl_flowDelete (ds : Datastore) (ofId : ℕ) (flowIds : List Str) :
    flowIds.foldl (fun ds flowId => flowDelete ds ofId flowId) ds =
      Function.update ds ofId
        (flowIds.foldl (fun t flowId => delete Flow.id flowId t) (ds ofId)) := by
  induction flowIds generalizing ds with
  | nil => rw [List.foldl_nil, List.foldl_nil, Function.update_eq_self]
  | cons flowId flowIds ih =>
    rw [List.foldl_cons, ih, flowDelete, Function.update_self, Function.update_idem,
      List.foldl_cons]

/-- At a bridge, the body of the loop takes away exactly the flows of the Dcm. -/
lemma removeAt_eq (hds : ProgramStore ds) (b : Bridge) :
    d.removeAt ds b = Function.update ds b.ofId (d.others ds b.ofId) := by
  have hfilter : ∀ f ∈ ds b.ofId, d.Owns f.id ↔
      f.id ∈ (d.getInstalledFlows ds b).filter (fun flowId => contains flowId "inflow".toList) ∨
      f.id ∈ (d.getInstalledFlows ds b).filter
        (fun flowId => contains flowId "outdaqringflow".toList) := by
    intro f hf
    have hmem : f.id ∈ (ds b.ofId).map Flow.id := List.mem_map_of_mem hf
    simp only [getInstalledFlows, List.mem_filter, hmem, owns_iff (hds _ f hf), true_and,
      and_or_left]
  simp only [removeAt, foldl_flowDelete, Function.update_self, Function.update_idem]
  rw [foldl_delete_eq_filter, foldl_delete_eq_filter, List.filter_filter, others]
  congr 1
  refine List.filter_congr ?_
  intro f hf
  simp only [hfilter f hf, ← Bool.decide_and, not_or, and_comm]

lemma others_sublist (d : Dcm) (ds : Datastore) (b : ℕ) : (d.others ds b).Sublist (ds b) :=
  List.filter_sublist

lemma others_others (d : Dcm) (ds : Datastore) : d.others (d.others ds) = d.others ds := by
  funext b
  simp [others, List.filter_filter]

lemma mem_removeAt (hds : ProgramStore ds) {b : Bridge} {n : ℕ} {f : Flow}
    (h : f ∈ d.removeAt ds b n) : f ∈ ds n := by
  rw [removeAt_eq hds] at h
  rcases eq_or_ne n b.ofId with rfl | hn
  · rw [Function.update_self] at h
    exact (others_sublist d ds _).subset h
  · rwa [Function.update_of_ne hn] at h

/-- `remove_path` on a datastore of the program: without the flows of the Dcm at the bridges of
the topology, and the rest as it was. -/
lemma removePath_apply (hds : ProgramStore ds) (n : ℕ) : d.removePath T ds n =
    if ∃ nb ∈ T.bridges, nb.2.ofId = n then d.others ds n else ds n := by
  rw [removePath]
  induction T.bridges generalizing ds with
  | nil => simp
  | cons nb bridges ih =>
    have hkeep : ProgramStore (d.removeAt ds nb.2) := fun b f hf => hds b f (mem_removeAt hds hf)
    rw [List.foldl_cons, ih hkeep, removeAt_eq hds]
    rcases eq_or_ne n nb.2.ofId with rfl | hn
    · -- a bridge that comes again has nothing left to lose
      have hsame : d.others (Function.update ds nb.2.ofId (d.others ds nb.2.ofId)) nb.2.ofId =
          d.others ds nb.2.ofId := by
        rw [others, Function.update_self]
        exact congrFun (others_others d ds) _
      simp [hsame]
    · have hsame : d.others (Function.update ds nb.2.ofId (d.others ds nb.2.ofId)) n =
          d.others ds n := by
        rw [others, Function.update_of_ne hn, others]
      have hne : nb.2.ofId ≠ n := Ne.symm hn
      simp only [hsame, Function.update_of_ne hn, List.exists_mem_cons_iff, hne, false_or]

lemma others_removePath (hds : ProgramStore ds) : d.others (d.removePath T ds) = d.others ds := by
  funext n
  rw [others, removePath_apply hds]
  split
  · exact congrFun (others_others d ds) n
  · rfl

lemma programStore_removePath (hds : ProgramStore ds) : ProgramStore (d.removePath T ds) := by
  intro n f hf
  rw [removePath_apply hds] at hf
  split at hf
  · exact hds n f ((others_sublist d ds n).subset hf)
  · exact hds n f hf

end Dcm

/-! ## Installing -/

namespace Dcm

variable {d : Dcm} {T : Topology} {ds : Datastore} {r : Request}

/-- The requests of a call are for flows of the Dcm at a bridge of the topology. -/
structure RequestOf (d : Dcm) (T : Topology) (r : Request) : Prop where
  owns : d.Owns r.2.id
  bridge : ∃ nb ∈ T.bridges, nb.2.ofId = r.1

/-- Whether or not `install_path` raises an exception. -/
lemma installRequests_requestOf {spine : Option Str} {usedaqring atDcmPodOnly : Bool}
    (hr : r ∈ d.installRequests T spine usedaqring atDcmPodOnly) : RequestOf d T r := by
  unfold installRequests at hr
  split at hr
  · cases hr
  · obtain ⟨h, -, rs, hrs, hr⟩ := exists_hop_of_mem_requests hr
    obtain ⟨toNode, b, dstB, ofDport, -, hb, -, -, rfl⟩ := installSubpath_eq_some_iff.mp hrs
    have hbridge : ∃ nb ∈ T.bridges, nb.2.ofId = b.ofId :=
      ⟨_, Topology.getBridge_eq_some_iff.mp hb, rfl⟩
    rcases mem_subpathRequests.mp hr with ⟨-, rfl⟩ | ⟨ji, -, rfl⟩
    · exact ⟨Or.inl rfl, hbridge⟩
    · exact ⟨Or.inr ⟨ji.2, rfl⟩, hbridge⟩

lemma others_installPath (ds : Datastore) (spine : Option Str) (usedaqring atDcmPodOnly : Bool) :
    d.others (d.installPath T spine usedaqring atDcmPodOnly ds) = d.others ds := by
  funext b
  refine filter_foldl_putAt ?_ ds b
  intro r hr f hf
  simpa [hf] using (installRequests_requestOf hr).owns

/-- Nothing is written at other bridges than those of the topology. -/
lemma installPath_of_not_bridge {n : ℕ} (hn : ¬ ∃ nb ∈ T.bridges, nb.2.ofId = n) (ds : Datastore)
    (spine : Option Str) (usedaqring atDcmPodOnly : Bool) :
    d.installPath T spine usedaqring atDcmPodOnly ds n = ds n := by
  refine foldl_putAt_of_ne (fun r hr h => hn ?_) ds
  exact h ▸ (installRequests_requestOf hr).bridge

lemma programStore_installPath (hds : ProgramStore ds) (spine : Option Str)
    (usedaqring atDcmPodOnly : Bool) :
    ProgramStore (d.installPath T spine usedaqring atDcmPodOnly ds) := by
  intro b f hf
  rcases mem_foldl_putAt hf with hf | hf
  · exact hds b f hf
  · exact Or.inr (Or.inr ⟨d, (installRequests_requestOf hf).owns⟩)

end Dcm

/-! ## Histories -/

/-- A call of `install_path` or `remove_path`. -/
inductive PathOp
  | install (d : Dcm) (spine : Option Str) (usedaqring atDcmPodOnly : Bool)
  | remove (d : Dcm)

def PathOp.apply (T : Topology) (ds : Datastore) : PathOp → Datastore
  | install d spine usedaqring atDcmPodOnly => d.installPath T spine usedaqring atDcmPodOnly ds
  | remove d => d.removePath T ds

lemma programStore_foldl {T : Topology} {ds : Datastore} (hds : ProgramStore ds)
    (ops : List PathOp) : ProgramStore (ops.foldl (PathOp.apply T) ds) := by
  induction ops generalizing ds with
  | nil => exact hds
  | cons op ops ih =>
    cases op with
    | install d spine usedaqring atDcmPodOnly =>
      exact ih (Dcm.programStore_installPath hds spine usedaqring atDcmPodOnly)
    | remove d => exact ih (Dcm.programStore_removePath hds)

/-- Calls of `install_path` by a Dcm, with their arguments. -/
def Dcm.installPaths (d : Dcm) (T : Topology) (calls : List (Option Str × Bool × Bool))
    (ds : Datastore) : Datastore :=
  calls.foldl (fun ds call => d.installPath T call.1 call.2.1 call.2.2 ds) ds

namespace Dcm

variable {d : Dcm} {T : Topology} {ds : Datastore}

lemma installPaths_keeps (hds : ProgramStore ds) (calls : List (Option Str × Bool × Bool)) :
    ProgramStore (d.installPaths T calls ds) ∧ d.others (d.installPaths T calls ds) = d.others ds ∧
      ∀ n, (¬ ∃ nb ∈ T.bridges, nb.2.ofId = n) → d.installPaths T calls ds n = ds n := by
  rw [installPaths]
  induction calls generalizing ds with
  | nil => exact ⟨hds, rfl, fun _ _ => rfl⟩
  | cons call calls ih =>
    obtain ⟨hprogram, hothers, hrest⟩ :=
      ih (programStore_installPath hds call.1 call.2.1 call.2.2)
    refine ⟨hprogram, hothers.trans (others_installPath ..), ?_⟩
    intro n hn
    rw [List.foldl_cons, hrest n hn, installPath_of_not_bridge hn]

/-- Installing and then removing leaves the datastore as it was without the Dcm. -/
lemma removePath_installPaths (hds : ProgramStore ds)
    (hnone : ∀ nb ∈ T.bridges, ∀ f ∈ ds nb.2.ofId, ¬ d.Owns f.id)
    (calls : List (Option Str × Bool × Bool)) :
    d.removePath T (d.installPaths T calls ds) = ds := by
  obtain ⟨hprogram, hothers, hrest⟩ := installPaths_keeps (d := d) (T := T) hds calls
  funext n
  rw [removePath_apply hprogram]
  split
  · next hn =>
    obtain ⟨nb, hnb, rfl⟩ := hn
    rw [hothers, others, List.filter_eq_self]
    simpa using hnone nb hnb
  · next hn => exact hrest n hn

end Dcm

/-- After any history, `remove_path` leaves no flow of the Dcm, neither it nor `install_path`
changes a flow of another one, and removing undoes any number of installations. -/
theorem removePath_isolates (T : Topology) (ds : Datastore) (hds : ProgramStore ds)
    (ops : List PathOp) (d : Dcm) :
    let ds' := ops.foldl (PathOp.apply T) ds
    (∀ nb ∈ T.bridges, ∀ f ∈ d.removePath T ds' nb.2.ofId, ¬ d.Owns f.id) ∧
    d.others (d.removePath T ds') = d.others ds' ∧
    (∀ spine usedaqring atDcmPodOnly,
      d.others (d.installPath T spine usedaqring atDcmPodOnly ds') = d.others ds') ∧
    (∀ d' : Dcm, d'.id ≠ d.id → ∀ flowId, d'.Owns flowId → ¬ d.Owns flowId) ∧
    ((∀ nb ∈ T.bridges, ∀ f ∈ ds' nb.2.ofId, ¬ d.Owns f.id) →
      ∀ calls, d.removePath T (d.installPaths T calls ds') = ds') := by
  intro ds'
  have hds' : ProgramStore ds' := programStore_foldl hds ops
  refine ⟨?_, Dcm.others_removePath hds', Dcm.others_installPath ds',
    fun d' hid flowId howns => Dcm.not_owns howns hid,
    fun hnone calls => Dcm.removePath_installPaths hds' hnone calls⟩
  intro nb hnb f hf
  rw [Dcm.removePath_apply hds', if_pos ⟨nb, hnb, rfl⟩] at hf
  simpa using (List.mem_filter.mp hf).2

lemma backToBack_ports : (([(1, 2, 1)] : List (ℕ × ℕ × ℕ)).map Prod.fst).Nodup := by decide

/-- Two end nodes, one link. -/
def backToBack : Topology where
  bridges :=
    [("pod-1-a".toList,
        { ofId := 1, ports := [(1, 2, 1)], mgmtIp := ⟨10, 0, 0, 1⟩
          portsNodup := backToBack_ports }),
      ("pod-1-b".toList, { ofId := 2, ports := [(1, 1, 1)], mgmtIp := ⟨10, 0, 0, 2⟩ })]

/-- A Dcm on the first of them. -/
def backToBackDcm (id : ℕ) : Dcm where
  id := id
  node := "pod-1-a".toList
  dip := ⟨20, 1, 1, 1⟩
  inflows := [⟨1000, ⟨20, 1, 1, 2⟩, 2000⟩]
  pid := 0

/-- The second Dcm's id begins with the digit of the first. -/
theorem removePath_isolates_backToBack :
    let ds := [PathOp.install (backToBackDcm 12) none false false].foldl
      (PathOp.apply backToBack) fun _ => []
    (backToBackDcm 1).removePath backToBack
        ((backToBackDcm 1).installPaths backToBack [(none, false, false)] ds) = ds ∧
      (ds 2).map Flow.id = ["dcm_12_inflow_1".toList] :=
  ⟨(removePath_isolates backToBack (fun _ => []) (fun _ _ hf => absurd hf List.not_mem_nil)
      [.install (backToBackDcm 12) none false false] (backToBackDcm 1)).2.2.2.2 (by decide)
      [(none, false, false)], by decide⟩

end DaqSwitch.Odl
