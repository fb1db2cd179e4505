import DaqSwitch.Odl.LeafSpine

/-!
# Classification of nodes by name

`Topology` finds the end nodes of a pod, the spines and the pods of a plane by words in the
names.  The word for a pod is a prefix of the words for other pods once pod numbers have two
digits, and the host part of a name may hold any word.
-/

namespace DaqSwitch.Odl

open Lib Lib.Text Lib.KeyedTable

/-- `get_spines`. -/
def Topology.getSpines (T : Topology) : List Str :=
  T.names.filter fun n => contains n "spine".toList

/-- The names of the scheme, with numbers from 1 and any host. -/
def Named (name : Str) : Prop :=
  (∃ x y, 1 ≤ x ∧ 1 ≤ y ∧ name = podNode x y) ∨ (∃ x y, 1 ≤ x ∧ 1 ≤ y ∧ name = spineName x y) ∨
    ∃ y host, 1 ≤ y ∧ name = endName y host

/-- The plane that `install_path` works in. -/
def planeOf (spine : Option Str) : Option ℕ :=
  match spine with
  | some spine => getPlaneId spine
  | none => some 1

/-- Every node is found for what it is. -/
structure Classifies (T : Topology) : Prop where
  podEndnodes : ∀ i name, 1 ≤ i →
    (name ∈ T.getPodEndnodes i ↔ name ∈ T.names ∧ ∃ host, name = endName i host)
  endnodes : ∀ name, name ∈ T.getEndnodes ↔ ∃! i, 1 ≤ i ∧ name ∈ T.getPodEndnodes i
  spines : ∀ name, name ∈ T.getSpines ↔ name ∈ T.names ∧ ∃ x y, name = spineName x y
  npods : T.getNpods = {y | podNode 1 y ∈ T.names}.ncard
  install : ∀ (d : Dcm) spine usedaqring atDcmPodOnly iplane pod hops,
    planeOf spine = some iplane → d.getPodId = some pod → 1 ≤ pod →
    d.installPathHops T spine usedaqring atDcmPodOnly = some hops →
    ∀ h ∈ hops, ∀ y host, h.atNode = endName y host →
      h.toNode = some (podNode iplane y) ∨
        podNode iplane pod ∉ T.names ∧ y = pod ∧ h.toNode = some d.node

/-- Pod numbers have one digit, and the host of an end node holds no `plane`, no `spine` and
no word for another pod. -/
def PlainNames (T : Topology) : Prop :=
  ∀ y host, endName y host ∈ T.names → y ≤ 9 ∧ ¬ "plane".toList <:+: host ∧
    ¬ "spine".toList <:+: host ∧ ∀ i, 1 ≤ i → "pod-".toList ++ str i <:+: host → i = y

variable {T : Topology} {x y z i : ℕ} {host name : Str}

/-! ## Words in names -/

lemma contains_plane_endName_iff :
    contains (endName y host) "plane".toList = true ↔ "plane".toList <:+: host := by
  rw [contains_iff]
  have hpre : ¬ "plane".toList <+: endName y host := by
    simp [endName_def, List.cons_prefix_cons]
  exact infix_endName_iff hpre

lemma contains_spine_endName_iff :
    contains (endName y host) "spine".toList = true ↔ "spine".toList <:+: host := by
  have hsplit : endName y host = ("pod-".toList ++ str y ++ ['-']) ++ host := by
    simp [endName_def]
  have hletter : 's' ∉ "pod-".toList ++ str y ++ ['-'] := by
    have := not_mem_str (n := y) (c := 's') (by decide)
    simp_all
  have hword : "spine".toList = 's' :: "pine".toList := by decide
  rw [contains_iff, hsplit, hword, cons_infix_append_iff hletter]

lemma not_contains_spine_podNode : contains (podNode x y) "spine".toList = false := by
  rw [← Bool.not_eq_true, contains_iff]
  exact not_infix_of_mem (a := 's') (by simp) (not_mem_podNode (by decide) (by decide))

/-- The digits of a number that a longer number begins with. -/
lemma str_div_prefix_str (h : 10 ≤ y) : str (y / 10) <+: str y := by
  rw [str, str, Nat.toDigits_of_base_le (by decide) h]
  exact List.prefix_append _ _

/-- A number that the text behind a one-digit number begins with is that number. -/
lemma eq_of_prefix_str (hy : y ≤ 9) (h : str i <+: str y ++ '-' :: host) : i = y := by
  rw [str_of_lt (by omega : y < 10)] at h
  obtain ⟨rest, hrest⟩ := h
  cases hi : str i with
  | nil => exact absurd hi (str_ne_nil i)
  | cons c ds =>
    rw [hi, List.cons_append, List.singleton_append, List.cons.injEq] at hrest
    obtain ⟨rfl, htail⟩ := hrest
    -- the next character is the dash
    cases ds with
    | nil =>
      refine str_injective ?_
      rw [hi, str_of_lt (by omega : y < 10)]
    | cons d ds =>
      rw [List.cons_append, List.cons.injEq] at htail
      have hdash := isDigit_of_mem_str (n := i) (c := d) (by simp [hi])
      rw [htail.1] at hdash
      exact absurd hdash (by decide)

/-- The word for a pod in the name of an end node. -/
lemma contains_pod_endName_iff_of_le (hy : y ≤ 9) :
    contains (endName y host) ("pod-".toList ++ str i) = true ↔
      i = y ∨ "pod-".toList ++ str i <:+: host := by
  have hpre : "pod-".toList ++ str i <+: endName y host ↔ i = y := by
    rw [endName_def, List.append_assoc, List.prefix_append_right_inj]
    exact ⟨eq_of_prefix_str hy, fun h => h ▸ List.prefix_append _ _⟩
  rw [contains_iff]
  by_cases h : i = y
  · exact iff_of_true (hpre.mpr h).isInfix (Or.inl h)
  · rw [or_iff_right h]
    exact infix_endName_iff (w := "od-".toList ++ str i) fun hp => h (hpre.mp hp)

/-! ## Failures -/

lemma mem_getPodEndnodes_iff : name ∈ T.getPodEndnodes i ↔ name ∈ T.names ∧
    contains name "plane".toList = false ∧ contains name ("pod-".toList ++ str i) = true := by
  simp [Topology.getPodEndnodes]

lemma mem_getEndnodes_iff : name ∈ T.getEndnodes ↔ name ∈ T.names ∧
    contains name "plane".toList = false ∧ contains name "pod-".toList = true := by
  simp [Topology.getEndnodes]

/-- When the nodes are classified, the names are plain. -/
lemma Classifies.plainNames (hnamed : ∀ name ∈ T.names, Named name) (h : Classifies T) :
    PlainNames T := by
  intro y host hname
  have hpos : 1 ≤ y := by
    rcases hnamed _ hname with ⟨x, z, -, -, heq⟩ | ⟨x, z, -, -, heq⟩ | ⟨y', host', hy, heq⟩
    · exact absurd heq endName_ne_podNode
    · exact absurd heq endName_ne_spineName
    · exact (endName_inj.mp heq).1 ▸ hy
  -- the node is found for its own pod, and for no other one
  have hown := (h.podEndnodes y _ hpos).mpr ⟨hname, host, rfl⟩
  have hplane := (mem_getPodEndnodes_iff.mp hown).2.1
  have honly (i : ℕ) (hi : 1 ≤ i) (hword : "pod-".toList ++ str i <:+: endName y host) :
      i = y := by
    have hmem := mem_getPodEndnodes_iff.mpr ⟨hname, hplane, contains_iff.mpr hword⟩
    obtain ⟨-, host', heq⟩ := (h.podEndnodes i _ hi).mp hmem
    exact (endName_inj.mp heq).1.symm
  refine ⟨?_, ?_, ?_, fun i hi hinfix => honly i hi ?_⟩
  · by_contra hten
    have hpre : "pod-".toList ++ str (y / 10) <+: endName y host := by
      rw [endName_def, List.append_assoc, List.prefix_append_right_inj]
      exact (str_div_prefix_str (by omega)).trans (List.prefix_append _ _)
    have := honly (y / 10) (by omega) hpre.isInfix
    omega
  · intro hinfix
    rw [contains_plane_endName_iff.mpr hinfix] at hplane
    cases hplane
  · intro hinfix
    have hmem : endName y host ∈ T.getSpines :=
      List.mem_filter.mpr ⟨hname, contains_spine_endName_iff.mpr hinfix⟩
    obtain ⟨-, x, z, heq⟩ := (h.spines _).mp hmem
    exact endName_ne_spineName heq
  · refine hinfix.trans (List.IsSuffix.isInfix ?_)
    exact ⟨"pod-".toList ++ str y ++ ['-'], by simp [endName_def]⟩

/-! ## Plain names -/

section Plain

variable (hnamed : ∀ name ∈ T.names, Named name) (hplain : PlainNames T)

include hnamed hplain

/-- The name of an end node holds the word for its own pod only. -/
lemma mem_getPodEndnodes_plain (hi : 1 ≤ i) :
    name ∈ T.getPodEndnodes i ↔ name ∈ T.names ∧ ∃ host, name = endName i host := by
  rw [mem_getPodEndnodes_iff]
  refine and_congr_right ?_
  intro hname
  rcases hnamed _ hname with ⟨x, y, -, -, rfl⟩ | ⟨x, y, -, -, rfl⟩ | ⟨y, host, -, rfl⟩
  · refine iff_of_false ?_ fun ⟨_, heq⟩ => endName_ne_podNode heq.symm
    intro h
    rw [contains_plane_podNode] at h
    cases h.1
  · refine iff_of_false ?_ fun ⟨_, heq⟩ => endName_ne_spineName heq.symm
    intro h
    rw [contains_plane_spineName] at h
    cases h.1
  · obtain ⟨hy, hplane, -, hpods⟩ := hplain y host hname
    rw [← Bool.not_eq_true, contains_plane_endName_iff, contains_pod_endName_iff_of_le hy]
    constructor
    · rintro ⟨-, rfl | hinfix⟩
      · exact ⟨host, rfl⟩
      · exact ⟨host, by rw [hpods i hi hinfix]⟩
    · rintro ⟨host', heq⟩
      exact ⟨hplane, Or.inl (endName_inj.mp heq).1.symm⟩

lemma mem_getEndnodes_plain :
    name ∈ T.getEndnodes ↔ name ∈ T.names ∧ ∃ y host, 1 ≤ y ∧ name = endName y host := by
  rw [mem_getEndnodes_iff]
  refine and_congr_right ?_
  intro hname
  rcases hnamed _ hname with ⟨x, y, -, -, rfl⟩ | ⟨x, y, -, -, rfl⟩ | ⟨y, host, hy, rfl⟩
  · refine iff_of_false ?_ fun ⟨_, _, _, heq⟩ => endName_ne_podNode heq.symm
    intro h
    rw [contains_plane_podNode] at h
    cases h.1
  · refine iff_of_false ?_ fun ⟨_, _, _, heq⟩ => endName_ne_spineName heq.symm
    intro h
    rw [contains_plane_spineName] at h
    cases h.1
  · refine iff_of_true ⟨?_, ?_⟩ ⟨y, host, hy, rfl⟩
    · rw [← Bool.not_eq_true, contains_plane_endName_iff]
      exact (hplain y host hname).2.1
    · exact contains_iff.mpr ⟨[], str y ++ '-' :: host, by simp [endName_def]⟩

lemma mem_getSpines_plain :
    name ∈ T.getSpines ↔ name ∈ T.names ∧ ∃ x y, name = spineName x y := by
  rw [Topology.getSpines, List.mem_filter]
  refine and_congr_right ?_
  intro hname
  rcases hnamed _ hname with ⟨x, y, -, -, rfl⟩ | ⟨x, y, -, -, rfl⟩ | ⟨y, host, -, rfl⟩
  · refine iff_of_false ?_ fun ⟨_, _, heq⟩ => podNode_ne_spineName heq
    intro h
    rw [not_contains_spine_podNode] at h
    cases h
  · exact iff_of_true contains_spine_spineName ⟨x, y, rfl⟩
  · refine iff_of_false ?_ fun ⟨_, _, heq⟩ => endName_ne_spineName heq
    intro h
    exact (hplain y host hname).2.2.1 (contains_spine_endName_iff.mp h)

/-- The leaves of plane 1 are counted. -/
lemma getNpods_plain : T.getNpods = {y | podNode 1 y ∈ T.names}.ncard := by
  have hnodup : T.names.Nodup := T.namesNodup
  have hmem (name : Str) : name ∈ (T.names.filter fun n => contains n "plane-1-pod-".toList) ↔
      ∃ y, podNode 1 y ∈ T.names ∧ podNode 1 y = name := by
    rw [List.mem_filter]
    constructor
    · rintro ⟨hname, hword⟩
      rcases hnamed _ hname with ⟨x, y, -, -, rfl⟩ | ⟨x, y, -, -, rfl⟩ | ⟨y, host, -, rfl⟩
      · obtain rfl := contains_plane_one_podNode_iff.mp hword
        exact ⟨y, hname, rfl⟩
      · rw [not_contains_plane_one_spineName] at hword
        cases hword
      · rw [not_contains_plane_one_endName (hplain y host hname).2.1] at hword
        cases hword
    · rintro ⟨y, hname, rfl⟩
      exact ⟨hname, contains_plane_one_podNode_iff.mpr rfl⟩
  have himage : podNode 1 '' {y | podNode 1 y ∈ T.names} =
      ((T.names.filter fun n => contains n "plane-1-pod-".toList).toFinset : Set Str) := by
    ext name
    rw [List.coe_toFinset, Set.mem_ofPred_eq, hmem]
    rfl
  have hinj : Function.Injective (podNode 1) := fun y z h => (podNode_inj.mp h).2
  rw [← Set.ncard_image_of_injective _ hinj, himage, Set.ncard_coe_finset,
    List.toFinset_card_of_nodup (hnodup.filter _), Topology.getNpods]

end Plain

/-- The hops of `install_path` at an end node: from the list of a pod to its leaf, or in the
back-to-back case from the list of the Dcm's pod to the Dcm's node. -/
lemma endNode_hop {d : Dcm} {spine : Option Str} {usedaqring atDcmPodOnly : Bool} {iplane pod : ℕ}
    {hops : List Hop} {h : Hop} (hplane : planeOf spine = some iplane)
    (hpod : d.getPodId = some pod)
    (hhops : d.installPathHops T spine usedaqring atDcmPodOnly = some hops) (hh : h ∈ hops)
    (hat : h.atNode = endName y host) :
    (∃ i, 1 ≤ i ∧ endName y host ∈ T.getPodEndnodes i ∧ h.toNode = some (podNode iplane i)) ∨
      podNode iplane pod ∉ T.names ∧ endName y host ∈ T.getPodEndnodes pod ∧
        h.toNode = some d.node := by
  have hspine {s : Str} (hs : spine = some s) : s ≠ endName y host := by
    rintro rfl
    have hnone : getPlaneId (endName y host) = none := by
      have hstrip : stripPrefix "plane-".toList (endName y host) = none := by
        simp [stripPrefix, endName_def, List.cons_prefix_cons]
      rw [getPlaneId, hstrip]
      rfl
    rw [hs, planeOf, hnone] at hplane
    cases hplane
  -- the plane of a path without a spine is 1
  have hmem : (podNode iplane pod ∈ T.names ∧ h.atNode = podNode iplane pod) ∨
      (∃ s, spine = some s ∧ h.atNode = s) ∨ (∃ i, h.atNode = podNode iplane (i + 1)) ∨
      (∃ i, ∃ e ∈ T.getPodEndnodes (i + 1), h = ⟨e, some (podNode iplane (i + 1)), false⟩) ∨
      podNode iplane pod ∉ T.names ∧ ∃ e ∈ T.getPodEndnodes pod, h = ⟨e, some d.node, false⟩ := by
    have hplane' : spine = none ∧ 1 = iplane ∨
        ∃ s, spine = some s ∧ getPlaneId s = some iplane := by
      cases spine with
      | none => exact Or.inl ⟨rfl, Option.some_inj.mp hplane⟩
      | some s => exact Or.inr ⟨s, rfl, hplane⟩
    obtain ⟨rfl, rfl⟩ | ⟨s, rfl, hs⟩ := hplane'
    all_goals
      simp only [Dcm.installPathHops, *, Option.bind_eq_bind, Option.bind_some,
        Option.pure_def, Option.some_inj] at hhops
      subst hhops
      simp only [List.mem_append, List.mem_map, List.mem_flatMap, Option.mem_toList] at hh
      rcases hh with ((⟨n, hn, rfl⟩ | ⟨s', hs', rfl⟩) | ⟨i, -, hh | ⟨e, he, rfl⟩⟩) | hh
      · split at hn
        · next hnode => exact Or.inl ⟨hnode, (Option.some_inj.mp hn).symm⟩
        · cases hn
      · exact Or.inr (Or.inl ⟨s', hs', rfl⟩)
      · split at hh
        · exact Or.inr (Or.inr (Or.inl ⟨i, by rw [List.mem_singleton.mp hh]⟩))
        · cases hh
      · exact Or.inr (Or.inr (Or.inr (Or.inl ⟨i, e, (List.mem_filter.mp he).1, rfl⟩)))
      · split at hh
        · simp only [reduceCtorEq, if_false, List.not_mem_nil] at hh
        · next hnode =>
          rw [if_pos rfl] at hh
          obtain ⟨e, he, rfl⟩ := List.mem_map.mp hh
          exact Or.inr (Or.inr (Or.inr (Or.inr ⟨hnode, e, (List.mem_filter.mp he).1, rfl⟩)))
  rcases hmem with ⟨-, hleaf⟩ | ⟨s, hs, hat'⟩ | ⟨i, hleaf⟩ | ⟨i, e, he, rfl⟩ | ⟨hno, e, he, rfl⟩
  · exact absurd (hat.symm.trans hleaf) endName_ne_podNode
  · exact absurd (hat'.symm.trans hat) (hspine hs)
  · exact absurd (hat.symm.trans hleaf) endName_ne_podNode
  · exact Or.inl ⟨i + 1, by omega, hat ▸ he, rfl⟩
  · exact Or.inr ⟨hno, hat ▸ he, rfl⟩

lemma PlainNames.classifies (hnamed : ∀ name ∈ T.names, Named name) (hplain : PlainNames T) :
    Classifies T where
  podEndnodes i name hi := mem_getPodEndnodes_plain hnamed hplain hi
  endnodes name := by
    rw [mem_getEndnodes_plain hnamed hplain]
    constructor
    · rintro ⟨hname, y, host, hy, rfl⟩
      refine ⟨y, ⟨hy, (mem_getPodEndnodes_plain hnamed hplain hy).mpr ⟨hname, host, rfl⟩⟩, ?_⟩
      rintro i ⟨hi, hmem⟩
      obtain ⟨-, host', heq⟩ := (mem_getPodEndnodes_plain hnamed hplain hi).mp hmem
      exact (endName_inj.mp heq).1.symm
    · rintro ⟨i, ⟨hi, hmem⟩, -⟩
      obtain ⟨hname, host, rfl⟩ := (mem_getPodEndnodes_plain hnamed hplain hi).mp hmem
      exact ⟨hname, i, host, hi, rfl⟩
  spines name := mem_getSpines_plain hnamed hplain
  npods := getNpods_plain hnamed hplain
  install d spine usedaqring atDcmPodOnly iplane pod hops hplane hpod hpos hhops h hh y host
      hat := by
    -- a node is in the list of its own pod only
    have hpodOf {i : ℕ} (hi : 1 ≤ i) (hmem : endName y host ∈ T.getPodEndnodes i) : y = i := by
      obtain ⟨-, host', heq⟩ := (mem_getPodEndnodes_plain hnamed hplain hi).mp hmem
      exact (endName_inj.mp heq).1
    rcases endNode_hop hplane hpod hhops hh hat with ⟨i, hi, hmem, hto⟩ | ⟨hno, hmem, hto⟩
    · exact Or.inl (hpodOf hi hmem ▸ hto)
    · exact Or.inr ⟨hno, hpodOf hpos hmem, hto⟩

/-- **Classification.**  For names of the scheme, every node is found for what it is if and
only if the names are plain. -/
theorem classifies_iff (hnamed : ∀ name ∈ T.names, Named name) : Classifies T ↔ PlainNames T :=
  ⟨fun h => h.plainNames hnamed, fun h => h.classifies hnamed⟩

/-- A leaf and an end node in each of the pods 1 and 12. -/
def twelvePods : Topology where
  bridges :=
    [(podNode 1 1, ⟨1, [], ⟨0, 0, 0, 0⟩, by decide⟩),
      (podNode 1 12, ⟨2, [], ⟨0, 0, 0, 0⟩, by decide⟩),
      (endName 1 "a".toList, ⟨3, [], ⟨0, 0, 0, 0⟩, by decide⟩),
      (endName 12 "a".toList, ⟨4, [], ⟨0, 0, 0, 0⟩, by decide⟩)]

lemma twelvePods_named : ∀ name ∈ twelvePods.names, Named name := by
  intro name hname
  have hname' : name = podNode 1 1 ∨ name = podNode 1 12 ∨ name = endName 1 "a".toList ∨
      name = endName 12 "a".toList := by
    simpa [Topology.names, twelvePods] using hname
  rcases hname' with rfl | rfl | rfl | rfl
  · exact Or.inl ⟨1, 1, by decide, by decide, rfl⟩
  · exact Or.inl ⟨1, 12, by decide, by decide, rfl⟩
  · exact Or.inr (Or.inr ⟨1, _, by decide, rfl⟩)
  · exact Or.inr (Or.inr ⟨12, _, by decide, rfl⟩)

theorem classifies_iff_twelvePods : Classifies twelvePods ↔ PlainNames twelvePods :=
  classifies_iff twelvePods_named

/-- The end node of pod 12 is found for pod 1 too. -/
theorem not_classifies : (∀ name ∈ twelvePods.names, Named name) ∧ ¬ Classifies twelvePods := by
  refine ⟨twelvePods_named, ?_⟩
  intro h
  have hmem : endName 12 "a".toList ∈ twelvePods.getPodEndnodes 1 := by decide
  obtain ⟨-, host, heq⟩ := (h.podEndnodes 1 _ le_rfl).mp hmem
  exact absurd (endName_inj.mp heq).1 (by decide)

end DaqSwitch.Odl
