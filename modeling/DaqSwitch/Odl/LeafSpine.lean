import DaqSwitch.Odl.Dcm
import DaqSwitch.Odl.Forward

/-!
# Leaf-spine topologies

The naming scheme of the class `Topology`: leaves `plane-X-pod-Y`, spines `plane-X-spine-Y` and
end nodes `pod-Y-NAME`.  The program takes the names apart by searching for words in them, and
this finds what it is meant to find: the words of a name end at its dashes.
-/

namespace DaqSwitch.Odl

open Lib Lib.Text Lib.KeyedTable

/-! ## Names -/

/-- `plane-X-spine-Y`. -/
def spineName (x y : ℕ) : Str := "plane-".toList ++ str x ++ "-spine-".toList ++ str y

/-- `pod-Y-NAME`. -/
def endName (y : ℕ) (host : Str) : Str := "pod-".toList ++ str y ++ '-' :: host

lemma spineName_def (x y : ℕ) :
    spineName x y = "plane-".toList ++ str x ++ "-spine-".toList ++ str y := rfl

lemma endName_def (y : ℕ) (host : Str) : endName y host = "pod-".toList ++ str y ++ '-' :: host :=
  rfl

section Names

variable {x x' y y' : ℕ} {host host' : Str}

lemma getPlaneId_spineName : getPlaneId (spineName x y) = some x := by
  have hx : readNat (str x ++ ("-spine-".toList ++ str y)) =
      some (x, "-spine-".toList ++ str y) := by
    refine readNat_str_append x ?_
    simp
  have hy : readNat (str y) = some (y, []) := by
    have hnil : ([] : Str).takeWhile Char.isDigit = [] := rfl
    simpa using readNat_str_append y hnil
  simp only [getPlaneId, spineName_def, List.append_assoc, stripPrefix_append, Option.bind_eq_bind,
    Option.bind_some, hx, hy, Option.pure_def]

lemma contains_spine_spineName : contains (spineName x y) "spine".toList = true :=
  contains_iff.mpr ⟨"plane-".toList ++ str x ++ "-".toList, "-".toList ++ str y,
    by simp [spineName_def]⟩

lemma getPodId_endName {d : Dcm} (h : d.node = endName y host) : d.getPodId = some y := by
  have hy : readNat (str y ++ '-' :: host) = some (y, '-' :: host) :=
    readNat_str_append y (takeWhile_isDigit_cons (by decide) _)
  have hdash : stripPrefix "-".toList ('-' :: host) = some host :=
    stripPrefix_append "-".toList host
  simp only [Dcm.getPodId, h, endName_def, List.append_assoc, stripPrefix_append,
    Option.bind_eq_bind, Option.bind_some, hy, hdash, Option.pure_def]

lemma podNode_inj : podNode x y = podNode x' y' ↔ x = x' ∧ y = y' := by
  constructor
  · intro h
    rw [podNode_def, podNode_def] at h
    have hx : x = x' := by
      have htail : str x ++ '-' :: ("pod-".toList ++ str y) =
          str x' ++ '-' :: ("pod-".toList ++ str y') := by simpa using h
      have hpre : str x ++ '-' :: ("pod-".toList ++ str y) <+:
          str x' ++ '-' :: ("pod-".toList ++ str y') := by rw [htail]
      exact eq_of_prefix_str_append (by decide) (by decide) hpre
    subst hx
    exact ⟨rfl, str_inj.mp (List.append_cancel_left h)⟩
  · rintro ⟨rfl, rfl⟩
    rfl

lemma spineName_inj : spineName x y = spineName x' y' ↔ x = x' ∧ y = y' := by
  constructor
  · intro h
    have hplane := congrArg getPlaneId h
    rw [getPlaneId_spineName, getPlaneId_spineName, Option.some_inj] at hplane
    subst hplane
    rw [spineName_def, spineName_def] at h
    exact ⟨rfl, str_inj.mp (List.append_cancel_left h)⟩
  · rintro ⟨rfl, rfl⟩
    rfl

lemma endName_inj : endName y host = endName y' host' ↔ y = y' ∧ host = host' := by
  constructor
  · intro h
    simp only [endName_def, List.append_assoc, List.append_cancel_left_eq] at h
    have hpre : str y ++ '-' :: host <+: str y' ++ '-' :: host' := by rw [h]
    obtain rfl : y = y' := eq_of_prefix_str_append (by decide) (by decide) hpre
    exact ⟨rfl, List.cons_injective (List.append_cancel_left h)⟩
  · rintro ⟨rfl, rfl⟩
    rfl

/-- The letters of a name of a switch are those of its words. -/
lemma not_mem_podNode {c : Char} (hc : c.isDigit = false) (h : c ∉ "plane-pod".toList) :
    c ∉ podNode x y := by
  have hx := not_mem_str (n := x) hc
  have hy := not_mem_str (n := y) hc
  simp_all [podNode_def]

lemma not_mem_spineName {c : Char} (hc : c.isDigit = false) (h : c ∉ "plane-spine".toList) :
    c ∉ spineName x y := by
  have hx := not_mem_str (n := x) hc
  have hy := not_mem_str (n := y) hc
  simp_all [spineName_def]

lemma podNode_ne_spineName : podNode x y ≠ spineName x' y' := by
  intro h
  have hs : 's' ∈ spineName x' y' := by simp [spineName_def]
  exact not_mem_podNode (by decide) (by decide) (h ▸ hs)

lemma endName_ne_podNode : endName y host ≠ podNode x' y' := by
  simp [endName_def, podNode_def]

lemma endName_ne_spineName : endName y host ≠ spineName x' y' := by
  simp [endName_def, spineName_def]

/-! ## Words in names -/

lemma contains_plane_podNode : contains (podNode x y) "plane".toList = true :=
  contains_iff.mpr ⟨[], "-".toList ++ str x ++ "-pod-".toList ++ str y, by simp [podNode_def]⟩

lemma contains_plane_spineName : contains (spineName x y) "plane".toList = true :=
  contains_iff.mpr ⟨[], "-".toList ++ str x ++ "-spine-".toList ++ str y, by simp [spineName_def]⟩

/-- After its own `pod-` an end node has the words of its host. -/
lemma infix_endName_iff {w : Str} (hne : ¬ 'p' :: w <+: endName y host) :
    'p' :: w <:+: endName y host ↔ 'p' :: w <:+: host := by
  have hsplit : endName y host = 'p' :: (("od-".toList ++ str y ++ ['-']) ++ host) := by
    simp [endName_def]
  have hletter : 'p' ∉ "od-".toList ++ str y ++ ['-'] := by
    have := not_mem_str (n := y) (c := 'p') (by decide)
    simp_all
  rw [hsplit] at hne ⊢
  rw [List.infix_cons_iff, or_iff_right hne, cons_infix_append_iff hletter]

lemma contains_plane_endName (h : ¬ "plane".toList <:+: host) :
    contains (endName y host) "plane".toList = false := by
  rw [← Bool.not_eq_true, contains_iff]
  have hpre : ¬ "plane".toList <+: endName y host := by
    simp [endName_def, List.cons_prefix_cons]
  exact fun hinfix => h ((infix_endName_iff hpre).mp hinfix)

/-- A pod below ten is found by its digit. -/
lemma contains_pod_endName_iff (hy : y < 10) (hy' : y' < 10) (h : ¬ "pod-".toList <:+: host) :
    contains (endName y host) ("pod-".toList ++ str y') = true ↔ y' = y := by
  rw [contains_iff]
  have hdigit : "pod-".toList ++ str y' <+: endName y host ↔ y' = y := by
    rw [endName_def, List.append_assoc, List.prefix_append_right_inj, str_of_lt hy, str_of_lt hy']
    simp only [List.singleton_append, List.cons_prefix_cons, List.nil_prefix, and_true]
    exact ⟨fun heq => by simpa [str_of_lt hy, str_of_lt hy', heq] using str_inj (m := y') (n := y),
      fun heq => heq ▸ rfl⟩
  by_cases heq : y' = y
  · exact iff_of_true (hdigit.mpr heq).isInfix heq
  · refine iff_of_false ?_ heq
    intro hinfix
    have hhost := (infix_endName_iff (w := "od-".toList ++ str y')
      (fun hp => heq (hdigit.mp hp))).mp hinfix
    exact h (List.IsInfix.trans (List.infix_append_left ..) hhost)

/-- Only the leaves of the first plane are counted as pods. -/
lemma contains_plane_one_podNode_iff :
    contains (podNode x y) "plane-1-pod-".toList = true ↔ x = 1 := by
  rw [contains_iff]
  constructor
  · intro hinfix
    have hsplit : podNode x y =
        'p' :: ("lane-".toList ++ str x ++ ['-'] ++ ("pod-".toList ++ str y)) := by
      simp [podNode_def]
    have hword : "plane-1-pod-".toList = 'p' :: "lane-1-pod-".toList := by simp
    rw [hsplit, hword, List.infix_cons_iff] at hinfix
    rcases hinfix with hpre | hinfix
    · have hdigits : str 1 ++ '-' :: "pod-".toList <+:
          str x ++ '-' :: ("pod-".toList ++ str y) := by
        have hone : str 1 = ['1'] := by decide
        simpa [List.cons_prefix_cons, hone] using hpre
      exact (eq_of_prefix_str_append (by decide) (by decide) hdigits).symm
    · -- the word does not begin at the second `p`, after which there is no `l`
      have hletter : 'p' ∉ "lane-".toList ++ str x ++ ['-'] := by
        have := not_mem_str (n := x) (c := 'p') (by decide)
        simp_all
      rw [cons_infix_append_iff hletter] at hinfix
      have hnone : 'l' ∉ "pod-".toList ++ str y := by
        have := not_mem_str (n := y) (c := 'l') (by decide)
        simp_all
      exact absurd hinfix (not_infix_of_mem (by simp) hnone)
  · rintro rfl
    exact ⟨[], str y, by simp [podNode_def, str_of_lt]⟩

lemma not_contains_plane_one_spineName :
    contains (spineName x y) "plane-1-pod-".toList = false := by
  rw [← Bool.not_eq_true, contains_iff]
  exact not_infix_of_mem (a := 'd') (by simp) (not_mem_spineName (by decide) (by decide))

lemma not_contains_plane_one_endName (h : ¬ "plane".toList <:+: host) :
    contains (endName y host) "plane-1-pod-".toList = false := by
  rw [← Bool.not_eq_true, contains_iff]
  intro hinfix
  have hplane : "plane".toList <:+: endName y host :=
    List.IsInfix.trans ⟨[], "-1-pod-".toList, by simp⟩ hinfix
  exact Bool.false_ne_true ((contains_plane_endName h).symm.trans (contains_iff.mpr hplane))

end Names

/-! ## The scheme -/

/-- A name of the scheme, for the planes and pods from 1. -/
def InScheme (planes pods : ℕ) (name : Str) : Prop :=
  (∃ x y, (1 ≤ x ∧ x ≤ planes) ∧ (1 ≤ y ∧ y ≤ pods) ∧ name = podNode x y) ∨
    (∃ x z, (1 ≤ x ∧ x ≤ planes) ∧ name = spineName x z) ∨
    ∃ y host, (1 ≤ y ∧ y ≤ pods) ∧ ¬ "plane".toList <:+: host ∧ ¬ "pod-".toList <:+: host ∧
      name = endName y host

/-- A bridge has a port to another one. -/
def Topology.Linked (T : Topology) (name name' : Str) : Prop :=
  ∃ b b', T.getBridge name = some b ∧ T.getBridge name' = some b' ∧ b.getPortForDst b'.ofId ≠ []

/-- A parallel leaf-spine topology: every end node is linked to the leaf of its pod in every
plane, and every leaf to every spine of its plane. -/
structure LeafSpine (T : Topology) (planes pods : ℕ) : Prop where
  podsLe : pods ≤ 9
  names : ∀ name ∈ T.names, InScheme planes pods name
  leaf : ∀ x y, 1 ≤ x ∧ x ≤ planes → 1 ≤ y ∧ y ≤ pods → podNode x y ∈ T.names
  ofIds : T.OfIdsDistinct
  links : T.LinksAgree
  endLinked : ∀ y host x, endName y host ∈ T.names → 1 ≤ x ∧ x ≤ planes →
    T.Linked (endName y host) (podNode x y)
  spineLinked : ∀ x y z, spineName x z ∈ T.names → 1 ≤ y ∧ y ≤ pods →
    T.Linked (podNode x y) (spineName x z)

namespace LeafSpine

variable {T : Topology} {planes pods : ℕ} {x y z : ℕ} {host name name' : Str}

/-- A link has two ends. -/
lemma linked_symm (h : LeafSpine T planes pods) (hlink : T.Linked name name') :
    T.Linked name' name := by
  obtain ⟨b, b', hb, hb', hne⟩ := hlink
  refine ⟨b', b, hb', hb, ?_⟩
  obtain ⟨p, hp⟩ := List.exists_mem_of_ne_nil _ hne
  obtain ⟨dstPort, hport⟩ := Bridge.mem_getPortForDst.mp hp
  obtain ⟨nb', hnb', hid, hback⟩ := h.links _ (Topology.getBridge_eq_some_iff.mp hb) _ hport
  obtain rfl : nb' = (name', b') :=
    h.ofIds.eq hnb' (Topology.getBridge_eq_some_iff.mp hb') hid
  exact List.ne_nil_of_mem (Bridge.mem_getPortForDst.mpr ⟨p, hback⟩)

lemma spine_mem (h : LeafSpine T planes pods) (hname : spineName x z ∈ T.names) :
    1 ≤ x ∧ x ≤ planes := by
  rcases h.names _ hname with ⟨x', y', -, -, heq⟩ | ⟨x', z', hx, heq⟩ | ⟨y', host', -, -, -, heq⟩
  · exact absurd heq.symm podNode_ne_spineName
  · exact (spineName_inj.mp heq).1 ▸ hx
  · exact absurd heq.symm endName_ne_spineName

lemma endNode_mem (h : LeafSpine T planes pods) (hname : endName y host ∈ T.names) :
    (1 ≤ y ∧ y ≤ pods) ∧ ¬ "plane".toList <:+: host ∧ ¬ "pod-".toList <:+: host := by
  rcases h.names _ hname with
    ⟨x', y', -, -, heq⟩ | ⟨x', z', -, heq⟩ | ⟨y', host', hy, hplane, hpod, heq⟩
  · exact absurd heq endName_ne_podNode
  · exact absurd heq endName_ne_spineName
  · obtain ⟨rfl, rfl⟩ := endName_inj.mp heq
    exact ⟨hy, hplane, hpod⟩

/-- `get_npods` counts the pods. -/
lemma getNpods_eq (h : LeafSpine T planes pods) (hplanes : 1 ≤ planes) : T.getNpods = pods := by
  have hperm : (T.names.filter fun n => contains n "plane-1-pod-".toList).Perm
      ((List.range' 1 pods).map (podNode 1)) := by
    have hnodup : T.names.Nodup := T.namesNodup
    refine (List.perm_ext_iff_of_nodup (hnodup.filter _) ?_).mpr ?_
    · exact List.Nodup.map (fun m n hmn => (podNode_inj.mp hmn).2) List.nodup_range'
    · intro name
      simp only [List.mem_filter, List.mem_map, List.mem_range'_1]
      constructor
      · rintro ⟨hname, hcontains⟩
        rcases h.names _ hname with
          ⟨x, y, -, hy, rfl⟩ | ⟨x, z, -, rfl⟩ | ⟨y, host, -, hplane, -, rfl⟩
        · obtain rfl := contains_plane_one_podNode_iff.mp hcontains
          exact ⟨y, by omega, rfl⟩
        · rw [not_contains_plane_one_spineName] at hcontains
          cases hcontains
        · rw [not_contains_plane_one_endName hplane] at hcontains
          cases hcontains
      · rintro ⟨y, hy, rfl⟩
        exact ⟨h.leaf 1 y ⟨le_rfl, hplanes⟩ (by omega), contains_plane_one_podNode_iff.mpr rfl⟩
  rw [Topology.getNpods, hperm.length_eq, List.length_map, List.length_range']

/-- `get_pod_endnodes` finds the end nodes of a pod. -/
lemma mem_getPodEndnodes (h : LeafSpine T planes pods) (hy : y ≤ pods) :
    name ∈ T.getPodEndnodes y ↔ ∃ host, name = endName y host ∧ endName y host ∈ T.names := by
  have hlt (k : ℕ) (hk : k ≤ pods) : k < 10 := by
    have := h.podsLe
    omega
  simp only [Topology.getPodEndnodes, List.mem_filter, Bool.and_eq_true, Bool.not_eq_true']
  constructor
  · rintro ⟨hname, hplane, hpod⟩
    rcases h.names _ hname with
      ⟨x, y', -, -, rfl⟩ | ⟨x, z, -, rfl⟩ | ⟨y', host, hy', hnot, hnot', rfl⟩
    · rw [contains_plane_podNode] at hplane
      cases hplane
    · rw [contains_plane_spineName] at hplane
      cases hplane
    · obtain rfl := (contains_pod_endName_iff (hlt y' hy'.2) (hlt y hy) hnot').mp hpod
      exact ⟨host, rfl, hname⟩
  · rintro ⟨host, rfl, hname⟩
    obtain ⟨-, hplane, hpod⟩ := h.endNode_mem hname
    exact ⟨hname, contains_plane_endName hplane,
      (contains_pod_endName_iff (hlt y hy) (hlt y hy) hpod).mpr rfl⟩

end LeafSpine

/-! ## Two pods -/

lemma twoPods_ports : (([(1, 2, 2)] : List (ℕ × ℕ × ℕ)).map Prod.fst).Nodup := by decide

/-- One plane with a spine, two pods with an end node each. -/
def twoPods : Topology where
  bridges :=
    [(spineName 1 1, { ofId := 1, ports := [(1, 2, 1), (2, 3, 1)], mgmtIp := ⟨10, 0, 0, 1⟩ }),
      (podNode 1 1, { ofId := 2, ports := [(1, 1, 1), (2, 4, 1)], mgmtIp := ⟨10, 0, 0, 2⟩ }),
      (podNode 1 2, { ofId := 3, ports := [(1, 1, 2), (2, 5, 1)], mgmtIp := ⟨10, 0, 0, 3⟩ }),
      (endName 1 ['a'],
        { ofId := 4, ports := [(1, 2, 2)], mgmtIp := ⟨10, 0, 0, 4⟩, portsNodup := twoPods_ports }),
      (endName 2 ['b'], { ofId := 5, ports := [(1, 3, 2)], mgmtIp := ⟨10, 0, 0, 5⟩ })]

lemma twoPods_names : twoPods.names =
    [spineName 1 1, podNode 1 1, podNode 1 2, endName 1 ['a'], endName 2 ['b']] := rfl

/-- The names of the two hosts have none of the words in them that the scripts look for. -/
lemma twoPods_hosts : ∀ host ∈ [['a'], ['b']], ¬ "plane".toList <:+: host ∧
    ¬ "pod-".toList <:+: host ∧ ¬ "spine".toList <:+: host := by decide

lemma inScheme_endName {planes pods y : ℕ} {host : Str} (hy : 1 ≤ y ∧ y ≤ pods)
    (hhost : host ∈ [['a'], ['b']]) : InScheme planes pods (endName y host) := by
  obtain ⟨hplane, hpod, -⟩ := twoPods_hosts host hhost
  exact Or.inr (Or.inr ⟨y, host, hy, hplane, hpod, rfl⟩)

lemma twoPods_endName {y : ℕ} {host : Str} (h : endName y host ∈ twoPods.names) :
    y = 1 ∧ host = ['a'] ∨ y = 2 ∧ host = ['b'] := by
  simpa only [twoPods_names, List.mem_cons, List.not_mem_nil, or_false, endName_ne_spineName,
    endName_ne_podNode, false_or, endName_inj] using h

lemma leafSpine_twoPods : LeafSpine twoPods 1 2 where
  podsLe := by decide
  names name hname := by
    simp only [twoPods_names, List.mem_cons, List.not_mem_nil, or_false] at hname
    rcases hname with rfl | rfl | rfl | rfl | rfl
    · exact Or.inr (Or.inl ⟨1, 1, by omega, rfl⟩)
    · exact Or.inl ⟨1, 1, by omega, by omega, rfl⟩
    · exact Or.inl ⟨1, 2, by omega, by omega, rfl⟩
    · exact inScheme_endName (by omega) (by simp)
    · exact inScheme_endName (by omega) (by simp)
  leaf x y hx hy := by
    obtain rfl : x = 1 := by omega
    obtain rfl | rfl : y = 1 ∨ y = 2 := by omega
    · simp [twoPods_names]
    · simp [twoPods_names]
  ofIds := by decide
  links := by decide
  endLinked y host x hname hx := by
    obtain rfl : x = 1 := by omega
    rcases twoPods_endName hname with ⟨rfl, rfl⟩ | ⟨rfl, rfl⟩
    · exact ⟨_, _, rfl, rfl, by decide⟩
    · exact ⟨_, _, rfl, rfl, by decide⟩
  spineLinked x y z hname hy := by
    simp only [twoPods_names, List.mem_cons, List.not_mem_nil, or_false, spineName_inj,
      podNode_ne_spineName.symm, endName_ne_spineName.symm] at hname
    obtain ⟨rfl, rfl⟩ := hname
    obtain rfl | rfl : y = 1 ∨ y = 2 := by omega
    · exact ⟨_, _, rfl, rfl, by decide⟩
    · exact ⟨_, _, rfl, rfl, by decide⟩

end DaqSwitch.Odl
