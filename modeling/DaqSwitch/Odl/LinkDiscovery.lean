import DaqSwitch.Odl.Topology

/-!
# Discovery of links

The constructor of `Bridge` picks the links of a bridge out of the links of the whole
topology by a search for the digits of its id in the link id, where the digits of other ids
and of port numbers are found as well.  A later link of a port replaces an earlier one.
-/

namespace DaqSwitch.Odl

open Lib Lib.Text Lib.KeyedTable

/-- A link of the operational datastore. -/
structure Link where
  linkId : Str
  destTp : Str
deriving DecidableEq, Repr

/-- The entry of `__ports` for a link: `int` of the last piece of the link id, and of the last
two pieces of the destination. -/
def Link.entry (l : Link) : Option (ℕ × ℕ × ℕ) := do
  let (_, sport) ← rsplit ':' l.linkId
  let (dst, dport) ← rsplit ':' l.destTp
  let (_, dst) ← rsplit ':' dst
  return (← parseNat sport, ← parseNat dst, ← parseNat dport)

/-- The test that picks the links of a bridge. -/
def Link.picked (ofId : ℕ) (l : Link) : Bool :=
  contains l.linkId (str ofId) && !contains l.linkId "/".toList

/-- `__ports` after the loop over the links; a link that cannot be read is an exception. -/
def linkPorts (ofId : ℕ) (links : List Link) : Option (List (ℕ × ℕ × ℕ)) :=
  links.foldlM (fun ports l =>
    if l.picked ofId then l.entry.map fun e => put Prod.fst e ports else some ports) []

lemma linkPorts_concat (ofId : ℕ) (links : List Link) (l : Link) :
    linkPorts ofId (links ++ [l]) = (linkPorts ofId links).bind fun ports =>
      if l.picked ofId then l.entry.map fun e => put Prod.fst e ports else some ports := by
  simp [linkPorts, List.foldlM_append]

lemma nodup_put {e : ℕ × ℕ × ℕ} {ports : List (ℕ × ℕ × ℕ)} (h : (ports.map Prod.fst).Nodup) :
    ((put Prod.fst e ports).map Prod.fst).Nodup := by
  rw [put, List.map_append, List.map_cons, List.map_nil, List.nodup_append]
  refine ⟨h.sublist (List.filter_sublist.map _), by simp, ?_⟩
  simp

lemma linkPorts_nodup {ofId : ℕ} {links : List Link} {ports : List (ℕ × ℕ × ℕ)}
    (h : linkPorts ofId links = some ports) : (ports.map Prod.fst).Nodup := by
  induction links using List.reverseRecOn generalizing ports with
  | nil =>
    obtain rfl : [] = ports := by simpa [linkPorts] using h
    exact List.nodup_nil
  | append_singleton links l ih =>
    rw [linkPorts_concat, Option.bind_eq_some_iff] at h
    obtain ⟨ports', hports', h⟩ := h
    split at h
    · obtain ⟨e, -, rfl⟩ := Option.map_eq_some_iff.mp h
      exact nodup_put (ih hports')
    · exact Option.some_inj.mp h ▸ ih hports'

/-- `Bridge.__init__`, for the links that the datastore returns; a request that fails or finds
no links counts as no links. -/
def Bridge.init (ofId : ℕ) (mgmtIp : Ipv4) (links : Option (List Link)) : Option Bridge :=
  match h : linkPorts ofId (links.getD []) with
  | none => none
  | some ports => some ⟨ofId, ports, mgmtIp, linkPorts_nodup h⟩

/-! ## Links between switches -/

/-- The link from port `sport` of bridge `src` to port `dport` of bridge `dst`. -/
def switchLink (src sport dst dport : ℕ) : Link where
  linkId := "openflow:".toList ++ str src ++ ':' :: str sport
  destTp := "openflow:".toList ++ str dst ++ ':' :: str dport

lemma switchLink_linkId (src sport dst dport : ℕ) : (switchLink src sport dst dport).linkId =
    "openflow:".toList ++ str src ++ ':' :: str sport := rfl

lemma switchLink_destTp (src sport dst dport : ℕ) : (switchLink src sport dst dport).destTp =
    "openflow:".toList ++ str dst ++ ':' :: str dport := rfl

/-- A link of a topology: between switches, or with a host. -/
def IsLink (l : Link) : Prop :=
  (∃ src sport dst dport, l = switchLink src sport dst dport) ∨ '/' ∈ l.linkId

/-- The last link of a port among those that are picked for a bridge. -/
def lastPicked (ofId sport : ℕ) (links : List Link) : Option Link :=
  links.reverse.find? fun l => l.picked ofId && l.entry.map Prod.fst == some sport

/-- The port map is that of the bridge's own links. -/
structure Discovers (links : List Link) (b : Bridge) : Prop where
  entries : ∀ s d t, (s, d, t) ∈ b.ports ↔ switchLink b.ofId s d t ∈ links
  portForDst : ∀ d p, p ∈ b.getPortForDst d ↔ ∃ t, switchLink b.ofId p d t ∈ links

/-- The links of one port of the bridge go to one place, and the last link that is picked for
a port goes where a link of the bridge from this port goes. -/
structure OwnLinksLast (ofId : ℕ) (links : List Link) : Prop where
  single : ∀ s d t d' t', switchLink ofId s d t ∈ links → switchLink ofId s d' t' ∈ links →
    (d, t) = (d', t')
  last : ∀ s l d t, lastPicked ofId s links = some l → l.entry = some (s, d, t) →
    switchLink ofId s d t ∈ links

section Links

variable {ofId src sport dst dport : ℕ} {l : Link} {links : List Link}

lemma entry_switchLink : (switchLink src sport dst dport).entry = some (sport, dst, dport) := by
  have hdigits (n : ℕ) : ':' ∉ str n := not_mem_str (by decide)
  have hlink : rsplit ':' (switchLink src sport dst dport).linkId =
      some ("openflow:".toList ++ str src, str sport) := by
    rw [switchLink_linkId, rsplit_append_cons (hdigits sport)]
  have htp : rsplit ':' (switchLink src sport dst dport).destTp =
      some ("openflow:".toList ++ str dst, str dport) := by
    rw [switchLink_destTp, rsplit_append_cons (hdigits dport)]
  have hdst : rsplit ':' ("openflow:".toList ++ str dst) = some ("openflow".toList, str dst) := by
    have hcolon : "openflow:".toList ++ str dst = "openflow".toList ++ ':' :: str dst := by simp
    rw [hcolon, rsplit_append_cons (hdigits dst)]
  simp only [Link.entry, hlink, htp, hdst, parseNat_str, Option.bind_eq_bind, Option.bind_some,
    Option.pure_def]

lemma picked_of_host (h : '/' ∈ l.linkId) : l.picked ofId = false := by
  have hslash : contains l.linkId "/".toList = true := by
    obtain ⟨s, t, hst⟩ := List.mem_iff_append.mp h
    exact contains_iff.mpr ⟨s, t, by simp [hst]⟩
  rw [Link.picked, hslash, Bool.not_true, Bool.and_false]

/-- The links of the bridge are picked. -/
lemma picked_own : (switchLink ofId sport dst dport).picked ofId = true := by
  have hid : contains (switchLink ofId sport dst dport).linkId (str ofId) = true :=
    contains_iff.mpr ⟨"openflow:".toList, ':' :: str sport, (switchLink_linkId ..).symm⟩
  have hslash : contains (switchLink ofId sport dst dport).linkId "/".toList = false := by
    rw [← Bool.not_eq_true, contains_iff]
    refine not_infix_of_mem (a := '/') (by decide) ?_
    have hsrc := not_mem_str (n := ofId) (c := '/') (by decide)
    have hsport := not_mem_str (n := sport) (c := '/') (by decide)
    rw [switchLink_linkId]
    simp_all
  rw [Link.picked, hid, hslash, Bool.not_false, Bool.and_true]

/-- A link that is picked can be read. -/
lemma exists_entry (h : IsLink l) (hpicked : l.picked ofId = true) : ∃ e, l.entry = some e := by
  rcases h with ⟨src, sport, dst, dport, rfl⟩ | hhost
  · exact ⟨_, entry_switchLink⟩
  · rw [picked_of_host hhost] at hpicked
    cases hpicked

/-- The entries of the port map are those of the last links picked. -/
lemma linkPorts_spec (ofId : ℕ) (hlinks : ∀ l ∈ links, IsLink l) :
    ∃ ports, linkPorts ofId links = some ports ∧ ∀ s d t, (s, d, t) ∈ ports ↔
      ∃ l, lastPicked ofId s links = some l ∧ l.entry = some (s, d, t) := by
  induction links using List.reverseRecOn with
  | nil => exact ⟨[], rfl, by simp [lastPicked]⟩
  | append_singleton links l ih =>
    obtain ⟨ports, hports, hmem⟩ := ih fun l hl => hlinks l (List.mem_append_left _ hl)
    have hl := hlinks l (by simp)
    have hlast (s : ℕ) : lastPicked ofId s (links ++ [l]) =
        if (l.picked ofId && l.entry.map Prod.fst == some s) = true then some l
        else lastPicked ofId s links := by
      rw [lastPicked, List.reverse_append, List.reverse_singleton, List.singleton_append,
        List.find?_cons]
      cases l.picked ofId && l.entry.map Prod.fst == some s <;> rfl
    rw [linkPorts_concat, hports, Option.bind_some]
    by_cases hpicked : l.picked ofId = true
    · obtain ⟨e, he⟩ := exists_entry hl hpicked
      rw [if_pos hpicked, he]
      refine ⟨put Prod.fst e ports, rfl, ?_⟩
      intro s d t
      rw [mem_put, hlast, hpicked, he, Bool.true_and, Option.map_some]
      -- the new link is the last one of its port
      by_cases hs : e.1 = s
      · subst hs
        simp [he, eq_comm]
      · have hne : (s, d, t) ≠ e := fun heq => hs (heq ▸ rfl)
        simp [hs, hne, hmem, Ne.symm hs]
    · rw [if_neg hpicked]
      refine ⟨ports, rfl, ?_⟩
      intro s d t
      rw [hmem, hlast, if_neg (by simp [hpicked])]

/-- A link that is picked for a port has a last one. -/
lemma exists_lastPicked (hl : l ∈ links) (hpicked : l.picked ofId = true)
    (hport : l.entry.map Prod.fst = some sport) :
    ∃ l' d t, lastPicked ofId sport links = some l' ∧ l'.entry = some (sport, d, t) := by
  have hsome : (lastPicked ofId sport links).isSome := by
    rw [lastPicked, List.find?_isSome]
    exact ⟨l, List.mem_reverse.mpr hl, by simp [hpicked, hport]⟩
  obtain ⟨l', hl'⟩ := Option.isSome_iff_exists.mp hsome
  have hfound := List.find?_some hl'
  rw [Bool.and_eq_true, beq_iff_eq, Option.map_eq_some_iff] at hfound
  obtain ⟨-, ⟨s, d, t⟩, he, rfl⟩ := hfound
  exact ⟨l', d, t, hl', he⟩

/-- **Discovery.**  A bridge is built from any list of links; its port map is that of its own
links if and only if these are the last ones that are picked, and there is one for a port. -/
theorem discovers_iff (mgmtIp : Ipv4) (hlinks : ∀ l ∈ links, IsLink l) :
    ∃ b, Bridge.init ofId mgmtIp (some links) = some b ∧ b.ofId = ofId ∧
      (Discovers links b ↔ OwnLinksLast ofId links) := by
  obtain ⟨ports, hports, hmem⟩ := linkPorts_spec ofId hlinks
  have hnodup := linkPorts_nodup hports
  have hinit : Bridge.init ofId mgmtIp (some links) = some ⟨ofId, ports, mgmtIp, hnodup⟩ := by
    unfold Bridge.init
    split
    · next h =>
      rw [Option.getD_some, hports] at h
      cases h
    · next ports' h =>
      rw [Option.getD_some, hports, Option.some_inj] at h
      subst h
      rfl
  refine ⟨_, hinit, rfl, fun h => ⟨?_, ?_⟩, ?_⟩
  · intro s d t d' t' hl hl'
    have hunique := List.inj_on_of_nodup_map hnodup ((h.entries s d t).mpr hl)
      ((h.entries s d' t').mpr hl') rfl
    exact (Prod.mk.injEq .. ▸ hunique).2
  · exact fun s l d t hl he => (h.entries s d t).mp ((hmem s d t).mpr ⟨l, hl, he⟩)
  · intro h
    have hentries (s d t : ℕ) : (s, d, t) ∈ ports ↔ switchLink ofId s d t ∈ links := by
      rw [hmem]
      constructor
      · rintro ⟨l, hl, he⟩
        exact h.last s l d t hl he
      · intro hown
        obtain ⟨l, d', t', hl, he⟩ := exists_lastPicked hown picked_own
          (by rw [entry_switchLink]; rfl)
        have := h.single s d t d' t' hown (h.last s l d' t' hl he)
        rw [Prod.mk.injEq] at this
        exact ⟨l, hl, by rw [he, this.1, this.2]⟩
    refine ⟨hentries, ?_⟩
    intro d p
    rw [Bridge.mem_getPortForDst]
    exact exists_congr fun t => hentries p d t

end Links

/-- A link of bridge 1, and one of bridge 11 from the same port number. -/
def elevenLinks : List Link := [switchLink 1 1 2 1, switchLink 11 1 3 5]

lemma elevenLinks_isLink : ∀ l ∈ elevenLinks, IsLink l := by
  intro l hl
  simp only [elevenLinks, List.mem_cons, List.not_mem_nil, or_false] at hl
  rcases hl with rfl | rfl
  · exact Or.inl ⟨_, _, _, _, rfl⟩
  · exact Or.inl ⟨_, _, _, _, rfl⟩

theorem discovers_iff_eleven : ∃ b,
    Bridge.init 1 ⟨0, 0, 0, 0⟩ (some elevenLinks) = some b ∧ b.ofId = 1 ∧
      (Discovers elevenLinks b ↔ OwnLinksLast 1 elevenLinks) :=
  discovers_iff _ elevenLinks_isLink

/-- The link of bridge 11 replaces the one of bridge 1. -/
theorem not_discovers : (∀ l ∈ elevenLinks, IsLink l) ∧
    ∃ b, Bridge.init 1 ⟨0, 0, 0, 0⟩ (some elevenLinks) = some b ∧ ¬ Discovers elevenLinks b := by
  have hsome : ((Bridge.init 1 ⟨0, 0, 0, 0⟩ (some elevenLinks)).map fun b =>
      (b.ofId, b.ports)) = some (1, [(1, 3, 5)]) := by decide
  obtain ⟨b, hb, hports⟩ := Option.map_eq_some_iff.mp hsome
  rw [Prod.mk.injEq] at hports
  refine ⟨elevenLinks_isLink, b, hb, ?_⟩
  intro h
  have hmem : (1, 3, 5) ∈ b.ports := by simp [hports.2]
  have := (h.entries 1 3 5).mp hmem
  rw [hports.1] at this
  exact absurd this (by decide)

end DaqSwitch.Odl
