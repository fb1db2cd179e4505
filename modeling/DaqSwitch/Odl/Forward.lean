import DaqSwitch.Lib.Forwarding
import DaqSwitch.Odl.Topology

/-!
# Forwarding of packets

How the bridges of a topology forward a packet by the flows in the datastore.  Which of the
best matching flows a bridge picks is left open (`Switching`).  A packet is not sent back
through the port that it came in on, and a packet that is sent to a daqring port comes in
again on this port.
-/

namespace DaqSwitch.Odl

open Lib Lib.Forwarding Lib.Text

/-! ## Matching -/

/-- The fields of a packet that flows match on. -/
structure Packet where
  ethernetType : ℕ
  ipProtocol : ℕ
  ipv4Source : Ipv4
  ipv4Destination : Ipv4
  sourcePort : ℕ
  destinationPort : ℕ
deriving DecidableEq, Repr

/-- A packet at an input port of a bridge. -/
structure Header where
  inPort : ℕ × Port
  packet : Packet
deriving DecidableEq, Repr

def Match.hits (m : Match) (h : Header) : Bool :=
  m.inPort.all (· == h.inPort) &&
  m.ethernetType.all (· == h.packet.ethernetType) &&
  m.ipProtocol.all (· == h.packet.ipProtocol) &&
  m.ipv4Destination.all
    (fun p => h.packet.ethernetType == 2048 && p.covers h.packet.ipv4Destination) &&
  m.ipv4Source.all (fun p => h.packet.ethernetType == 2048 && p.covers h.packet.ipv4Source) &&
  m.tcpSourcePort.all (fun p => h.packet.ipProtocol == 6 && h.packet.sourcePort == p) &&
  m.tcpDestinationPort.all (fun p => h.packet.ipProtocol == 6 && h.packet.destinationPort == p) &&
  m.udpSourcePort.all (fun p => h.packet.ipProtocol == 17 && h.packet.sourcePort == p) &&
  m.udpDestinationPort.all (fun p => h.packet.ipProtocol == 17 && h.packet.destinationPort == p)

def Flow.Hits (f : Flow) (h : Header) : Prop := f.flowMatch.hits h = true

instance (f : Flow) (h : Header) : Decidable (f.Hits h) := inferInstanceAs (Decidable (_ = true))

/-- Choices of flows by the bridges. -/
abbrev FlowSwitching (ds : Datastore) := Switching Flow.priority Flow.Hits ds

lemma Ipv4.ext_octets {ip ip' : Ipv4} (h : ip.octets = ip'.octets) : ip = ip' := by
  obtain ⟨a, b, c, d⟩ := ip
  obtain ⟨a', b', c', d'⟩ := ip'
  simp_all [Ipv4.octets]

/-- A prefix of four octets covers one address. -/
lemma Ipv4Prefix.covers_four {ip ip' : Ipv4} :
    (⟨ip, 4⟩ : Ipv4Prefix).covers ip' = true ↔ ip = ip' := by
  have htake (x : Ipv4) : x.octets.take 4 = x.octets :=
    List.take_of_length_le (by simp [Ipv4.octets])
  rw [covers, beq_iff_eq, htake, htake]
  exact ⟨Ipv4.ext_octets, fun h => h ▸ rfl⟩

/-! ## Moving -/

/-- Where a packet is: at an input port of a bridge, or handed to the host of a bridge. -/
inductive Place
  | bridge (ofId : ℕ) (inPort : Port)
  | host (ofId : ℕ)
deriving DecidableEq, Repr

def Place.ofId : Place → ℕ
  | bridge ofId _ => ofId
  | host ofId => ofId

/-- The bridge that a packet comes to; when it comes in again from a daqring it has not left. -/
def Place.visit (rings : List ℕ) : Place → Option ℕ
  | bridge ofId (.num p) => if p ∈ rings then none else some ofId
  | bridge ofId _ => some ofId
  | host _ => none

/-- The bridges that a packet comes to on a path. -/
def visits (rings : List ℕ) (path : List Place) : List ℕ := path.filterMap (Place.visit rings)

/-- The other end of the link at a port of a bridge: its OpenFlow id and port. -/
def Topology.linkAt (T : Topology) (ofId port : ℕ) : Option (ℕ × ℕ) :=
  (T.bridges.find? fun nb => nb.2.ofId == ofId).bind fun nb => nb.2.ports.lookup port

/-- Send a packet to a port. -/
def transmit (T : Topology) (rings : List ℕ) (ofId : ℕ) (inPort : Port) : Port → Option Place
  | .num p =>
    if inPort = .num p then none
    else match T.linkAt ofId p with
      | some (dst, dstPort) => some (.bridge dst (.num dstPort))
      | none => if p ∈ rings then some (.bridge ofId (.num p)) else none
  | .LOCAL => if inPort = .LOCAL then none else some (.host ofId)
  | .CONTROLLER => none

/-- The next place of a packet. -/
def forward (T : Topology) (rings : List ℕ) (pick : ℕ → Header → Option Flow) (pk : Packet) :
    Place → Option Place
  | .host _ => none
  | .bridge ofId inPort =>
    ((pick ofId ⟨(ofId, inPort), pk⟩).bind Flow.output).bind (transmit T rings ofId inPort)

section Visits

variable {rings : List ℕ} {ofId p : ℕ} {inPort : Port} {path : List Place}

lemma visits_cons_of_clear (h : ∀ q ∈ rings, inPort ≠ .num q) :
    visits rings (.bridge ofId inPort :: path) = ofId :: visits rings path := by
  refine List.filterMap_cons_some ?_
  cases inPort with
  | num p => exact if_neg fun hp => h p hp rfl
  | LOCAL => rfl
  | CONTROLLER => rfl

lemma visits_cons_of_ring (h : p ∈ rings) :
    visits rings (.bridge ofId (.num p) :: path) = visits rings path :=
  List.filterMap_cons_none (if_pos h)

end Visits

/-! ## Links -/

/-- The last of the parallel links to a bridge, its port here and there. -/
def Bridge.lastLink (b : Bridge) (dst : ℕ) : Option (ℕ × ℕ) :=
  (b.ports.reverse.find? fun l => l.2.1 == dst).map fun l => (l.1, l.2.2)

lemma Bridge.lastLink_eq_some {b : Bridge} {dst p k : ℕ} : b.lastLink dst = some (p, k) →
    ∃ before after, b.ports = before ++ (p, dst, k) :: after ∧ ∀ l ∈ after, l.2.1 ≠ dst := by
  intro h
  rw [lastLink, Option.map_eq_some_iff] at h
  obtain ⟨⟨p', dst', k'⟩, hfind, heq⟩ := h
  obtain ⟨rfl, rfl⟩ := Prod.mk.inj heq
  obtain ⟨hdst, before, after, hsplit, hafter⟩ := List.find?_eq_some_iff_append.mp hfind
  obtain rfl : dst' = dst := by simpa using hdst
  refine ⟨after.reverse, before.reverse, ?_, ?_⟩
  · rw [← List.reverse_reverse b.ports, hsplit]
    simp
  · intro l hl
    simpa using hafter l (List.mem_reverse.mp hl)

lemma Bridge.mem_of_lastLink {b : Bridge} {dst p k : ℕ} (h : b.lastLink dst = some (p, k)) :
    (p, dst, k) ∈ b.ports := by
  obtain ⟨before, after, heq, -⟩ := lastLink_eq_some h
  rw [heq]
  simp

lemma Bridge.exists_lastLink {b : Bridge} {dst : ℕ} {l : ℕ × ℕ × ℕ} (hl : l ∈ b.ports)
    (hdst : l.2.1 = dst) : ∃ p k, b.lastLink dst = some (p, k) := by
  cases hfind : b.ports.reverse.find? fun l => l.2.1 == dst with
  | none =>
    have hnot := List.find?_eq_none.mp hfind l (List.mem_reverse.mpr hl)
    simp [hdst] at hnot
  | some l' => exact ⟨l'.1, l'.2.2, by rw [lastLink, hfind]; rfl⟩

/-- Bridges have distinct OpenFlow ids. -/
def Topology.OfIdsDistinct (T : Topology) : Prop := (T.bridges.map fun nb => nb.2.ofId).Nodup

/-- The port maps are those of links: both ends agree. -/
def Topology.LinksAgree (T : Topology) : Prop :=
  ∀ nb ∈ T.bridges, ∀ l ∈ nb.2.ports,
    ∃ nb' ∈ T.bridges, nb'.2.ofId = l.2.1 ∧ (l.2.2, nb.2.ofId, l.1) ∈ nb'.2.ports

instance (T : Topology) : Decidable T.OfIdsDistinct := inferInstanceAs (Decidable (List.Nodup _))

instance (T : Topology) : Decidable T.LinksAgree :=
  inferInstanceAs (Decidable (∀ nb ∈ T.bridges, ∀ l ∈ nb.2.ports,
    ∃ nb' ∈ T.bridges, nb'.2.ofId = l.2.1 ∧ (l.2.2, nb.2.ofId, l.1) ∈ nb'.2.ports))

section Links

variable {T : Topology} {nb nb' : Str × Bridge}

lemma Topology.OfIdsDistinct.eq (h : T.OfIdsDistinct) (hnb : nb ∈ T.bridges)
    (hnb' : nb' ∈ T.bridges) (hid : nb.2.ofId = nb'.2.ofId) : nb = nb' :=
  List.inj_on_of_nodup_map h hnb hnb' hid

lemma Topology.OfIdsDistinct.find? (h : T.OfIdsDistinct) (hnb : nb ∈ T.bridges) :
    T.bridges.find? (fun nb' => nb'.2.ofId == nb.2.ofId) = some nb := by
  cases hfind : T.bridges.find? fun nb' => nb'.2.ofId == nb.2.ofId with
  | none =>
    have := List.find?_eq_none.mp hfind nb hnb
    simp at this
  | some nb' =>
    have hid := List.find?_some hfind
    rw [beq_iff_eq] at hid
    rw [h.eq (List.mem_of_find?_eq_some hfind) hnb hid]

lemma Topology.OfIdsDistinct.linkAt (h : T.OfIdsDistinct) (hnb : nb ∈ T.bridges) (port : ℕ) :
    T.linkAt nb.2.ofId port = nb.2.ports.lookup port := by
  rw [Topology.linkAt, h.find? hnb, Option.bind_some]

lemma Topology.OfIdsDistinct.ne (h : T.OfIdsDistinct) {name name' : Str} {b b' : Bridge}
    (hb : T.getBridge name = some b) (hb' : T.getBridge name' = some b') (hne : name ≠ name') :
    b.ofId ≠ b'.ofId := by
  intro hid
  have hsame := h.eq (Topology.getBridge_eq_some_iff.mp hb)
    (Topology.getBridge_eq_some_iff.mp hb') hid
  exact hne (Prod.mk.inj hsame).1

lemma Topology.OfIdsDistinct.nodup (h : T.OfIdsDistinct) {nbs : List (Str × Bridge)}
    (hmem : ∀ nb ∈ nbs, T.getBridge nb.1 = some nb.2) (hnames : (nbs.map Prod.fst).Nodup) :
    (nbs.map fun nb => nb.2.ofId).Nodup := by
  refine hnames.of_map.map_on ?_
  intro nb hnb nb' hnb' hid
  exact h.eq (Topology.getBridge_eq_some_iff.mp (hmem nb hnb))
    (Topology.getBridge_eq_some_iff.mp (hmem nb' hnb')) hid

/-- A link has its other end in the port map of the other bridge. -/
lemma Topology.LinksAgree.back (hlinks : T.LinksAgree) (h : T.OfIdsDistinct) {name name' : Str}
    {b b' : Bridge} (hb : T.getBridge name = some b) (hb' : T.getBridge name' = some b') {p k : ℕ}
    (hl : (p, b'.ofId, k) ∈ b.ports) : (k, b.ofId, p) ∈ b'.ports := by
  obtain ⟨nb, hnb, hid, hmem⟩ := hlinks _ (Topology.getBridge_eq_some_iff.mp hb) _ hl
  rwa [h.eq hnb (Topology.getBridge_eq_some_iff.mp hb') hid] at hmem

/-- Links to different bridges have different ports. -/
lemma Bridge.port_ne {b : Bridge} {p p' dst dst' k k' : ℕ} (hl : (p, dst, k) ∈ b.ports)
    (hl' : (p', dst', k') ∈ b.ports) (hne : dst ≠ dst') : Port.num p ≠ .num p' := by
  intro heq
  have hends := List.inj_on_of_nodup_map b.portsNodup hl hl' (Port.num.inj heq)
  exact hne (Prod.mk.inj (Prod.mk.inj hends).2).1

/-- Through a port with a link the packet gets to the other end. -/
lemma transmit_link (h : T.OfIdsDistinct) (hnb : nb ∈ T.bridges) {rings : List ℕ} {inPort : Port}
    {p dst dstPort : ℕ} (hlink : (p, dst, dstPort) ∈ nb.2.ports) (hin : inPort ≠ .num p) :
    transmit T rings nb.2.ofId inPort (.num p) = some (.bridge dst (.num dstPort)) := by
  rw [transmit, if_neg hin, h.linkAt hnb,
    KeyedTable.lookup_eq_some_of_mem nb.2.portsNodup hlink]

/-- Through a daqring port it comes in again. -/
lemma transmit_ring (h : T.OfIdsDistinct) (hnb : nb ∈ T.bridges) {rings : List ℕ} {inPort : Port}
    {p : ℕ} (hnone : ∀ l ∈ nb.2.ports, l.1 ≠ p) (hring : p ∈ rings) (hin : inPort ≠ .num p) :
    transmit T rings nb.2.ofId inPort (.num p) = some (.bridge nb.2.ofId (.num p)) := by
  have hlookup : nb.2.ports.lookup p = none := by
    by_contra hne
    obtain ⟨a, ha⟩ := Option.ne_none_iff_exists'.mp hne
    exact hnone _ (KeyedTable.mem_of_lookup_eq_some ha) rfl
  rw [transmit, if_neg hin, h.linkAt hnb, hlookup]
  simp [hring]

variable {rings : List ℕ} {pick : ℕ → Header → Option Flow} {pk : Packet} {f : Flow} {p : ℕ}

/-- A flow that sends to a link. -/
lemma forward_link (h : T.OfIdsDistinct) {name : Str} {b : Bridge} (hb : T.getBridge name = some b)
    {inPort : Port} {dst dstPort : ℕ} (hpick : pick b.ofId ⟨(b.ofId, inPort), pk⟩ = some f)
    (hout : f.output = some (.num p)) (hlink : (p, dst, dstPort) ∈ b.ports)
    (hin : inPort ≠ .num p) :
    forward T rings pick pk (.bridge b.ofId inPort) = some (.bridge dst (.num dstPort)) := by
  rw [forward, hpick, Option.bind_some, hout, Option.bind_some]
  exact transmit_link h (Topology.getBridge_eq_some_iff.mp hb) hlink hin

/-- A flow that sends back to the input port. -/
lemma forward_back {ofId : ℕ} (hpick : pick ofId ⟨(ofId, .num p), pk⟩ = some f)
    (hout : f.output = some (.num p)) : forward T rings pick pk (.bridge ofId (.num p)) = none := by
  rw [forward, hpick, Option.bind_some, hout, Option.bind_some, transmit, if_pos rfl]

end Links

end DaqSwitch.Odl
