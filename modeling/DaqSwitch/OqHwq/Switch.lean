import DaqSwitch.OqHwq.GroupWalk
import DaqSwitch.OqHwq.Progress
import DaqSwitch.OqHwq.Routes

/-!
# The output-queued switch

After `dp_init` and `dp_configure` all lcores run `main_loop`, each on its rx queues, while routes
are added.  The lcores share the tx queues of the ports and the lookup tables of their sockets.  No
two of them write to the same tx queue, so whatever the order of their steps is, the switch forwards
the packets of an input port as one router would.
-/

namespace DaqSwitch.OqHwq

open Lib Lib.Machine
open VoqHwq (Platform Daqswitch)

variable {α : Type*}

/-! ## What an lcore writes -/

namespace Lcore

/-- From `s` to `t`, the lcore wrote to its own tx queues only. -/
structure OwnQueues (s t : Lcore α) : Prop where
  txQueueId : t.qconf.txQueueId = s.qconf.txQueueId
  accepted : ∀ port queueid, queueid ≠ s.qconf.txQueueId port →
    t.accepted port queueid = s.accepted port queueid

variable {s t u : Lcore α} {m : ℕ → α} {port off n : ℕ}

lemma OwnQueues.refl (s : Lcore α) : OwnQueues s s := ⟨rfl, fun _ _ _ => rfl⟩

lemma OwnQueues.trans (h : OwnQueues s t) (h' : OwnQueues t u) : OwnQueues s u := by
  refine ⟨h'.txQueueId.trans h.txQueueId, ?_⟩
  intro port queueid hne
  rw [h'.accepted port queueid (by rwa [h.txQueueId]), h.accepted port queueid hne]

lemma ownQueues_setQueue (s : Lcore α) (port : ℕ) (queue : List α) (rets : List ℕ) :
    OwnQueues s (s.setQueue port queue rets) := by
  refine ⟨rfl, ?_⟩
  intro p queueid hne
  simp only [setQueue]
  rcases eq_or_ne p port with rfl | hp
  · rw [Function.update_self, Function.update_of_ne hne]
  · rw [Function.update_of_ne hp]

lemma ownQueues_setLen (s : Lcore α) (port len : ℕ) : OwnQueues s (s.setLen port len) :=
  ⟨rfl, fun _ _ _ => rfl⟩

lemma ownQueues_copyIn (s : Lcore α) (port dst : ℕ) (m : ℕ → α) (src n : ℕ) :
    OwnQueues s (s.copyIn port dst m src n) :=
  ⟨rfl, fun _ _ _ => rfl⟩

lemma ownQueues_txAll (h : s.txAll port m off n = some t) : OwnQueues s t := by
  obtain ⟨rets, rfl⟩ := txAll_eq_some h
  exact ownQueues_setQueue s port _ rets

lemma ownQueues_drainPort (h : drainPort port s = some t) : OwnQueues s t := by
  rw [drainPort] at h
  split at h
  · obtain rfl := Option.some_inj.mp h
    exact .refl s
  · obtain ⟨u, hu, rfl⟩ := Option.map_eq_some_iff.mp h
    exact (ownQueues_txAll hu).trans (ownQueues_setLen u port 0)

lemma ownQueues_sendPacketsx4 (h : s.sendPacketsx4 port m off n = some t) : OwnQueues s t := by
  rw [sendPacketsx4] at h
  split at h
  · exact ownQueues_txAll h
  · simp only at h
    generalize (if (s.qconf.txMbufs port).len + n > maxPktBurst then
      maxPktBurst - (s.qconf.txMbufs port).len else n) = k at h
    have hcopy := ownQueues_copyIn s port (s.qconf.txMbufs port).len m off k
    split at h
    · obtain ⟨u, hu, rfl⟩ := Option.map_eq_some_iff.mp h
      exact ((hcopy.trans (ownQueues_txAll hu)).trans (ownQueues_copyIn u port 0 m _ _)).trans
        (ownQueues_setLen _ port _)
    · obtain rfl := Option.some_inj.mp h
      exact hcopy.trans (ownQueues_setLen _ port _)

lemma ownQueues_sendGroup {j : ℕ} (h : sendGroup m j s = some t) : OwnQueues s t := by
  rw [sendGroup] at h
  split at h
  · exact ownQueues_sendPacketsx4 h
  · obtain rfl := Option.some_inj.mp h
    exact ⟨rfl, fun _ _ _ => rfl⟩

lemma ownQueues_sendGroups {nbRx fuel j : ℕ} (h : sendGroups m nbRx fuel j s = some t) :
    OwnQueues s t := by
  rw [sendGroups_eq_walk] at h
  obtain ⟨w, -, hrun⟩ := Option.bind_eq_some_iff.mp h
  exact run_rel OwnQueues.refl (fun _ _ _ => OwnQueues.trans)
    (fun _ _ _ _ => ownQueues_sendGroup) hrun

lemma ownQueues_rxQueue {rteMaxEthports : Fin (2 ^ 8)} {b : Burst α rteMaxEthports}
    (h : rxQueue b s = some t) : OwnQueues s t := by
  rw [rxQueue] at h
  split at h
  · obtain rfl := Option.some_inj.mp h
    exact .refl s
  · obtain ⟨htx, haccepted⟩ := ownQueues_sendGroups h
    exact ⟨htx, haccepted⟩

end Lcore

/-! ## A burst with its lookups -/

/-- A packet with `port` of its mbuf, where it was received. -/
abbrev Arrival := ℕ × Mbuf

/-- The answer of `rte_eth_rx_burst`. -/
structure RxBurst where
  nbRx : ℕ
  pktsBurst : ℕ → Mbuf
  nbRx_le : nbRx ≤ maxPktBurst

section Lookup

variable {hdr : BitVec 64} {lpm : Lpm} {portid : ℕ}

/-- The lookups and the grouping for a burst: four packets at once, and the last ones one by
one. -/
def lookupBurst (hdr : BitVec 64) (lpm : Lpm) (portid : ℕ) (b : RxBurst) (s : Lcore Arrival) :
    Group :=
  let k := b.nbRx / fwdstep * fwdstep
  let d := (List.range (b.nbRx / fwdstep)).foldl
    (lookupGroup hdr lpm b.pktsBurst (BitVec.ofNat 8 portid)) s.dstPort
  (Group.tail fun j => processPacket hdr lpm (b.pktsBurst j) (BitVec.ofNat 8 portid))^[b.nbRx %
    fwdstep] (groupx4 d s.pnum k)

/-- The body of the loop over the rx queues. -/
def rxBurst (hdr : BitVec 64) (lpm : Lpm) (portid : ℕ) (b : RxBurst) (s : Lcore Arrival) :
    Option (Lcore Arrival) :=
  if b.nbRx = 0 then some s
  else
    let g := lookupBurst hdr lpm portid b s
    Lcore.sendGroups (fun j => (portid, b.pktsBurst j)) b.nbRx b.nbRx 0
      { s with dstPort := g.dstPort, pnum := g.pnum }

/-- A burst with the ports that the lookup of one packet gives. -/
def RxBurst.toBurst {rteMaxEthports : Fin (2 ^ 8)} (hdr : BitVec 64) (lpm : Lpm) (portid : ℕ)
    (b : RxBurst) (hdst : ∀ j < b.nbRx,
      (processPacket hdr lpm (b.pktsBurst j) (BitVec.ofNat 8 portid)).toNat < rteMaxEthports) :
    Burst Arrival rteMaxEthports where
  nbRx := b.nbRx
  pktsBurst := fun j => (portid, b.pktsBurst j)
  dst := fun j => processPacket hdr lpm (b.pktsBurst j) (BitVec.ofNat 8 portid)
  nbRx_le := b.nbRx_le
  dst_lt := hdst

/-- The body does what the lookup of each packet alone leads to. -/
lemma rxBurst_eq_rxQueue {R : Fin (2 ^ 8)} (hlpm : lpm.AgreesX4) (b : RxBurst)
    (hdst : ∀ j < b.nbRx,
      (processPacket hdr lpm (b.pktsBurst j) (BitVec.ofNat 8 portid)).toNat < R)
    (s : Lcore Arrival) :
    rxBurst hdr lpm portid b s = Lcore.rxQueue (b.toBurst hdr lpm portid hdst) s := by
  have hgroup : lookupBurst hdr lpm portid b s = groupPorts
      (fun j => processPacket hdr lpm (b.pktsBurst j) (BitVec.ofNat 8 portid)) b.nbRx s.dstPort
      s.pnum := by
    rw [lookupBurst, groupPorts, lookupGroups_eq hlpm]
  rw [rxBurst, hgroup]
  rfl

end Lookup

/-! ## The switch -/

/-- The lcores, what the tx queues have accepted, by port and queue, and the tables.  The lcores'
own records of the tx queues are not used. -/
structure Switch where
  lcore : ℕ → Lcore Arrival
  accepted : ℕ → ℕ → List Arrival
  tables : Tables

/-- What happens: an lcore drains the buffer of a port, or handles a burst of entry `i` of its
`rx_queue_list`, with the return values of `rte_eth_tx_burst`; or a route is added.  `main_loop`
takes the first two in a fixed order; here they may come in any. -/
inductive Action
  | drain (l portid : ℕ) (txRets : List ℕ)
  | rx (l i : ℕ) (b : RxBurst) (txRets : List ℕ)
  | addRule (c : AddCall)

namespace Switch

/-- An lcore with the tx queues as they are. -/
def enter (s : Switch) (l : ℕ) (txRets : List ℕ) : Lcore Arrival :=
  { s.lcore l with accepted := s.accepted, txRets := txRets }

def leave (s : Switch) (l : ℕ) (t : Lcore Arrival) : Switch :=
  { s with lcore := Function.update s.lcore l t, accepted := t.accepted }

/-- An action.  An lcore without rx queues does nothing, and a lookup of an lcore without a table
has no result. -/
def step (lib : LpmLibrary) (hdr : BitVec 64) (conf : Queues) : Action → Switch → Option Switch
  | .drain l portid txRets, s =>
    if (conf l).rxQueueList = [] then none
    else (Lcore.drainPort portid (s.enter l txRets)).map (s.leave l)
  | .rx l i b txRets, s =>
    (conf l).rxQueueList[i]?.bind fun q => (s.tables.lpm l).bind fun lpm =>
      (rxBurst hdr lpm q.portId b (s.enter l txRets)).map (s.leave l)
  | .addRule c, s => some { s with tables := (s.tables.addIpv4Rule lib c.rets c.rule).2 }

/-- After `dp_init` and `dp_configure`.  The local arrays of `main_loop` and the entries of the
buffers hold anything. -/
def init (conf : Queues) (tables : Tables) (mTable : ℕ → ℕ → ℕ → Arrival)
    (dstPort : ℕ → ℕ → BitVec 16) (pnum : ℕ → ℕ → ℕ) : Switch where
  lcore := fun l => Lcore.init (conf l).rxQueueList.length (conf l).txQueueId (mTable l)
    (dstPort l) (pnum l)
  accepted := fun _ _ => []
  tables := tables

/-- What an lcore was given for a port. -/
def output (s : Switch) (l port : ℕ) : List Arrival := (s.enter l []).output port

end Switch

/-! ## The router -/

/-- A packet that was forwarded. -/
structure Routed where
  portIn : ℕ
  pkt : Mbuf
  portOut : ℕ

/-- What the switch is for: the rules for the packets of each socket, and the packets in the order
in which they came in. -/
structure Router where
  rules : ℕ → List Rule
  routed : List Routed

/-- The output port of a packet: that of the rule for its destination, or else the port where it
came in. -/
def destination (hdr : BitVec 64) (rules : List Rule) (portid : ℕ) (pkt : Mbuf) : ℕ :=
  if pkt.olFlags &&& hdr ≠ 0 then
    (((route rules (bswap32 pkt.dstAddr)).map BitVec.toNat).getD (portid % 2 ^ 8))
  else portid % 2 ^ 8

namespace Router

def init : Router := ⟨fun _ => [], []⟩

/-- The packets of a burst, routed. -/
def routes (hdr : BitVec 64) (rules : List Rule) (portid : ℕ) (b : RxBurst) : List Routed :=
  (window b.pktsBurst 0 b.nbRx).map fun pkt => ⟨portid, pkt, destination hdr rules portid pkt⟩

/-- An action, for the router: a burst is routed by the rules of the socket, and a rule reaches the
sockets whose tables take it. -/
def step (hdr : BitVec 64) (conf : Queues) (socket : ℕ → ℕ) (present : ℕ → Bool) (r : Router) :
    Action → Router
  | .drain _ _ _ => r
  | .rx l i b _ =>
    match (conf l).rxQueueList[i]? with
    | some q => { r with routed := r.routed ++ routes hdr (r.rules (socket l)) q.portId b }
    | none => r
  | .addRule c =>
    { r with rules := fun s => if takes present c.rets s then r.rules s ++ [c.rule] else r.rules s }

/-- The packets from one port to another, in order. -/
def sent (r : Router) (portIn portOut : ℕ) : List Mbuf :=
  (r.routed.filter fun p => p.portIn = portIn ∧ p.portOut = portOut).map Routed.pkt

end Router

/-! ## The switch forwards as the router -/

section Forwards

variable {lib : LpmLibrary} {hdr : BitVec 64} {P : Platform} {numaOn : Bool} {conf : Queues}
  {d' : Daqswitch} {tables : Tables} {s t : Switch} {r : Router}

/-- The lookup of a packet, in a table that finds what the rules give. -/
lemma toNat_processPacket {lpm : Lpm} {rules : List Rule}
    (hlookup : ∀ ip, lpm.lookup ip = route rules ip) (portid : ℕ) (pkt : Mbuf) :
    (processPacket hdr lpm pkt (BitVec.ofNat 8 portid)).toNat =
      destination hdr rules portid pkt := by
  have hset (hop : BitVec 8) : (hop.setWidth 16).toNat = hop.toNat := by
    rw [BitVec.toNat_setWidth]
    exact Nat.mod_eq_of_lt (hop.isLt.trans (by decide))
  rw [processPacket, getDstPort, destination, hlookup]
  by_cases hipv4 : pkt.olFlags &&& hdr ≠ 0
  · rw [if_pos hipv4, if_pos hipv4, hset]
    cases route rules (bswap32 pkt.dstAddr) with
    | none => exact BitVec.toNat_ofNat ..
    | some hop => rfl
  · rw [if_neg hipv4, if_neg hipv4, hset]
    exact BitVec.toNat_ofNat ..

/-- The lcore polls the port. -/
def polls (conf : Queues) (l portid : ℕ) : Bool := (conf l).rxQueueList.contains ⟨portid, 0⟩

/-- What the switch has in common with the router. -/
structure Forwards (P : Platform) (conf : Queues) (tables : Tables) (s : Switch) (r : Router) :
    Prop where
  txQueueId : ∀ l, (s.lcore l).qconf.txQueueId = (conf l).txQueueId
  buffered : ∀ l, (s.lcore l).Buffered
  present : s.tables.present = tables.present
  lcoreLookup : s.tables.lcoreLookup = tables.lcoreLookup
  lookup : ∀ socketid lpm, s.tables.ipv4LookupStruct socketid = some lpm →
    lpm.AgreesX4 ∧ ∀ ip, lpm.lookup ip = route (r.rules socketid) ip
  output : ∀ l ∈ P.lcores, ∀ portid < (P.nbPorts : ℕ), s.output l portid =
    (r.routed.filter fun p => polls conf l p.portIn ∧ p.portOut = portid).map fun p =>
      (p.portIn, p.pkt)

/-- An lcore's part of a step: it was given `xs`, and wrote to its own tx queues. -/
lemma Forwards.leave {l : ℕ} {txRets : List ℕ} {u : Lcore Arrival} {xs : List (ℕ × Arrival)}
    (routed : List Routed) (hown : Owned P conf d') (h : Forwards P conf tables s r)
    (hgains : Lcore.Gains (s.enter l txRets) xs u)
    (hqueues : Lcore.OwnQueues (s.enter l txRets) u)
    (hself : ∀ portid, demux xs portid =
      (routed.filter fun p => polls conf l p.portIn ∧ p.portOut = portid).map fun p =>
        (p.portIn, p.pkt))
    (hother : ∀ l' ∈ P.lcores, l' ≠ l → ∀ p ∈ routed, polls conf l' p.portIn = false)
    (hl : l ∈ P.lcores) :
    Forwards P conf tables (s.leave l u) { r with routed := r.routed ++ routed } := by
  have htx : u.qconf.txQueueId = (conf l).txQueueId := hgains.txQueueId.trans (h.txQueueId l)
  refine ⟨?_, ?_, h.present, h.lcoreLookup, h.lookup, ?_⟩
  · exact forall_update (T := fun l (y : Lcore Arrival) =>
      y.qconf.txQueueId = (conf l).txQueueId) h.txQueueId htx
  · exact forall_update (T := fun _ (y : Lcore Arrival) => y.Buffered) h.buffered
      (hgains.buffered (h.buffered l))
  · intro l' hl' portid hport
    rw [List.filter_append, List.map_append, ← h.output l' hl' portid hport]
    rcases eq_or_ne l' l with rfl | hne
    · rw [← hself portid]
      have hout := hgains.output portid
      have hsame : (s.leave l' u).output l' portid = u.output portid := by
        simp [Switch.output, Switch.enter, Switch.leave, Lcore.output]
      rw [hsame, hout]
      rfl
    · -- another lcore writes to the other tx queues of the port
      have hnil : routed.filter (fun p => polls conf l' p.portIn ∧ p.portOut = portid) = [] := by
        refine List.filter_eq_nil_iff.mpr ?_
        intro p hp
        simp [hother l' hl' hne p hp]
      have hqueue : (conf l').txQueueId portid ≠ (s.enter l txRets).qconf.txQueueId portid := by
        intro heq
        rw [show (s.enter l txRets).qconf.txQueueId = (conf l).txQueueId from h.txQueueId l] at heq
        exact hne ((hown.tx_unique portid hport _ (hown.tx_lt portid hport l hl)).unique
          ⟨hl', heq⟩ ⟨hl, rfl⟩)
      have haccepted := hqueues.accepted portid _ hqueue
      rw [hnil, List.map_nil, List.append_nil]
      simp only [Switch.output, Switch.enter, Switch.leave, Lcore.output,
        Function.update_of_ne hne, h.txQueueId l']
      exact congrArg (· ++ _) haccepted

lemma Forwards.drain {l portid : ℕ} {txRets : List ℕ} (hown : Owned P conf d')
    (h : Forwards P conf tables s r)
    (hstep : Switch.step lib hdr conf (.drain l portid txRets) s = some t) :
    Forwards P conf tables t r := by
  rw [Switch.step] at hstep
  split at hstep
  · cases hstep
  · next hne =>
    obtain ⟨u, hu, rfl⟩ := Option.map_eq_some_iff.mp hstep
    have hleave := h.leave [] hown (Lcore.drainPort_gains hu) (Lcore.ownQueues_drainPort hu)
      (fun _ => rfl) (fun _ _ _ => nofun) (hown.rxWorker l hne).1
    rwa [List.append_nil] at hleave

/-- The entries of `rx_queue_list` are for the one rx queue of a port. -/
lemma Owned.queueId_eq (hown : Owned P conf d') {l i : ℕ} {q : LcoreRxQueue}
    (hq : (conf l).rxQueueList[i]? = some q) : q.portId < P.nbPorts ∧ q = ⟨q.portId, 0⟩ := by
  obtain ⟨hport, hlt⟩ := hown.rx_lt l q (List.mem_of_getElem? hq)
  rw [hown.nbRxq _ hport, Nat.lt_one_iff] at hlt
  exact ⟨hport, by rw [← hlt]⟩

lemma polls_of_getElem? (hown : Owned P conf d') {l i : ℕ} {q : LcoreRxQueue}
    (hq : (conf l).rxQueueList[i]? = some q) : polls conf l q.portId = true := by
  obtain ⟨-, heq⟩ := hown.queueId_eq hq
  rw [polls, List.contains_iff_mem, ← heq]
  exact List.mem_of_getElem? hq

/-- A port is polled by one lcore. -/
lemma polls_unique (hown : Owned P conf d') {l l' portid : ℕ} (hport : portid < P.nbPorts)
    (h : polls conf l portid = true) (h' : polls conf l' portid = true) : l' = l := by
  rw [polls, List.contains_iff_mem] at h h'
  obtain ⟨i, hi⟩ := List.mem_iff_getElem?.mp h
  obtain ⟨i', hi'⟩ := List.mem_iff_getElem?.mp h'
  have hunique := hown.rx_unique portid hport 0 (by rw [hown.nbRxq _ hport]; exact Nat.one_pos)
  have hplace : (l', i') = (l, i) := hunique.unique hi' hi
  exact congrArg Prod.fst hplace

/-- A destination is the port of a rule or the port where the packet came in. -/
lemma destination_lt {n : ℕ} {rules : List Rule} {portid : ℕ} (hport : portid < n)
    (hrules : ∀ rule ∈ rules, rule.portOutId.toNat < n) (pkt : Mbuf) :
    destination hdr rules portid pkt < n := by
  have hin : portid % 2 ^ 8 < n := (Nat.mod_le _ _).trans_lt hport
  have hroute : ∀ hop, route rules (bswap32 pkt.dstAddr) = some hop → hop.toNat < n := by
    rw [route]
    refine List.foldlRecOn (motive := fun found : Option (BitVec 8) =>
      ∀ hop, found = some hop → hop.toNat < n) rules _ (by simp) ?_
    intro found hfound rule hrule hop hhop
    split at hhop
    · obtain rfl := Option.some_inj.mp hhop
      exact hrules rule hrule
    · exact hfound hop hhop
  rw [destination]
  split
  · cases hhop : route rules (bswap32 pkt.dstAddr) with
    | none => exact hin
    | some hop => exact hroute hop hhop
  · exact hin

lemma Forwards.rx {rteMaxEthports : Fin (2 ^ 8)} {l i : ℕ} {b : RxBurst} {txRets : List ℕ}
    (hown : Owned P conf d') (hready : TablesReady lib P numaOn tables)
    (hports : (P.nbPorts : ℕ) ≤ rteMaxEthports)
    (hrules : ∀ s, ∀ rule ∈ r.rules s, rule.portOutId.toNat < rteMaxEthports)
    (h : Forwards P conf tables s r)
    (hstep : Switch.step lib hdr conf (.rx l i b txRets) s = some t) :
    Forwards P conf tables t
      (r.step hdr conf (socketId P numaOn) tables.present (.rx l i b txRets)) := by
  obtain ⟨q, hq, hstep⟩ := Option.bind_eq_some_iff.mp hstep
  obtain ⟨lpm, hlpm, hstep⟩ := Option.bind_eq_some_iff.mp hstep
  obtain ⟨u, hu, rfl⟩ := Option.map_eq_some_iff.mp hstep
  obtain ⟨hport, -⟩ := hown.queueId_eq hq
  have hl : l ∈ P.lcores :=
    (hown.rxWorker l (List.ne_nil_of_mem (List.mem_of_getElem? hq))).1
  -- the lcore looks up in the table of its socket
  obtain ⟨socketid, hsocketid, hlpm⟩ := Option.bind_eq_some_iff.mp hlpm
  rw [h.lcoreLookup] at hsocketid
  obtain ⟨-, rfl, -⟩ := hready.lcoreLookup l socketid hsocketid
  obtain ⟨hx4, hlookup⟩ := h.lookup _ lpm hlpm
  have hdst (j : ℕ) : (processPacket hdr lpm (b.pktsBurst j) (BitVec.ofNat 8 q.portId)).toNat =
      destination hdr (r.rules (socketId P numaOn l)) q.portId (b.pktsBurst j) :=
    toNat_processPacket hlookup q.portId (b.pktsBurst j)
  have hlt : ∀ j < b.nbRx, (processPacket hdr lpm (b.pktsBurst j)
      (BitVec.ofNat 8 q.portId)).toNat < rteMaxEthports := by
    intro j _
    rw [hdst]
    exact destination_lt (hport.trans_le hports) (hrules _) _
  rw [rxBurst_eq_rxQueue hx4 b hlt] at hu
  have hgains := Lcore.rxQueue_gains (s := s.enter l txRets) (h.buffered l) hu
  have hleave := h.leave (Router.routes hdr (r.rules (socketId P numaOn l)) q.portId b) hown
    hgains (Lcore.ownQueues_rxQueue hu) ?_ ?_ hl
  · rw [Router.step, hq]
    exact hleave
  · intro portid
    have hpolls := polls_of_getElem? hown hq
    rw [Burst.packets, Router.routes, demux, map_window, window, window, List.filter_map,
      List.filter_map, List.map_map, List.map_map]
    simp only [RxBurst.toBurst, hdst, Function.comp_def, hpolls, true_and]
  · intro l' hl' hne p hp
    obtain ⟨pkt, -, rfl⟩ := List.mem_map.mp hp
    by_contra hpolls
    rw [Bool.not_eq_false] at hpolls
    exact hne (polls_unique hown hport (polls_of_getElem? hown hq) hpolls)

/-- A rule reaches the tables that take it. -/
lemma Forwards.addRule {c : AddCall} (hlib : lib.Lawful) (hready : TablesReady lib P numaOn tables)
    (h : Forwards P conf tables s r) (hstep : Switch.step lib hdr conf (.addRule c) s = some t) :
    Forwards P conf tables t
      (r.step hdr conf (socketId P numaOn) tables.present (.addRule c)) := by
  obtain rfl := Option.some_inj.mp hstep
  refine ⟨h.txQueueId, h.buffered, ?_, ?_, ?_, h.output⟩
  · exact (addIpv4Rule_present lib c.rets c.rule s.tables).trans h.present
  · exact h.lcoreLookup
  · intro socketid lpm hlpm
    rw [addIpv4Rule_ipv4LookupStruct, h.present] at hlpm
    by_cases htakes : takes tables.present c.rets socketid = true
    · have hrules : (r.step hdr conf (socketId P numaOn) tables.present (.addRule c)).rules
          socketid = r.rules socketid ++ [c.rule] := if_pos htakes
      rw [hrules]
      split at hlpm
      · obtain ⟨old, hold, rfl⟩ := Option.map_eq_some_iff.mp hlpm
        obtain ⟨hx4, hlookup⟩ := h.lookup socketid old hold
        refine ⟨hlib.addX4 _ _ _ hx4, ?_⟩
        intro ip
        rw [hlib.add, hlookup, route_append_singleton]
      · next hout =>
        -- a table is on a socket in the array
        have hpresent : tables.present socketid = true := by
          rw [← h.present, Tables.present, hlpm]
          rfl
        exact absurd ⟨hready.lt_nbSockets hpresent, htakes⟩ hout
    · have hrules : (r.step hdr conf (socketId P numaOn) tables.present (.addRule c)).rules
          socketid = r.rules socketid := if_neg htakes
      rw [if_neg fun hboth => htakes hboth.2] at hlpm
      rw [hrules]
      exact h.lookup socketid lpm hlpm

lemma forwards_init (hlib : lib.Lawful) (hready : TablesReady lib P numaOn tables)
    (mTable : ℕ → ℕ → ℕ → Arrival) (dstPort : ℕ → ℕ → BitVec 16) (pnum : ℕ → ℕ → ℕ) :
    Forwards P conf tables (Switch.init conf tables mTable dstPort pnum) Router.init := by
  refine ⟨fun _ => rfl, fun _ => Lcore.buffered_init _ _ _ _ _, rfl, rfl, ?_, fun _ _ _ _ => rfl⟩
  intro socketid lpm hlpm
  obtain rfl := (hready.table socketid lpm hlpm).2
  exact ⟨hlib.createX4, hlib.create⟩

/-- The router after some actions. -/
def Router.after (hdr : BitVec 64) (conf : Queues) (socket : ℕ → ℕ) (present : ℕ → Bool)
    (acts : List Action) : Router :=
  acts.foldl (Router.step hdr conf socket present) Router.init

/-- The rules of the router are those that were added. -/
lemma Router.step_rules_lt {n : ℕ} {a : Action} {socket : ℕ → ℕ} {present : ℕ → Bool}
    (ha : ∀ c, a = .addRule c → c.rule.portOutId.toNat < n)
    (h : ∀ s, ∀ rule ∈ r.rules s, rule.portOutId.toNat < n) :
    ∀ s, ∀ rule ∈ (r.step hdr conf socket present a).rules s, rule.portOutId.toNat < n := by
  intro s rule hrule
  cases a with
  | drain l portid txRets => exact h s rule hrule
  | rx l i b txRets =>
    rw [Router.step] at hrule
    split at hrule
    · exact h s rule hrule
    · exact h s rule hrule
  | addRule c =>
    simp only [Router.step] at hrule
    split at hrule
    · rcases List.mem_append.mp hrule with hrule | hrule
      · exact h s rule hrule
      · obtain rfl := List.mem_singleton.mp hrule
        exact ha c rfl
    · exact h s rule hrule

/-- After one action of both, the switch forwards what the router does. -/
lemma Forwards.step {rteMaxEthports : Fin (2 ^ 8)} {a : Action} (hlib : lib.Lawful)
    (hown : Owned P conf d') (hready : TablesReady lib P numaOn tables)
    (hports : (P.nbPorts : ℕ) ≤ rteMaxEthports)
    (hrules : ∀ s, ∀ rule ∈ r.rules s, rule.portOutId.toNat < rteMaxEthports)
    (h : Forwards P conf tables s r) (hstep : Switch.step lib hdr conf a s = some t) :
    Forwards P conf tables t (r.step hdr conf (socketId P numaOn) tables.present a) := by
  cases a with
  | drain l portid txRets => exact h.drain hown hstep
  | rx l i b txRets => exact h.rx hown hready hports hrules hstep
  | addRule c => exact h.addRule hlib hready hstep

/-- After a whole run, the switch forwards what the router does after the same actions. -/
lemma forwards_of_run {rteMaxEthports : Fin (2 ^ 8)} {acts : List Action} (hlib : lib.Lawful)
    (hown : Owned P conf d') (hready : TablesReady lib P numaOn tables)
    (hports : (P.nbPorts : ℕ) ≤ rteMaxEthports)
    (hrules : ∀ c, Action.addRule c ∈ acts → c.rule.portOutId.toNat < (rteMaxEthports : ℕ))
    {mTable : ℕ → ℕ → ℕ → Arrival} {dstPort : ℕ → ℕ → BitVec 16} {pnum : ℕ → ℕ → ℕ}
    (hrun : run (Switch.step lib hdr conf) acts (Switch.init conf tables mTable dstPort pnum) =
      some t) :
    Forwards P conf tables t
      (Router.after hdr conf (socketId P numaOn) tables.present acts) := by
  have hstart : Forwards P conf tables (Switch.init conf tables mTable dstPort pnum)
      (Router.after hdr conf (socketId P numaOn) tables.present []) ∧
      ∀ s, ∀ rule ∈ (Router.after hdr conf (socketId P numaOn) tables.present []).rules s,
        rule.portOutId.toNat < rteMaxEthports :=
    ⟨forwards_init hlib hready mTable dstPort pnum, fun _ _ hrule => absurd hrule (by
      simp [Router.after, Router.init])⟩
  refine (run_history (I := fun past s => Forwards P conf tables s
      (Router.after hdr conf (socketId P numaOn) tables.present past) ∧
    ∀ s, ∀ rule ∈ (Router.after hdr conf (socketId P numaOn) tables.present past).rules s,
      rule.portOutId.toNat < rteMaxEthports) ?_ hrun hstart).1
  rintro past a ha u v huv ⟨hu, hbound⟩
  rw [Router.after, List.foldl_append, ← Router.after, List.foldl_cons, List.foldl_nil]
  exact ⟨hu.step hlib hown hready hports hbound huv,
    Router.step_rules_lt (fun c hc => hrules c (hc ▸ ha)) hbound⟩

/-- The packets from one port in the output of an lcore. -/
lemma Forwards.demux_output (h : Forwards P conf tables s r) {l o : ℕ} (hl : l ∈ P.lcores)
    (ho : o < P.nbPorts) (i : ℕ) :
    demux (s.output l o) i = if polls conf l i then r.sent i o else [] := by
  rw [h.output l hl o ho, demux, List.filter_map, List.filter_filter, List.map_map, Router.sent]
  split
  · next hpolls =>
    congr 1
    refine List.filter_congr ?_
    intro p _
    by_cases hi : p.portIn = i
    · simp [hi, hpolls]
    · simp [hi]
  · next hpolls =>
    rw [List.map_eq_nil_iff, List.filter_eq_nil_iff]
    intro p _
    by_cases hi : p.portIn = i
    · simp [hi, hpolls]
    · simp [hi]

end Forwards

/-- **The switch is a router.**  After `dp_init` and `dp_configure`, in whatever order the lcores
drain their buffers and handle their bursts and routes are added, and whatever the return values of
the network card are: the packets from port `i` are handled by one lcore, and for each port `o` this
lcore's tx queue has accepted, or its buffer holds, exactly the packets that the router sends from
`i` to `o`, in their order; no other lcore has any of them. -/
theorem switch_forwards {lib : LpmLibrary} (hlib : lib.Lawful) {hdr : BitVec 64} {P : Platform}
    {numaOn : Bool} {d d' : Daqswitch} {conf : Queues} (hinit : dpInit P d = some (conf, d'))
    {created : ℕ → ℕ → Bool} {tables : Tables}
    (hconf : dpConfigure lib P numaOn created = some tables) {rteMaxEthports : Fin (2 ^ 8)}
    (hports : (P.nbPorts : ℕ) ≤ rteMaxEthports) {acts : List Action}
    (hrules : ∀ c, Action.addRule c ∈ acts → c.rule.portOutId.toNat < (rteMaxEthports : ℕ))
    {mTable : ℕ → ℕ → ℕ → Arrival} {dstPort : ℕ → ℕ → BitVec 16} {pnum : ℕ → ℕ → ℕ} {t : Switch}
    (hrun : run (Switch.step lib hdr conf) acts (Switch.init conf tables mTable dstPort pnum) =
      some t) :
    ∀ i < (P.nbPorts : ℕ), ∃ l ∈ P.lcores, ∀ o < (P.nbPorts : ℕ),
      demux (t.accepted o ((conf l).txQueueId o)) i ++
          demux (window ((t.lcore l).qconf.txMbufs o).mTable 0
            ((t.lcore l).qconf.txMbufs o).len) i =
        (Router.after hdr conf (socketId P numaOn) tables.present acts).sent i o ∧
      ((t.lcore l).qconf.txMbufs o).len < maxPktBurst ∧
      ∀ l' ∈ P.lcores, l' ≠ l → demux (t.output l' o) i = [] := by
  have hown := owned_of_dpInit hinit
  have hforwards := forwards_of_run hlib hown (tablesReady_of_dpConfigure hconf) hports hrules hrun
  intro i hi
  obtain ⟨⟨l, k⟩, hk, -⟩ := hown.rx_unique i hi 0 (by rw [hown.nbRxq i hi]; exact Nat.one_pos)
  have hpolls : polls conf l i = true := polls_of_getElem? hown hk
  have hl := (hown.rxWorker l (List.ne_nil_of_mem (List.mem_of_getElem? hk))).1
  refine ⟨l, hl, ?_⟩
  intro o ho
  refine ⟨?_, hforwards.buffered l o, ?_⟩
  · have hout := hforwards.demux_output hl ho i
    rwa [if_pos hpolls, Switch.output, Lcore.output, demux_append,
      show (t.enter l []).qconf.txQueueId = (conf l).txQueueId from hforwards.txQueueId l] at hout
  · intro l' hl' hne
    rw [hforwards.demux_output hl' ho, if_neg]
    intro hpolls'
    exact hne (polls_unique hown hi hpolls hpolls')

/-- A route to port 2, two packets for it that come in on port 0, and a drain. -/
def smallActs : List Action :=
  [.addRule ⟨⟨0x0a000005, 2⟩, fun _ => 0⟩,
    .rx 1 0 ⟨2, fun j => packetFor 0x22 (if j = 0 then 5 else 6), by decide⟩ [],
    .drain 1 2 [1]]

/-- The small switch before its first action. -/
def smallSwitch (conf : Queues) (tables : Tables) : Switch :=
  Switch.init conf tables (fun _ _ _ => (0, packetFor 0 0)) (fun _ _ => 0) fun _ _ => 0

lemma smallActs_isSome : (do
    let (conf, _) ← dpInit twoWorkers ⟨false, fun _ => ⟨1, 1, 512, 512, none⟩⟩
    let tables ← dpConfigure plainLpm twoWorkers true fun _ _ => true
    run (Switch.step plainLpm 0x20 conf) smallActs (smallSwitch conf tables)).isSome = true := by
  decide +kernel

/-- The theorem for a run of a small switch. -/
theorem switch_forwards_small : ∃ conf d' tables t,
    dpInit twoWorkers ⟨false, fun _ => ⟨1, 1, 512, 512, none⟩⟩ = some (conf, d') ∧
    dpConfigure plainLpm twoWorkers true (fun _ _ => true) = some tables ∧
    run (Switch.step plainLpm 0x20 conf) smallActs (smallSwitch conf tables) = some t ∧
    ∀ i < 4, ∃ l ∈ twoWorkers.lcores, ∀ o < 4,
      demux (t.accepted o ((conf l).txQueueId o)) i ++
          demux (window ((t.lcore l).qconf.txMbufs o).mTable 0
            ((t.lcore l).qconf.txMbufs o).len) i =
        (Router.after 0x20 conf (socketId twoWorkers true) tables.present smallActs).sent i o ∧
      ((t.lcore l).qconf.txMbufs o).len < maxPktBurst ∧
      ∀ l' ∈ twoWorkers.lcores, l' ≠ l → demux (t.output l' o) i = [] := by
  obtain ⟨t, ht⟩ := Option.isSome_iff_exists.mp smallActs_isSome
  obtain ⟨⟨conf, d'⟩, hinit, ht⟩ := Option.bind_eq_some_iff.mp ht
  obtain ⟨tables, hconf, hrun⟩ := Option.bind_eq_some_iff.mp ht
  have hrules : ∀ c, Action.addRule c ∈ smallActs →
      c.rule.portOutId.toNat < ((4 : Fin (2 ^ 8)) : ℕ) := by
    intro c hc
    simp only [smallActs, List.mem_cons, Action.addRule.injEq, reduceCtorEq,
      List.not_mem_nil, or_false] at hc
    subst hc
    decide
  have hports : (twoWorkers.nbPorts : ℕ) ≤ ((4 : Fin (2 ^ 8)) : ℕ) := by decide
  exact ⟨conf, d', tables, t, hinit, hconf, hrun,
    switch_forwards plainLpm_lawful hinit hconf hports hrules hrun⟩

/-! ## Every action ends -/

/-- An action that can take place: the lcore has the rx queue, or something to do, and each call of
the transmit function accepts a packet. -/
def Action.Possible (conf : Queues) : Action → Prop
  | .drain l _ txRets =>
    (conf l).rxQueueList ≠ [] ∧ (∀ ret ∈ txRets, 0 < ret) ∧ maxPktBurst ≤ txRets.length
  | .rx l i _ txRets =>
    i < (conf l).rxQueueList.length ∧ (∀ ret ∈ txRets, 0 < ret) ∧
      maxPktBurst * maxPktBurst ≤ txRets.length
  | .addRule _ => True

section Total

variable {lib : LpmLibrary} {hdr : BitVec 64} {P : Platform} {numaOn : Bool} {conf : Queues}
  {d' : Daqswitch} {tables : Tables} {s : Switch} {r : Router}

/-- A possible action runs to its end. -/
lemma Forwards.step_total {rteMaxEthports : Fin (2 ^ 8)} {a : Action} (hown : Owned P conf d')
    (htables : ∀ l ∈ P.lcores, (tables.lpm l).isSome = true)
    (hports : (P.nbPorts : ℕ) ≤ rteMaxEthports)
    (hrules : ∀ s, ∀ rule ∈ r.rules s, rule.portOutId.toNat < rteMaxEthports)
    (h : Forwards P conf tables s r) (ha : a.Possible conf) :
    ∃ t, Switch.step lib hdr conf a s = some t := by
  cases a with
  | addRule c => exact ⟨_, rfl⟩
  | drain l portid txRets =>
    obtain ⟨hne, hpos, hlen⟩ := ha
    obtain ⟨u, hu, -⟩ := Lcore.drainPort_total (s := s.enter l txRets) (c := 0) (h.buffered l)
      ⟨hpos, hlen⟩ portid
    exact ⟨s.leave l u, by rw [Switch.step, if_neg hne, hu]; rfl⟩
  | rx l i b txRets =>
    obtain ⟨hi, hpos, hlen⟩ := ha
    have hq := List.getElem?_eq_getElem hi
    obtain ⟨hport, -⟩ := hown.queueId_eq hq
    have hl : l ∈ P.lcores := (hown.rxWorker l (List.ne_nil_of_length_pos (by omega))).1
    obtain ⟨lpm₀, hlpm₀⟩ := Option.isSome_iff_exists.mp (htables l hl)
    obtain ⟨socketid, hsocketid, hlpm₀⟩ := Option.bind_eq_some_iff.mp hlpm₀
    obtain ⟨lpm, hlpm⟩ : ∃ lpm, s.tables.ipv4LookupStruct socketid = some lpm := by
      refine Option.isSome_iff_exists.mp ?_
      rw [← Tables.present, h.present, Tables.present, hlpm₀]
      rfl
    have hfound : s.tables.lpm l = some lpm := by
      rw [Tables.lpm, h.lcoreLookup, hsocketid]
      exact hlpm
    obtain ⟨hx4, hlookup⟩ := h.lookup socketid lpm hlpm
    have hdst : ∀ j < b.nbRx, (processPacket hdr lpm (b.pktsBurst j)
        (BitVec.ofNat 8 ((conf l).rxQueueList[i]).portId)).toNat < rteMaxEthports := by
      intro j _
      rw [toNat_processPacket hlookup]
      exact destination_lt (hport.trans_le hports) (hrules _) _
    obtain ⟨u, hu, -⟩ := Lcore.rxQueue_total (s := s.enter l txRets) (c := 0)
      (b.toBurst hdr lpm _ hdst) (h.buffered l) ⟨hpos, hlen⟩
    refine ⟨s.leave l u, ?_⟩
    rw [Switch.step, hq, Option.bind_some, hfound, Option.bind_some,
      rxBurst_eq_rxQueue hx4 b hdst, hu]
    rfl

end Total

/-- **The switch makes progress.**  When there are ports, all lcores are on sockets that the array
of the tables has, and all tables are created: any sequence of actions, of lcores on the rx queues
that they have, runs to its end as long as each call of the transmit function accepts a packet. -/
theorem switch_total {lib : LpmLibrary} (hlib : lib.Lawful) (hdr : BitVec 64) {P : Platform}
    {numaOn : Bool} {d d' : Daqswitch} {conf : Queues} (hinit : dpInit P d = some (conf, d'))
    {created : ℕ → ℕ → Bool} (hpos : 0 < (P.nbPorts : ℕ))
    (hsockets : ∀ l ∈ P.lcores, socketId P numaOn l < nbSockets)
    (hcreated : ∀ portid, ∀ l ∈ P.lcores, created portid l = true) {rteMaxEthports : Fin (2 ^ 8)}
    (hports : (P.nbPorts : ℕ) ≤ rteMaxEthports) {acts : List Action}
    (hrules : ∀ c, Action.addRule c ∈ acts → c.rule.portOutId.toNat < (rteMaxEthports : ℕ))
    (hacts : ∀ a ∈ acts, a.Possible conf) (mTable : ℕ → ℕ → ℕ → Arrival)
    (dstPort : ℕ → ℕ → BitVec 16) (pnum : ℕ → ℕ → ℕ) :
    ∃ tables, dpConfigure lib P numaOn created = some tables ∧ ∃ t,
      run (Switch.step lib hdr conf) acts (Switch.init conf tables mTable dstPort pnum) =
        some t := by
  have hown := owned_of_dpInit hinit
  obtain ⟨tables, hconf, htables⟩ := exists_dpConfigure lib hpos hsockets hcreated
  have hready := tablesReady_of_dpConfigure hconf
  have hstart : ∃ r, Forwards P conf tables (Switch.init conf tables mTable dstPort pnum) r ∧
      ∀ s, ∀ rule ∈ r.rules s, rule.portOutId.toNat < (rteMaxEthports : ℕ) :=
    ⟨Router.init, forwards_init hlib hready mTable dstPort pnum, fun _ _ hrule => absurd hrule (by
      simp [Router.init])⟩
  have hstep : ∀ a ∈ acts, ∀ s, (∃ r, Forwards P conf tables s r ∧
      ∀ s, ∀ rule ∈ r.rules s, rule.portOutId.toNat < (rteMaxEthports : ℕ)) →
      ∃ t, Switch.step lib hdr conf a s = some t ∧ ∃ r, Forwards P conf tables t r ∧
        ∀ s, ∀ rule ∈ r.rules s, rule.portOutId.toNat < (rteMaxEthports : ℕ) := by
    rintro a ha s ⟨r, hs, hbound⟩
    obtain ⟨t, ht⟩ := hs.step_total hown htables hports hbound (hacts a ha)
    refine ⟨t, ht, r.step hdr conf (socketId P numaOn) tables.present a, ?_,
      Router.step_rules_lt (fun c hc => hrules c (hc ▸ ha)) hbound⟩
    exact hs.step hlib hown hready hports hbound ht
  obtain ⟨t, ht, -⟩ := run_total hstep hstart
  exact ⟨tables, hconf, t, ht⟩

/-- The theorem for the small switch, with two packets on port 0 and any answers of the tables. -/
theorem switch_total_small : ∃ conf d',
    dpInit twoWorkers ⟨false, fun _ => ⟨1, 1, 512, 512, none⟩⟩ = some (conf, d') ∧
    ∃ tables, dpConfigure plainLpm twoWorkers true (fun _ _ => true) = some tables ∧ ∃ t,
      run (Switch.step plainLpm 0x20 conf)
        [.rx 1 0 ⟨2, fun _ => packetFor 0x22 5, by decide⟩
          (List.replicate (maxPktBurst * maxPktBurst) 1)]
        (smallSwitch conf tables) = some t := by
  obtain ⟨⟨conf, d'⟩, hinit⟩ : ∃ s, dpInit twoWorkers
    ⟨false, fun _ => ⟨1, 1, 512, 512, none⟩⟩ = some s := ⟨_, rfl⟩
  have hlist : (conf 1).rxQueueList.length = 3 := by
    have hparams : (dpInit twoWorkers ⟨false, fun _ => ⟨1, 1, 512, 512, none⟩⟩).map
      (fun s => (s.1 1).rxQueueList.length) = some 3 := by decide
    rw [hinit] at hparams
    exact Option.some_inj.mp hparams
  have hports : (twoWorkers.nbPorts : ℕ) ≤ ((4 : Fin (2 ^ 8)) : ℕ) := by decide
  refine ⟨conf, d', hinit, switch_total plainLpm_lawful 0x20 hinit (by decide) (by decide)
    (fun _ _ _ => rfl) hports ?_ ?_ _ _ _⟩
  · intro c hc
    cases List.mem_singleton.mp hc
  · intro a ha
    obtain rfl := List.mem_singleton.mp ha
    refine ⟨by omega, ?_, by rw [List.length_replicate]⟩
    intro ret hret
    rw [List.eq_of_mem_replicate hret]
    exact Nat.one_pos

end DaqSwitch.OqHwq
