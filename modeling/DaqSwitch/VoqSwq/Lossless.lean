import DaqSwitch.Lib.Lane
import DaqSwitch.VoqSwq.DataPathSpec

/-!
# The data path loses and reorders nothing

Each flow, given by an input port, an output port and a slot, sees the system as a lane:
received, not yet enqueued, in the ring, not yet transmitted, sent.  Every step of the
system is a move of each lane, because only one rx lcore polls the queue of the flow and
only one tx lcore drains its ring.
-/

namespace DaqSwitch.VoqSwq

open Lib Lib.Machine

/-! ## Lanes of flows -/

/-- Whether a packet belongs to the flow from port `p` to slot `i` of port `o`. -/
def ofFlow (p o i : ℕ) (m : Mbuf) : Bool :=
  m.port == p && m.rxQueue == dpPortRxqIdDataMin + o && m.slot == i

lemma ofFlow_iff {p o i : ℕ} {m : Mbuf} : ofFlow p o i m = true ↔
    m.port = p ∧ m.rxQueue = dpPortRxqIdDataMin + o ∧ m.slot = i := by
  simp [ofFlow, and_assoc]

/-- The lane of a flow that is polled by lcore `l` and drained by lcore `l'`. -/
def Sys.lane (s : Sys) (p o i l l' : ℕ) : Lane Mbuf where
  arrived := (s.received p (dpPortRxqIdDataMin + o)).filter (ofFlow p o i)
  first := (s.rx l).rest.filter (ofFlow p o i)
  middle := (s.ring ⟨o, i⟩).filter (ofFlow p o i)
  last := (s.tx l').rest.filter (ofFlow p o i)
  departed := ((s.sent o).map Prod.snd).filter (ofFlow p o i)

section Lanes

variable {P : Platform} {dp : DpParams} (hready : Ready P dp)
  (hrings : ∀ i j r, dp.rings i j = some r → r = ⟨i, j⟩) {s t : Sys}
  {p o i l l' k k' : ℕ} (hrx : RxEntry dp l k o p (dpPortRxqIdDataMin + o))
  (htx : TxEntry dp l' k' o)

/-- No packet of a list belongs to the flow. -/
lemma filter_ofFlow_eq_nil {xs : List Mbuf} (h : ∀ m ∈ xs, m.port = p →
    m.rxQueue = dpPortRxqIdDataMin + o → m.slot ≠ i) : xs.filter (ofFlow p o i) = [] := by
  rw [List.filter_eq_nil_iff]
  intro m hm hflow
  obtain ⟨hp, hq, hi⟩ := ofFlow_iff.mp hflow
  exact h m hm hp hq hi

include hready hrings hrx in
/-- A step of an rx lcore is a move of the lane. -/
lemma RxEffect.lane_move (hs : Inv dp s) {l₁ : ℕ} {x' : RxLcore} (h : RxEffect s l₁ x' t) :
    Lane.Move (s.lane p o i l l') (t.lane p o i l l') := by
  -- an lcore that serves the input queue of the flow is `l`
  have howner : ∀ {k₁ j₁}, RxEntry s.dp l₁ k₁ j₁ p (dpPortRxqIdDataMin + o) → l = l₁ := fun h₁ =>
    (hready.rxEntry_unique hrx (hs.same.rxEntry_iff.mp h₁)).1
  cases h with
  | move hrest =>
    have hfirst := apply_update_eq (fun x : RxLcore => x.rest.filter (ofFlow p o i))
      (by rw [hrest]) l
    exact .of_eq (Lane.ext rfl hfirst.symm rfl rfl rfl)
  | receive k₁ j₁ port queue hentry hrest hpkts =>
    by_cases hpq : port = p ∧ queue = dpPortRxqIdDataMin + o
    · obtain ⟨rfl, rfl⟩ := hpq
      obtain rfl := howner hentry
      have heq : ((s.receive port (dpPortRxqIdDataMin + o) x'.rest).setRx l x').lane port o i l l' =
          { s.lane port o i l l' with
            arrived := (s.lane port o i l l').arrived ++ x'.rest.filter (ofFlow port o i)
            first := (s.lane port o i l l').first ++ x'.rest.filter (ofFlow port o i) } := by
        simp [Sys.lane, Sys.setRx, Sys.receive, hrest]
      rw [heq]
      exact .arrive _ _
    · have hnil : x'.rest.filter (ofFlow p o i) = [] :=
        filter_ofFlow_eq_nil fun m hm hp hq =>
          absurd ⟨(hpkts m hm).1.symm.trans hp, (hpkts m hm).2.symm.trans hq⟩ hpq
      have hfirst := apply_update_eq (fun x : RxLcore => x.rest.filter (ofFlow p o i))
        (by rw [hnil, hrest, List.filter_nil]) l
      refine .of_eq (Lane.ext ?_ hfirst.symm rfl rfl rfl)
      by_cases hp : p = port
      · subst hp
        have hq : dpPortRxqIdDataMin + o ≠ queue := fun hq => hpq ⟨rfl, hq.symm⟩
        simp [Sys.lane, Sys.setRx, Sys.receive, Function.update_of_ne hq]
      · simp [Sys.lane, Sys.setRx, Sys.receive, Function.update_of_ne hp]
  | enqueue k₁ j₁ port queue slot hentry r hring xs hxs hrest =>
    obtain ⟨hslot, hqueue⟩ := ring_of_entry hready hrings hs.same hentry hring
    by_cases hnil : xs.filter (ofFlow p o i) = []
    · have hsame : x'.rest.filter (ofFlow p o i) = (s.rx l₁).rest.filter (ofFlow p o i) := by
        rw [hrest, List.filter_append, hnil, List.nil_append]
      have hfirst := apply_update_eq (fun x : RxLcore => x.rest.filter (ofFlow p o i)) hsame l
      refine .of_eq (Lane.ext rfl hfirst.symm ?_ rfl rfl)
      by_cases hr : ⟨o, i⟩ = r
      · subst hr
        simp [Sys.lane, Sys.setRx, Sys.setRing, hnil]
      · simp [Sys.lane, Sys.setRx, Sys.setRing, Function.update_of_ne hr]
    · -- a packet of the flow among them tells the lcore and the ring
      obtain ⟨m, hm, hflow⟩ : ∃ m ∈ xs, ofFlow p o i m = true := by
        simpa [List.filter_eq_nil_iff] using hnil
      obtain ⟨hp, hq, hi⟩ := ofFlow_iff.mp hflow
      obtain ⟨hmp, hmq, hmi⟩ := hxs m hm
      obtain rfl : port = p := hmp.symm.trans hp
      obtain rfl : queue = dpPortRxqIdDataMin + o := hmq.symm.trans hq
      obtain rfl := howner hentry
      have hr : r = ⟨o, i⟩ := by
        obtain ⟨rport, rqueue⟩ := r
        simp only [RteRing.mk.injEq]
        simp only at hslot hqueue
        omega
      subst hr
      have heq : ((s.setRing ⟨o, i⟩ (s.ring ⟨o, i⟩ ++ xs)).setRx l x').lane port o i l l' =
          { s.lane port o i l l' with
            first := x'.rest.filter (ofFlow port o i)
            middle := (s.lane port o i l l').middle ++ xs.filter (ofFlow port o i) } := by
        simp [Sys.lane, Sys.setRx, Sys.setRing]
      rw [heq]
      refine .push _ _ _ ?_
      simp [Sys.lane, hrest]

include hready hrings htx in
/-- A step of a tx lcore is a move of the lane. -/
lemma TxEffect.lane_move (hs : Inv dp s) {l₁ : ℕ} {x' : TxLcore} (h : TxEffect s l₁ x' t) :
    Lane.Move (s.lane p o i l l') (t.lane p o i l l') := by
  -- an lcore that serves the output port of the flow is `l'`
  have howner : ∀ {k₁}, TxEntry s.dp l₁ k₁ o → l' = l₁ := fun h₁ =>
    (hready.txEntry_unique htx (hs.same.txEntry_iff.mp h₁)).1
  cases h with
  | move hrest =>
    have hlast := apply_update_eq (fun x : TxLcore => x.rest.filter (ofFlow p o i))
      (by rw [hrest]) l'
    exact .of_eq (Lane.ext rfl rfl rfl hlast.symm rfl)
  | dequeue k₁ port slot hentry r hring rest hsplit hrest =>
    rw [hs.same.rings] at hring
    obtain rfl := hrings port slot r hring
    by_cases hr : (⟨o, i⟩ : RteRing) = ⟨port, slot⟩
    · obtain ⟨rfl, rfl⟩ := RteRing.mk.inj hr
      obtain rfl := howner hentry
      have heq : ((s.setRing ⟨o, i⟩ rest).setTx l' x').lane p o i l l' =
          { s.lane p o i l l' with
            middle := rest.filter (ofFlow p o i)
            last := (s.lane p o i l l').last ++ x'.rest.filter (ofFlow p o i) } := by
        simp [Sys.lane, Sys.setTx, Sys.setRing, hrest]
      rw [heq]
      refine .pull _ _ _ ?_
      simp [Sys.lane, hsplit]
    · -- the packets of another ring belong to other flows
      have hnil : x'.rest.filter (ofFlow p o i) = [] := by
        refine filter_ofFlow_eq_nil fun m hm _ hq hi => hr ?_
        obtain ⟨hmi, hmq⟩ := hs.ring _ m (by rw [hsplit]; exact List.mem_append_left _ hm)
        simp only [RteRing.mk.injEq]
        simp only at hmi hmq
        omega
      have hlast := apply_update_eq (fun x : TxLcore => x.rest.filter (ofFlow p o i))
        (by rw [hnil, hrest, List.filter_nil]) l'
      refine .of_eq (Lane.ext rfl rfl ?_ hlast.symm rfl)
      simp [Sys.lane, Sys.setTx, Sys.setRing, Function.update_of_ne hr]
  | send k₁ port queueId hentry xs hxs hrest =>
    by_cases ho : o = port
    · subst ho
      obtain rfl := howner hentry
      have heq : ((s.transmit o queueId xs).setTx l' x').lane p o i l l' =
          { s.lane p o i l l' with
            last := x'.rest.filter (ofFlow p o i)
            departed := (s.lane p o i l l').departed ++ xs.filter (ofFlow p o i) } := by
        simp [Sys.lane, Sys.setTx, Sys.transmit, Function.comp_def]
      rw [heq]
      refine .depart _ _ _ ?_
      simp [Sys.lane, hrest]
    · -- the packets were received for another port
      have hnil : xs.filter (ofFlow p o i) = [] := by
        refine filter_ofFlow_eq_nil fun m hm _ hq _ => ho ?_
        have := hxs m hm
        omega
      have hsame : x'.rest.filter (ofFlow p o i) = (s.tx l₁).rest.filter (ofFlow p o i) := by
        rw [hrest, List.filter_append, hnil, List.nil_append]
      have hlast := apply_update_eq (fun x : TxLcore => x.rest.filter (ofFlow p o i)) hsame l'
      refine .of_eq (Lane.ext rfl rfl rfl hlast.symm ?_)
      simp [Sys.lane, Sys.setTx, Sys.transmit, Function.update_of_ne ho]

include hready hrings hrx htx in
/-- Every step of the system is a move of every lane. -/
lemma SysEffect.lane_move (hs : Inv dp s) (h : SysEffect s t) :
    Lane.Move (s.lane p o i l l') (t.lane p o i l l') := by
  cases h with
  | configure dp' hsame => exact .stay _
  | rx l₁ x' _ h => exact h.lane_move hready hrings hrx hs
  | tx l₁ x' _ h => exact h.lane_move hready hrings htx hs

end Lanes

/-! ## Where the packets are -/

/-- A place where a received packet can be: the rest of an rx lcore's burst, a ring, the
rest of a tx lcore's burst, or the wire of a port. -/
inductive Place
  | rxLcore (l : ℕ)
  | ring (r : RteRing)
  | txLcore (l : ℕ)
  | wire (port : ℕ)

def Sys.content (s : Sys) : Place → List Mbuf
  | .rxLcore l => (s.rx l).rest
  | .ring r => s.ring r
  | .txLcore l => (s.tx l).rest
  | .wire port => (s.sent port).map Prod.snd

/-- The places on the way of a packet: the rx lcore that polls its queue, the ring of its
slot on the output port of the queue, the tx lcore of that port, and its wire. -/
def OnTheWay (dp : DpParams) (m : Mbuf) : Place → Prop
  | .rxLcore l => ∃ k j, RxEntry dp l k j m.port m.rxQueue
  | .ring r => m.slot = r.queue ∧ m.rxQueue = dpPortRxqIdDataMin + r.port
  | .txLcore l => ∃ k o, TxEntry dp l k o ∧ m.rxQueue = dpPortRxqIdDataMin + o
  | .wire o => m.rxQueue = dpPortRxqIdDataMin + o

/-- The packets received from each queue are delivered in order.  `inOrder` follows one flow
from the wire back to the input queue. -/
structure Delivery (P : Platform) (dp : DpParams) (s : Sys) : Prop where
  inOrder : ∀ p < P.nbPorts, ∀ o < P.nbPorts, ∀ i, ∃ l k l' k',
    RxEntry dp l k o p (dpPortRxqIdDataMin + o) ∧ TxEntry dp l' k' o ∧
      (s.content (.wire o)).filter (ofFlow p o i) ++
          (s.content (.txLcore l')).filter (ofFlow p o i) ++
          (s.content (.ring ⟨o, i⟩)).filter (ofFlow p o i) ++
          (s.content (.rxLcore l)).filter (ofFlow p o i) =
        (s.received p (dpPortRxqIdDataMin + o)).filter (·.slot == i)
  onTheWay : ∀ place, ∀ m ∈ s.content place, OnTheWay dp m place
  onePlace : ∀ p q m, (s.received p q).Nodup → m ∈ s.received p q →
    ∃ place, (s.content place).count m = 1 ∧
      ∀ place', m ∈ s.content place' → place' = place

section Delivery

variable {P : Platform} {dp : DpParams} {s : Sys}

lemma Inv.onTheWay (hs : Inv dp s) (place : Place) :
    ∀ m ∈ s.content place, OnTheWay dp m place := by
  intro m hm
  cases place with
  | rxLcore l =>
    obtain ⟨hp, hq⟩ := (hs.rx l).pkts m hm
    have hpc : (s.rx l).pc ≠ .poll := by
      intro hpc
      rw [Sys.content, RxLcore.rest_of_poll hpc] at hm
      cases hm
    have hentry := hs.same.rxEntry_iff.mp ((hs.rx l).entry hpc)
    rw [← hp, ← hq] at hentry
    exact ⟨_, _, hentry⟩
  | ring r => exact hs.ring r m hm
  | txLcore l =>
    obtain ⟨-, hq⟩ := (hs.tx l).pkts m hm
    have hpc : (s.tx l).pc ≠ .test := by
      intro hpc
      rw [Sys.content, TxLcore.rest_of_test hpc] at hm
      cases hm
    exact ⟨_, _, hs.same.txEntry_iff.mp ((hs.tx l).entry hpc), hq⟩
  | wire o =>
    obtain ⟨x, hx, rfl⟩ := List.mem_map.mp hm
    exact hs.sent o x hx

/-- The way of a packet has four places. -/
lemma OnTheWay.cases (hready : Ready P dp) {m : Mbuf} {o l l' k j k' : ℕ}
    (hrx : RxEntry dp l k j m.port m.rxQueue) (hq : m.rxQueue = dpPortRxqIdDataMin + o)
    (htx : TxEntry dp l' k' o) {place : Place} (h : OnTheWay dp m place) :
    place = .wire o ∨ place = .txLcore l' ∨ place = .ring ⟨o, m.slot⟩ ∨ place = .rxLcore l := by
  cases place with
  | rxLcore l₁ =>
    obtain ⟨k₁, j₁, h₁⟩ := h
    rw [(hready.rxEntry_unique hrx h₁).1]
    simp
  | ring r =>
    obtain ⟨hslot, hport⟩ := h
    obtain rfl : o = r.port := by omega
    rw [hslot]
    simp
  | txLcore l₁ =>
    obtain ⟨k₁, o₁, h₁, hq₁⟩ := h
    obtain rfl : o = o₁ := by omega
    rw [(hready.txEntry_unique htx h₁).1]
    simp
  | wire o₁ =>
    have hq₁ : m.rxQueue = dpPortRxqIdDataMin + o₁ := h
    obtain rfl : o = o₁ := by omega
    simp

/-- Four places that hold a packet once in total, and no others that hold it. -/
lemma exists_place {f : Place → ℕ} {a b c d : Place} (hsum : f a + f b + f c + f d = 1)
    (hother : ∀ place, 0 < f place → place = a ∨ place = b ∨ place = c ∨ place = d) :
    ∃ place, f place = 1 ∧ ∀ place', 0 < f place' → place' = place := by
  have hone : ∃ place, f place = 1 ∧ ∀ place', place' = a ∨ place' = b ∨ place' = c ∨ place' = d →
      0 < f place' → place' = place := by
    -- four numbers with sum one
    have hcases : f a = 1 ∧ f b = 0 ∧ f c = 0 ∧ f d = 0 ∨ f a = 0 ∧ f b = 1 ∧ f c = 0 ∧ f d = 0 ∨
        f a = 0 ∧ f b = 0 ∧ f c = 1 ∧ f d = 0 ∨ f a = 0 ∧ f b = 0 ∧ f c = 0 ∧ f d = 1 := by omega
    rcases hcases with ⟨ha, hb, hc, hd⟩ | ⟨ha, hb, hc, hd⟩ | ⟨ha, hb, hc, hd⟩ | ⟨ha, hb, hc, hd⟩
    · refine ⟨a, ha, ?_⟩
      rintro place' (rfl | rfl | rfl | rfl) hpos <;> first | rfl | omega
    · refine ⟨b, hb, ?_⟩
      rintro place' (rfl | rfl | rfl | rfl) hpos <;> first | rfl | omega
    · refine ⟨c, hc, ?_⟩
      rintro place' (rfl | rfl | rfl | rfl) hpos <;> first | rfl | omega
    · refine ⟨d, hd, ?_⟩
      rintro place' (rfl | rfl | rfl | rfl) hpos <;> first | rfl | omega
  obtain ⟨place, hplace, honly⟩ := hone
  exact ⟨place, hplace, fun place' hpos => honly place' (hother place' hpos) hpos⟩

/-- The lanes of all flows are conserved in every run. -/
lemma lanes_run {C : OneShl} (hready : Ready P dp)
    (hrings : ∀ i j r, dp.rings i j = some r → r = ⟨i, j⟩) {acts : List Act}
    {garbage : ℕ → Mbuf} (h : run (Sys.step C) acts (Sys.init dp garbage) = some s) :
    Inv dp s ∧ ∀ p o i l l' k k', RxEntry dp l k o p (dpPortRxqIdDataMin + o) →
      TxEntry dp l' k' o → (s.lane p o i l l').Conserved := by
  refine run_invariant (I := fun s => Inv dp s ∧ ∀ p o i l l' k k',
    RxEntry dp l k o p (dpPortRxqIdDataMin + o) → TxEntry dp l' k' o →
      (s.lane p o i l l').Conserved) ?_ h ⟨inv_init dp garbage, ?_⟩
  · rintro act - s t hst ⟨hs, hlanes⟩
    have heff := hs.step_effect hrings hst
    exact ⟨hs.step hready hrings heff, fun p o i l l' k k' hrx htx =>
      (heff.lane_move hready hrings hrx htx hs).conserved (hlanes p o i l l' k k' hrx htx)⟩
  · exact fun p o i l l' k k' _ _ => Lane.conserved_empty

/-- In the record of a queue only the slot tells the flows apart. -/
lemma Inv.filter_received (hs : Inv dp s) (p o i : ℕ) :
    (s.received p (dpPortRxqIdDataMin + o)).filter (ofFlow p o i) =
      (s.received p (dpPortRxqIdDataMin + o)).filter (·.slot == i) := by
  refine List.filter_congr ?_
  intro m hm
  obtain ⟨hp, hq, -⟩ := hs.received _ _ m hm
  simp [ofFlow, hp, hq]

/-- **The data path is lossless and keeps the order of each flow.**  In every state that the
lcores reach from the initialised data path in any order of steps, the packets of a flow
that were sent, those in the tx lcore, in the ring and in the rx lcore are, in this order,
the packets received; each received packet is in one place on its way. -/
theorem dataPath_lossless {C : OneShl} (hinit : dpInit P = some dp) {acts : List Act}
    {garbage : ℕ → Mbuf} (h : run (Sys.step C) acts (Sys.init dp garbage) = some s) :
    Delivery P dp s := by
  obtain ⟨hready, hringsEq⟩ := dpInit_spec hinit
  have hrings : ∀ i j r, dp.rings i j = some r → r = ⟨i, j⟩ := by
    intro i j r hr
    rw [hringsEq] at hr
    split at hr
    · exact (Option.some_inj.mp hr).symm
    · cases hr
  obtain ⟨hs, hlanes⟩ := lanes_run hready hrings h
  refine ⟨?_, hs.onTheWay, ?_⟩
  · intro p hp o ho i
    obtain ⟨l, k, hrx⟩ := hready.exists_rxEntry hp ho
    obtain ⟨l', k', htx⟩ := hready.exists_txEntry ho
    refine ⟨l, k, l', k', hrx, htx, ?_⟩
    rw [← hs.filter_received]
    exact hlanes p o i l l' k k' hrx htx
  · -- in the lane of its flow the packet is counted once, as in the record of its queue
    intro p q m hnodup hm
    obtain ⟨rfl, rfl, l, k, o, hrx⟩ := hs.received p q m hm
    obtain ⟨-, ho, hq⟩ := hready.rxEntry_iff.mp hrx
    obtain ⟨l', k', htx⟩ := hready.exists_txEntry ho
    have hflow : ofFlow m.port o m.slot m = true := ofFlow_iff.mpr ⟨rfl, hq, rfl⟩
    have hlane := hlanes m.port o m.slot l l' k k' (by rwa [← hq]) htx
    have hcount := congrArg (List.count m) hlane
    simp only [Sys.lane, List.count_append, List.count_filter hflow, ← hq,
      List.count_eq_one_of_mem hnodup hm] at hcount
    obtain ⟨place, hone, honly⟩ := exists_place (f := fun place => (s.content place).count m)
      (a := .wire o) (b := .txLcore l') (c := .ring ⟨o, m.slot⟩) (d := .rxLcore l) hcount
      fun place hpos => (hs.onTheWay place m (List.count_pos_iff.mp hpos)).cases hready hrx hq htx
    exact ⟨place, hone, fun place' hmem => honly place' (List.count_pos_iff.mpr hmem)⟩

end Delivery

/-- On the smallest machine: two packets for slot 0 are received on queue 1 of port 0,
enqueued one by one, dequeued, and one of them is sent. -/
def smallActs : List Act :=
  [.configure (fun _ _ => ⟨true, false, 0, 0⟩) fun _ _ => 1,
    .rx 1 (.poll true [(0x40, 10), (0x80, 11)]), .rx 1 .delimit, .rx 1 (.enqueue 1),
    .rx 1 (.enqueue 1), .rx 1 .ret, .rx 1 .nextQueue, .tx 2 (.poll true 2), .tx 2 (.send 1)]

lemma run_smallActs_isSome : (run (Sys.step OneShl.modular) smallActs
    (Sys.init dpSmall fun _ => ⟨0, 0, 0, 0⟩)).isSome := by decide +kernel

theorem dataPath_lossless_small : ∃ s : Sys, run (Sys.step OneShl.modular) smallActs
    (Sys.init dpSmall fun _ => ⟨0, 0, 0, 0⟩) = some s ∧ Delivery Platform.small dpSmall s := by
  obtain ⟨s, hs⟩ := Option.isSome_iff_exists.mp run_smallActs_isSome
  exact ⟨s, hs, dataPath_lossless dpInit_small hs⟩

end DaqSwitch.VoqSwq
