import DaqSwitch.VoqSwq.DataPath

/-!
# What the lcores of the data path can do

For each kind of lcore there is a local invariant, and one lemma that says what a step can
do to the rest of its system.  The invariant of the system collects the local ones and says
that rings and NIC queues hold only packets that belong there.
-/

namespace DaqSwitch.VoqSwq

open Lib Lib.Machine

/-! ## Steps of an rx lcore -/

/-- The port that an rx lcore is at. -/
def RxLcore.curPort (x : RxLcore) (lp : DpLcoreParams) : ℕ := (lp.rx x.portIdx).portId

/-- The local invariant of an rx lcore: the packets at hand come from the queue it is at,
and the packets of the current run are for the slot of the ring. -/
structure RxOk (dp : DpParams) (l : ℕ) (x : RxLcore) : Prop where
  portIdx : 0 < (dp.lcores l).nbPorts → x.portIdx < (dp.lcores l).nbPorts
  entry : x.pc ≠ .poll → RxEntry dp l x.portIdx x.i (x.curPort (dp.lcores l))
    (x.curRxq (dp.lcores l)).queueId
  pkts : ∀ m ∈ x.rest, m.port = x.curPort (dp.lcores l) ∧
    m.rxQueue = (x.curRxq (dp.lcores l)).queueId
  current : ∀ outRing nbEnq mbufs n, x.pc = .enqueue outRing nbEnq mbufs n →
    mbufs + n = x.pktEnq + nbEnq ∧
      ∃ slot, outRing = dp.rings (x.curRxq (dp.lcores l)).outPortId slot ∧
        ∀ m ∈ window x.pktsBurst mbufs n, m.slot = slot

/-- What a step of an rx lcore can do: move inside its loop, receive a burst, or move a
front part of its packets to the end of a ring. -/
inductive RxEffect (s : Sys) (l : ℕ) (x' : RxLcore) : Sys → Prop
  | move (hrest : x'.rest = (s.rx l).rest) : RxEffect s l x' (s.setRx l x')
  | receive (k j port queue : ℕ) (hentry : RxEntry s.dp l k j port queue)
      (hrest : (s.rx l).rest = []) (hpkts : ∀ m ∈ x'.rest, m.port = port ∧ m.rxQueue = queue) :
      RxEffect s l x' ((s.receive port queue x'.rest).setRx l x')
  | enqueue (k j port queue slot : ℕ) (hentry : RxEntry s.dp l k j port queue) (r : RteRing)
      (hring : s.dp.rings (((s.dp.lcores l).rx k).queueList j).outPortId slot = some r)
      (xs : List Mbuf) (hxs : ∀ m ∈ xs, m.port = port ∧ m.rxQueue = queue ∧ m.slot = slot)
      (hrest : (s.rx l).rest = xs ++ x'.rest) :
      RxEffect s l x' ((s.setRing r (s.ring r ++ xs)).setRx l x')

section Rx

variable {s t : Sys} {l : ℕ} {dp : DpParams} {x x' : RxLcore}

/-- The local invariant of a state that has nothing at hand. -/
lemma rxOk_of_poll (hpc : x'.pc = .poll)
    (hidx : 0 < (dp.lcores l).nbPorts → x'.portIdx < (dp.lcores l).nbPorts) : RxOk dp l x' where
  portIdx := hidx
  entry h := absurd hpc h
  pkts m hm := by
    rw [RxLcore.rest_of_poll hpc] at hm
    cases hm
  current _ _ _ _ h := by
    rw [hpc] at h
    cases h

lemma RxOk.receive (hidx : x.portIdx < (dp.lcores l).nbPorts)
    (hentry : RxEntry dp l x.portIdx x.i (x.curPort (dp.lcores l))
      (x.curRxq (dp.lcores l)).queueId) {pkts : List Mbuf}
    (hpkts : ∀ m ∈ pkts, m.port = x.curPort (dp.lcores l) ∧
      m.rxQueue = (x.curRxq (dp.lcores l)).queueId) : RxOk dp l (x.receive pkts) := by
  have hrest := RxLcore.rest_receive (x := x) pkts
  rw [RxLcore.receive] at hrest ⊢
  split
  · next hlen =>
    rw [if_pos hlen] at hrest
    refine ⟨fun _ => hidx, fun _ => hentry, ?_, fun _ _ _ _ h => by cases h⟩
    intro m hm
    rw [hrest] at hm
    exact hpkts m hm
  · exact rxOk_of_poll rfl fun _ => hidx

/-- Behind `delimit` stands a run of packets for one slot. -/
lemma RxOk.delimit (hx : RxOk dp l x) (hpc : x.pc = .burst) (hnb : 0 < x.nbRx) :
    RxOk dp l (x.delimit dp (dp.lcores l)) := by
  obtain ⟨-, hslot⟩ := RxLcore.nbEnq_spec hnb
  refine ⟨hx.portIdx, fun _ => hx.entry (by simp [hpc]), ?_, ?_⟩
  · intro m hm
    rw [RxLcore.rest_delimit hpc hnb] at hm
    exact hx.pkts m hm
  · rintro _ _ _ _ ⟨⟩
    refine ⟨rfl, x.fdirId, rfl, ?_⟩
    intro m hm
    obtain ⟨j, hj, rfl⟩ := mem_window.mp hm
    exact hslot j hj

lemma RxOk.enqueued (hx : RxOk dp l x) {outRing : Option RteRing} {nbEnq mbufs n nDone : ℕ}
    (hpc : x.pc = .enqueue outRing nbEnq mbufs n) (hle : nDone ≤ n) :
    RxOk dp l (x.enqueued nDone) := by
  have heq : x.enqueued nDone =
      { x with pc := .enqueue outRing nbEnq (mbufs + nDone) (n - nDone) } := by
    rw [RxLcore.enqueued, hpc]
  obtain ⟨hend, slot, hring, hslot⟩ := hx.current _ _ _ _ hpc
  -- `mbufs` goes up by as much as `n` goes down, so their sum stays at the end of the run
  refine ⟨?_, ?_, ?_, ?_⟩
  · rw [heq]
    exact hx.portIdx
  · intro _
    rw [heq]
    exact hx.entry (by simp [hpc])
  · intro m hm
    have := hx.pkts m (by rw [RxLcore.rest_enqueued hpc hle]; exact List.mem_append_right _ hm)
    rw [heq]
    exact this
  · rw [heq]
    rintro _ _ _ _ ⟨⟩
    refine ⟨by show mbufs + nDone + (n - nDone) = x.pktEnq + nbEnq; omega, slot, hring,
      fun m hm => hslot m ?_⟩
    rw [window_split hle]
    exact List.mem_append_right _ hm

lemma RxOk.advance (hx : RxOk dp l x) {outRing : Option RteRing} {nbEnq mbufs : ℕ}
    (hpc : x.pc = .enqueue outRing nbEnq mbufs 0) : RxOk dp l (x.advance nbEnq) := by
  obtain ⟨hend, -⟩ := hx.current _ _ _ _ hpc
  refine ⟨hx.portIdx, fun _ => hx.entry (by simp [hpc]), ?_,
    fun _ _ _ _ h => by cases h⟩
  intro m hm
  rw [RxLcore.rest_advance hpc (by omega)] at hm
  exact hx.pkts m hm

/-- The step lemma of an rx lcore: it stays at one of its ports, and moves packets or polls. -/
lemma rxStep_spec {act : RxAct} (hl : l ∈ lcoresOf s.dp .dataRx)
    (hpos : 0 < (s.dp.lcores l).nbPorts) (hx : RxOk s.dp l (s.rx l))
    (h : rxStep l act s = some t) : ∃ x', RxOk s.dp l x' ∧ RxEffect s l x' t := by
  have hidx := hx.portIdx hpos
  cases act with
  | nextPort =>
    simp only [rxStep, rxNextPort, Option.ite_none_right_eq_some, Option.some_inj] at h
    obtain ⟨⟨hpc, -⟩, rfl⟩ := h
    refine ⟨(s.rx l).nextPort (s.dp.lcores l),
      rxOk_of_poll hpc fun _ => Nat.mod_lt _ hpos, .move ?_⟩
    rw [RxLcore.rest_of_poll hpc, RxLcore.rest_of_poll (by exact hpc)]
  | poll due pkts =>
    simp only [rxStep, rxPoll, Option.ite_none_right_eq_some] at h
    obtain ⟨⟨hpc, hi, -⟩, h⟩ := h
    have hentry : RxEntry s.dp l (s.rx l).portIdx (s.rx l).i ((s.rx l).curPort (s.dp.lcores l))
        ((s.rx l).curRxq (s.dp.lcores l)).queueId := ⟨hl, hidx, rfl, hi, rfl⟩
    cases due with
    | false =>
      rw [if_neg (by decide), Option.some_inj] at h
      subst h
      refine ⟨(s.rx l).nextQueue, rxOk_of_poll rfl fun _ => hidx, .move ?_⟩
      rw [RxLcore.rest_of_poll hpc, RxLcore.rest_of_poll rfl]
    | true =>
      rw [if_pos rfl, Option.some_inj] at h
      subst h
      have hpkts : ∀ m ∈ mbufsOf ((s.rx l).curPort (s.dp.lcores l))
          ((s.rx l).curRxq (s.dp.lcores l)).queueId pkts,
          m.port = (s.rx l).curPort (s.dp.lcores l) ∧
            m.rxQueue = ((s.rx l).curRxq (s.dp.lcores l)).queueId := by
        intro m hm
        obtain ⟨pkt, -, rfl⟩ := List.mem_map.mp hm
        exact ⟨rfl, rfl⟩
      refine ⟨_, RxOk.receive hidx hentry hpkts, ?_⟩
      have hrest := RxLcore.rest_receive (x := s.rx l) (mbufsOf ((s.rx l).curPort (s.dp.lcores l))
        ((s.rx l).curRxq (s.dp.lcores l)).queueId pkts)
      have heff := RxEffect.receive _ _ _ _ hentry (RxLcore.rest_of_poll hpc) (hrest ▸ hpkts)
      rw [hrest] at heff
      exact heff
  | delimit =>
    simp only [rxStep, rxDelimit, Option.ite_none_right_eq_some, Option.some_inj] at h
    obtain ⟨⟨hpc, hnb⟩, rfl⟩ := h
    exact ⟨_, hx.delimit hpc hnb, .move (RxLcore.rest_delimit hpc hnb)⟩
  | enqueue nDone =>
    simp only [rxStep, rxEnqueue] at h
    split at h
    · next r nbEnq mbufs n hpc =>
      rw [Option.ite_none_right_eq_some, Option.some_inj] at h
      obtain ⟨⟨-, hle⟩, rfl⟩ := h
      obtain ⟨-, slot, hring, hslot⟩ := hx.current _ _ _ _ hpc
      have hrest := RxLcore.rest_enqueued hpc hle
      refine ⟨_, hx.enqueued hpc hle, .enqueue _ _ _ _ slot (hx.entry (by simp [hpc])) r
        hring.symm _ ?_ hrest⟩
      intro m hm
      have hpkts := hx.pkts m (by rw [hrest]; exact List.mem_append_left _ hm)
      refine ⟨hpkts.1, hpkts.2, hslot m ?_⟩
      rw [window_split hle]
      exact List.mem_append_left _ hm
    · cases h
  | ret =>
    simp only [rxStep, rxReturn] at h
    split at h
    · next outRing nbEnq mbufs n hpc =>
      rw [Option.ite_none_right_eq_some, Option.some_inj] at h
      obtain ⟨rfl, rfl⟩ := h
      obtain ⟨hend, -⟩ := hx.current _ _ _ _ hpc
      exact ⟨_, hx.advance hpc, .move (RxLcore.rest_advance hpc (by omega))⟩
    · cases h
  | nextQueue =>
    simp only [rxStep, rxNextQueue, Option.ite_none_right_eq_some, Option.some_inj] at h
    obtain ⟨⟨hpc, hnb⟩, rfl⟩ := h
    refine ⟨(s.rx l).nextQueue, rxOk_of_poll rfl fun _ => hidx, .move ?_⟩
    rw [RxLcore.rest_of_burst hpc, hnb, RxLcore.rest_of_poll rfl, window_zero]

end Rx

/-! ## Steps of a tx lcore -/

/-- The port that a tx lcore is at. -/
def TxLcore.curPort (x : TxLcore) (lp : DpLcoreParams) : ℕ := (lp.tx x.portIdx).portId

/-- The local invariant of a tx lcore: the packets at hand are for the port and the slot it
is at. -/
structure TxOk (dp : DpParams) (l : ℕ) (x : TxLcore) : Prop where
  portIdx : 0 < (dp.lcores l).nbPorts → x.portIdx < (dp.lcores l).nbPorts
  entry : x.pc ≠ .test → TxEntry dp l x.portIdx (x.curPort (dp.lcores l))
  pkts : ∀ m ∈ x.rest, m.slot = x.i ∧
    m.rxQueue = dpPortRxqIdDataMin + x.curPort (dp.lcores l)

/-- What a step of a tx lcore can do: move inside its loop, take a front part of a ring, or
send a front part of its packets. -/
inductive TxEffect (s : Sys) (l : ℕ) (x' : TxLcore) : Sys → Prop
  | move (hrest : x'.rest = (s.tx l).rest) : TxEffect s l x' (s.setTx l x')
  | dequeue (k port slot : ℕ) (hentry : TxEntry s.dp l k port) (r : RteRing)
      (hring : s.dp.rings port slot = some r) (rest : List Mbuf)
      (hsplit : s.ring r = x'.rest ++ rest) (hrest : (s.tx l).rest = []) :
      TxEffect s l x' ((s.setRing r rest).setTx l x')
  | send (k port queueId : ℕ) (hentry : TxEntry s.dp l k port) (xs : List Mbuf)
      (hxs : ∀ m ∈ xs, m.rxQueue = dpPortRxqIdDataMin + port)
      (hrest : (s.tx l).rest = xs ++ x'.rest) :
      TxEffect s l x' ((s.transmit port queueId xs).setTx l x')

section Tx

variable {s t : Sys} {l : ℕ} {dp : DpParams} {x x' : TxLcore}

lemma txOk_of_test (hpc : x'.pc = .test)
    (hidx : 0 < (dp.lcores l).nbPorts → x'.portIdx < (dp.lcores l).nbPorts) : TxOk dp l x' where
  portIdx := hidx
  entry h := absurd hpc h
  pkts m hm := by
    rw [TxLcore.rest_of_test hpc] at hm
    cases hm

lemma TxOk.dequeued (hidx : x.portIdx < (dp.lcores l).nbPorts)
    (hentry : TxEntry dp l x.portIdx (x.curPort (dp.lcores l))) {pkts : List Mbuf}
    (hpkts : ∀ m ∈ pkts, m.slot = x.i ∧ m.rxQueue = dpPortRxqIdDataMin + x.curPort (dp.lcores l))
    (queueId : ℕ) : TxOk dp l (x.dequeued pkts queueId) := by
  have hrest := TxLcore.rest_dequeued (x := x) pkts queueId
  rw [TxLcore.dequeued] at hrest ⊢
  split
  · next hlen =>
    rw [if_pos hlen] at hrest
    refine ⟨fun _ => hidx, fun _ => hentry, ?_⟩
    intro m hm
    rw [hrest] at hm
    exact hpkts m hm
  · exact txOk_of_test rfl fun _ => hidx

lemma TxOk.accepted (hx : TxOk dp l x) {queueId nbTx : ℕ} (hpc : x.pc = .send queueId)
    (hle : nbTx ≤ x.nbDeq) : TxOk dp l (x.accepted nbTx) := by
  have hsub : ∀ m ∈ (x.accepted nbTx).rest, m ∈ x.rest := fun m hm => by
    rw [TxLcore.rest_accepted hpc hle]
    exact List.mem_append_right _ hm
  rw [TxLcore.accepted] at hsub ⊢
  split
  · exact txOk_of_test rfl hx.portIdx
  · next hzero =>
    rw [if_neg hzero] at hsub
    exact ⟨hx.portIdx, fun _ => hx.entry (by simp [hpc]), fun m hm => hx.pkts m (hsub m hm)⟩

/-- The step lemma of a tx lcore: it stays at one of its ports, and moves packets of one ring. -/
lemma txStep_spec {C : OneShl} {act : TxAct} (hl : l ∈ lcoresOf s.dp .dataTx)
    (hpos : 0 < (s.dp.lcores l).nbPorts) (hx : TxOk s.dp l (s.tx l))
    (hpure : ∀ port slot r, s.dp.rings port slot = some r →
      ∀ m ∈ s.ring r, m.slot = slot ∧ m.rxQueue = dpPortRxqIdDataMin + port)
    (h : txStep C l act s = some t) : ∃ x', TxOk s.dp l x' ∧ TxEffect s l x' t := by
  have hidx := hx.portIdx hpos
  cases act with
  | nextPort =>
    simp only [txStep, txNextPort, Option.ite_none_right_eq_some, Option.some_inj] at h
    obtain ⟨⟨hpc, -⟩, rfl⟩ := h
    refine ⟨(s.tx l).nextPort (s.dp.lcores l),
      txOk_of_test hpc fun _ => Nat.mod_lt _ hpos, .move ?_⟩
    rw [TxLcore.rest_of_test hpc, TxLcore.rest_of_test (by exact hpc)]
  | poll due nbDeq =>
    simp only [txStep, txPoll, Option.ite_none_right_eq_some] at h
    obtain ⟨⟨hpc, -⟩, h⟩ := h
    have hentry : TxEntry s.dp l (s.tx l).portIdx ((s.tx l).curPort (s.dp.lcores l)) :=
      ⟨hl, hidx, rfl⟩
    split at h
    · obtain ⟨r, hring, h⟩ := Option.bind_eq_some_iff.mp h
      rw [txDequeue, Option.ite_none_right_eq_some, Option.some_inj] at h
      obtain ⟨-, rfl⟩ := h
      have hpkts : ∀ m ∈ (s.ring r).take nbDeq, m.slot = (s.tx l).i ∧
          m.rxQueue = dpPortRxqIdDataMin + (s.tx l).curPort (s.dp.lcores l) :=
        fun m hm => hpure _ _ r hring m (List.mem_of_mem_take hm)
      refine ⟨_, TxOk.dequeued hidx hentry hpkts _,
        .dequeue _ _ _ hentry r hring _ ?_ (TxLcore.rest_of_test hpc)⟩
      rw [TxLcore.rest_dequeued, List.take_append_drop]
    · rw [Option.some_inj] at h
      subst h
      refine ⟨(s.tx l).nextFlow, txOk_of_test rfl fun _ => hidx, .move ?_⟩
      rw [TxLcore.rest_of_test hpc, TxLcore.rest_of_test rfl]
  | send nbTx =>
    simp only [txStep, txSend] at h
    split at h
    · next queueId hpc =>
      rw [Option.ite_none_right_eq_some, Option.some_inj] at h
      obtain ⟨hle, rfl⟩ := h
      have hrest := TxLcore.rest_accepted hpc hle
      refine ⟨_, hx.accepted hpc hle, .send _ _ queueId (hx.entry (by simp [hpc])) _
        ?_ hrest⟩
      intro m hm
      exact (hx.pkts m (by rw [hrest]; exact List.mem_append_left _ hm)).2
    · cases h

end Tx

/-! ## The invariant of the system -/

/-- Every lcore is in order, and rings, records of the NICs and tx queues hold only packets
that belong there. -/
structure Inv (dp : DpParams) (s : Sys) : Prop where
  same : SameConf dp s.dp
  rx : ∀ l, RxOk s.dp l (s.rx l)
  tx : ∀ l, TxOk s.dp l (s.tx l)
  ring : ∀ r, ∀ m ∈ s.ring r, m.slot = r.queue ∧ m.rxQueue = dpPortRxqIdDataMin + r.port
  received : ∀ p q, ∀ m ∈ s.received p q, m.port = p ∧ m.rxQueue = q ∧
    ∃ l k j, RxEntry dp l k j p q
  sent : ∀ o, ∀ x ∈ s.sent o, x.2.rxQueue = dpPortRxqIdDataMin + o

lemma RxOk.of_same {dp dp' : DpParams} (h : SameConf dp dp') {l : ℕ} {x : RxLcore}
    (hx : RxOk dp l x) : RxOk dp' l x := by
  have hq : x.curRxq (dp'.lcores l) = x.curRxq (dp.lcores l) := by
    rw [RxLcore.curRxq, h.rx l, RxLcore.curRxq]
  have hp : x.curPort (dp'.lcores l) = x.curPort (dp.lcores l) := by
    rw [RxLcore.curPort, h.rx l, RxLcore.curPort]
  refine ⟨?_, ?_, ?_, ?_⟩
  · rw [h.nbPorts l]
    exact hx.portIdx
  · intro hpc
    rw [hp, hq]
    exact h.rxEntry_iff.mpr (hx.entry hpc)
  · rw [hp, hq]
    exact hx.pkts
  · rw [hq, h.rings]
    exact hx.current

lemma TxOk.of_same {dp dp' : DpParams} (h : SameConf dp dp') {l : ℕ} {x : TxLcore}
    (hx : TxOk dp l x) : TxOk dp' l x := by
  have hp : x.curPort (dp'.lcores l) = x.curPort (dp.lcores l) := by
    rw [TxLcore.curPort, h.txPort l, TxLcore.curPort]
  refine ⟨?_, ?_, ?_⟩
  · rw [h.nbPorts l]
    exact hx.portIdx
  · intro hpc
    rw [hp]
    exact h.txEntry_iff.mpr (hx.entry hpc)
  · rw [hp]
    exact hx.pkts

lemma inv_init (dp : DpParams) (garbage : ℕ → Mbuf) : Inv dp (Sys.init dp garbage) where
  same := SameConf.refl dp
  rx _ := rxOk_of_poll rfl fun h => h
  tx _ := txOk_of_test rfl fun h => h
  ring _ _ h := by cases h
  received _ _ _ h := by cases h
  sent _ _ h := by cases h

/-- What a step of the system can do. -/
inductive SysEffect (s : Sys) : Sys → Prop
  | rx (l : ℕ) (x' : RxLcore) (hx : RxOk s.dp l x') {t : Sys} (h : RxEffect s l x' t) :
      SysEffect s t
  | tx (l : ℕ) (x' : TxLcore) (hx : TxOk s.dp l x') {t : Sys} (h : TxEffect s l x' t) :
      SysEffect s t
  | configure (dp : DpParams) (h : SameConf s.dp dp) : SysEffect s { s with dp := dp }

section Ready

variable {P : Platform} {dp : DpParams} (hready : Ready P dp)
  (hrings : ∀ i j r, dp.rings i j = some r → r = ⟨i, j⟩) {s t : Sys}

include hrings in
lemma Inv.step_effect {C : OneShl} {act : Act} (hs : Inv dp s) (h : s.step C act = some t) :
    SysEffect s t := by
  cases act with
  | rx l act =>
    rw [Sys.step, Option.ite_none_right_eq_some] at h
    obtain ⟨⟨hl, htype, hpos⟩, h⟩ := h
    obtain ⟨x', hx', heff⟩ := rxStep_spec (mem_lcoresOf.mpr ⟨hl, htype⟩) hpos (hs.rx l) h
    exact .rx l x' hx' heff
  | tx l act =>
    rw [Sys.step, Option.ite_none_right_eq_some] at h
    obtain ⟨⟨hl, htype, hpos⟩, h⟩ := h
    have hpure : ∀ port slot r, s.dp.rings port slot = some r →
        ∀ m ∈ s.ring r, m.slot = slot ∧ m.rxQueue = dpPortRxqIdDataMin + port := by
      intro port slot r hr
      rw [hs.same.rings] at hr
      obtain rfl := hrings port slot r hr
      exact hs.ring _
    obtain ⟨x', hx', heff⟩ := txStep_spec (mem_lcoresOf.mpr ⟨hl, htype⟩) hpos (hs.tx l) hpure h
    exact .tx l x' hx' heff
  | configure flows masks =>
    rw [Sys.step, Option.some_inj] at h
    exact h ▸ .configure _ (sameConf_configure _ _ _)

include hready hrings in
/-- The packets that an rx lcore enqueues belong into the ring. -/
lemma ring_of_entry (hsame : SameConf dp s.dp) {l k j p q slot : ℕ} {r : RteRing}
    (hentry : RxEntry s.dp l k j p q)
    (hring : s.dp.rings (((s.dp.lcores l).rx k).queueList j).outPortId slot = some r) :
    slot = r.queue ∧ q = dpPortRxqIdDataMin + r.port := by
  have hentry' := hsame.rxEntry_iff.mp hentry
  obtain ⟨-, -, hq⟩ := hready.rxEntry_iff.mp hentry'
  rw [hsame.rings, hsame.rx l, hready.outPortId_eq hentry'] at hring
  rw [hrings _ _ _ hring]
  exact ⟨rfl, hq⟩

include hready hrings in
/-- The step lemma of the invariant. -/
lemma Inv.step (hs : Inv dp s) (h : SysEffect s t) : Inv dp t := by
  cases h with
  | configure dp' hsame =>
    exact ⟨hs.same.trans hsame, fun l => (hs.rx l).of_same hsame, fun l => (hs.tx l).of_same hsame,
      hs.ring, hs.received, hs.sent⟩
  | rx l x' hx h =>
    have hrx : ∀ l', RxOk s.dp l' (Function.update s.rx l x' l') :=
      forall_update (T := RxOk s.dp) hs.rx hx
    cases h with
    | move => exact ⟨hs.same, hrx, hs.tx, hs.ring, hs.received, hs.sent⟩
    | receive k j port queue hentry hrest hpkts =>
      refine ⟨hs.same, hrx, hs.tx, hs.ring, ?_, hs.sent⟩
      intro p q m hm
      by_cases hp : p = port
      · subst hp
        by_cases hq : q = queue
        · subst hq
          simp only [Sys.setRx, Sys.receive, Function.update_self, List.mem_append] at hm
          rcases hm with hm | hm
          · exact hs.received p q m hm
          · exact ⟨(hpkts m hm).1, (hpkts m hm).2, l, k, j, hs.same.rxEntry_iff.mp hentry⟩
        · simp only [Sys.setRx, Sys.receive, Function.update_self, Function.update_of_ne hq] at hm
          exact hs.received p q m hm
      · simp only [Sys.setRx, Sys.receive, Function.update_of_ne hp] at hm
        exact hs.received p q m hm
    | enqueue k j port queue slot hentry r hring xs hxs hrest =>
      -- the ring is the one for the slot on the output port of the queue
      refine ⟨hs.same, hrx, hs.tx, ?_, hs.received, hs.sent⟩
      intro r' m hm
      by_cases hr : r' = r
      · subst hr
        simp only [Sys.setRx, Sys.setRing, Function.update_self, List.mem_append] at hm
        rcases hm with hm | hm
        · exact hs.ring r' m hm
        · obtain ⟨hslot, hq⟩ := ring_of_entry hready hrings hs.same hentry hring
          exact ⟨(hxs m hm).2.2.trans hslot, (hxs m hm).2.1.trans hq⟩
      · simp only [Sys.setRx, Sys.setRing, Function.update_of_ne hr] at hm
        exact hs.ring r' m hm
  | tx l x' hx h =>
    have htx : ∀ l', TxOk s.dp l' (Function.update s.tx l x' l') :=
      forall_update (T := TxOk s.dp) hs.tx hx
    cases h with
    | move => exact ⟨hs.same, hs.rx, htx, hs.ring, hs.received, hs.sent⟩
    | dequeue k port slot hentry r hring rest hsplit hrest =>
      refine ⟨hs.same, hs.rx, htx, ?_, hs.received, hs.sent⟩
      intro r' m hm
      by_cases hr : r' = r
      · subst hr
        simp only [Sys.setTx, Sys.setRing, Function.update_self] at hm
        exact hs.ring r' m (by rw [hsplit]; exact List.mem_append_right _ hm)
      · simp only [Sys.setTx, Sys.setRing, Function.update_of_ne hr] at hm
        exact hs.ring r' m hm
    | send k port queueId hentry xs hxs hrest =>
      refine ⟨hs.same, hs.rx, htx, hs.ring, hs.received, ?_⟩
      intro o x hx
      by_cases ho : o = port
      · subst ho
        simp only [Sys.setTx, Sys.transmit, Function.update_self, List.mem_append,
          List.mem_map] at hx
        rcases hx with hx | ⟨m, hm, rfl⟩
        · exact hs.sent o x hx
        · exact hxs m hm
      · simp only [Sys.setTx, Sys.transmit, Function.update_of_ne ho] at hx
        exact hs.sent o x hx

end Ready

end DaqSwitch.VoqSwq
