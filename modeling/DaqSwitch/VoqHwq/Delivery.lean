import DaqSwitch.VoqHwq.MainLoop

/-!
# The data path loses and reorders nothing

The packets from an input port to an output port are on the wire, in the burst of the lcore of
the output port, or in the rx queue, in this order.  Only one lcore polls the rx queue, and
only the same lcore transmits on the output port, so each step of the system moves packets
from the front of one place to the end of the next.
-/

namespace DaqSwitch.VoqHwq

open Lib Lib.Machine

variable {α : Type*} {P : Platform} {conf : LcoreConf} {pollTsc : Option (BitVec 64)}
  {s t : Sys α}

/-! ## What a step does -/

namespace Worker

variable (w : Worker α) (nTxQueue nbPorts j : ℕ)

@[simp] lemma burst_forPort : (w.forPort nTxQueue nbPorts j).burst = [] := by
  rw [forPort]
  split <;> rfl

variable {w j}

lemma burst_of_test (h : w.pc = .test) : w.burst = [] := by rw [burst, h]

lemma burst_of_recv (h : w.pc = .recv j) : w.burst = [] := by rw [burst, h]

lemma burst_of_send {pkts : List (Mbuf α)} (h : w.pc = .send j pkts) : w.burst = pkts := by
  rw [burst, h]

end Worker

/-- The step of an lcore at the tx queue `q`: it passes the queue over or begins to poll it; it
receives nothing or some packets from the `j`-th port; it sends a part of them or the rest. -/
inductive WorkerStep (conf : LcoreConf) (pollTsc : Option (BitVec 64)) (s : Sys α) (l : ℕ)
    (q : LcoreTxQueue) : Act α → Sys α → Prop
  | skip (curTsc : BitVec 64) (hpc : (s.workers l).pc = .test)
      (hdue : (s.workers l).due curTsc pollTsc = false) :
      WorkerStep conf pollTsc s l q (.test l curTsc)
        (s.setWorker l ((s.workers l).nextQueue (conf l).length))
  | poll (curTsc : BitVec 64) (w : Worker α) (hpc : (s.workers l).pc = .test)
      (hdue : (s.workers l).due curTsc pollTsc = true) (hi : w.i = (s.workers l).i) :
      WorkerStep conf pollTsc s l q (.test l curTsc)
        (s.setWorker l (w.forPort (conf l).length q.rxPortIds.length 0))
  | recvNone (j : ℕ) (p : ℕ) (hpc : (s.workers l).pc = .recv j) (hp : q.rxPortIds[j]? = some p) :
      WorkerStep conf pollTsc s l q (.recv l 0)
        (s.setWorker l ((s.workers l).forPort (conf l).length q.rxPortIds.length (j + 1)))
  | recvSome (j : ℕ) (p : ℕ) (nbRx : ℕ) (w : Worker α) (hpc : (s.workers l).pc = .recv j)
      (hp : q.rxPortIds[j]? = some p) (hpos : nbRx ≠ 0) (hmax : nbRx ≤ maxPktBurst)
      (hle : nbRx ≤ (s.rx p q.rxQueueId).length)
      (hi : w.i = (s.workers l).i) (hw : w.pc = .send j ((s.rx p q.rxQueueId).take nbRx)) :
      WorkerStep conf pollTsc s l q (.recv l nbRx)
        ((s.setRx p q.rxQueueId ((s.rx p q.rxQueueId).drop nbRx)).setWorker l w)
  | sendPart (j : ℕ) (pkts : List (Mbuf α)) (n : ℕ) (hpc : (s.workers l).pc = .send j pkts)
      (hlt : n < pkts.length) :
      WorkerStep conf pollTsc s l q (.send l n)
        ((s.transmit q.portId q.queueId (pkts.take n)).setWorker l
          { s.workers l with pc := .send j (pkts.drop n) })
  | sendRest (j : ℕ) (pkts : List (Mbuf α)) (hpc : (s.workers l).pc = .send j pkts) :
      WorkerStep conf pollTsc s l q (.send l pkts.length)
        ((s.transmit q.portId q.queueId pkts).setWorker l
          ((s.workers l).forPort (conf l).length q.rxPortIds.length (j + 1)))

section Steps

variable {l : ℕ}

lemma testStep_cases {curTsc : BitVec 64} (h : testStep conf pollTsc l curTsc s = some t) :
    ∃ q, curTxq conf s l = some q ∧ WorkerStep conf pollTsc s l q (.test l curTsc) t := by
  unfold testStep at h
  split at h
  · next q hpc hq =>
    refine ⟨q, hq, ?_⟩
    dsimp only at h
    split at h
    · next hdue =>
      obtain rfl := Option.some_inj.mp h
      exact .poll curTsc { s.workers l with prevTsc := _ } hpc hdue rfl
    · next hdue =>
      obtain rfl := Option.some_inj.mp h
      exact .skip curTsc hpc (Bool.eq_false_iff.mpr hdue)
  · cases h

lemma recvStep_cases {nbRx : ℕ} (h : recvStep conf l nbRx s = some t) :
    ∃ q, curTxq conf s l = some q ∧ WorkerStep conf pollTsc s l q (.recv l nbRx) t := by
  unfold recvStep at h
  split at h
  · next j q hpc hq =>
    refine ⟨q, hq, ?_⟩
    obtain ⟨p, hp, hrecv⟩ := Option.bind_eq_some_iff.mp h
    dsimp only at hrecv
    split at hrecv
    · next hle =>
      split at hrecv
      · next hzero =>
        subst hzero
        obtain rfl := Option.some_inj.mp hrecv
        exact .recvNone j p hpc hp
      · next hpos =>
        obtain rfl := Option.some_inj.mp hrecv
        exact .recvSome j p nbRx _ hpc hp hpos hle.1 hle.2 rfl rfl
    · cases hrecv
  · cases h

lemma sendStep_cases {n : ℕ} (h : sendStep conf l n s = some t) :
    ∃ q, curTxq conf s l = some q ∧ WorkerStep conf pollTsc s l q (.send l n) t := by
  unfold sendStep at h
  split at h
  · next j pkts q hpc hq =>
    refine ⟨q, hq, ?_⟩
    dsimp only at h
    split at h
    · next hle =>
      obtain rfl := Option.some_inj.mp h
      split
      · next hall =>
        subst hall
        rw [List.take_length]
        exact .sendRest j pkts hpc
      · next hpart => exact .sendPart j pkts n hpc (by omega)
    · cases h
  · cases h

/-- **What a step of the system does.**  Packets arrive, or an lcore takes one of the six steps of
its loop at a tx queue that it serves. -/
lemma step_cases {act : Act α} (h : s.step conf pollTsc P act = some t) :
    (∃ m, act = .arrive m ∧ t = s.arrive m) ∨
      ∃ l q, Serves P conf l (s.workers l).i q ∧ WorkerStep conf pollTsc s l q act t := by
  cases act with
  | arrive m => exact Or.inl ⟨m, rfl, (Option.some_inj.mp h).symm⟩
  | test l curTsc =>
    rw [Sys.step] at h
    split at h
    · next hl =>
      obtain ⟨q, hq, hstep⟩ := testStep_cases h
      exact Or.inr ⟨l, q, ⟨hl.1, hq⟩, hstep⟩
    · cases h
  | recv l nbRx =>
    rw [Sys.step] at h
    split at h
    · next hl =>
      obtain ⟨q, hq, hstep⟩ := recvStep_cases h
      exact Or.inr ⟨l, q, ⟨hl.1, hq⟩, hstep⟩
    · cases h
  | send l n =>
    rw [Sys.step] at h
    split at h
    · next hl =>
      obtain ⟨q, hq, hstep⟩ := sendStep_cases h
      exact Or.inr ⟨l, q, ⟨hl.1, hq⟩, hstep⟩
    · cases h

end Steps

/-! ## The invariant -/

/-- Whether a packet was received on a queue of a port. -/
def fromQueue (p r : ℕ) (m : Mbuf α) : Bool := m.port == p && m.rxQueue == r

lemma fromQueue_iff {p r : ℕ} {m : Mbuf α} :
    fromQueue p r m = true ↔ m.port = p ∧ m.rxQueue = r := by simp [fromQueue]

lemma filter_fromQueue_eq_self {p r : ℕ} {pkts : List (Mbuf α)}
    (h : ∀ m ∈ pkts, m.port = p ∧ m.rxQueue = r) : pkts.filter (fromQueue p r) = pkts :=
  List.filter_eq_self.mpr fun m hm => fromQueue_iff.mpr (h m hm)

lemma filter_fromQueue_eq_nil {p r p' r' : ℕ} {pkts : List (Mbuf α)}
    (h : ∀ m ∈ pkts, m.port = p ∧ m.rxQueue = r) (hne : ¬ (p' = p ∧ r' = r)) :
    pkts.filter (fromQueue p' r') = [] := by
  rw [List.filter_eq_nil_iff]
  intro m hm hfrom
  obtain ⟨hp, hr⟩ := fromQueue_iff.mp hfrom
  exact hne ⟨hp.symm.trans (h m hm).1, hr.symm.trans (h m hm).2⟩

/-- An lcore is at one of its tx queues and at one of its ports, and its burst comes from that
port and has one to `MAX_PKT_BURST` packets. -/
structure WorkerOk (conf : LcoreConf) (l : ℕ) (w : Worker α) : Prop where
  index : conf l ≠ [] → w.i < (conf l).length
  recv : ∀ j, w.pc = .recv j → ∃ q, (conf l)[w.i]? = some q ∧ j < q.rxPortIds.length
  send : ∀ j pkts, w.pc = .send j pkts → pkts ≠ [] ∧ pkts.length ≤ maxPktBurst ∧
    ∃ q p, (conf l)[w.i]? = some q ∧ q.rxPortIds[j]? = some p ∧
      ∀ m ∈ pkts, m.port = p ∧ m.rxQueue = q.rxQueueId

namespace WorkerOk

variable {l j : ℕ} {w w' : Worker α} {q : LcoreTxQueue}

lemma init : WorkerOk conf l (Worker.init : Worker α) where
  index hne := List.length_pos_iff.mpr hne
  recv j hpc := by cases hpc
  send j pkts hpc := by cases hpc

lemma nextQueue (w : Worker α) : WorkerOk conf l (w.nextQueue (conf l).length) where
  index hne := by
    have hpos := List.length_pos_iff.mpr hne
    rw [Worker.nextQueue]
    dsimp only
    split
    · assumption
    · exact hpos
  recv j hpc := by cases hpc
  send j pkts hpc := by cases hpc

lemma forPort (hw : WorkerOk conf l w) (hi : w'.i = w.i) (hq : (conf l)[w.i]? = some q) (j : ℕ) :
    WorkerOk conf l (w'.forPort (conf l).length q.rxPortIds.length j) := by
  rw [Worker.forPort]
  split
  · next hj =>
    refine ⟨fun hne => hi ▸ hw.index hne, ?_, fun j' pkts hpc => by cases hpc⟩
    intro j' hpc
    obtain rfl : j = j' := Pc.recv.inj hpc
    exact ⟨q, by rw [← hq, ← hi], hj⟩
  · exact nextQueue w'

end WorkerOk

/-- The packets from a queue that were sent on a port. -/
def Sys.sentFrom (s : Sys α) (o p r : ℕ) : List (Mbuf α) :=
  ((s.sent o).map Prod.snd).filter (fromQueue p r)

/-- The packets from port `p` to the port of entry `q` of lcore `l` are sent, in the burst of
the lcore, or in the rx queue, in this order. -/
def Conserved (s : Sys α) (l : ℕ) (q : LcoreTxQueue) (p : ℕ) : Prop :=
  s.sentFrom q.portId p q.rxQueueId ++ (s.workers l).burst.filter (fromQueue p q.rxQueueId) ++
    s.rx p q.rxQueueId = s.arrived p q.rxQueueId

structure Inv (P : Platform) (conf : LcoreConf) (s : Sys α) : Prop where
  worker : ∀ l, WorkerOk conf l (s.workers l)
  rx : ∀ p r, ∀ m ∈ s.rx p r, m.port = p ∧ m.rxQueue = r
  sent : ∀ o, ∀ x ∈ s.sent o, x.1 = 0 ∧
    ∃ l k q, Serves P conf l k q ∧ q.portId = o ∧ x.2.rxQueue = q.rxQueueId
  conserved : ∀ l k q, Serves P conf l k q → ∀ p, Conserved s l q p

namespace Inv

variable {l : ℕ} {q : LcoreTxQueue}

lemma init : Inv P conf (Sys.init : Sys α) where
  worker _ := WorkerOk.init
  rx _ _ _ hm := (List.not_mem_nil hm).elim
  sent _ _ hx := (List.not_mem_nil hx).elim
  conserved _ _ _ _ _ := rfl

lemma arrive (h : Inv P conf s) (m : Mbuf α) : Inv P conf (s.arrive m) where
  worker := h.worker
  rx p r m' hm' := by
    by_cases hp : p = m.port
    · subst hp
      by_cases hr : r = m.rxQueue
      · subst hr
        simp only [Sys.arrive, Sys.setRx, Function.update_self, List.mem_append,
          List.mem_singleton] at hm'
        rcases hm' with hm' | rfl
        · exact h.rx _ _ m' hm'
        · exact ⟨rfl, rfl⟩
      · simp only [Sys.arrive, Sys.setRx, Function.update_self, Function.update_of_ne hr] at hm'
        exact h.rx _ _ m' hm'
    · simp only [Sys.arrive, Sys.setRx, Function.update_of_ne hp] at hm'
      exact h.rx _ _ m' hm'
  sent := h.sent
  conserved l k q hq p := by
    have hold := h.conserved l k q hq p
    rw [Conserved] at hold ⊢
    show s.sentFrom _ _ _ ++ (s.workers l).burst.filter _ ++ _ = _
    by_cases hp : p = m.port
    · subst hp
      by_cases hr : q.rxQueueId = m.rxQueue
      · simp only [Sys.arrive, Sys.setRx, Function.update_self, ← hr, ← hold, List.append_assoc]
      · simpa only [Sys.arrive, Sys.setRx, Function.update_self, Function.update_of_ne hr]
          using hold
    · simpa only [Sys.arrive, Sys.setRx, Function.update_of_ne hp] using hold

lemma worker_setWorker (h : Inv P conf s) {w : Worker α} (hw : WorkerOk conf l w) :
    ∀ l', WorkerOk conf l' (Function.update s.workers l w l') :=
  forall_update h.worker hw

/-- A move between two bursts. -/
lemma move (h : Inv P conf s) {w : Worker α} (hw : WorkerOk conf l w)
    (hold : (s.workers l).burst = []) (hnew : w.burst = []) : Inv P conf (s.setWorker l w) where
  worker := h.worker_setWorker hw
  rx := h.rx
  sent := h.sent
  conserved l' k q hq p := by
    have hburst := apply_update_eq Worker.burst (hnew.trans hold.symm) l'
    show s.sentFrom _ _ _ ++ (Function.update s.workers l w l').burst.filter _ ++ s.rx _ _ = _
    rw [hburst]
    exact h.conserved l' k q hq p

/-- A burst is received: for the entry of the queue it moves from the rx queue to the lcore. -/
lemma receive (h : Inv P conf s) (hconf : Configured P conf) {k p : ℕ} (hq : Serves P conf l k q)
    {w : Worker α} (hw : WorkerOk conf l w) (hold : (s.workers l).burst = [])
    {rest : List (Mbuf α)} (hrx : s.rx p q.rxQueueId = w.burst ++ rest) :
    Inv P conf ((s.setRx p q.rxQueueId rest).setWorker l w) := by
  have hmem : ∀ m ∈ w.burst, m.port = p ∧ m.rxQueue = q.rxQueueId := fun m hm =>
    h.rx _ _ m (hrx ▸ List.mem_append_left rest hm)
  refine ⟨h.worker_setWorker hw, ?_, h.sent, ?_⟩
  · intro p' r m hm
    by_cases hp : p' = p
    · subst hp
      by_cases hr : r = q.rxQueueId
      · subst hr
        simp only [Sys.setWorker, Sys.setRx, Function.update_self] at hm
        exact h.rx _ _ m (hrx ▸ List.mem_append_right _ hm)
      · simp only [Sys.setWorker, Sys.setRx, Function.update_self, Function.update_of_ne hr] at hm
        exact h.rx _ _ m hm
    · simp only [Sys.setWorker, Sys.setRx, Function.update_of_ne hp] at hm
      exact h.rx _ _ m hm
  · intro l' k' q' hq' p'
    have hcons := h.conserved l' k' q' hq' p'
    rw [Conserved] at hcons
    show s.sentFrom _ _ _ ++ (Function.update s.workers l w l').burst.filter _ ++
      ((s.setRx p q.rxQueueId rest).rx p' q'.rxQueueId) = s.arrived _ _
    by_cases hflow : p' = p ∧ q'.rxQueueId = q.rxQueueId
    · -- only this lcore serves the queue
      obtain ⟨rfl, hr⟩ := hflow
      obtain rfl := hconf.eq_of_rxQueueId hq'.mem hq.mem hr
      obtain ⟨rfl, -, -⟩ := hconf.serves_unique hq' hq rfl
      rw [hold, hrx, List.filter_nil, List.append_nil] at hcons
      rw [Function.update_self, filter_fromQueue_eq_self hmem, ← hcons, List.append_assoc]
      simp [Sys.setRx]
    · have hburst := apply_update_eq
        (fun w : Worker α => w.burst.filter (fromQueue p' q'.rxQueueId))
        (by rw [filter_fromQueue_eq_nil hmem hflow, hold, List.filter_nil]) l'
      have hsame : (s.setRx p q.rxQueueId rest).rx p' q'.rxQueueId = s.rx p' q'.rxQueueId := by
        by_cases hp : p' = p
        · subst hp
          have hr : q'.rxQueueId ≠ q.rxQueueId := fun hr => hflow ⟨rfl, hr⟩
          simp [Sys.setRx, Function.update_of_ne hr]
        · simp [Sys.setRx, Function.update_of_ne hp]
      rw [hburst, hsame]
      exact hcons

/-- Packets are transmitted: for the entry they move from the lcore to the wire. -/
lemma transmit (h : Inv P conf s) (hconf : Configured P conf) {k p : ℕ}
    (hq : Serves P conf l k q) {w : Worker α} (hw : WorkerOk conf l w) {pkts : List (Mbuf α)}
    (hburst : (s.workers l).burst = pkts ++ w.burst)
    (hmem : ∀ m ∈ (s.workers l).burst, m.port = p ∧ m.rxQueue = q.rxQueueId) :
    Inv P conf ((s.transmit q.portId q.queueId pkts).setWorker l w) := by
  rw [hburst] at hmem
  have hpkts := (List.forall_mem_append.mp hmem).1
  refine ⟨h.worker_setWorker hw, h.rx, ?_, ?_⟩
  · intro o x hx
    by_cases ho : o = q.portId
    · subst ho
      simp only [Sys.setWorker, Sys.transmit, Function.update_self, List.mem_append,
        List.mem_map] at hx
      rcases hx with hx | ⟨m, hm, rfl⟩
      · exact h.sent _ x hx
      · exact ⟨hconf.queueId q hq.mem, l, k, q, hq, rfl, (hpkts m hm).2⟩
    · simp only [Sys.setWorker, Sys.transmit, Function.update_of_ne ho] at hx
      exact h.sent _ x hx
  · intro l' k' q' hq' p'
    have hcons := h.conserved l' k' q' hq' p'
    rw [Conserved] at hcons
    show (s.transmit q.portId q.queueId pkts).sentFrom _ _ _ ++
      (Function.update s.workers l w l').burst.filter _ ++ s.rx _ _ = s.arrived _ _
    by_cases ho : q'.portId = q.portId
    · obtain ⟨rfl, -, rfl⟩ := hconf.serves_unique hq' hq ho
      rw [hburst, List.filter_append] at hcons
      rw [Function.update_self, ← hcons]
      simp [Sys.sentFrom, Sys.transmit, Function.comp_def]
    · have hsent : (s.transmit q.portId q.queueId pkts).sentFrom q'.portId p' q'.rxQueueId =
          s.sentFrom q'.portId p' q'.rxQueueId := by
        simp [Sys.sentFrom, Sys.transmit, Function.update_of_ne ho]
      -- the packets come from the queue of another port
      have hflow : ¬ (p' = p ∧ q'.rxQueueId = q.rxQueueId) := fun hflow =>
        ho (congrArg LcoreTxQueue.portId (hconf.eq_of_rxQueueId hq'.mem hq.mem hflow.2))
      have hnone : w.burst.filter (fromQueue p' q'.rxQueueId) =
          (s.workers l).burst.filter (fromQueue p' q'.rxQueueId) := by
        rw [hburst, List.filter_append, filter_fromQueue_eq_nil hpkts hflow, List.nil_append]
      have hburst' := apply_update_eq
        (fun w : Worker α => w.burst.filter (fromQueue p' q'.rxQueueId)) hnone l'
      rw [hsent, hburst']
      exact hcons

/-- **Step lemma.**  After a step too, what is sent from an rx queue, in the burst of the lcore that
serves it, and left in it are in this order the packets that arrived there. -/
lemma step (h : Inv P conf s) (hconf : Configured P conf) {act : Act α}
    (hst : s.step conf pollTsc P act = some t) : Inv P conf t := by
  rcases step_cases hst with ⟨m, -, rfl⟩ | ⟨l, q, hq, hstep⟩
  · exact h.arrive m
  have hw := h.worker l
  cases hstep with
  | skip curTsc hpc hdue => exact h.move (WorkerOk.nextQueue _) (Worker.burst_of_test hpc) rfl
  | poll curTsc w hpc hdue hi =>
    exact h.move (hw.forPort hi hq.entry 0) (Worker.burst_of_test hpc) (w.burst_forPort _ _ _)
  | recvNone j p hpc hp =>
    exact h.move (hw.forPort rfl hq.entry _) (Worker.burst_of_recv hpc)
      (Worker.burst_forPort _ _ _ _)
  | recvSome j p nbRx w hpc hp hpos hmax hle hi hw' =>
    have hburst : w.burst = (s.rx p q.rxQueueId).take nbRx := Worker.burst_of_send hw'
    refine h.receive hconf hq ⟨fun hne => hi ▸ hw.index hne, ?_,
      ?_⟩ (Worker.burst_of_recv hpc) (by rw [hburst, List.take_append_drop])
    · intro j' hpc'
      rw [hw'] at hpc'
      cases hpc'
    · intro j' pkts hpc'
      rw [hw'] at hpc'
      obtain ⟨rfl, rfl⟩ := Pc.send.inj hpc'
      refine ⟨?_, (List.length_take_le ..).trans hmax, q, p, hi ▸ hq.entry, hp,
        fun m hm => h.rx _ _ m (List.mem_of_mem_take hm)⟩
      rw [ne_eq, List.take_eq_nil_iff, not_or]
      exact ⟨hpos, fun hnil => hpos (by rw [hnil] at hle; exact Nat.le_zero.mp hle)⟩
  | sendPart j pkts n hpc hlt =>
    obtain ⟨-, hmax, q', p, hq', hp, hmem⟩ := hw.send j pkts hpc
    obtain rfl : q = q' := Option.some_inj.mp (hq.entry.symm.trans hq')
    refine h.transmit hconf hq (w := { s.workers l with pc := .send j (pkts.drop n) })
      ⟨hw.index, fun j' hpc' => (by cases hpc'), ?_⟩ ?_ (p := p)
      (by rwa [Worker.burst_of_send hpc])
    · intro j' pkts' hpc'
      obtain ⟨rfl, rfl⟩ := Pc.send.inj hpc'
      refine ⟨?_, ?_, q, p, hq.entry, hp, fun m hm => hmem m (List.mem_of_mem_drop hm)⟩
      · rw [ne_eq, List.drop_eq_nil_iff]
        omega
      · rw [List.length_drop]
        omega
    · rw [Worker.burst_of_send hpc]
      exact (List.take_append_drop n pkts).symm
  | sendRest j pkts hpc =>
    obtain ⟨-, -, q', p, hq', hp, hmem⟩ := hw.send j pkts hpc
    obtain rfl : q = q' := Option.some_inj.mp (hq.entry.symm.trans hq')
    refine h.transmit hconf hq (hw.forPort rfl hq.entry _) ?_ (p := p)
      (by rwa [Worker.burst_of_send hpc])
    rw [Worker.burst_of_send hpc, Worker.burst_forPort, List.append_nil]

end Inv

/-- In every run. -/
lemma inv_run (hconf : Configured P conf) {acts : List (Act α)}
    (h : run (Sys.step conf pollTsc P) acts Sys.init = some s) : Inv P conf s :=
  run_invariant (fun _ _ _ _ hst hs => hs.step hconf hst) h Inv.init

end DaqSwitch.VoqHwq
