import DaqSwitch.VoqHwq.Delivery

/-!
# Every packet is transmitted

Each time that an lcore polls the rx queue of a tx queue, it takes a packet out of it if there
is one, and it has sent what it took before it polls again.  So the packets that wait are all
sent once the queue has been polled more often than there are packets.
-/

namespace DaqSwitch.VoqHwq

open Lib Lib.Machine

variable {α : Type*} {P : Platform} {conf : LcoreConf} {pollTsc : Option (BitVec 64)}
  {s t : Sys α}

/-! ## The records only grow -/

section Records

lemma sentFrom_transmit (s : Sys α) (port queueId : ℕ) (pkts : List (Mbuf α)) (o p r : ℕ) :
    (s.transmit port queueId pkts).sentFrom o p r =
      s.sentFrom o p r ++ if o = port then pkts.filter (fromQueue p r) else [] := by
  by_cases ho : o = port
  · subst ho
    simp [Sys.sentFrom, Sys.transmit, Function.comp_def]
  · simp [Sys.sentFrom, Sys.transmit, ho]

lemma WorkerStep.sentFrom_prefix_sentFrom {l : ℕ} {q : LcoreTxQueue} {act : Act α}
    (h : WorkerStep conf pollTsc s l q act t) (o p r : ℕ) :
    s.sentFrom o p r <+: t.sentFrom o p r := by
  cases h with
  | skip => exact List.prefix_rfl
  | poll => exact List.prefix_rfl
  | recvNone => exact List.prefix_rfl
  | recvSome => exact List.prefix_rfl
  | sendPart j pkts n =>
    show _ <+: (s.transmit q.portId q.queueId (pkts.take n)).sentFrom o p r
    rw [sentFrom_transmit]
    exact List.prefix_append _ _
  | sendRest j pkts =>
    show _ <+: (s.transmit q.portId q.queueId pkts).sentFrom o p r
    rw [sentFrom_transmit]
    exact List.prefix_append _ _

/-- Other ports are left alone. -/
lemma WorkerStep.sentFrom_eq {l o : ℕ} {q : LcoreTxQueue} {act : Act α}
    (h : WorkerStep conf pollTsc s l q act t) (ho : o ≠ q.portId) (p r : ℕ) :
    t.sentFrom o p r = s.sentFrom o p r := by
  cases h with
  | skip => rfl
  | poll => rfl
  | recvNone => rfl
  | recvSome => rfl
  | sendPart j pkts n =>
    show (s.transmit q.portId q.queueId (pkts.take n)).sentFrom o p r = _
    rw [sentFrom_transmit, if_neg ho, List.append_nil]
  | sendRest j pkts =>
    show (s.transmit q.portId q.queueId pkts).sentFrom o p r = _
    rw [sentFrom_transmit, if_neg ho, List.append_nil]

lemma WorkerStep.arrived_eq {l : ℕ} {q : LcoreTxQueue} {act : Act α}
    (h : WorkerStep conf pollTsc s l q act t) : t.arrived = s.arrived := by
  cases h <;> rfl

lemma WorkerStep.worker_eq {l l' : ℕ} {q : LcoreTxQueue} {act : Act α}
    (h : WorkerStep conf pollTsc s l q act t) (hne : l' ≠ l) : t.workers l' = s.workers l' := by
  cases h <;> exact Function.update_of_ne hne ..

lemma arrived_prefix_arrive (s : Sys α) (m : Mbuf α) (p r : ℕ) :
    s.arrived p r <+: (s.arrive m).arrived p r := by
  by_cases hp : p = m.port
  · subst hp
    by_cases hr : r = m.rxQueue
    · subst hr
      simp [Sys.arrive]
    · simp [Sys.arrive, Function.update_of_ne hr]
  · simp [Sys.arrive, Function.update_of_ne hp]

end Records

/-! ## Rounds -/

/-- The step begins to poll the rx queue of entry `k` of lcore `l`. -/
def polls (pollTsc : Option (BitVec 64)) (l k : ℕ) : Act α → Sys α → Bool
  | .test l' curTsc, s =>
    l' == l && (s.workers l).i == k && (s.workers l).due curTsc pollTsc
  | _, _ => false

/-- A receive returns nothing only when the rx queue is empty. -/
def RxAnswers (conf : LcoreConf) (act : Act α) (s : Sys α) : Prop :=
  ∀ l q j p, act = .recv l 0 → curTxq conf s l = some q → (s.workers l).pc = .recv j →
    q.rxPortIds[j]? = some p → s.rx p q.rxQueueId = []

/-- One as long as the round of entry `k` has not come past the `p`-th port. -/
def inRound (k p : ℕ) (w : Worker α) : ℕ :=
  if w.i = k then
    match w.pc with
    | .test => 0
    | .recv j => if j ≤ p then 1 else 0
    | .send j _ => if j ≤ p then 1 else 0
  else 0

section Round

variable {k p j : ℕ} {w w' : Worker α}

lemma inRound_le_one (k p : ℕ) (w : Worker α) : inRound k p w ≤ 1 := by
  rw [inRound]
  split
  · split
    · exact Nat.zero_le 1
    · split <;> omega
    · split <;> omega
  · exact Nat.zero_le 1

lemma inRound_of_test (h : w.pc = .test) : inRound k p w = 0 := by
  rw [inRound, h]
  simp

lemma inRound_of_ne (h : w.i ≠ k) : inRound k p w = 0 := if_neg h

lemma inRound_of_recv (hi : w.i = k) (h : w.pc = .recv j) :
    inRound k p w = if j ≤ p then 1 else 0 := by rw [inRound, if_pos hi, h]

lemma inRound_of_send {pkts : List (Mbuf α)} (hi : w.i = k) (h : w.pc = .send j pkts) :
    inRound k p w = if j ≤ p then 1 else 0 := by rw [inRound, if_pos hi, h]

/-- The next port of the round. -/
lemma inRound_forPort {nTxQueue nbPorts : ℕ} (hi : w.i = k) (hp : p < nbPorts) (j : ℕ) :
    inRound k p (w.forPort nTxQueue nbPorts j) = if j ≤ p then 1 else 0 := by
  rw [Worker.forPort]
  split
  · exact inRound_of_recv hi rfl
  · rw [inRound_of_test rfl, if_neg (by omega)]

end Round

/-- What `n` polls since the state `s` have done for the packets from port `p`: either those that
had arrived are all sent, or one was sent in each round. -/
structure Progress (P : Platform) (conf : LcoreConf) (s : Sys α) (l k : ℕ) (q : LcoreTxQueue)
    (p n : ℕ) (u : Sys α) : Prop where
  inv : Inv P conf u
  arrived : s.arrived p q.rxQueueId <+: u.arrived p q.rxQueueId
  sent : (s.arrived p q.rxQueueId).length ≤ (u.sentFrom q.portId p q.rxQueueId).length ∨
    (s.sentFrom q.portId p q.rxQueueId).length + n ≤
      (u.sentFrom q.portId p q.rxQueueId).length + inRound k p (u.workers l)

namespace Progress

variable {l k p n : ℕ} {q : LcoreTxQueue} {u v : Sys α} {act : Act α}

/-- The `j`-th port of an entry is port `j`. -/
lemma eq_of_rxPortIds (hconf : Configured P conf) (hq : Serves P conf l k q) {j p' : ℕ}
    (h : q.rxPortIds[j]? = some p') : p' = j := by
  rw [hconf.rxPortIds q hq.mem] at h
  obtain ⟨_, hj⟩ := List.getElem?_eq_some_iff.mp h
  rw [List.getElem_range] at hj
  exact hj.symm

/-- A step of the lcore at the entry. -/
lemma sent_of_workerStep (h : Progress P conf s l k q p n u) (hconf : Configured P conf)
    (hq : Serves P conf l k q) (hp : p < P.nbPorts) (hi : (u.workers l).i = k)
    (hstep : WorkerStep conf pollTsc u l q act v) (hrx : RxAnswers conf act u)
    (hround : (s.sentFrom q.portId p q.rxQueueId).length + n ≤
      (u.sentFrom q.portId p q.rxQueueId).length + inRound k p (u.workers l)) :
    (s.arrived p q.rxQueueId).length ≤ (v.sentFrom q.portId p q.rxQueueId).length ∨
      (s.sentFrom q.portId p q.rxQueueId).length + (n + (polls pollTsc l k act u).toNat) ≤
        (v.sentFrom q.portId p q.rxQueueId).length + inRound k p (v.workers l) := by
  have hports : p < q.rxPortIds.length := by
    rw [hconf.rxPortIds q hq.mem, List.length_range]
    exact hp
  have hcurTxq : curTxq conf u l = some q := by
    rw [curTxq, hi]
    exact hq.entry
  cases hstep with
  | skip curTsc hpc hdue =>
    have hpolls : polls pollTsc l k (.test l curTsc) u = false := by simp [polls, hdue]
    rw [inRound_of_test hpc] at hround
    rw [hpolls]
    exact Or.inr (Nat.le_add_right_of_le hround)
  | poll curTsc w hpc hdue hi' =>
    -- one more round, which begins at the first port
    have hpolls : polls pollTsc l k (.test l curTsc) u = true := by simp [polls, hdue, hi]
    rw [inRound_of_test hpc] at hround
    rw [hpolls, Sys.setWorker_self, inRound_forPort (hi'.trans hi) hports, if_pos (Nat.zero_le p)]
    exact Or.inr (Nat.add_le_add_right hround 1)
  | recvNone j p' hpc hp' =>
    obtain rfl := eq_of_rxPortIds hconf hq hp'
    rcases eq_or_ne p' p with rfl | hne
    · -- nothing is left in the rx queue
      have hempty := hrx l q p' p' rfl hcurTxq hpc hp'
      have hcons := h.inv.conserved l k q hq p'
      rw [Conserved, Worker.burst_of_recv hpc, hempty, List.filter_nil, List.append_nil,
        List.append_nil] at hcons
      refine Or.inl ?_
      show _ ≤ (u.sentFrom _ _ _).length
      rw [hcons]
      exact h.arrived.length_le
    · rw [inRound_of_recv hi hpc] at hround
      rw [Sys.setWorker_self, inRound_forPort hi hports]
      refine Or.inr (hround.trans_eq (congrArg (_ + ·) (if_congr ?_ rfl rfl)))
      omega
  | recvSome j p' nbRx w hpc hp' hpos hmax hle hi' hw =>
    rw [inRound_of_recv hi hpc] at hround
    rw [Sys.setWorker_self, inRound_of_send (hi'.trans hi) hw]
    exact Or.inr hround
  | sendPart j pkts m hpc hlt =>
    have hstep' : WorkerStep conf pollTsc u l q (.send l m) _ := .sendPart j pkts m hpc hlt
    have hle := (hstep'.sentFrom_prefix_sentFrom q.portId p q.rxQueueId).length_le
    have hnew : inRound k p { u.workers l with pc := .send j (pkts.drop m) } =
        if j ≤ p then 1 else 0 := inRound_of_send hi rfl
    rw [inRound_of_send hi hpc] at hround
    rw [Sys.setWorker_self, hnew]
    exact Or.inr (hround.trans (Nat.add_le_add_right hle _))
  | sendRest j pkts hpc =>
    obtain ⟨hne, -, q', p', hq', hp', hmem⟩ := (h.inv.worker l).send j pkts hpc
    obtain rfl : q = q' := Option.some_inj.mp (hcurTxq.symm.trans hq')
    obtain rfl := eq_of_rxPortIds hconf hq hp'
    rw [inRound_of_send hi hpc] at hround
    rw [Sys.setWorker_self, inRound_forPort hi hports]
    refine Or.inr ?_
    show _ ≤ ((u.transmit q.portId q.queueId pkts).sentFrom _ _ _).length + _
    rw [sentFrom_transmit, if_pos rfl, List.length_append]
    show _ + n ≤ _
    rcases eq_or_ne p' p with rfl | hne'
    · -- the round is past the port, and at least one packet was sent
      have hpos := List.length_pos_iff.mpr hne
      rw [filter_fromQueue_eq_self hmem]
      rw [if_pos le_rfl] at hround
      omega
    · have hsame : (if p' + 1 ≤ p then 1 else 0) = if p' ≤ p then 1 else 0 :=
        if_congr (by omega) rfl rfl
      rw [hsame]
      omega

/-- A step of another lcore, or at another entry. -/
lemma sent_of_other (hconf : Configured P conf) (hq : Serves P conf l k q) {l' : ℕ}
    {q' : LcoreTxQueue} (hq' : Serves P conf l' (u.workers l').i q')
    (hother : ¬ (l' = l ∧ (u.workers l').i = k)) (hstep : WorkerStep conf pollTsc u l' q' act v)
    (hround : (s.sentFrom q.portId p q.rxQueueId).length + n ≤
      (u.sentFrom q.portId p q.rxQueueId).length + inRound k p (u.workers l)) :
    (s.sentFrom q.portId p q.rxQueueId).length + (n + (polls pollTsc l k act u).toNat) ≤
      (v.sentFrom q.portId p q.rxQueueId).length + inRound k p (v.workers l) := by
  have hport : q.portId ≠ q'.portId := by
    intro hport
    obtain ⟨hl, hk, -⟩ := hconf.serves_unique hq' hq hport.symm
    exact hother ⟨hl, hk⟩
  have hpolls : polls pollTsc l k act u = false := by
    rw [Bool.eq_false_iff]
    intro hpolls
    cases hstep with
    | skip curTsc =>
      simp only [polls, Bool.and_eq_true, beq_iff_eq] at hpolls
      exact hother ⟨hpolls.1.1, hpolls.1.1 ▸ hpolls.1.2⟩
    | poll curTsc =>
      simp only [polls, Bool.and_eq_true, beq_iff_eq] at hpolls
      exact hother ⟨hpolls.1.1, hpolls.1.1 ▸ hpolls.1.2⟩
    | recvNone => cases hpolls
    | recvSome => cases hpolls
    | sendPart => cases hpolls
    | sendRest => cases hpolls
  have hworker : inRound k p (u.workers l) ≤ inRound k p (v.workers l) := by
    rcases eq_or_ne l l' with rfl | hl
    · rw [inRound_of_ne fun hi => hother ⟨rfl, hi⟩]
      exact Nat.zero_le _
    · rw [hstep.worker_eq hl]
  rw [hstep.sentFrom_eq hport, hpolls]
  exact hround.trans (Nat.add_le_add_left hworker _)

/-- **Step lemma.**  A step keeps the progress, and adds to the number of polls if it is one of the
entry's tests that find the queue due. -/
lemma step (h : Progress P conf s l k q p n u) (hconf : Configured P conf)
    (hq : Serves P conf l k q) (hp : p < P.nbPorts) (hst : u.step conf pollTsc P act = some v)
    (hrx : RxAnswers conf act u) :
    Progress P conf s l k q p (n + (polls pollTsc l k act u).toNat) v := by
  have hinv := h.inv.step hconf hst
  rcases step_cases hst with ⟨m, rfl, rfl⟩ | ⟨l', q', hq', hstep⟩
  · exact ⟨hinv, h.arrived.trans (arrived_prefix_arrive u m _ _), h.sent⟩
  · refine ⟨hinv, by rw [hstep.arrived_eq]; exact h.arrived, ?_⟩
    rcases h.sent with hdone | hround
    · exact Or.inl (hdone.trans (hstep.sentFrom_prefix_sentFrom _ _ _).length_le)
    · by_cases hentry : l' = l ∧ (u.workers l').i = k
      · obtain ⟨rfl, hi⟩ := hentry
        obtain rfl : q' = q := by
          have hentry := hq'.entry
          rw [hi, hq.entry, Option.some_inj] at hentry
          exact hentry.symm
        exact h.sent_of_workerStep hconf hq hp hi hstep hrx hround
      · exact Or.inr (sent_of_other hconf hq hq' hentry hstep hround)

end Progress

/-- The packets from port `p` that wait for the port of an entry. -/
def pending (s : Sys α) (l : ℕ) (q : LcoreTxQueue) (p : ℕ) : ℕ :=
  ((s.workers l).burst.filter (fromQueue p q.rxQueueId)).length + (s.rx p q.rxQueueId).length

lemma sentFrom_prefix_arrived {l k : ℕ} {q : LcoreTxQueue} (h : Inv P conf s)
    (hq : Serves P conf l k q) (p : ℕ) :
    s.sentFrom q.portId p q.rxQueueId <+: s.arrived p q.rxQueueId := by
  rw [← h.conserved l k q hq p, List.append_assoc]
  exact List.prefix_append _ _

/-- **Run lemma.** With more polls than packets, what had arrived is sent. -/
lemma arrived_prefix_sentFrom {l k p : ℕ} {q : LcoreTxQueue} {acts : List (Act α)}
    (hconf : Configured P conf) (hs : Inv P conf s) (hq : Serves P conf l k q)
    (hp : p < P.nbPorts) (hrun : run (Sys.step conf pollTsc P) acts s = some t)
    (hrx : Throughout (Sys.step conf pollTsc P) (RxAnswers conf) acts s)
    (hpolls : pending s l q p < tally (Sys.step conf pollTsc P) (polls pollTsc l k) acts s) :
    s.arrived p q.rxQueueId <+: t.sentFrom q.portId p q.rxQueueId := by
  have hstart : Progress P conf s l k q p 0 s :=
    ⟨hs, List.prefix_rfl, Or.inr (Nat.le_add_right _ _)⟩
  have hend : Progress P conf s l k q p
      (0 + tally (Sys.step conf pollTsc P) (polls pollTsc l k) acts s) t :=
    run_tally (fun _ _ _ _ hst ha hu => hu.step hconf hq hp hst ha) hrun hrx hstart
  refine List.prefix_of_prefix_length_le hend.arrived (sentFrom_prefix_arrived hend.inv hq p) ?_
  rcases hend.sent with hdone | hround
  · exact hdone
  · have harrived := congrArg List.length (hs.conserved l k q hq p)
    rw [List.length_append, List.length_append, Nat.add_assoc] at harrived
    have hlast := inRound_le_one k p (t.workers l)
    rw [pending] at hpolls
    omega

end DaqSwitch.VoqHwq
