import DaqSwitch.VoqHwq.Transmission

/-!
# Hardware virtual output queues

The rx queues of the ports are the virtual output queues.  The mapping of `dp_configure` and the
data path fit together: what a filter steers into the rx queue of an output port is sent there.

The last part is that an lcore comes round.  The steps until it tests an entry again are bounded,
since each step takes it on in the round of a tx queue, or to the next one.
-/

namespace DaqSwitch.VoqHwq

open Lib Lib.Machine

variable {α : Type*} {P : Platform} {conf : LcoreConf} {pollTsc : Option (BitVec 64)}
  {s t : Sys α}

/-! ## An lcore comes round -/

/-- The tx queue after entry `i`. -/
def nextIndex (nTxQueue i : ℕ) : ℕ := if i + 1 < nTxQueue then i + 1 else 0

/-- The entries from `i` on, before `k`. -/
def distance (nTxQueue k i : ℕ) : ℕ := if i ≤ k then k - i else nTxQueue - i + k

section Distance

variable {nTxQueue k i : ℕ}

lemma distance_lt (hk : k < nTxQueue) : distance nTxQueue k i < nTxQueue := by
  rw [distance]
  split <;> omega

lemma distance_of_ne (hk : k < nTxQueue) (hi : i < nTxQueue) (hne : i ≠ k) :
    distance nTxQueue k i = distance nTxQueue k (nextIndex nTxQueue i) + 1 := by
  simp only [distance, nextIndex]
  split <;> split <;> split <;> omega

lemma distance_nextIndex_self (hk : k < nTxQueue) :
    distance nTxQueue k (nextIndex nTxQueue k) + 1 ≤ nTxQueue := distance_lt hk

end Distance

/-- The steps for the ports from the `j`-th on: a receive and at most `MAX_PKT_BURST` transmits
for each. -/
def portSteps (nbPorts j : ℕ) : ℕ := (1 + maxPktBurst) * (nbPorts - j)

/-- The steps for an entry, its test included. -/
def entrySteps (nbPorts : ℕ) : ℕ := 1 + portSteps nbPorts 0

/-- A bound for the steps of an lcore until it tests entry `k`. -/
def stepsToTest (nTxQueue nbPorts k : ℕ) (w : Worker α) : ℕ :=
  match w.pc with
  | .test => distance nTxQueue k w.i * entrySteps nbPorts
  | .recv j =>
    portSteps nbPorts j + distance nTxQueue k (nextIndex nTxQueue w.i) * entrySteps nbPorts
  | .send j pkts => pkts.length + portSteps nbPorts (j + 1) +
      distance nTxQueue k (nextIndex nTxQueue w.i) * entrySteps nbPorts

section StepsToTest

variable {nTxQueue nbPorts k j : ℕ} {w : Worker α}

lemma portSteps_succ (hj : j < nbPorts) :
    portSteps nbPorts j = portSteps nbPorts (j + 1) + (1 + maxPktBurst) := by
  have hsub : nbPorts - j = nbPorts - (j + 1) + 1 := by omega
  rw [portSteps, portSteps, hsub, Nat.mul_add, Nat.mul_one]

lemma stepsToTest_of_test (h : w.pc = .test) :
    stepsToTest nTxQueue nbPorts k w = distance nTxQueue k w.i * entrySteps nbPorts := by
  rw [stepsToTest, h]

lemma stepsToTest_of_recv (h : w.pc = .recv j) : stepsToTest nTxQueue nbPorts k w =
    portSteps nbPorts j + distance nTxQueue k (nextIndex nTxQueue w.i) * entrySteps nbPorts := by
  rw [stepsToTest, h]

lemma stepsToTest_of_send {pkts : List (Mbuf α)} (h : w.pc = .send j pkts) :
    stepsToTest nTxQueue nbPorts k w = pkts.length + portSteps nbPorts (j + 1) +
      distance nTxQueue k (nextIndex nTxQueue w.i) * entrySteps nbPorts := by
  rw [stepsToTest, h]

lemma stepsToTest_nextQueue (w : Worker α) :
    stepsToTest nTxQueue nbPorts k (w.nextQueue nTxQueue) =
      distance nTxQueue k (nextIndex nTxQueue w.i) * entrySteps nbPorts :=
  stepsToTest_of_test rfl

lemma stepsToTest_forPort (nTxQueue nbPorts k : ℕ) (w : Worker α) (j : ℕ) :
    stepsToTest nTxQueue nbPorts k (w.forPort nTxQueue nbPorts j) ≤
      portSteps nbPorts j + distance nTxQueue k (nextIndex nTxQueue w.i) * entrySteps nbPorts := by
  rw [Worker.forPort]
  split
  · exact (stepsToTest_of_recv rfl).le
  · rw [stepsToTest_nextQueue]
    exact Nat.le_add_left _ _

lemma one_le_entrySteps (nbPorts : ℕ) : 1 ≤ entrySteps nbPorts := Nat.le_add_right _ _

lemma stepsToTest_le (hk : k < nTxQueue)
    (hsend : ∀ j pkts, w.pc = .send j pkts → j < nbPorts ∧ pkts.length ≤ maxPktBurst) :
    stepsToTest nTxQueue nbPorts k w ≤ nTxQueue * entrySteps nbPorts := by
  have hround {i : ℕ} (hi : i < nTxQueue) :
      portSteps nbPorts 0 + i * entrySteps nbPorts ≤ nTxQueue * entrySteps nbPorts := by
    have hle := Nat.mul_le_mul_right (entrySteps nbPorts) (Nat.succ_le_of_lt hi)
    rw [Nat.succ_mul] at hle
    rw [entrySteps] at hle ⊢
    omega
  have hports (j : ℕ) : portSteps nbPorts j ≤ portSteps nbPorts 0 :=
    Nat.mul_le_mul_left _ (by omega)
  cases hpc : w.pc with
  | test =>
    rw [stepsToTest_of_test hpc]
    exact Nat.mul_le_mul_right _ (distance_lt hk).le
  | recv j =>
    rw [stepsToTest_of_recv hpc]
    exact (Nat.add_le_add_right (hports j) _).trans (hround (distance_lt hk))
  | send j pkts =>
    obtain ⟨hj, hmax⟩ := hsend j pkts hpc
    have hburst : pkts.length + portSteps nbPorts (j + 1) ≤ portSteps nbPorts 0 := by
      have hle := hports j
      rw [portSteps_succ hj] at hle
      omega
    rw [stepsToTest_of_send hpc]
    exact (Nat.add_le_add_right hburst _).trans (hround (distance_lt hk))

end StepsToTest

/-- The step is one of lcore `l`. -/
def stepOf (l : ℕ) : Act α → Sys α → Bool
  | .arrive _, _ => false
  | .test l' _, _ => l' == l
  | .recv l' _, _ => l' == l
  | .send l' _, _ => l' == l

/-- The transmits of lcore `l` accept something, and entry `k` is not passed over. -/
def Steady (pollTsc : Option (BitVec 64)) (l k : ℕ) (act : Act α) (s : Sys α) : Prop :=
  act ≠ .send l 0 ∧
    ∀ curTsc, act = .test l curTsc → (s.workers l).i = k → (s.workers l).due curTsc pollTsc = true

/-- A step of lcore `l` that does not begin a round of entry `k` leads closer to one. -/
lemma WorkerStep.stepsToTest_le {l k : ℕ} {q : LcoreTxQueue} {act : Act α}
    (h : WorkerStep conf pollTsc s l q act t) (hports : q.rxPortIds.length = P.nbPorts)
    (hw : WorkerOk conf l (s.workers l)) (hq : (conf l)[(s.workers l).i]? = some q)
    (hk : k < (conf l).length) (hsteady : Steady pollTsc l k act s) :
    stepsToTest (conf l).length P.nbPorts k (t.workers l) + 1 ≤
      stepsToTest (conf l).length P.nbPorts k (s.workers l) +
        (conf l).length * entrySteps P.nbPorts * (polls pollTsc l k act s).toNat := by
  have hi : (s.workers l).i < (conf l).length := (List.getElem?_eq_some_iff.mp hq).1
  have hentry := one_le_entrySteps P.nbPorts
  cases h with
  | skip curTsc hpc hdue =>
    have hne : (s.workers l).i ≠ k := by
      intro hik
      rw [hsteady.2 curTsc rfl hik] at hdue
      cases hdue
    rw [Sys.setWorker_self, stepsToTest_nextQueue, stepsToTest_of_test hpc,
      distance_of_ne hk hi hne, Nat.succ_mul]
    omega
  | poll curTsc w hpc hdue hi' =>
    have hnext := stepsToTest_forPort (conf l).length P.nbPorts k w 0
    rw [hi'] at hnext
    rw [Sys.setWorker_self, hports, stepsToTest_of_test hpc]
    rcases eq_or_ne (s.workers l).i k with hik | hne
    · -- a whole round begins
      have hpolls : polls pollTsc l k (.test l curTsc) s = true := by simp [polls, hdue, hik]
      have hround := Nat.mul_le_mul_right (entrySteps P.nbPorts) (distance_nextIndex_self hk)
      rw [Nat.succ_mul] at hround
      rw [hik] at hnext
      rw [hpolls, Bool.toNat_true, Nat.mul_one]
      rw [entrySteps] at hround hnext ⊢
      omega
    · rw [distance_of_ne hk hi hne, Nat.succ_mul]
      rw [entrySteps] at hnext ⊢
      omega
  | recvNone j p hpc hp =>
    have hj : j < P.nbPorts := hports ▸ (List.getElem?_eq_some_iff.mp hp).1
    have hnext := stepsToTest_forPort (conf l).length P.nbPorts k (s.workers l) (j + 1)
    rw [Sys.setWorker_self, hports, stepsToTest_of_recv hpc, portSteps_succ hj]
    omega
  | recvSome j p nbRx w hpc hp hpos hmax hle hi' hw' =>
    have hj : j < P.nbPorts := hports ▸ (List.getElem?_eq_some_iff.mp hp).1
    have hburst := List.length_take_le nbRx (s.rx p q.rxQueueId)
    rw [Sys.setWorker_self, stepsToTest_of_send hw', stepsToTest_of_recv hpc, portSteps_succ hj,
      hi']
    omega
  | sendPart j pkts n hpc hlt =>
    have hn : n ≠ 0 := fun hn => hsteady.1 (hn ▸ rfl)
    have hnew : stepsToTest (conf l).length P.nbPorts k
        { s.workers l with pc := .send j (pkts.drop n) } =
      (pkts.drop n).length + portSteps P.nbPorts (j + 1) +
        distance (conf l).length k (nextIndex (conf l).length (s.workers l).i) *
          entrySteps P.nbPorts := stepsToTest_of_send rfl
    rw [Sys.setWorker_self, hnew, stepsToTest_of_send hpc, List.length_drop]
    omega
  | sendRest j pkts hpc =>
    have hpos := List.length_pos_iff.mpr (hw.send j pkts hpc).1
    have hnext := stepsToTest_forPort (conf l).length P.nbPorts k (s.workers l) (j + 1)
    rw [Sys.setWorker_self, hports, stepsToTest_of_send hpc]
    omega

/-- **Run lemma.** An lcore that takes steps comes back to each of its tx queues. -/
lemma stepOf_le_polls {l k : ℕ} {q : LcoreTxQueue} {acts : List (Act α)}
    (hconf : Configured P conf) (hs : Inv P conf s) (hq : Serves P conf l k q)
    (hrun : run (Sys.step conf pollTsc P) acts s = some t)
    (hsteady : Throughout (Sys.step conf pollTsc P) (Steady pollTsc l k) acts s) :
    tally (Sys.step conf pollTsc P) (stepOf l) acts s ≤ (conf l).length * entrySteps P.nbPorts *
      (tally (Sys.step conf pollTsc P) (polls pollTsc l k) acts s + 1) := by
  have hk : k < (conf l).length := (List.getElem?_eq_some_iff.mp hq.entry).1
  have hports {q : LcoreTxQueue} (hq : q ∈ P.entries conf) : q.rxPortIds.length = P.nbPorts := by
    rw [hconf.rxPortIds q hq, List.length_range]
  have hstep (act : Act α) (u v : Sys α) (hst : u.step conf pollTsc P act = some v)
      (hsteady : Steady pollTsc l k act u) (hu : Inv P conf u) :
      stepsToTest (conf l).length P.nbPorts k (v.workers l) + (stepOf l act u).toNat ≤
        stepsToTest (conf l).length P.nbPorts k (u.workers l) +
          (conf l).length * entrySteps P.nbPorts * (polls pollTsc l k act u).toNat := by
    rcases step_cases hst with ⟨m, rfl, rfl⟩ | ⟨l', q', hq', hstep⟩
    · exact Nat.le_add_right _ _
    · rcases eq_or_ne l' l with rfl | hne
      · have hown : stepOf l' act u = true := by cases hstep <;> exact beq_self_eq_true l'
        rw [hown]
        exact hstep.stepsToTest_le (hports hq'.mem) (hu.worker l') hq'.entry hk hsteady
      · have hother : stepOf l act u = false := by cases hstep <;> exact beq_false_of_ne hne
        rw [hother, hstep.worker_eq (Ne.symm hne)]
        exact Nat.le_add_right _ _
  have hpays : stepsToTest (conf l).length P.nbPorts k (t.workers l) +
        tally (Sys.step conf pollTsc P) (stepOf l) acts s ≤
      stepsToTest (conf l).length P.nbPorts k (s.workers l) +
        (conf l).length * entrySteps P.nbPorts *
          tally (Sys.step conf pollTsc P) (polls pollTsc l k) acts s :=
    tally_le_of_potential (fun _ _ _ hst hu => hu.step hconf hst) hstep hrun hsteady hs
  have hstart : stepsToTest (conf l).length P.nbPorts k (s.workers l) ≤
      (conf l).length * entrySteps P.nbPorts := by
    refine stepsToTest_le hk ?_
    intro j pkts hpc
    obtain ⟨-, hmax, q', p, hq', hp, -⟩ := (hs.worker l).send j pkts hpc
    rw [← hports (Serves.mem ⟨hq.lcore, hq'⟩)]
    exact ⟨(List.getElem?_eq_some_iff.mp hp).1, hmax⟩
  rw [Nat.mul_add, Nat.mul_one]
  omega

/-! ## An lcore is never stuck -/

/-- Lcore `l` can take a step, whatever the time is and however much the packet library
receives or transmits. -/
structure Ready (P : Platform) (conf : LcoreConf) (pollTsc : Option (BitVec 64)) (s : Sys α)
    (l : ℕ) : Prop where
  test : (s.workers l).pc = .test →
    ∀ curTsc, ∃ t, s.step conf pollTsc P (.test l curTsc) = some t
  recv : ∀ j, (s.workers l).pc = .recv j →
    ∃ q p, curTxq conf s l = some q ∧ q.rxPortIds[j]? = some p ∧
      ∀ nbRx ≤ maxPktBurst, nbRx ≤ (s.rx p q.rxQueueId).length →
        ∃ t, s.step conf pollTsc P (.recv l nbRx) = some t
  send : ∀ j pkts, (s.workers l).pc = .send j pkts →
    ∀ n ≤ pkts.length, ∃ t, s.step conf pollTsc P (.send l n) = some t

lemma Inv.ready {l : ℕ} (h : Inv P conf s) (hl : l ∈ P.lcores) (hworker : P.isWorker l = true)
    (hne : conf l ≠ []) : Ready P conf pollTsc s l := by
  have hw := h.worker l
  have hcur : curTxq conf s l = some ((conf l).get ⟨(s.workers l).i, hw.index hne⟩) :=
    List.getElem?_eq_getElem (hw.index hne)
  refine ⟨?_, ?_, ?_⟩
  · intro hpc curTsc
    rw [Sys.step, if_pos ⟨hl, hworker⟩, testStep, hpc, hcur]
    dsimp only
    split <;> exact ⟨_, rfl⟩
  · intro j hpc
    obtain ⟨q, hq, hj⟩ := hw.recv j hpc
    have hq' : curTxq conf s l = some q := hq
    refine ⟨q, _, hq, List.getElem?_eq_getElem hj, fun nbRx hmax hle => ?_⟩
    rw [Sys.step, if_pos ⟨hl, hworker⟩, recvStep, hpc, hq']
    dsimp only
    rw [List.getElem?_eq_getElem hj, Option.bind_some, if_pos ⟨hmax, hle⟩]
    split <;> exact ⟨_, rfl⟩
  · intro j pkts hpc n hn
    rw [Sys.step, if_pos ⟨hl, hworker⟩, sendStep, hpc, hcur]
    dsimp only
    rw [if_pos hn]
    exact ⟨_, rfl⟩

/-! ## From the filter to the wire -/

/-- The filters that `add_ipv4_rule` adds for a port. -/
lemma mem_addIpv4Rule {rets : ℕ → ℤ} {ipv4 : BitVec 32} {o : ℕ} {routes : Platform.Routes}
    {f : Platform.Filter} :
    f ∈ (P.addIpv4Rule conf rets ipv4 o routes).2.filters ↔ f ∈ routes.filters ∨
      ∃ p < (P.nbPorts : ℕ), 0 ≤ rets p ∧
        f = ⟨p, routes.nbIpRoutes, ipv4, P.getRxqueuesId conf o⟩ := by
  simp only [Platform.addIpv4Rule, List.mem_append, List.mem_map, List.mem_filter, List.mem_range,
    decide_eq_true_eq, and_assoc, @eq_comm _ _ f]

/-- What the data path does in state `s` with the packets in the rx queue of entry `q`, the
`k`-th of lcore `l`. -/
structure Transmits (P : Platform) (conf : LcoreConf) (pollTsc : Option (BitVec 64)) (s : Sys α)
    (l k : ℕ) (q : LcoreTxQueue) : Prop where
  /-- From each port they are sent once and in order, and the others wait. -/
  inOrder : ∀ p, Conserved s l q p
  /-- They are sent on no other port. -/
  nowhereElse : ∀ o ≠ q.portId, ∀ x ∈ s.sent o, x.2.rxQueue ≠ q.rxQueueId
  ready : Ready P conf pollTsc s l
  /-- Those that have arrived are sent once the lcore has polled more often than they are. -/
  sent : ∀ p < (P.nbPorts : ℕ), ∀ acts t, run (Sys.step conf pollTsc P) acts s = some t →
    Throughout (Sys.step conf pollTsc P) (RxAnswers conf) acts s →
    pending s l q p < tally (Sys.step conf pollTsc P) (polls pollTsc l k) acts s →
    s.arrived p q.rxQueueId <+: t.sentFrom q.portId p q.rxQueueId
  /-- A running lcore polls again and again. -/
  comesRound : ∀ acts t, run (Sys.step conf pollTsc P) acts s = some t →
    Throughout (Sys.step conf pollTsc P) (Steady pollTsc l k) acts s →
    tally (Sys.step conf pollTsc P) (stepOf l) acts s ≤ (conf l).length * entrySteps P.nbPorts *
      (tally (Sys.step conf pollTsc P) (polls pollTsc l k) acts s + 1)

lemma Inv.transmits (h : Inv P conf s) (hconf : Configured P conf) {l k : ℕ} {q : LcoreTxQueue}
    (hq : Serves P conf l k q) : Transmits P conf pollTsc s l k q where
  inOrder := h.conserved l k q hq
  nowhereElse o ho x hx hrx := by
    obtain ⟨-, l', k', q', hq', rfl, hrx'⟩ := h.sent o x hx
    exact ho (congrArg LcoreTxQueue.portId
      (hconf.eq_of_rxQueueId hq'.mem hq.mem (hrx'.symm.trans hrx)))
  ready := h.ready hq.lcore (hconf.worker l hq.ne_nil) hq.ne_nil
  sent _ hp _ _ hrun hrx hpolls := arrived_prefix_sentFrom hconf h hq hp hrun hrx hpolls
  comesRound _ _ hrun hsteady := stepOf_le_polls hconf h hq hrun hsteady

/-- **Hardware virtual output queues.**  After `dp_init` and `dp_configure` each rx queue stands for
one output port.  The filters of a rule steer into the queue of its port, and in every run one lcore
sends what comes in there, from each port once and in order, on this port and nowhere else.  It comes
round to the queue again and again. -/
theorem voq_of_dpInit {d d' : Daqswitch} (h : P.dpInit d = some (conf, d')) :
    VoqMapping P (P.dpConfigure conf) d' ∧
      ∀ o < (P.nbPorts : ℕ), ∃ l k q, Serves P (P.dpConfigure conf) l k q ∧ q.portId = o ∧
        (∀ rets ipv4 routes f,
          f ∈ (P.addIpv4Rule (P.dpConfigure conf) rets ipv4 o routes).2.filters ↔
            f ∈ routes.filters ∨ ∃ p < (P.nbPorts : ℕ), 0 ≤ rets p ∧
              f = ⟨p, routes.nbIpRoutes, ipv4, q.rxQueueId⟩) ∧
        ∀ (acts : List (Act α)) s,
          run (Sys.step (P.dpConfigure conf) pollTsc P) acts Sys.init = some s →
            Transmits P (P.dpConfigure conf) pollTsc s l k q := by
  have hconf := configured_of_dpInit h
  refine ⟨hconf.voqMapping (Platform.nbRxq_of_dpInit h), ?_⟩
  intro o ho
  obtain ⟨l, k, q, hq, rfl⟩ := hconf.exists_of_portId ho
  refine ⟨l, k, q, hq, rfl, ?_, fun acts s hrun =>
    (inv_run hconf hrun).transmits hconf hq⟩
  intro rets ipv4 routes f
  rw [← hconf.getRxqueuesId_eq hq.mem]
  exact mem_addIpv4Rule

/-- Two worker lcores and two ports, each on its own socket; the port of the first lcore is the
second one. -/
def twoSockets : Platform where
  rteMaxLcore := ⟨3, by decide⟩
  enabled _ := true
  master := 0
  lcoreSocket l := l % 2
  portSocket p := p
  nbPorts := ⟨2, by decide⟩
  use5tuple := true

/-- Before `dp_init`. -/
def Daqswitch.zeroed : Daqswitch := ⟨false, fun _ => ⟨0, 0, 0, 0, none⟩⟩

/-- Two packets for the first port, which are sent one by one. -/
def twoPackets : List (Act ℕ) :=
  [.arrive ⟨0, 1, 7⟩, .arrive ⟨0, 1, 8⟩, .test 2 0, .recv 2 2, .send 2 1, .send 2 1]

/-- The theorem for these: the run exists, and sends both packets. -/
theorem voq_of_dpInit_twoSockets : ∃ conf d', twoSockets.dpInit Daqswitch.zeroed = some (conf, d') ∧
    twoSockets.getRxqueuesId (twoSockets.dpConfigure conf) 0 = 1 ∧
      VoqMapping twoSockets (twoSockets.dpConfigure conf) d' ∧
      ∃ s, run (Sys.step (twoSockets.dpConfigure conf) none twoSockets) twoPackets Sys.init =
          some s ∧ (s.sent 0).map Prod.snd = [⟨0, 1, 7⟩, ⟨0, 1, 8⟩] ∧
        ∀ o < 2, ∃ l k q, Serves twoSockets (twoSockets.dpConfigure conf) l k q ∧ q.portId = o ∧
          Transmits twoSockets (twoSockets.dpConfigure conf) none s l k q := by
  obtain ⟨conf, d', h, hid, s, hs, hsent⟩ : ∃ conf d',
      twoSockets.dpInit Daqswitch.zeroed = some (conf, d') ∧
      twoSockets.getRxqueuesId (twoSockets.dpConfigure conf) 0 = 1 ∧
      ∃ s, run (Sys.step (twoSockets.dpConfigure conf) none twoSockets) twoPackets Sys.init =
        some s ∧ (s.sent 0).map Prod.snd = [⟨0, 1, 7⟩, ⟨0, 1, 8⟩] := ⟨_, _, rfl, rfl, _, rfl, rfl⟩
  obtain ⟨hmapping, hports⟩ := @voq_of_dpInit ℕ twoSockets conf none _ _ h
  refine ⟨conf, d', h, hid, hmapping, s, hs, hsent, ?_⟩
  intro o ho
  obtain ⟨l, k, q, hq, hport, -, hruns⟩ := hports o ho
  exact ⟨l, k, q, hq, hport, hruns twoPackets s hs⟩

end DaqSwitch.VoqHwq
