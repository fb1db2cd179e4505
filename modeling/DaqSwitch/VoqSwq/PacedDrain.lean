import DaqSwitch.Lib.Spaced
import DaqSwitch.VoqSwq.Lossless

/-!
# The drain interval

`dp_main_loop_lcore_data_tx` of `dp_lcore_data_tx.c` with its clock.  The loop of one data tx
lcore runs against an environment that moves the time-stamp counter forward, fills the rings
and changes flow tables and masks as it likes.  The slot that is stamped after a burst is the
slot that was tested before it, so two bursts of a slot that is not in request mode are more
than `drain_tsc` apart.
-/

namespace DaqSwitch.VoqSwq

open Lib Lib.Machine

/-- The constant `drain_tsc`, from the frequency of the counter and `DP_TX_DRAIN_INTERVAL`. -/
def drainTsc (tscHz interval : BitVec 64) : BitVec 64 :=
  (tscHz + 1000000 - 1) / 1000000 * interval

/-- The interval is not empty unless the computation of `drain_tsc` wraps around. -/
lemma drainTsc_pos {tscHz interval : BitVec 64} (hHz : 0 < tscHz) (hinterval : 0 < interval)
    (hadd : tscHz.toNat + 1000000 < 2 ^ 64)
    (hmul : (tscHz.toNat + 999999) / 1000000 * interval.toNat < 2 ^ 64) :
    0 < drainTsc tscHz interval := by
  have hnum : (tscHz + 1000000 - 1).toNat = tscHz.toNat + 999999 := by bv_omega
  have hdiv : 0 < (tscHz.toNat + 999999) / 1000000 := by bv_omega
  rw [BitVec.lt_def, drainTsc, BitVec.toNat_mul, BitVec.toNat_udiv, hnum]
  refine (Nat.mul_pos hdiv (BitVec.lt_def.mp hinterval)).trans_eq ?_
  exact (Nat.mod_eq_of_lt hmul).symm

/-- A call of `rte_ring_dequeue_burst` that returned packets, and the time of the call. -/
structure Drain where
  ring : RteRing
  tsc : BitVec 64
  nbDeq : ℕ
deriving DecidableEq, Repr

/-- The loop with its clock.  `due` says that the test of flow `i` has passed and its ring
is dequeued next; `drains` records the dequeues that returned packets. -/
structure PacedTx where
  dp : DpParams
  x : TxLcore
  due : Bool
  lastDrainTsc : ℕ → ℕ → BitVec 64
  tsc : BitVec 64
  ring : RteRing → List Mbuf
  drains : List Drain

namespace PacedTx

/-- On entry; `last_drain_tsc` is not initialised. -/
def init (dp : DpParams) (garbage : ℕ → Mbuf) (lastDrainTsc : ℕ → ℕ → BitVec 64) (tsc : BitVec 64)
    (ring : RteRing → List Mbuf) : PacedTx :=
  ⟨dp, TxLcore.init garbage, false, lastDrainTsc, tsc, ring, []⟩

/-- The port configuration that the lcore is at. -/
def curTxp (s : PacedTx) (l : ℕ) : LcoreDataTxPortConf := (s.dp.lcores l).tx s.x.portIdx

/-- The flow that the lcore is at. -/
def curFlow (s : PacedTx) (l : ℕ) : DataFlow := s.dp.flows (s.curTxp l).portId s.x.i

def diffTsc (s : PacedTx) : BitVec 64 := s.tsc - s.lastDrainTsc s.x.portIdx s.x.i

/-- `last_drain_tsc[port_idx][i] = rte_rdtsc()`. -/
def stamped (s : PacedTx) : ℕ → ℕ → BitVec 64 :=
  Function.update s.lastDrainTsc s.x.portIdx
    (Function.update (s.lastDrainTsc s.x.portIdx) s.x.i s.tsc)

/-! ## The steps -/

def nextPort (l : ℕ) (s : PacedTx) : Option PacedTx :=
  if s.x.pc = .test ∧ s.due = false ∧ dpPortMaxDataFlows ≤ s.x.i then
    some { s with x := s.x.nextPort (s.dp.lcores l) }
  else none

/-- The tests of `active_flows`, `req_flow` and `diff_tsc`. -/
def test (C : OneShl) (drain : BitVec 64) (l : ℕ) (s : PacedTx) : Option PacedTx :=
  if s.x.pc = .test ∧ s.due = false ∧ s.x.i < dpPortMaxDataFlows then
    if activeTest C (s.curTxp l).activeFlows s.x.i &&
        ((s.curFlow l).reqFlow || decide (drain < s.diffTsc)) then
      some { s with due := true }
    else some { s with x := s.x.nextFlow }
  else none

/-- `rte_ring_dequeue_burst` hands out `nbDeq` packets; on a null ring there is no
successor. -/
def dequeue (l nbDeq : ℕ) (s : PacedTx) : Option PacedTx :=
  if s.due then
    (s.dp.rings (s.curTxp l).portId s.x.i).bind fun r =>
      if nbDeq ≤ dpPortMaxPktBurstTx ∧ nbDeq ≤ (s.ring r).length then
        some { s with
          x := s.x.dequeued ((s.ring r).take nbDeq) (txQueueId (s.curFlow l))
          due := false
          ring := Function.update s.ring r ((s.ring r).drop nbDeq)
          drains := if nbDeq > 0 then s.drains ++ [⟨r, s.tsc, nbDeq⟩] else s.drains }
      else none
  else none

/-- `rte_eth_tx_burst` accepts `nbTx` packets; after the last one the slot is stamped. -/
def send (nbTx : ℕ) (s : PacedTx) : Option PacedTx :=
  if s.x.pc ≠ .test ∧ nbTx ≤ s.x.nbDeq then
    some { s with
      x := s.x.accepted nbTx
      lastDrainTsc := if s.x.nbDeq - nbTx = 0 then s.stamped else s.lastDrainTsc }
  else none

/-- A step of the loop. -/
inductive LoopAct
  | nextPort
  | test
  | dequeue (nbDeq : ℕ)
  | send (nbTx : ℕ)

/-- A step of the loop, of the clock, or of the other lcores. -/
inductive Act
  | loop (act : LoopAct)
  | tick (tsc : BitVec 64)
  | others (flows : ℕ → ℕ → DataFlow) (masks : ℕ → ℕ → BitVec 64) (ring : RteRing → List Mbuf)

def loopStep (C : OneShl) (drain : BitVec 64) (l : ℕ) : LoopAct → PacedTx → Option PacedTx
  | .nextPort => nextPort l
  | .test => test C drain l
  | .dequeue nbDeq => dequeue l nbDeq
  | .send nbTx => send nbTx

/-- One step.  The counter neither decreases nor wraps around. -/
def step (C : OneShl) (drain : BitVec 64) (l : ℕ) (act : Act) (s : PacedTx) : Option PacedTx :=
  match act with
  | .loop act =>
    if l < s.dp.nbLcores ∧ (s.dp.lcores l).type = .dataTx ∧ 0 < (s.dp.lcores l).nbPorts then
      loopStep C drain l act s
    else none
  | .tick tsc => if s.tsc ≤ tsc then some { s with tsc := tsc } else none
  | .others flows masks ring => some { s with dp := s.dp.configure flows masks, ring := ring }

/-- The dequeues of one ring. -/
def drainsOf (s : PacedTx) (r : RteRing) : List Drain := s.drains.filter fun d => d.ring == r

/-! ## The invariant of a ring -/

/-- The loop is between the tests of flow `i` of entry `k` and its stamp. -/
def Sending (s : PacedTx) (k i : ℕ) : Prop := s.x.pc ≠ .test ∧ s.x.portIdx = k ∧ s.x.i = i

/-- What the loop keeps about the ring `r` of a slot: outside a burst of the slot its stamp
is not older than the last dequeue, and once its test has passed the interval is over. -/
structure RingInv (dp : DpParams) (drain : BitVec 64) (l : ℕ) (r : RteRing) (s : PacedTx) :
    Prop where
  same : SameConf dp s.dp
  portIdx : 0 < (dp.lcores l).nbPorts → s.x.portIdx < (dp.lcores l).nbPorts
  test_of_due : s.due = true → s.x.pc = .test
  size : ∀ d ∈ s.drainsOf r, d.nbDeq ≤ dpPortMaxPktBurstTx
  spaced : Spaced (fun d : Drain => d.tsc.toNat) drain.toNat (s.drainsOf r)
  past : ∀ d ∈ s.drainsOf r, d.tsc ≤ s.tsc
  stamp : ∀ k, TxEntry dp l k r.port → ¬ s.Sending k r.queue → ∀ d ∈ s.drainsOf r,
    d.tsc ≤ s.lastDrainTsc k r.queue ∧ s.lastDrainTsc k r.queue ≤ s.tsc
  elapsed : s.due = true → TxEntry dp l s.x.portIdx r.port → s.x.i = r.queue →
    ∀ d ∈ s.drainsOf r, d.tsc.toNat + drain.toNat < s.tsc.toNat

namespace RingInv

variable {dp : DpParams} {drain : BitVec 64} {l : ℕ} {r : RteRing} {s t : PacedTx}

/-- A move between two tests. -/
lemma move (h : RingInv dp drain l r s) {x : TxLcore} (hpc : s.x.pc = .test) (hdue : s.due = false)
    (hpc' : x.pc = .test)
    (hport : 0 < (dp.lcores l).nbPorts → x.portIdx < (dp.lcores l).nbPorts) :
    RingInv dp drain l r { s with x := x } where
  same := h.same
  portIdx := hport
  test_of_due _ := hpc'
  size := h.size
  spaced := h.spaced
  past := h.past
  stamp k hk _ := h.stamp k hk fun hsend => hsend.1 hpc
  elapsed hdue' := by
    rw [hdue] at hdue'
    cases hdue'

lemma nextPort (h : RingInv dp drain l r s) (hst : s.nextPort l = some t) :
    RingInv dp drain l r t := by
  rw [PacedTx.nextPort] at hst
  split at hst
  · next hif =>
    obtain ⟨hpc, hdue, -⟩ := hif
    rw [← Option.some_inj.mp hst]
    refine h.move hpc hdue hpc ?_
    intro hpos
    rw [TxLcore.nextPort, h.same.nbPorts l]
    exact Nat.mod_lt _ hpos
  · cases hst

/-- At the current entry the lcore serves the port of that entry. -/
lemma entry (h : RingInv dp drain l r s) (hl : l < s.dp.nbLcores)
    (htype : (s.dp.lcores l).type = .dataTx) (hpos : 0 < (s.dp.lcores l).nbPorts) :
    TxEntry dp l s.x.portIdx (s.curTxp l).portId := by
  rw [h.same.nbPorts l] at hpos
  refine h.same.txEntry_iff.mp ⟨mem_lcoresOf.mpr ⟨hl, htype⟩, ?_, rfl⟩
  rw [h.same.nbPorts l]
  exact h.portIdx hpos

lemma portId_eq (h : RingInv dp drain l r s) (he : TxEntry dp l s.x.portIdx r.port) :
    (s.curTxp l).portId = r.port := (h.same.txEntry_iff.mpr he).port

/-- When the test of a slot passes, the interval since its last dequeue is over. -/
lemma test {C : OneShl} (h : RingInv dp drain l r s)
    (hflow : (s.dp.flows r.port r.queue).reqFlow = false) (hst : s.test C drain l = some t) :
    RingInv dp drain l r t := by
  rw [PacedTx.test] at hst
  split at hst
  · next hif =>
    obtain ⟨hpc, hdue, -⟩ := hif
    split at hst
    · next hpass =>
      rw [← Option.some_inj.mp hst]
      refine ⟨h.same, h.portIdx, fun _ => hpc, h.size, h.spaced, h.past, h.stamp, ?_⟩
      intro _ he hi d hd
      change s.x.i = r.queue at hi
      obtain ⟨hlast, hnow⟩ := h.stamp _ he (fun hsend => hsend.1 hpc) d hd
      have hreq : (s.curFlow l).reqFlow = false := by
        rw [curFlow, h.portId_eq he, hi]
        exact hflow
      have hdiff : drain < s.tsc - s.lastDrainTsc s.x.portIdx r.queue := by
        simpa [hreq, diffTsc, hi] using (Bool.and_eq_true_iff.mp hpass).2
      -- the counter has not wrapped around, so the difference is one of numbers
      show d.tsc.toNat + drain.toNat < s.tsc.toNat
      bv_omega
    · rw [← Option.some_inj.mp hst]
      exact h.move hpc hdue rfl h.portIdx
  · cases hst

lemma drainsOf_concat (s : PacedTx) (d : Drain) :
    (s.drains ++ [d]).filter (fun d => d.ring == r) =
      s.drainsOf r ++ if d.ring = r then [d] else [] := by
  rw [List.filter_append, drainsOf]
  by_cases hd : d.ring = r
  · rw [if_pos hd, List.filter_cons_of_pos (by simpa using hd), List.filter_nil]
  · rw [if_neg hd, List.filter_cons_of_neg (by simpa using hd), List.filter_nil]

/-- A dequeue from another ring, or without packets. -/
lemma keepDrains (h : RingInv dp drain l r s) {x : TxLcore} {ring : RteRing → List Mbuf}
    {drains : List Drain} (hpc : s.x.pc = .test) (hport : x.portIdx = s.x.portIdx)
    (hdrains : drains.filter (fun d => d.ring == r) = s.drainsOf r) :
    RingInv dp drain l r { s with x := x, due := false, ring := ring, drains := drains } := by
  refine ⟨h.same, ?_, fun hdue => (Bool.false_ne_true hdue).elim, ?_, ?_, ?_, ?_,
    fun hdue => (Bool.false_ne_true hdue).elim⟩
  · intro hpos
    exact hport.trans_lt (h.portIdx hpos)
  · rw [drainsOf, hdrains]
    exact h.size
  · rw [drainsOf, hdrains]
    exact h.spaced
  · rw [drainsOf, hdrains]
    exact h.past
  · rw [drainsOf, hdrains]
    exact fun k hk _ => h.stamp k hk fun hsend => hsend.1 hpc

/-- A dequeue with packets from the ring itself, by the entry of its port. -/
lemma ownDrain (h : RingInv dp drain l r s)
    (hunique : ∀ k k' p, TxEntry dp l k p → TxEntry dp l k' p → k = k')
    (he : TxEntry dp l s.x.portIdx r.port) (hi : s.x.i = r.queue) (hdue : s.due = true)
    {x : TxLcore} {ring : RteRing → List Mbuf} {nbDeq : ℕ} (hpc : x.pc ≠ .test)
    (hport : x.portIdx = s.x.portIdx) (hslot : x.i = s.x.i) (hle : nbDeq ≤ dpPortMaxPktBurstTx) :
    RingInv dp drain l r { s with
      x := x, due := false, ring := ring, drains := s.drains ++ [⟨r, s.tsc, nbDeq⟩] } := by
  have hdrains := drainsOf_concat (r := r) s ⟨r, s.tsc, nbDeq⟩
  rw [if_pos rfl] at hdrains
  refine ⟨h.same, ?_, fun hdue => (Bool.false_ne_true hdue).elim, ?_, ?_, ?_, ?_,
    fun hdue => (Bool.false_ne_true hdue).elim⟩
  · intro hpos
    exact hport.trans_lt (h.portIdx hpos)
  · rw [drainsOf, hdrains]
    exact List.forall_mem_append.mpr ⟨h.size, List.forall_mem_singleton.mpr hle⟩
  · rw [drainsOf, hdrains]
    exact h.spaced.concat (h.elapsed hdue he hi)
  · rw [drainsOf, hdrains]
    exact List.forall_mem_append.mpr ⟨h.past, List.forall_mem_singleton.mpr (BitVec.le_refl _)⟩
  · -- the slot is in a burst now
    intro k hk hsend
    exact absurd ⟨hpc, hport.trans (hunique _ _ _ he hk), hslot.trans hi⟩ hsend

lemma dequeue (h : RingInv dp drain l r s) (hrings : ∀ i j r, dp.rings i j = some r → r = ⟨i, j⟩)
    (hunique : ∀ k k' p, TxEntry dp l k p → TxEntry dp l k' p → k = k')
    (he : TxEntry dp l s.x.portIdx (s.curTxp l).portId) {nbDeq : ℕ}
    (hst : s.dequeue l nbDeq = some t) : RingInv dp drain l r t := by
  rw [PacedTx.dequeue] at hst
  split at hst
  · next hdue =>
    obtain ⟨r₁, hr₁, hst⟩ := Option.bind_eq_some_iff.mp hst
    rw [h.same.rings] at hr₁
    obtain rfl := hrings _ _ _ hr₁
    split at hst
    · next hle =>
      have hlen : ((s.ring ⟨(s.curTxp l).portId, s.x.i⟩).take nbDeq).length = nbDeq := by
        rw [List.length_take, Nat.min_eq_left hle.2]
      have hpc := h.test_of_due hdue
      rw [← Option.some_inj.mp hst]
      by_cases hown : 0 < nbDeq ∧ r = ⟨(s.curTxp l).portId, s.x.i⟩
      · obtain ⟨hpos, rfl⟩ := hown
        rw [if_pos hpos, TxLcore.dequeued, if_pos (hpos.trans_eq hlen.symm)]
        exact h.ownDrain hunique he rfl hdue TxPc.noConfusion rfl rfl hle.1
      · refine h.keepDrains hpc ?_ ?_
        · rw [TxLcore.dequeued]
          split <;> rfl
        · split
          · next hpos =>
            rw [drainsOf_concat, if_neg fun hr => hown ⟨hpos, hr.symm⟩, List.append_nil]
          · rfl
    · cases hst
  · cases hst

/-- The stamp of a slot is written when its burst is over. -/
lemma send (h : RingInv dp drain l r s) {nbTx : ℕ} (hst : s.send nbTx = some t) :
    RingInv dp drain l r t := by
  rw [PacedTx.send] at hst
  split at hst
  · next hif =>
    obtain ⟨hpc, -⟩ := hif
    have hdue : s.due ≠ true := fun hdue => hpc (h.test_of_due hdue)
    rw [← Option.some_inj.mp hst, TxLcore.accepted]
    simp only
    split
    · refine ⟨h.same, h.portIdx, fun _ => rfl, h.size, h.spaced, h.past, ?_,
        fun hdue' => (hdue hdue').elim⟩
      intro k hk _ d hd
      show d.tsc ≤ s.stamped k r.queue ∧ s.stamped k r.queue ≤ s.tsc
      by_cases hown : s.x.portIdx = k ∧ s.x.i = r.queue
      · obtain ⟨rfl, hi⟩ := hown
        rw [stamped, Function.update_self, ← hi, Function.update_self]
        exact ⟨h.past d hd, BitVec.le_refl _⟩
      · have hsame : s.stamped k r.queue = s.lastDrainTsc k r.queue := by
          rw [stamped]
          by_cases hk' : k = s.x.portIdx
          · subst hk'
            rw [Function.update_self, Function.update_of_ne fun hi => hown ⟨rfl, hi.symm⟩]
          · rw [Function.update_of_ne hk']
        rw [hsame]
        exact h.stamp k hk (fun hsend => hown hsend.2) d hd
    · exact ⟨h.same, h.portIdx, fun hdue' => (hdue hdue').elim, h.size, h.spaced, h.past, h.stamp,
        fun hdue' => (hdue hdue').elim⟩
  · cases hst

/-- **Step lemma.**  No step brings two bursts of the slot closer than the drain interval: a burst
begins only when the interval since the stamp is over, and ends with a new stamp. -/
lemma step {C : OneShl} (h : RingInv dp drain l r s)
    (hrings : ∀ i j r, dp.rings i j = some r → r = ⟨i, j⟩)
    (hunique : ∀ k k' p, TxEntry dp l k p → TxEntry dp l k' p → k = k')
    (hflow : (s.dp.flows r.port r.queue).reqFlow = false) {act : Act}
    (hst : s.step C drain l act = some t) : RingInv dp drain l r t := by
  cases act with
  | loop act =>
    rw [PacedTx.step] at hst
    split at hst
    · next hif =>
      obtain ⟨hl, htype, hpos⟩ := hif
      cases act with
      | nextPort => exact h.nextPort hst
      | test => exact h.test hflow hst
      | dequeue nbDeq => exact h.dequeue hrings hunique (h.entry hl htype hpos) hst
      | send nbTx => exact h.send hst
    · cases hst
  | tick tsc =>
    rw [PacedTx.step] at hst
    split at hst
    · next hle =>
      rw [← Option.some_inj.mp hst]
      refine ⟨h.same, h.portIdx, h.test_of_due, h.size, h.spaced, ?_, ?_, ?_⟩
      · exact fun d hd => BitVec.le_trans (h.past d hd) hle
      · intro k hk hsend d hd
        obtain ⟨hlast, hnow⟩ := h.stamp k hk hsend d hd
        exact ⟨hlast, BitVec.le_trans hnow hle⟩
      · exact fun hdue he hi d hd => (h.elapsed hdue he hi d hd).trans_le (BitVec.le_def.mp hle)
    · cases hst
  | others flows masks ring =>
    rw [PacedTx.step, Option.some_inj] at hst
    rw [← hst]
    exact ⟨h.same.trans (sameConf_configure s.dp flows masks), h.portIdx, h.test_of_due, h.size,
      h.spaced, h.past, h.stamp, h.elapsed⟩

lemma init (garbage : ℕ → Mbuf) (lastDrainTsc : ℕ → ℕ → BitVec 64) (tsc : BitVec 64)
    (ring : RteRing → List Mbuf) :
    RingInv dp drain l r (PacedTx.init dp garbage lastDrainTsc tsc ring) where
  same := SameConf.refl dp
  portIdx hpos := hpos
  test_of_due _ := rfl
  size _ hd := (List.not_mem_nil hd).elim
  spaced := Spaced.nil
  past _ hd := (List.not_mem_nil hd).elim
  stamp _ _ _ _ hd := (List.not_mem_nil hd).elim
  elapsed _ _ _ _ hd := (List.not_mem_nil hd).elim

end RingInv

/-! ## The rate of a slot -/

/-- Dequeues are more than `drain` cycles apart, and in any window of `w` cycles at most
`w / drain + 1` bursts are dequeued. -/
structure Paced (drain : BitVec 64) (drains : List Drain) : Prop where
  spaced : drains.Pairwise fun d d' => d.tsc.toNat + drain.toNat < d'.tsc.toNat
  rate : 0 < drain → ∀ t w,
    ((inWindow (fun d : Drain => d.tsc.toNat) t w drains).map Drain.nbDeq).sum ≤
      32 * (w / drain.toNat + 1)

lemma RingInv.paced {dp : DpParams} {drain : BitVec 64} {l : ℕ} {r : RteRing} {s : PacedTx}
    (h : RingInv dp drain l r s) : Paced drain (s.drainsOf r) where
  spaced := h.spaced
  rate hpos := h.spaced.sum_inWindow_le h.size (BitVec.lt_def.mp hpos)

section Rate

variable {P : Platform} {dp : DpParams} {C : OneShl} {tscHz interval : BitVec 64} {l o i : ℕ}
  {r : RteRing} {garbage : ℕ → Mbuf} {lastDrainTsc : ℕ → ℕ → BitVec 64} {tsc : BitVec 64}
  {ring : RteRing → List Mbuf} {acts : List Act} {s : PacedTx}

/-- **The drain of a data flow is paced.**  In every run of the loop of a tx lcore, the
dequeues from the ring of a slot that stays out of request mode are more than `drain_tsc`
cycles apart, whatever the other rings and lcores do. -/
theorem slot_paced (hinit : dpInit P = some dp) (hring : dp.rings o i = some r)
    (hrun : run (step C (drainTsc tscHz interval) l) acts
      (init dp garbage lastDrainTsc tsc ring) = some s)
    (hflow : Throughout (step C (drainTsc tscHz interval) l)
      (fun _ s => (s.dp.flows o i).reqFlow = false) acts
      (init dp garbage lastDrainTsc tsc ring)) :
    Paced (drainTsc tscHz interval) (s.drainsOf r) := by
  obtain ⟨hready, hringsEq⟩ := dpInit_spec hinit
  have hrings : ∀ i j r, dp.rings i j = some r → r = ⟨i, j⟩ := by
    intro i j r hr
    rw [hringsEq] at hr
    split at hr
    · exact (Option.some_inj.mp hr).symm
    · cases hr
  obtain rfl := hrings o i r hring
  have hunique : ∀ k k' p, TxEntry dp l k p → TxEntry dp l k' p → k = k' :=
    fun k k' p h h' => (hready.txEntry_unique h h').2
  have hinv : RingInv dp (drainTsc tscHz interval) l ⟨o, i⟩ s :=
    run_keeps (fun act s t hst hflow h => h.step hrings hunique hflow hst) hrun hflow
      (RingInv.init garbage lastDrainTsc tsc ring)
  exact hinv.paced

end Rate

/-- The slots of a port after slot 0, when the mask selects slot 0, and with it slot 32. -/
def otherSlots : List Act :=
  List.replicate 32 (.loop .test) ++ [.loop (.dequeue 0)] ++ List.replicate 31 (.loop .test) ++
    [.loop .nextPort]

/-- Two bursts of slot 0 of port 0 on the smallest machine: the first one is sent in two
parts, and a round of the loop lies between them. -/
def twoBursts : List Act :=
  [.others (fun _ _ => ⟨true, false, 0, 0⟩) (fun _ _ => 1) fun _ => List.replicate 3 ⟨0, 1, 0, 7⟩,
    .tick 20000, .loop .test, .loop (.dequeue 2), .tick 20010, .loop (.send 1), .tick 20020,
    .loop (.send 1)] ++ otherSlots ++
  [.loop .test, .loop (.dequeue 0)] ++ otherSlots ++
  [.tick 40000, .loop .test, .loop (.dequeue 1)]

/-- The theorem for a counter of 1 GHz and an interval of 10 microseconds. -/
theorem slot_paced_small : ∃ s : PacedTx, run (step OneShl.modular (drainTsc 1000000000 10) 2)
    twoBursts (init dpSmall (fun _ => ⟨0, 0, 0, 0⟩) (fun _ _ => 0) 5 fun _ => []) = some s ∧
      s.drainsOf ⟨0, 0⟩ = [⟨⟨0, 0⟩, 20000, 2⟩, ⟨⟨0, 0⟩, 40000, 1⟩] ∧
      Paced (drainTsc 1000000000 10) (s.drainsOf ⟨0, 0⟩) := by
  have hdrains : (run (step OneShl.modular (drainTsc 1000000000 10) 2) twoBursts
      (init dpSmall (fun _ => ⟨0, 0, 0, 0⟩) (fun _ _ => 0) 5 fun _ => [])).map
        (fun s => s.drainsOf ⟨0, 0⟩) =
      some [⟨⟨0, 0⟩, 20000, 2⟩, ⟨⟨0, 0⟩, 40000, 1⟩] := by decide +kernel
  obtain ⟨s, hrun, hdrains⟩ := Option.map_eq_some_iff.mp hdrains
  have hring : dpSmall.rings 0 0 = some ⟨0, 0⟩ := by decide +kernel
  exact ⟨s, hrun, hdrains, slot_paced dpInit_small hring hrun (by decide +kernel)⟩

end PacedTx

end DaqSwitch.VoqSwq
