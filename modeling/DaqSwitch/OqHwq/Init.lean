import DaqSwitch.OqHwq.LcoreParams
import DaqSwitch.VoqHwq.Mapping

/-!
# Initialisation of the output-queued data path

`dp_init` of `dp_oq_hwq.c` gives the one rx queue of each port to the lcore that
`configure_lcore_params` found, and numbers the tx queues of each port along the enabled lcores.
So each rx queue is read by one lcore, and no two lcores write to the same tx queue.
-/

namespace DaqSwitch.OqHwq

open Lib.Machine
open VoqHwq (Platform Daqswitch)

/-! ## Constants -/

/-- Capacity of an lcore's `rx_queue_list`. -/
def maxRxQueuePerLcore : ℕ := 16

def rteTestRxDescDefault : ℕ := 2048
def rteTestTxDescDefault : ℕ := 4096

/-! ## Records -/

structure LcoreRxQueue where
  portId : ℕ
  queueId : ℕ
deriving DecidableEq, Repr

/-- The queues in a `struct lcore_conf`; `n_rx_queue` is the length of the list. -/
structure LcoreQueues where
  rxQueueList : List LcoreRxQueue
  txQueueId : ℕ → ℕ

/-- The queues of all lcores, in `lcore_conf`. -/
abbrev Queues := ℕ → LcoreQueues

/-! ## The functions -/

/-- One entry of `lcore_params`. -/
def addRxQueue (lp : LcoreParams) (conf : Queues) : Option Queues :=
  let qconf := conf lp.lcoreId
  if qconf.rxQueueList.length ≥ maxRxQueuePerLcore then none
  else some (Function.update conf lp.lcoreId
    { qconf with rxQueueList := qconf.rxQueueList ++ [⟨lp.portId, lp.queueId⟩] })

def configureLcoreRxQueues (params : List LcoreParams) : Queues → Option Queues :=
  run addRxQueue params

/-- `qconf->tx_queue_id[portid] = queueid`. -/
def LcoreQueues.setTxQueueId (qconf : LcoreQueues) (portid queueid : ℕ) : LcoreQueues :=
  { qconf with txQueueId := Function.update qconf.txQueueId portid queueid }

@[simp] lemma LcoreQueues.setTxQueueId_rxQueueList (qconf : LcoreQueues) (portid queueid : ℕ) :
    (qconf.setTxQueueId portid queueid).rxQueueList = qconf.rxQueueList := rfl

lemma LcoreQueues.setTxQueueId_txQueueId (qconf : LcoreQueues) (portid queueid p : ℕ) :
    (qconf.setTxQueueId portid queueid).txQueueId p =
      if p = portid then queueid else qconf.txQueueId p :=
  Function.update_apply _ _ _ _

/-- The body of the loop over the lcores, with the counter `queueid`. -/
def assignTxQueue (portid : ℕ) (s : Queues × ℕ) (lcoreId : ℕ) : Queues × ℕ :=
  (Function.update s.1 lcoreId ((s.1 lcoreId).setTxQueueId portid s.2), (s.2 + 1) % 2 ^ 16)

/-- The queues of one port. -/
def initPort (P : Platform) (portid : ℕ) (s : Queues × Daqswitch) :
    Option (Queues × Daqswitch) := do
  let d ← s.2.portSetNbRxq portid 1
  let d ← d.portSetNbRxd portid rteTestRxDescDefault
  let tx := P.lcores.foldl (assignTxQueue portid) (s.1, 0)
  let d ← d.portSetNbTxq portid tx.2
  let d ← d.portSetNbTxd portid rteTestTxDescDefault
  return (tx.1, d)

/-- The zeroed `lcore_conf`. -/
def Queues.zero : Queues := fun _ => ⟨[], fun _ => 0⟩

/-- `dp_init`. -/
def dpInit (P : Platform) (d : Daqswitch) : Option (Queues × Daqswitch) := do
  let params ← configureLcoreParams P
  let conf ← configureLcoreRxQueues params .zero
  run (initPort P) (List.range P.nbPorts) (conf, d)

/-! ## The rx queues -/

section RxQueues

variable {P : Platform} {params : List LcoreParams} {conf conf' : Queues}

/-- The entries of an lcore. -/
def lcoreEntries (params : List LcoreParams) (l : ℕ) : List LcoreRxQueue :=
  (params.filter fun lp => lp.lcoreId = l).map fun lp => ⟨lp.portId, lp.queueId⟩

lemma length_lcoreEntries (params : List LcoreParams) (l : ℕ) :
    (lcoreEntries params l).length = params.countP fun lp => lp.lcoreId = l := by
  rw [lcoreEntries, List.length_map, List.countP_eq_length_filter]

lemma lcoreEntries_append (params params' : List LcoreParams) (l : ℕ) :
    lcoreEntries (params ++ params') l = lcoreEntries params l ++ lcoreEntries params' l := by
  rw [lcoreEntries, List.filter_append, List.map_append, lcoreEntries, lcoreEntries]

/-- The lcores have the entries of `past`, none has too many. -/
structure HasRxQueues (past : List LcoreParams) (conf : Queues) : Prop where
  rxQueueList : ∀ l, (conf l).rxQueueList = lcoreEntries past l
  capacity : ∀ l, (lcoreEntries past l).length ≤ maxRxQueuePerLcore

lemma hasRxQueues_zero : HasRxQueues [] .zero := ⟨fun _ => rfl, fun _ => Nat.zero_le _⟩

/-- One entry more has a place if its lcore has. -/
lemma HasRxQueues.addRxQueue {past : List LcoreParams} (h : HasRxQueues past conf)
    (lp : LcoreParams) :
    (∀ conf', OqHwq.addRxQueue lp conf = some conf' → HasRxQueues (past ++ [lp]) conf') ∧
      ((∃ conf', OqHwq.addRxQueue lp conf = some conf') ↔
        (lcoreEntries past lp.lcoreId).length < maxRxQueuePerLcore) := by
  rw [OqHwq.addRxQueue, h.rxQueueList]
  split
  · next hfull =>
    exact ⟨nofun, iff_of_false nofun (by omega)⟩
  · next hroom =>
    refine ⟨?_, iff_of_true ⟨_, rfl⟩ (by omega)⟩
    rintro conf' hconf'
    obtain rfl := Option.some_inj.mp hconf'
    have hentry (l : ℕ) : lcoreEntries [lp] l =
        if lp.lcoreId = l then [⟨lp.portId, lp.queueId⟩] else [] := by
      rw [lcoreEntries, List.filter_singleton]
      by_cases hl : lp.lcoreId = l <;> simp [hl]
    constructor
    · intro l
      rw [lcoreEntries_append, hentry]
      by_cases hl : lp.lcoreId = l
      · subst hl
        rw [Function.update_self, if_pos rfl]
      · rw [Function.update_of_ne (Ne.symm hl), if_neg hl, List.append_nil, h.rxQueueList]
    · intro l
      rw [lcoreEntries_append, hentry]
      have hcap := h.capacity l
      by_cases hl : lp.lcoreId = l
      · subst hl
        rw [if_pos rfl, List.length_append, List.length_singleton]
        omega
      · rwa [if_neg hl, List.append_nil]

lemma configureLcoreRxQueues_spec (h : configureLcoreRxQueues params .zero = some conf) :
    HasRxQueues params conf := by
  refine run_history (I := HasRxQueues) ?_ h hasRxQueues_zero
  intro past lp _ s t hstep hs
  exact (hs.addRxQueue lp).1 t hstep

/-- It succeeds if and only if no lcore has more entries than places. -/
lemma exists_configureLcoreRxQueues_iff :
    (∃ conf, configureLcoreRxQueues params .zero = some conf) ↔
      ∀ l, (params.countP fun lp => lp.lcoreId = l) ≤ maxRxQueuePerLcore := by
  constructor
  · rintro ⟨conf, h⟩ l
    rw [← length_lcoreEntries]
    exact (configureLcoreRxQueues_spec h).capacity l
  · intro hcap
    -- what has been handled and what is still to come are the entries of `params`
    have hstep : ∀ lp rest conf, (∃ past, past ++ lp :: rest = params ∧ HasRxQueues past conf) →
        ∃ conf', OqHwq.addRxQueue lp conf = some conf' ∧
          ∃ past, past ++ rest = params ∧ HasRxQueues past conf' := by
      rintro lp rest conf ⟨past, rfl, hpast⟩
      have hroom : (lcoreEntries past lp.lcoreId).length < maxRxQueuePerLcore := by
        have hlp := hcap lp.lcoreId
        rw [List.countP_append, List.countP_cons_of_pos (by simp)] at hlp
        rw [length_lcoreEntries]
        omega
      obtain ⟨hkeep, hiff⟩ := hpast.addRxQueue lp
      obtain ⟨conf', hconf'⟩ := hiff.mpr hroom
      exact ⟨conf', hconf', past ++ [lp], by simp, hkeep conf' hconf'⟩
    obtain ⟨conf, h, -⟩ := run_total_rest (I := fun rest conf =>
      ∃ past, past ++ rest = params ∧ HasRxQueues past conf) hstep ⟨[], rfl, hasRxQueues_zero⟩
    exact ⟨conf, h⟩

end RxQueues

/-! ## The tx queues -/

section TxQueues

variable {P : Platform}

lemma nodup_lcores (P : Platform) : P.lcores.Nodup := List.nodup_range.filter _

lemma mem_lcores {l : ℕ} : l ∈ P.lcores ↔ l < P.rteMaxLcore ∧ P.enabled l = true := by
  rw [Platform.lcores, List.mem_filter, List.mem_range]

lemma length_lcores_lt (P : Platform) : P.lcores.length < 2 ^ 16 := by
  have hle : P.lcores.length ≤ (List.range P.rteMaxLcore).length := List.length_filter_le _ _
  have hlt := P.rteMaxLcore.isLt
  rw [List.length_range] at hle
  omega

/-- The loop numbers the lcores, from `r` on. -/
lemma foldl_assignTxQueue (portid : ℕ) {ls : List ℕ} (hls : ls.Nodup) (conf : Queues) {r : ℕ}
    (hr : r + ls.length < 2 ^ 16) :
    (ls.foldl (assignTxQueue portid) (conf, r)).2 = r + ls.length ∧
      (∀ l, ((ls.foldl (assignTxQueue portid) (conf, r)).1 l).rxQueueList =
        (conf l).rxQueueList) ∧
      ∀ l p, ((ls.foldl (assignTxQueue portid) (conf, r)).1 l).txQueueId p =
        if l ∈ ls ∧ p = portid then r + ls.idxOf l else (conf l).txQueueId p := by
  induction ls generalizing conf r with
  | nil => simp
  | cons l₀ ls ih =>
    obtain ⟨hl₀, hls⟩ := List.nodup_cons.mp hls
    rw [List.length_cons] at hr ⊢
    have hfirst : assignTxQueue portid (conf, r) l₀ =
        (Function.update conf l₀ ((conf l₀).setTxQueueId portid r), r + 1) := by
      rw [assignTxQueue, Nat.mod_eq_of_lt (by simp only; omega)]
    rw [List.foldl_cons, hfirst]
    obtain ⟨hcount, hrx, htx⟩ := ih hls
      (Function.update conf l₀ ((conf l₀).setTxQueueId portid r)) (r := r + 1) (by omega)
    refine ⟨by omega, ?_, ?_⟩
    · intro l
      rw [hrx]
      exact apply_update_eq LcoreQueues.rxQueueList (LcoreQueues.setTxQueueId_rxQueueList _ _ _) l
    · intro l p
      rw [htx]
      by_cases hl : l = l₀
      · subst hl
        rw [if_neg fun h => hl₀ h.1, Function.update_self, List.idxOf_cons_self,
          LcoreQueues.setTxQueueId_txQueueId]
        simp
      · rw [Function.update_of_ne hl, List.idxOf_cons_ne _ (Ne.symm hl)]
        simp only [List.mem_cons, hl, false_or]
        split <;> omega

end TxQueues

/-! ## The ports -/

section Ports

variable {P : Platform} {conf conf' : Queues} {d d' : Daqswitch}

/-- What `dp_init` sets for a port. -/
def initPortConf (P : Platform) (c : VoqHwq.PortConf) : VoqHwq.PortConf :=
  { c with
    nbRxq := 1
    nbRxd := rteTestRxDescDefault
    nbTxq := P.lcores.length
    nbTxd := rteTestTxDescDefault }

/-- One port, before daqswitch is initialized. -/
lemma initPort_eq (hinit : d.initialized = false) (conf : Queues) (portid : ℕ) :
    initPort P portid (conf, d) = some ((P.lcores.foldl (assignTxQueue portid) (conf, 0)).1,
      { d with
        portConf := Function.update d.portConf portid (initPortConf P (d.portConf portid)) }) := by
  obtain ⟨hcount, -⟩ := foldl_assignTxQueue portid (nodup_lcores P) conf (r := 0)
    (by have := length_lcores_lt P; omega)
  rw [Nat.zero_add] at hcount
  simp [initPort, Daqswitch.portSetNbRxq, Daqswitch.portSetNbRxd, Daqswitch.portSetNbTxq,
    Daqswitch.portSetNbTxd, Daqswitch.set, hinit, hcount, initPortConf]

lemma initPort_initialized (hinit : d.initialized = true) (conf : Queues) (portid : ℕ) :
    initPort P portid (conf, d) = none := by
  simp [initPort, Daqswitch.portSetNbRxq, Daqswitch.set, hinit]

/-- After the ports below `m`, from `conf₀` and `d₀` on. -/
structure PortsSet (P : Platform) (conf₀ : Queues) (d₀ : Daqswitch) (m : ℕ)
    (s : Queues × Daqswitch) : Prop where
  initialized : s.2.initialized = false
  rxQueueList : ∀ l, (s.1 l).rxQueueList = (conf₀ l).rxQueueList
  txQueueId : ∀ l ∈ P.lcores, ∀ p < m, (s.1 l).txQueueId p = P.lcores.idxOf l
  portConf : ∀ p, s.2.portConf p =
    if p < m then initPortConf P (d₀.portConf p) else d₀.portConf p

lemma portsSet_zero (hinit : d.initialized = false) (conf : Queues) :
    PortsSet P conf d 0 (conf, d) :=
  ⟨hinit, fun _ => rfl, fun _ _ _ hp => absurd hp (Nat.not_lt_zero _), fun _ => rfl⟩

lemma PortsSet.initPort {m : ℕ} {s t : Queues × Daqswitch} (h : PortsSet P conf d m s)
    (hstep : OqHwq.initPort P m s = some t) : PortsSet P conf d (m + 1) t := by
  obtain ⟨conf', d'⟩ := s
  rw [initPort_eq h.initialized, Option.some_inj] at hstep
  obtain ⟨-, hrx, htx⟩ := foldl_assignTxQueue m (nodup_lcores P) conf' (r := 0)
    (by have := length_lcores_lt P; omega)
  subst hstep
  refine ⟨h.initialized, fun l => (hrx l).trans (h.rxQueueList l), ?_, ?_⟩
  · intro l hl p hp
    rw [htx]
    split
    · rw [Nat.zero_add]
    · next hne =>
      exact h.txQueueId l hl p (by have : p ≠ m := fun hpm => hne ⟨hl, hpm⟩; omega)
  · intro p
    show Function.update d'.portConf m (initPortConf P (d'.portConf m)) p = _
    have hold : d'.portConf = fun p =>
        if p < m then initPortConf P (d.portConf p) else d.portConf p := funext h.portConf
    rw [hold, Function.update_apply]
    rcases lt_trichotomy p m with hp | rfl | hp
    · rw [if_neg hp.ne, if_pos hp, if_pos (by omega)]
    · simp
    · rw [if_neg hp.ne', if_neg (by omega), if_neg (by omega)]

/-- The loop over the ports succeeds unless there are ports and daqswitch is initialized. -/
lemma exists_run_initPort_iff {n : ℕ} (conf : Queues) :
    (∃ s, run (initPort P) (List.range n) (conf, d) = some s) ↔
      (0 < n → d.initialized = false) := by
  constructor
  · rintro ⟨s, hrun⟩ hn
    obtain ⟨n, rfl⟩ := Nat.exists_eq_add_of_lt hn
    rw [Nat.zero_add, List.range_succ_eq_map] at hrun
    obtain ⟨t, ht, -⟩ := run_cons_eq_some.mp hrun
    by_contra hinit
    rw [initPort_initialized (by simpa using hinit)] at ht
    cases ht
  · intro hinit
    rcases Nat.eq_zero_or_pos n with rfl | hn
    · exact ⟨_, rfl⟩
    · have hstep : ∀ p ∈ List.range n, ∀ s : Queues × Daqswitch, s.2.initialized = false →
          ∃ t, initPort P p s = some t ∧ t.2.initialized = false :=
        fun p _ s hs => ⟨_, initPort_eq hs s.1 p, hs⟩
      obtain ⟨s, hs, -⟩ := run_total hstep (s := (conf, d)) (hinit hn)
      exact ⟨s, hs⟩

end Ports

/-! ## Ownership of the queues -/

/-- The rx queues that are polled and the tx queues that are written to are those that the ports
are configured with; each rx queue is polled from one place, and each tx queue belongs to one
lcore. -/
structure Owned (P : Platform) (conf : Queues) (d : Daqswitch) : Prop where
  capacity : ∀ l, (conf l).rxQueueList.length ≤ maxRxQueuePerLcore
  rxWorker : ∀ l, (conf l).rxQueueList ≠ [] → l ∈ P.lcores ∧ P.isWorker l = true
  nbRxq : ∀ portid < (P.nbPorts : ℕ), (d.portConf portid).nbRxq = 1
  rx_lt : ∀ l, ∀ q ∈ (conf l).rxQueueList,
    q.portId < P.nbPorts ∧ q.queueId < (d.portConf q.portId).nbRxq
  rx_unique : ∀ portid < (P.nbPorts : ℕ), ∀ queueid < (d.portConf portid).nbRxq,
    ∃! x : ℕ × ℕ, (conf x.1).rxQueueList[x.2]? = some ⟨portid, queueid⟩
  tx_lt : ∀ portid < (P.nbPorts : ℕ), ∀ l ∈ P.lcores,
    (conf l).txQueueId portid < (d.portConf portid).nbTxq
  tx_unique : ∀ portid < (P.nbPorts : ℕ), ∀ queueid < (d.portConf portid).nbTxq,
    ∃! l, l ∈ P.lcores ∧ (conf l).txQueueId portid = queueid

section Owned

variable {P : Platform} {params : List LcoreParams} {conf : Queues} {d d' : Daqswitch}

/-- The entries of `lcore_params`. -/
structure OneEntryEach (P : Platform) (params : List LcoreParams) : Prop where
  ports : params.map LcoreParams.portId = List.range P.nbPorts
  queueId : ∀ lp ∈ params, lp.queueId = 0
  workers : ∀ lp ∈ params, lp.lcoreId ∈ P.lcores ∧ P.isWorker lp.lcoreId = true

lemma configureLcoreParams_oneEntryEach (h : configureLcoreParams P = some params) :
    OneEntryEach P params := by
  rw [configureLcoreParams_ofVoq, Option.map_eq_some_iff] at h
  obtain ⟨voqParams, hvoq, rfl⟩ := h
  obtain ⟨hports, hworkers⟩ := Platform.configureLcoreParams_spec hvoq
  refine ⟨?_, ?_, ?_⟩
  · rw [List.map_map, ← hports]
    rfl
  · intro lp hlp
    obtain ⟨lp', -, rfl⟩ := List.mem_map.mp hlp
    rfl
  · intro lp hlp
    obtain ⟨lp', hlp', rfl⟩ := List.mem_map.mp hlp
    obtain ⟨hlt, hworker⟩ := hworkers lp' hlp'
    exact ⟨mem_lcores.mpr ⟨hlt, ((Bool.and_eq_true _ _).mp hworker).1⟩, hworker⟩

namespace OneEntryEach

variable (h : OneEntryEach P params)

include h

lemma portId_inj {lp lp' : LcoreParams} (hlp : lp ∈ params) (hlp' : lp' ∈ params)
    (hport : lp.portId = lp'.portId) : lp = lp' := by
  have hnodup : (params.map LcoreParams.portId).Nodup := by
    rw [h.ports]
    exact List.nodup_range
  exact List.inj_on_of_nodup_map hnodup hlp hlp' hport

/-- An rx queue in the list of an lcore is that of an entry. -/
lemma exists_of_mem {l : ℕ} {q : LcoreRxQueue} (hq : q ∈ lcoreEntries params l) :
    ∃ lp ∈ params, lp.lcoreId = l ∧ q = ⟨lp.portId, 0⟩ := by
  obtain ⟨lp, hlp, rfl⟩ := List.mem_map.mp hq
  obtain ⟨hlp, hl⟩ := List.mem_filter.mp hlp
  exact ⟨lp, hlp, of_decide_eq_true hl, by rw [h.queueId lp hlp]⟩

lemma portId_lt {lp : LcoreParams} (hlp : lp ∈ params) : lp.portId < P.nbPorts := by
  have hmem := List.mem_map_of_mem (f := LcoreParams.portId) hlp
  rwa [h.ports, List.mem_range] at hmem

lemma nodup_lcoreEntries (l : ℕ) : (lcoreEntries params l).Nodup := by
  have hsub : ((lcoreEntries params l).map LcoreRxQueue.portId).Sublist
      (params.map LcoreParams.portId) := by
    rw [lcoreEntries, List.map_map]
    exact List.filter_sublist.map _
  rw [h.ports] at hsub
  exact (hsub.nodup List.nodup_range).of_map

/-- The rx queue of a port is in one place. -/
lemma existsUnique_place {portid : ℕ} (hport : portid < P.nbPorts) :
    ∃! x : ℕ × ℕ, (lcoreEntries params x.1)[x.2]? = some ⟨portid, 0⟩ := by
  have hmem : portid ∈ params.map LcoreParams.portId := by
    rw [h.ports]
    exact List.mem_range.mpr hport
  obtain ⟨lp, hlp, rfl⟩ := List.mem_map.mp hmem
  have hentry : (⟨lp.portId, 0⟩ : LcoreRxQueue) ∈ lcoreEntries params lp.lcoreId :=
    List.mem_map.mpr ⟨lp, List.mem_filter.mpr ⟨hlp, by simp⟩, by rw [h.queueId lp hlp]⟩
  obtain ⟨k, hk⟩ := List.mem_iff_getElem?.mp hentry
  refine ⟨(lp.lcoreId, k), hk, ?_⟩
  rintro ⟨l, k'⟩ hk'
  obtain ⟨lp', hlp', rfl, hq⟩ := h.exists_of_mem (List.mem_of_getElem? hk')
  obtain rfl := h.portId_inj hlp hlp' (congrArg LcoreRxQueue.portId hq)
  have hlt : k < (lcoreEntries params lp.lcoreId).length := (List.getElem?_eq_some_iff.mp hk).1
  exact Prod.ext rfl
    ((List.getElem?_inj hlt (h.nodup_lcoreEntries _)).mp (hk.trans hk'.symm)).symm

end OneEntryEach

lemma owned_of_dpInit (h : dpInit P d = some (conf, d')) : Owned P conf d' := by
  obtain ⟨params, hparams, h⟩ := Option.bind_eq_some_iff.mp h
  obtain ⟨conf₀, hconf₀, h⟩ := Option.bind_eq_some_iff.mp h
  have hone := configureLcoreParams_oneEntryEach hparams
  have hrx := configureLcoreRxQueues_spec hconf₀
  rcases Nat.eq_zero_or_pos (P.nbPorts : ℕ) with hzero | hpos
  · -- without ports there is nothing to own
    have hnil : params = [] := by
      have hports := hone.ports
      rwa [hzero, List.range_zero, List.map_eq_nil_iff] at hports
    rw [hzero, List.range_zero, run_nil, Option.some_inj] at h
    obtain ⟨rfl, rfl⟩ := Prod.mk.inj h
    have hempty (l : ℕ) : (conf₀ l).rxQueueList = [] := by
      rw [hrx.rxQueueList, hnil]
      rfl
    have hnone {portid : ℕ} (hport : portid < P.nbPorts) : False := by omega
    refine ⟨fun l => by rw [hempty]; exact Nat.zero_le _, fun l hl => absurd (hempty l) hl,
      fun _ hport => (hnone hport).elim, ?_, fun _ hport => (hnone hport).elim,
      fun _ hport => (hnone hport).elim, fun _ hport => (hnone hport).elim⟩
    intro l q hq
    rw [hempty] at hq
    cases hq
  · have hinit := (exists_run_initPort_iff conf₀).mp ⟨_, h⟩ hpos
    have hset : PortsSet P conf₀ d P.nbPorts (conf, d') :=
      run_range (fun _ _ _ _ hstep hs => hs.initPort hstep) h (portsSet_zero hinit conf₀)
    have hlist (l : ℕ) : (conf l).rxQueueList = lcoreEntries params l :=
      (hset.rxQueueList l).trans (hrx.rxQueueList l)
    have hconf {p : ℕ} (hp : p < P.nbPorts) :
        d'.portConf p = initPortConf P (d.portConf p) := by
      rw [hset.portConf, if_pos hp]
    refine ⟨?_, ?_, fun p hp => by rw [hconf hp]; rfl, ?_, ?_, ?_, ?_⟩
    · intro l
      rw [hlist]
      exact hrx.capacity l
    · intro l hl
      rw [hlist] at hl
      obtain ⟨q, hq⟩ := List.exists_mem_of_ne_nil _ hl
      obtain ⟨lp, hlp, rfl, -⟩ := hone.exists_of_mem hq
      exact hone.workers lp hlp
    · intro l q hq
      rw [hlist] at hq
      obtain ⟨lp, hlp, -, rfl⟩ := hone.exists_of_mem hq
      have hlt := hone.portId_lt hlp
      exact ⟨hlt, by rw [hconf hlt]; exact Nat.one_pos⟩
    · intro p hp q hq
      rw [hconf hp] at hq
      obtain rfl : q = 0 := Nat.lt_one_iff.mp hq
      simp only [hlist]
      exact hone.existsUnique_place hp
    · intro p hp l hl
      rw [hconf hp, hset.txQueueId l hl p hp]
      exact List.idxOf_lt_length_of_mem hl
    · intro p hp q hq
      rw [hconf hp] at hq
      refine ⟨P.lcores[q], ⟨List.getElem_mem hq, ?_⟩, ?_⟩
      · rw [hset.txQueueId _ (List.getElem_mem hq) p hp]
        exact (nodup_lcores P).idxOf_getElem q hq
      · rintro l ⟨hl, hl'⟩
        rw [hset.txQueueId l hl p hp] at hl'
        subst hl'
        exact (List.getElem_idxOf _).symm

end Owned

/-- **Ownership of the queues.**  `dp_init` succeeds if and only if there is a worker lcore, none
is given more ports than its list has places, and, if there are ports, daqswitch is not yet
initialized.  Then each rx queue of each port is polled from one place in the lists of the worker
lcores, and each tx queue belongs to one enabled lcore; all of these queues are configured. -/
theorem dpInit_owned (P : Platform) (d : Daqswitch) :
    ((∃ s, dpInit P d = some s) ↔
      (∃ params, configureLcoreParams P = some params ∧
        ∀ l, (params.countP fun lp => lp.lcoreId = l) ≤ maxRxQueuePerLcore) ∧
      (0 < (P.nbPorts : ℕ) → d.initialized = false)) ∧
    ∀ conf d', dpInit P d = some (conf, d') → Owned P conf d' := by
  refine ⟨?_, fun conf d' => owned_of_dpInit⟩
  constructor
  · rintro ⟨s, h⟩
    obtain ⟨params, hparams, h⟩ := Option.bind_eq_some_iff.mp h
    obtain ⟨conf, hconf, h⟩ := Option.bind_eq_some_iff.mp h
    exact ⟨⟨params, hparams, exists_configureLcoreRxQueues_iff.mp ⟨conf, hconf⟩⟩,
      (exists_run_initPort_iff conf).mp ⟨s, h⟩⟩
  · rintro ⟨⟨params, hparams, hcap⟩, hinit⟩
    obtain ⟨conf, hconf⟩ := exists_configureLcoreRxQueues_iff.mpr hcap
    obtain ⟨s, hs⟩ := (exists_run_initPort_iff (P := P) conf).mpr hinit
    exact ⟨s, Option.bind_eq_some_iff.mpr ⟨params, hparams,
      Option.bind_eq_some_iff.mpr ⟨conf, hconf, hs⟩⟩⟩

end DaqSwitch.OqHwq
