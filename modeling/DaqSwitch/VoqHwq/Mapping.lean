import DaqSwitch.VoqHwq.Init

/-!
# Output ports and rx queues

The ports are numbered in one order, the lcores in another, and `dp_configure` numbers the rx
queues along the lcores.  All entries in the order of the lcores, `P.entries conf`, make this
simple: their output ports are all ports, each once, and their rx queues count from zero.
-/

namespace DaqSwitch.VoqHwq

open Lib.Machine

/-! ## The tx queues of the lcores -/

/-- The entries of all lcores. -/
def Platform.entries (P : Platform) (conf : LcoreConf) : List LcoreTxQueue := P.lcores.flatMap conf

section TxQueues

variable {P : Platform} {params : List LcoreParams} {conf : LcoreConf}

/-- The lcores get their ports in order, at most sixteen. -/
lemma configureLcoreTxQueues_spec (h : configureLcoreTxQueues params = some conf) (l : ℕ) :
    conf l = (params.filter fun lp => lp.lcoreId = l).map (fun lp => ⟨lp.portId, 0, 0, []⟩) ∧
      (conf l).length ≤ maxTxQueuePerLcore := by
  have hnone : ∀ l, (fun _ => [] : LcoreConf) l =
      (([] : List LcoreParams).filter fun lp => lp.lcoreId = l).map
        (fun lp => ⟨lp.portId, 0, 0, []⟩) ∧
      ((fun _ => [] : LcoreConf) l).length ≤ maxTxQueuePerLcore := fun _ => ⟨rfl, Nat.zero_le _⟩
  refine run_history (I := fun past conf => ∀ l, conf l =
      (past.filter fun lp => lp.lcoreId = l).map (fun lp => ⟨lp.portId, 0, 0, []⟩) ∧
    (conf l).length ≤ maxTxQueuePerLcore) ?_ h hnone l
  intro past lp _ s t hstep hs l
  rw [addTxQueue] at hstep
  split at hstep
  · cases hstep
  · next hfull =>
    obtain rfl := Option.some_inj.mp hstep
    rw [List.filter_append, List.map_append]
    by_cases hl : lp.lcoreId = l
    · subst hl
      rw [Function.update_self, (hs lp.lcoreId).1]
      refine ⟨by simp, ?_⟩
      rw [← (hs lp.lcoreId).1, List.length_append, List.length_singleton]
      omega
    · rw [Function.update_of_ne (Ne.symm hl)]
      simpa [hl] using hs l

/-- Grouping by lcore only reorders. -/
lemma perm_flatMap_filter {ls : List ℕ} (hls : ls.Nodup) (hparams : params.Nodup)
    (hmem : ∀ lp ∈ params, lp.lcoreId ∈ ls) :
    (ls.flatMap fun l => params.filter fun lp => lp.lcoreId = l).Perm params := by
  have hnodup : (ls.flatMap fun l => params.filter fun lp => lp.lcoreId = l).Nodup := by
    refine List.nodup_flatMap.mpr ⟨fun l _ => hparams.filter _, hls.imp fun hne => ?_⟩
    intro lp hlp hlp'
    have hl := of_decide_eq_true (List.mem_filter.mp hlp).2
    have hl' := of_decide_eq_true (List.mem_filter.mp hlp').2
    exact hne (hl.symm.trans hl')
  refine (List.perm_ext_iff_of_nodup hnodup hparams).mpr ?_
  intro lp
  simp only [List.mem_flatMap, List.mem_filter, decide_eq_true_eq]
  exact ⟨fun ⟨l, _, hlp, _⟩ => hlp, fun hlp => ⟨lp.lcoreId, hmem lp hlp, hlp, rfl⟩⟩

/-- The entries are for all ports, each once, and belong to workers. -/
lemma entries_of_init (hparams : P.configureLcoreParams = some params)
    (hconf : configureLcoreTxQueues params = some conf) :
    ((P.entries conf).map LcoreTxQueue.portId).Perm (List.range P.nbPorts) ∧
      (∀ q ∈ P.entries conf, q.queueId = 0) ∧ ∀ l, conf l ≠ [] → P.isWorker l = true := by
  obtain ⟨hports, hworkers⟩ := Platform.configureLcoreParams_spec hparams
  have hconf' := fun l => (configureLcoreTxQueues_spec hconf l).1
  have hnodup : params.Nodup := by
    refine List.Nodup.of_map LcoreParams.portId ?_
    rw [hports]
    exact List.nodup_range
  have hmem : ∀ lp ∈ params, lp.lcoreId ∈ P.lcores := by
    intro lp hlp
    obtain ⟨hlt, hworker⟩ := hworkers lp hlp
    exact List.mem_filter.mpr ⟨List.mem_range.mpr hlt, ((Bool.and_eq_true _ _).mp hworker).1⟩
  refine ⟨?_, ?_, ?_⟩
  · have hentries : (P.entries conf).map LcoreTxQueue.portId =
        (P.lcores.flatMap fun l => params.filter fun lp => lp.lcoreId = l).map
          LcoreParams.portId := by
      rw [Platform.entries, List.map_flatMap, List.map_flatMap]
      congr 1
      funext l
      rw [hconf', List.map_map]
      rfl
    rw [hentries, ← hports]
    exact (perm_flatMap_filter (List.nodup_range.filter _) hnodup hmem).map _
  · intro q hq
    obtain ⟨l, -, hq⟩ := List.mem_flatMap.mp hq
    rw [hconf', List.mem_map] at hq
    obtain ⟨lp, -, rfl⟩ := hq
    rfl
  · intro l hl
    rw [hconf'] at hl
    obtain ⟨lp, hlp⟩ := List.exists_mem_of_ne_nil _ fun h => hl (List.map_eq_nil_iff.mpr h)
    obtain ⟨hlp, hll⟩ := List.mem_filter.mp hlp
    exact of_decide_eq_true hll ▸ (hworkers lp hlp).2

end TxQueues

/-! ## The numbers of the rx queues -/

section RxQueues

variable {P : Platform} {conf : LcoreConf}

/-- An entry with its rx queue. -/
def Platform.configureQueue (P : Platform) (qi : LcoreTxQueue × ℕ) : LcoreTxQueue :=
  { qi.1 with rxQueueId := qi.2 % 2 ^ 8, rxPortIds := List.range P.nbPorts }

lemma configureQueues_eq (qs : List LcoreTxQueue) {r : ℕ} (hr : r + qs.length < 2 ^ 16) :
    P.configureQueues r qs = ((qs.zipIdx r).map P.configureQueue, r + qs.length) := by
  induction qs generalizing r with
  | nil => rfl
  | cons q qs ih =>
    rw [List.length_cons] at hr
    have hnext : (r + 1) % 2 ^ 16 = r + 1 := Nat.mod_eq_of_lt (by omega)
    rw [Platform.configureQueues, hnext, ih (by omega), List.length_cons, ← Nat.add_assoc,
      Nat.add_right_comm]
    rfl

/-- `dp_configure` numbers the entries of the lcores one after the other. -/
lemma foldl_configureLcore (P : Platform) (conf : LcoreConf) {ls : List ℕ} (hls : ls.Nodup) {r : ℕ}
    (hr : r + (ls.flatMap conf).length < 2 ^ 16) :
    ls.flatMap (ls.foldl P.configureLcore (conf, r)).1 =
        ((ls.flatMap conf).zipIdx r).map P.configureQueue ∧
      (∀ l ∉ ls, (ls.foldl P.configureLcore (conf, r)).1 l = conf l) ∧
      ∀ l, ((ls.foldl P.configureLcore (conf, r)).1 l).length = (conf l).length := by
  induction ls generalizing conf r with
  | nil => exact ⟨rfl, fun _ _ => rfl, fun _ => rfl⟩
  | cons l ls ih =>
    obtain ⟨hl, hls⟩ := List.nodup_cons.mp hls
    rw [List.flatMap_cons, List.length_append] at hr
    -- the entries of `l` are numbered first, and the loop does not come to `l` again
    have hfirst : P.configureLcore (conf, r) l =
        (Function.update conf l (((conf l).zipIdx r).map P.configureQueue),
          r + (conf l).length) := by
      rw [Platform.configureLcore, configureQueues_eq (conf l) (by simp only; omega)]
    have hsame : ls.flatMap (Function.update conf l (((conf l).zipIdx r).map P.configureQueue)) =
        ls.flatMap conf :=
      List.flatMap_congr fun l' hl' => Function.update_of_ne (fun h : l' = l => hl (h ▸ hl')) _ _
    have hr' : r + (conf l).length + (ls.flatMap
        (Function.update conf l (((conf l).zipIdx r).map P.configureQueue))).length < 2 ^ 16 := by
      rw [hsame]
      omega
    obtain ⟨hrest, hkeep, hlen⟩ := ih _ hls hr'
    rw [List.foldl_cons, hfirst]
    refine ⟨?_, ?_, ?_⟩
    · rw [List.flatMap_cons, List.flatMap_cons, hrest, hsame, hkeep l hl, Function.update_self,
        List.zipIdx_append, List.map_append]
    · intro l' hl'
      rw [List.mem_cons, not_or] at hl'
      rw [hkeep l' hl'.2, Function.update_of_ne hl'.1]
    · intro l'
      rw [hlen l']
      by_cases h : l' = l
      · subst h
        rw [Function.update_self, List.length_map, List.length_zipIdx]
      · rw [Function.update_of_ne h]

/-- The entries of all lcores after `dp_configure`. -/
structure Configured (P : Platform) (conf : LcoreConf) : Prop where
  ports : ((P.entries conf).map LcoreTxQueue.portId).Perm (List.range P.nbPorts)
  rxQueues : (P.entries conf).map LcoreTxQueue.rxQueueId = List.range P.nbPorts
  queueId : ∀ q ∈ P.entries conf, q.queueId = 0
  rxPortIds : ∀ q ∈ P.entries conf, q.rxPortIds = List.range P.nbPorts
  worker : ∀ l, conf l ≠ [] → P.isWorker l = true

lemma configured_of_init {params : List LcoreParams}
    (hparams : P.configureLcoreParams = some params)
    (hconf : configureLcoreTxQueues params = some conf) : Configured P (P.dpConfigure conf) := by
  obtain ⟨hports, hqueueId, hworker⟩ := entries_of_init hparams hconf
  have hlen : (P.entries conf).length = P.nbPorts := by
    simpa using hports.length_eq
  have hn : (P.nbPorts : ℕ) < 2 ^ 8 := P.nbPorts.isLt
  obtain ⟨hentries, -, hsame⟩ := foldl_configureLcore P conf
    (List.nodup_range.filter P.enabled) (r := 0) (by
      rw [Nat.zero_add]
      exact hlen.trans_lt (by omega))
  have hentries' : P.entries (P.dpConfigure conf) =
      (P.entries conf).zipIdx.map P.configureQueue := hentries
  have hmem {q : LcoreTxQueue} (hq : q ∈ P.entries (P.dpConfigure conf)) :
      ∃ q' ∈ P.entries conf, ∃ i, q = P.configureQueue (q', i) := by
    rw [hentries', List.mem_map] at hq
    obtain ⟨qi, hqi, rfl⟩ := hq
    exact ⟨qi.1, List.fst_mem_of_mem_zipIdx hqi, qi.2, rfl⟩
  refine ⟨?_, ?_, ?_, ?_, fun l hl => hworker l fun h => hl ?_⟩
  · have hfst : (P.entries (P.dpConfigure conf)).map LcoreTxQueue.portId =
        ((P.entries conf).zipIdx.map Prod.fst).map LcoreTxQueue.portId := by
      rw [hentries', List.map_map, List.map_map]
      rfl
    rw [hfst, List.zipIdx_map_fst]
    exact hports
  · have hsnd : (P.entries (P.dpConfigure conf)).map LcoreTxQueue.rxQueueId =
        ((P.entries conf).zipIdx.map Prod.snd).map (· % 2 ^ 8) := by
      rw [hentries', List.map_map, List.map_map]
      rfl
    have hmod : ∀ i ∈ List.range P.nbPorts, i % 2 ^ 8 = id i := by
      intro i hi
      rw [List.mem_range] at hi
      exact Nat.mod_eq_of_lt (by omega)
    rw [hsnd, List.zipIdx_map_snd, hlen, ← List.range_eq_range', List.map_congr_left hmod,
      List.map_id]
  · intro q hq
    obtain ⟨q', hq', i, rfl⟩ := hmem hq
    exact hqueueId q' hq'
  · intro q hq
    obtain ⟨q', hq', i, rfl⟩ := hmem hq
    rfl
  · exact List.eq_nil_of_length_eq_zero ((hsame l).trans (by rw [h]; rfl))

end RxQueues

/-! ## Entries -/

/-- Entry `k` of the tx queues of lcore `l`. -/
structure Serves (P : Platform) (conf : LcoreConf) (l k : ℕ) (q : LcoreTxQueue) : Prop where
  lcore : l ∈ P.lcores
  entry : (conf l)[k]? = some q

section Entries

variable {P : Platform} {conf : LcoreConf} {l l' k k' : ℕ} {q q' : LcoreTxQueue} {o r : ℕ}

lemma Serves.mem (h : Serves P conf l k q) : q ∈ P.entries conf :=
  List.mem_flatMap.mpr ⟨l, h.lcore, List.mem_of_getElem? h.entry⟩

lemma exists_serves (hq : q ∈ P.entries conf) : ∃ l k, Serves P conf l k q := by
  obtain ⟨l, hl, hq⟩ := List.mem_flatMap.mp hq
  obtain ⟨k, hk⟩ := List.mem_iff_getElem?.mp hq
  exact ⟨l, k, hl, hk⟩

namespace Configured

variable (h : Configured P conf)

include h in
lemma portId_nodup : ((P.entries conf).map LcoreTxQueue.portId).Nodup :=
  h.ports.nodup_iff.mpr List.nodup_range

include h in
/-- An output port has one entry, in one place. -/
lemma serves_unique (hq : Serves P conf l k q) (hq' : Serves P conf l' k' q')
    (hport : q.portId = q'.portId) : l = l' ∧ k = k' ∧ q = q' := by
  have hnodup := h.portId_nodup
  rw [Platform.entries, List.map_flatMap, List.nodup_flatMap] at hnodup
  obtain ⟨hone, hdisjoint⟩ := hnodup
  have hmem := List.mem_map_of_mem (f := LcoreTxQueue.portId) (List.mem_of_getElem? hq.entry)
  have hmem' := List.mem_map_of_mem (f := LcoreTxQueue.portId) (List.mem_of_getElem? hq'.entry)
  have hsymm : Std.Symm
      (Function.onFun List.Disjoint fun l => (conf l).map LcoreTxQueue.portId) :=
    ⟨fun _ _ hd => List.Disjoint.symm hd⟩
  obtain rfl : l = l' := by
    by_contra hne
    exact hdisjoint.forall hq.lcore hq'.lcore hne hmem (hport ▸ hmem')
  have hk : ((conf l).map LcoreTxQueue.portId)[k]? = ((conf l).map LcoreTxQueue.portId)[k']? := by
    rw [List.getElem?_map, List.getElem?_map, hq.entry, hq'.entry, Option.map_some,
      Option.map_some, hport]
  have hlt : k < ((conf l).map LcoreTxQueue.portId).length := by
    rw [List.length_map]
    exact (List.getElem?_eq_some_iff.mp hq.entry).1
  obtain rfl : k = k' := (List.getElem?_inj hlt (hone l hq.lcore)).mp hk
  exact ⟨rfl, rfl, Option.some_inj.mp (hq.entry.symm.trans hq'.entry)⟩

include h in
lemma eq_of_rxQueueId (hq : q ∈ P.entries conf) (hq' : q' ∈ P.entries conf)
    (hrx : q.rxQueueId = q'.rxQueueId) : q = q' := by
  refine List.inj_on_of_nodup_map ?_ hq hq' hrx
  rw [h.rxQueues]
  exact List.nodup_range

include h in
lemma portId_lt (hq : q ∈ P.entries conf) : q.portId < P.nbPorts :=
  List.mem_range.mp (h.ports.mem_iff.mp (List.mem_map_of_mem hq))

include h in
lemma rxQueueId_lt (hq : q ∈ P.entries conf) : q.rxQueueId < P.nbPorts := by
  have hmem := List.mem_map_of_mem (f := LcoreTxQueue.rxQueueId) hq
  rwa [h.rxQueues, List.mem_range] at hmem

include h in
lemma exists_of_portId (ho : o < P.nbPorts) : ∃ l k q, Serves P conf l k q ∧ q.portId = o := by
  obtain ⟨q, hq, rfl⟩ := List.mem_map.mp (h.ports.mem_iff.mpr (List.mem_range.mpr ho))
  obtain ⟨l, k, hserves⟩ := exists_serves hq
  exact ⟨l, k, q, hserves, rfl⟩

include h in
lemma exists_of_rxQueueId (hr : r < P.nbPorts) :
    ∃ l k q, Serves P conf l k q ∧ q.rxQueueId = r := by
  have hmem : r ∈ (P.entries conf).map LcoreTxQueue.rxQueueId := by
    rw [h.rxQueues]
    exact List.mem_range.mpr hr
  obtain ⟨q, hq, rfl⟩ := List.mem_map.mp hmem
  obtain ⟨l, k, hserves⟩ := exists_serves hq
  exact ⟨l, k, q, hserves, rfl⟩

include h in
/-- `get_rxqueues_id` finds the entry of the port. -/
lemma getRxqueuesId_eq (hq : q ∈ P.entries conf) :
    P.getRxqueuesId conf q.portId = q.rxQueueId := by
  have hfind : (P.entries conf).find? (fun q' => q'.portId == q.portId) = some q := by
    cases hfind : (P.entries conf).find? fun q' => q'.portId == q.portId with
    | none => simpa using List.find?_eq_none.mp hfind q hq
    | some q' =>
      have hport := List.find?_some hfind
      rw [beq_iff_eq] at hport
      rw [List.inj_on_of_nodup_map h.portId_nodup (List.mem_of_find?_eq_some hfind) hq hport]
  rw [Platform.entries, List.find?_flatMap] at hfind
  rw [Platform.getRxqueuesId, hfind]

end Configured

end Entries

/-! ## The number of rx queues -/

section Ports

variable {P : Platform} {d d' : Daqswitch} {portid : ℕ}

lemma Daqswitch.set_eq_some {f : PortConf → PortConf} (h : d.set portid f = some d') :
    d'.portConf portid = f (d.portConf portid) ∧ ∀ p ≠ portid, d'.portConf p = d.portConf p := by
  rw [Daqswitch.set] at h
  split at h
  · cases h
  · obtain rfl := Option.some_inj.mp h
    exact ⟨Function.update_self .., fun p hp => Function.update_of_ne hp ..⟩

/-- A port gets as many rx queues as there are ports; the other ports are left alone. -/
lemma Platform.initPort_eq_some (h : P.initPort portid d = some d') :
    (d'.portConf portid).nbRxq = P.nbPorts ∧ ∀ p ≠ portid, d'.portConf p = d.portConf p := by
  simp only [Platform.initPort, Option.bind_eq_bind, Option.bind_eq_some_iff, Option.pure_def,
    Option.some_inj] at h
  obtain ⟨d₁, h₁, d₂, h₂, d₃, h₃, d₄, h₄, rfl⟩ := h
  have hset₁ := Daqswitch.set_eq_some h₁
  have hset₂ := Daqswitch.set_eq_some h₂
  have hset₃ := Daqswitch.set_eq_some h₃
  have hset₄ := Daqswitch.set_eq_some h₄
  have hbefore : (d₄.portConf portid).nbRxq = P.nbPorts ∧
      ∀ p ≠ portid, d₄.portConf p = d.portConf p := by
    constructor
    · rw [hset₄.1, hset₃.1, hset₂.1, hset₁.1]
      rfl
    · intro p hp
      rw [hset₄.2 p hp, hset₃.2 p hp, hset₂.2 p hp, hset₁.2 p hp]
  split
  · exact hbefore
  · cases hfdir : d₄.portSetFdirForwarding portid ⟨0xffffffff, true⟩ with
    | none => exact hbefore
    | some d₅ =>
      have hset₅ := Daqswitch.set_eq_some hfdir
      refine ⟨?_, fun p hp => (hset₅.2 p hp).trans (hbefore.2 p hp)⟩
      rw [Option.getD_some, hset₅.1]
      exact hbefore.1

lemma Platform.nbRxq_of_dpInit {conf : LcoreConf} (h : P.dpInit d = some (conf, d')) :
    ∀ p < (P.nbPorts : ℕ), (d'.portConf p).nbRxq = P.nbPorts := by
  simp only [Platform.dpInit, Option.bind_eq_bind, Option.bind_eq_some_iff, Option.pure_def,
    Option.some_inj, Prod.mk.injEq] at h
  obtain ⟨params, -, conf', -, d₁, hrun, rfl, rfl⟩ := h
  have hnone : ∀ p ∈ ([] : List ℕ), (d.portConf p).nbRxq = (P.nbPorts : ℕ) := by simp
  have hall := run_history (I := fun past (d : Daqswitch) => ∀ p ∈ past,
      (d.portConf p).nbRxq = (P.nbPorts : ℕ))
    (fun past portid _ s t hst hs p hp => by
      obtain ⟨hset, hother⟩ := Platform.initPort_eq_some hst
      rcases eq_or_ne p portid with rfl | hne
      · exact hset
      · rw [hother p hne]
        refine hs p ?_
        simpa [hne] using hp) hrun hnone
  exact fun p hp => hall p (by simpa using hp)

end Ports

/-! ## The mapping -/

/-- Output ports, rx queues and lcores fit together. -/
structure VoqMapping (P : Platform) (conf : LcoreConf) (d : Daqswitch) : Prop where
  bijection : Set.BijOn (P.getRxqueuesId conf) (Set.Iio P.nbPorts) (Set.Iio P.nbPorts)
  belowNbRxq : ∀ o < (P.nbPorts : ℕ), ∀ p < (P.nbPorts : ℕ),
    P.getRxqueuesId conf o < (d.portConf p).nbRxq
  lookup : ∀ l k q, Serves P conf l k q → P.getRxqueuesId conf q.portId = q.rxQueueId
  served : ∀ o < (P.nbPorts : ℕ), ∃! l, P.isWorker l ∧ ∃ k q, Serves P conf l k q ∧ q.portId = o
  polled : ∀ p < (P.nbPorts : ℕ), ∀ r < (P.nbPorts : ℕ), ∃! lk : ℕ × ℕ,
    ∃ q, Serves P conf lk.1 lk.2 q ∧ q.rxQueueId = r ∧ q.rxPortIds.count p = 1

section Mapping

variable {P : Platform} {conf : LcoreConf} {d d' : Daqswitch}

lemma Serves.ne_nil {l k : ℕ} {q : LcoreTxQueue} (h : Serves P conf l k q) : conf l ≠ [] :=
  List.ne_nil_of_mem (List.mem_of_getElem? h.entry)

lemma Configured.voqMapping (h : Configured P conf)
    (hd : ∀ p < (P.nbPorts : ℕ), (d.portConf p).nbRxq = P.nbPorts) : VoqMapping P conf d where
  bijection := by
    refine ⟨?_, ?_, ?_⟩
    · intro o ho
      obtain ⟨l, k, q, hq, rfl⟩ := h.exists_of_portId ho
      rw [h.getRxqueuesId_eq hq.mem]
      exact h.rxQueueId_lt hq.mem
    · intro o ho o' ho' heq
      obtain ⟨l, k, q, hq, rfl⟩ := h.exists_of_portId ho
      obtain ⟨l', k', q', hq', rfl⟩ := h.exists_of_portId ho'
      rw [h.getRxqueuesId_eq hq.mem, h.getRxqueuesId_eq hq'.mem] at heq
      rw [h.eq_of_rxQueueId hq.mem hq'.mem heq]
    · intro r hr
      obtain ⟨l, k, q, hq, rfl⟩ := h.exists_of_rxQueueId hr
      exact ⟨q.portId, h.portId_lt hq.mem, h.getRxqueuesId_eq hq.mem⟩
  belowNbRxq o ho p hp := by
    obtain ⟨l, k, q, hq, rfl⟩ := h.exists_of_portId ho
    rw [h.getRxqueuesId_eq hq.mem, hd p hp]
    exact h.rxQueueId_lt hq.mem
  lookup l k q hq := h.getRxqueuesId_eq hq.mem
  served o ho := by
    obtain ⟨l, k, q, hq, hport⟩ := h.exists_of_portId ho
    refine ⟨l, ⟨h.worker l hq.ne_nil, k, q, hq, hport⟩, ?_⟩
    rintro l' ⟨-, k', q', hq', hport'⟩
    exact (h.serves_unique hq' hq (hport'.trans hport.symm)).1
  polled p hp r hr := by
    have hcount {q : LcoreTxQueue} (hq : q ∈ P.entries conf) : q.rxPortIds.count p = 1 := by
      rw [h.rxPortIds q hq]
      exact List.count_eq_one_of_mem List.nodup_range (List.mem_range.mpr hp)
    obtain ⟨l, k, q, hq, hrx⟩ := h.exists_of_rxQueueId hr
    refine ⟨(l, k), ⟨q, hq, hrx, hcount hq.mem⟩, ?_⟩
    rintro ⟨l', k'⟩ ⟨q', hq', hrx', -⟩
    have heq := h.eq_of_rxQueueId hq'.mem hq.mem (hrx'.trans hrx.symm)
    obtain ⟨rfl, rfl, -⟩ := h.serves_unique hq' hq (congrArg LcoreTxQueue.portId heq)
    rfl

/-- When `dp_init` succeeds. -/
lemma configured_of_dpInit (h : P.dpInit d = some (conf, d')) :
    Configured P (P.dpConfigure conf) := by
  simp only [Platform.dpInit, Option.bind_eq_bind, Option.bind_eq_some_iff, Option.pure_def,
    Option.some_inj, Prod.mk.injEq] at h
  obtain ⟨params, hparams, conf', hconf, d₁, -, rfl, rfl⟩ := h
  exact configured_of_init hparams hconf

end Mapping

end DaqSwitch.VoqHwq
