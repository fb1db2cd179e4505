import DaqSwitch.Lib.CyclicScan
import DaqSwitch.Lib.Machine

/-!
# The lcores of the ports

`configure_lcore_params` of `dp_voq_hwq.c` gives each port an lcore, going round the worker
lcores and looking first for one on the socket of the port.  The search for one port has no
counter; it ends because it comes back to the lcore of the port before, and then takes the
next lcore whatever its socket is.
-/

namespace DaqSwitch.VoqHwq

open Lib.Machine Lib.CyclicScan

/-- The machine the data path is started on. -/
structure Platform where
  /-- `RTE_MAX_LCORE`, a build option of the packet library; the numbers of lcores are kept in
  a `uint8_t`. -/
  rteMaxLcore : Fin (2 ^ 8 + 1)
  /-- `rte_lcore_is_enabled`. -/
  enabled : ℕ → Bool
  /-- `rte_get_master_lcore`. -/
  master : ℕ
  /-- `rte_lcore_to_socket_id`. -/
  lcoreSocket : ℕ → ℕ
  /-- `DAQSWITCH_PORT_GET_NUMA`. -/
  portSocket : ℕ → ℕ
  /-- `daqswitch_get_nb_ports`. -/
  nbPorts : Fin (2 ^ 8)
  /-- Whether the program is built with `DP_VOQ_HWQ_USE_5TUPLE`. -/
  use5tuple : Bool

namespace Platform

variable (P : Platform)

def isWorker (lcoreid : ℕ) : Bool := P.enabled lcoreid && lcoreid != P.master

/-- `RTE_LCORE_FOREACH`. -/
def lcores : List ℕ := (List.range P.rteMaxLcore).filter P.enabled

/-- `rte_get_next_lcore(i, 1, 1)`, which does not end without workers. -/
def rteGetNextLcore (i : ℕ) : Option ℕ := scan P.rteMaxLcore i P.isWorker

/-! ## The search -/

/-- The loop `while(1)`, at most `fuel` times: the lcore for the port, and `numa_ok`. -/
def findLcore (portid prevLcoreid : ℕ) : ℕ → ℕ → Bool → Option (ℕ × Bool)
  | 0, _, _ => none
  | fuel + 1, lcoreid, numaOk =>
    if P.enabled lcoreid && (P.portSocket portid == P.lcoreSocket lcoreid || !numaOk) then
      some (lcoreid, numaOk)
    else
      (P.rteGetNextLcore lcoreid).bind fun next =>
        findLcore portid prevLcoreid fuel next (if next = prevLcoreid then false else numaOk)

/-- The test at which `while(1)` breaks. -/
def Breaks (portid lcoreid : ℕ) (numaOk : Bool) : Prop :=
  P.enabled lcoreid && (P.portSocket portid == P.lcoreSocket lcoreid || !numaOk)

/-- The loop `while(1)`: from an lcore and a value of `numa_ok` on, it breaks after `k` steps to
the next lcore. -/
inductive SearchEnds (P : Platform) (portid prevLcoreid : ℕ) : ℕ → ℕ × Bool → ℕ × Bool → Prop
  | here {lcoreid : ℕ} {numaOk : Bool} (h : P.Breaks portid lcoreid numaOk) :
    SearchEnds P portid prevLcoreid 0 (lcoreid, numaOk) (lcoreid, numaOk)
  | step {lcoreid next k : ℕ} {numaOk : Bool} {found : ℕ × Bool}
    (h : ¬ P.Breaks portid lcoreid numaOk) (hnext : P.rteGetNextLcore lcoreid = some next)
    (hrest : SearchEnds P portid prevLcoreid k
      (next, if next = prevLcoreid then false else numaOk) found) :
    SearchEnds P portid prevLcoreid (k + 1) (lcoreid, numaOk) found

/-- The number of workers. -/
def nbWorkers : ℕ := (List.range P.rteMaxLcore).countP P.isWorker

end Platform

structure LcoreParams where
  portId : ℕ
  lcoreId : ℕ
deriving DecidableEq, Repr

/-- The variables of `configure_lcore_params`, with the entries of `lcore_params`. -/
structure Assignment where
  lcoreid : ℕ
  prevLcoreid : ℕ
  numaOk : Bool
  lcoreParams : List LcoreParams
deriving DecidableEq, Repr

namespace Platform

variable (P : Platform)

/-- One port. -/
def assignLcore (portid : ℕ) (s : Assignment) : Option Assignment :=
  (P.findLcore portid s.prevLcoreid (P.rteMaxLcore + 1) s.lcoreid s.numaOk).bind fun found =>
    (P.rteGetNextLcore found.1).map fun next =>
      ⟨next, found.1, found.2, s.lcoreParams ++ [⟨portid, found.1⟩]⟩

/-- `configure_lcore_params`.  The search of the first lcore begins at `-1`. -/
def configureLcoreParams : Option (List LcoreParams) :=
  (P.rteGetNextLcore (P.rteMaxLcore - 1)).bind fun lcoreid =>
    (run P.assignLcore (List.range P.nbPorts) ⟨lcoreid, lcoreid, true, []⟩).map
      Assignment.lcoreParams

/-- The variables after the ports below `m`. -/
def assigned (m : ℕ) : Option Assignment :=
  (P.rteGetNextLcore (P.rteMaxLcore - 1)).bind fun lcoreid =>
    run P.assignLcore (List.range m) ⟨lcoreid, lcoreid, true, []⟩

lemma configureLcoreParams_eq_map :
    P.configureLcoreParams = (P.assigned P.nbPorts).map Assignment.lcoreParams := by
  rw [configureLcoreParams, assigned, Option.map_bind]
  rfl

lemma assigned_succ (m : ℕ) : P.assigned (m + 1) = (P.assigned m).bind (P.assignLcore m) := by
  rw [assigned, assigned, Option.bind_assoc]
  congr 1
  funext lcoreid
  exact run_range_succ m _

/-- In a list of ports with their lcores, each port has one entry, and this names a worker. -/
structure OneWorkerEach (entries : List (ℕ × ℕ)) : Prop where
  ports : entries.map Prod.fst = List.range P.nbPorts
  workers : ∀ x ∈ entries, x.2 < P.rteMaxLcore ∧ P.isWorker x.2 = true

/-! ## What it finds -/

section Search

variable {P} {i lcoreid portid prevLcoreid fuel : ℕ} {numaOk : Bool} {found : ℕ × Bool}
  {s t : Assignment}

lemma rteGetNextLcore_eq_some (h : P.rteGetNextLcore i = some lcoreid) :
    lcoreid < P.rteMaxLcore ∧ P.isWorker lcoreid = true := scan_some h

/-- With a worker the next lcore is found. -/
lemma exists_rteGetNextLcore (hlt : lcoreid < P.rteMaxLcore) (hworker : P.isWorker lcoreid = true)
    (i : ℕ) : ∃ next, P.rteGetNextLcore i = some next := by
  refine Option.ne_none_iff_exists'.mp ?_
  intro hnone
  have := scan_eq_none_iff.mp hnone lcoreid hlt
  rw [hworker] at this
  cases this

/-- What a search finds is a worker. -/
lemma findLcore_worker (hlt : lcoreid < P.rteMaxLcore) (hworker : P.isWorker lcoreid = true)
    (h : P.findLcore portid prevLcoreid fuel lcoreid numaOk = some found) :
    found.1 < P.rteMaxLcore ∧ P.isWorker found.1 = true := by
  induction fuel generalizing lcoreid numaOk with
  | zero => cases h
  | succ fuel ih =>
    rw [findLcore] at h
    split at h
    · obtain rfl := Option.some_inj.mp h
      exact ⟨hlt, hworker⟩
    · obtain ⟨next, hnext, h⟩ := Option.bind_eq_some_iff.mp h
      obtain ⟨hlt', hworker'⟩ := rteGetNextLcore_eq_some hnext
      exact ih hlt' hworker' h

/-- With fuel for its tests, the search is the loop. -/
lemma findLcore_eq_some_iff : P.findLcore portid prevLcoreid fuel lcoreid numaOk = some found ↔
    ∃ k < fuel, P.SearchEnds portid prevLcoreid k (lcoreid, numaOk) found := by
  induction fuel generalizing lcoreid numaOk with
  | zero => simp [findLcore]
  | succ fuel ih =>
    rw [findLcore]
    split
    · next hbreaks =>
      constructor
      · intro h
        obtain rfl := Option.some_inj.mp h
        exact ⟨0, Nat.succ_pos fuel, .here hbreaks⟩
      · rintro ⟨k, -, hends⟩
        cases hends with
        | here => rfl
        | step h => exact absurd hbreaks h
    · next hbreaks =>
      rw [Option.bind_eq_some_iff]
      constructor
      · rintro ⟨next, hnext, h⟩
        obtain ⟨k, hk, hends⟩ := ih.mp h
        exact ⟨k + 1, Nat.succ_lt_succ hk, .step hbreaks hnext hends⟩
      · rintro ⟨k, hk, hends⟩
        cases hends with
        | here h => exact absurd h hbreaks
        | step _ hnext hrest => exact ⟨_, hnext, ih.mpr ⟨_, Nat.succ_lt_succ_iff.mp hk, hrest⟩⟩

/-- A search takes no more steps than there are workers on the way to the lcore of the port
before: it breaks at this one, if not earlier. -/
lemma exists_searchEnds (henabled : P.enabled lcoreid = true)
    (hprev : P.isWorker prevLcoreid = true) (hi : i < P.rteMaxLcore)
    (hvisit : visit P.rteMaxLcore lcoreid i = prevLcoreid) (portid : ℕ) (numaOk : Bool) :
    ∃ k ≤ hits P.rteMaxLcore lcoreid P.isWorker i, ∃ found,
      P.SearchEnds portid prevLcoreid k (lcoreid, numaOk) found := by
  induction i using Nat.strong_induction_on generalizing lcoreid numaOk with
  | _ i ih =>
    by_cases hbreaks : P.Breaks portid lcoreid numaOk
    · exact ⟨0, Nat.zero_le _, _, .here hbreaks⟩
    · obtain ⟨i', hle, hnext, hrest⟩ := scan_of_visit hi (p := P.isWorker) (hvisit ▸ hprev)
      have hfound : P.rteGetNextLcore lcoreid = some (visit P.rteMaxLcore lcoreid i') := hnext
      have hworker := (rteGetNextLcore_eq_some hfound).2
      have henabled' : P.enabled (visit P.rteMaxLcore lcoreid i') = true :=
        ((Bool.and_eq_true _ _).mp hworker).1
      have hpos := hits_pos hworker
      rcases Nat.lt_or_eq_of_le hle with hlt | rfl
      · obtain ⟨k, hk, found, hends⟩ := ih (i - i' - 1) (by omega) henabled' (by omega)
          ((hrest hlt).trans hvisit)
          (if visit P.rteMaxLcore lcoreid i' = prevLcoreid then false else numaOk)
        have hhits := hits_add P.rteMaxLcore lcoreid P.isWorker i' (i - i' - 1)
        rw [show i' + (i - i' - 1) + 1 = i by omega] at hhits
        exact ⟨k + 1, by omega, found, .step hbreaks hfound hends⟩
      · -- back at the lcore of the port before, the socket no longer counts
        refine ⟨1, hpos, (visit P.rteMaxLcore lcoreid i', false), .step hbreaks hfound ?_⟩
        rw [if_pos hvisit]
        exact .here (by simp [Breaks, henabled'])

/-- The lcore to try first and the one of the port before are workers. -/
structure Workers (P : Platform) (s : Assignment) : Prop where
  lcoreid : s.lcoreid < P.rteMaxLcore ∧ P.isWorker s.lcoreid = true
  prevLcoreid : s.prevLcoreid < P.rteMaxLcore ∧ P.isWorker s.prevLcoreid = true

lemma assignLcore_eq_some (hs : P.Workers s) (h : P.assignLcore portid s = some t) :
    P.Workers t ∧ t.lcoreParams = s.lcoreParams ++ [⟨portid, t.prevLcoreid⟩] := by
  obtain ⟨found, hfound, h⟩ := Option.bind_eq_some_iff.mp h
  obtain ⟨next, hnext, rfl⟩ := Option.map_eq_some_iff.mp h
  exact ⟨⟨rteGetNextLcore_eq_some hnext, findLcore_worker hs.lcoreid.1 hs.lcoreid.2 hfound⟩, rfl⟩

/-- The search for the next port ends after no more steps than there are workers. -/
lemma Workers.searchEnds (hs : P.Workers s) (portid : ℕ) : ∃ k ≤ P.nbWorkers, ∃ found,
    P.SearchEnds portid s.prevLcoreid k (s.lcoreid, s.numaOk) found := by
  obtain ⟨i, hi, hvisit⟩ : ∃ i < (P.rteMaxLcore : ℕ), visit P.rteMaxLcore s.lcoreid i =
    s.prevLcoreid := exists_visit_eq hs.prevLcoreid.1
  have henabled : P.enabled s.lcoreid = true := ((Bool.and_eq_true _ _).mp hs.lcoreid.2).1
  obtain ⟨k, hk, hends⟩ :=
    exists_searchEnds henabled hs.prevLcoreid.2 hi hvisit portid s.numaOk
  exact ⟨k, hk.trans (hits_le hi), hends⟩

lemma nbWorkers_le : P.nbWorkers ≤ P.rteMaxLcore := by
  have := List.countP_le_length (p := P.isWorker) (l := List.range P.rteMaxLcore)
  rwa [List.length_range] at this

/-- The search that ends is the one of the function. -/
lemma Workers.exists_findLcore (hs : P.Workers s) (portid : ℕ) : ∃ k ≤ P.nbWorkers, ∃ found,
    P.SearchEnds portid s.prevLcoreid k (s.lcoreid, s.numaOk) found ∧
      P.findLcore portid s.prevLcoreid (P.rteMaxLcore + 1) s.lcoreid s.numaOk = some found := by
  obtain ⟨k, hk, found, hends⟩ := hs.searchEnds portid
  have hfuel : k < P.rteMaxLcore + 1 := Nat.lt_succ_of_le (hk.trans P.nbWorkers_le)
  exact ⟨k, hk, found, hends, findLcore_eq_some_iff.mpr ⟨k, hfuel, hends⟩⟩

lemma exists_assignLcore (hs : P.Workers s) (portid : ℕ) :
    ∃ t, P.assignLcore portid s = some t := by
  obtain ⟨k, -, found, -, hfound⟩ := hs.exists_findLcore portid
  obtain ⟨next, hnext⟩ := exists_rteGetNextLcore hs.lcoreid.1 hs.lcoreid.2 found.1
  exact ⟨_, Option.bind_eq_some_iff.mpr
    ⟨found, hfound, Option.map_eq_some_iff.mpr ⟨next, hnext, rfl⟩⟩⟩

/-- What is found becomes the lcore of the port before. -/
lemma Workers.searchEnds_of_assignLcore (hs : P.Workers s) (h : P.assignLcore portid s = some t) :
    ∃ k ≤ P.nbWorkers,
      P.SearchEnds portid s.prevLcoreid k (s.lcoreid, s.numaOk) (t.prevLcoreid, t.numaOk) := by
  obtain ⟨k, hk, found, hends, hfound⟩ := hs.exists_findLcore portid
  obtain ⟨found', hfound', h⟩ := Option.bind_eq_some_iff.mp h
  obtain rfl : found = found' := Option.some_inj.mp (hfound.symm.trans hfound')
  obtain ⟨next, -, rfl⟩ := Option.map_eq_some_iff.mp h
  exact ⟨k, hk, hends⟩

/-- Every port gets an entry, in order, with a worker. -/
theorem configureLcoreParams_spec {params : List LcoreParams}
    (h : P.configureLcoreParams = some params) :
    params.map LcoreParams.portId = List.range P.nbPorts ∧
      ∀ lp ∈ params, lp.lcoreId < P.rteMaxLcore ∧ P.isWorker lp.lcoreId = true := by
  obtain ⟨first, hfirst, h⟩ := Option.bind_eq_some_iff.mp h
  obtain ⟨t, hrun, rfl⟩ := Option.map_eq_some_iff.mp h
  have hworker := rteGetNextLcore_eq_some hfirst
  have hall := run_history (I := fun past s => P.Workers s ∧
      s.lcoreParams.map LcoreParams.portId = past ∧
      ∀ lp ∈ s.lcoreParams, lp.lcoreId < (P.rteMaxLcore : ℕ) ∧ P.isWorker lp.lcoreId = true)
    (fun past portid _ s t hstep ⟨hs, hports, hlcores⟩ => by
      obtain ⟨ht, heq⟩ := assignLcore_eq_some hs hstep
      refine ⟨ht, by rw [heq, List.map_append, hports]; rfl, ?_⟩
      intro lp hlp
      rw [heq] at hlp
      rcases List.mem_append.mp hlp with hlp | hlp
      · exact hlcores lp hlp
      · obtain rfl := List.mem_singleton.mp hlp
        exact ht.prevLcoreid) hrun ⟨⟨hworker, hworker⟩, rfl, by simp⟩
  exact hall.2

/-- With a worker, all ports are assigned. -/
lemma exists_assigned (hlt : lcoreid < P.rteMaxLcore) (hworker : P.isWorker lcoreid = true)
    (m : ℕ) : ∃ s, P.assigned m = some s ∧ P.Workers s := by
  induction m with
  | zero =>
    obtain ⟨first, hfirst⟩ := exists_rteGetNextLcore hlt hworker (P.rteMaxLcore - 1)
    have hfirstWorker := rteGetNextLcore_eq_some hfirst
    exact ⟨_, Option.bind_eq_some_iff.mpr ⟨first, hfirst, rfl⟩, hfirstWorker, hfirstWorker⟩
  | succ m ih =>
    obtain ⟨s, hs, hworkers⟩ := ih
    obtain ⟨t, ht⟩ := exists_assignLcore hworkers m
    exact ⟨t, by rw [assigned_succ, hs, Option.bind_some, ht], (assignLcore_eq_some hworkers ht).1⟩

/-- The search for each port, in time. -/
lemma exists_searchEnds_assigned (hlt : lcoreid < P.rteMaxLcore)
    (hworker : P.isWorker lcoreid = true) (portid : ℕ) : ∃ s t,
      P.assigned portid = some s ∧ P.assigned (portid + 1) = some t ∧ ∃ k ≤ P.nbWorkers,
        P.SearchEnds portid s.prevLcoreid k (s.lcoreid, s.numaOk) (t.prevLcoreid, t.numaOk) := by
  obtain ⟨s, hs, hworkers⟩ := exists_assigned hlt hworker portid
  obtain ⟨t, ht⟩ := exists_assignLcore hworkers portid
  exact ⟨s, t, hs, by rw [assigned_succ, hs, Option.bind_some, ht],
    hworkers.searchEnds_of_assignLcore ht⟩

/-- It ends if and only if there is a worker. -/
theorem exists_configureLcoreParams_iff : (∃ params, P.configureLcoreParams = some params) ↔
    ∃ lcoreid < (P.rteMaxLcore : ℕ), P.isWorker lcoreid = true := by
  constructor
  · rintro ⟨params, h⟩
    obtain ⟨first, hfirst, -⟩ := Option.bind_eq_some_iff.mp h
    exact ⟨first, rteGetNextLcore_eq_some hfirst⟩
  · rintro ⟨lcoreid, hlt, hworker⟩
    obtain ⟨t, ht, -⟩ := exists_assigned hlt hworker P.nbPorts
    exact ⟨t.lcoreParams, by rw [configureLcoreParams_eq_map, ht, Option.map_some]⟩

lemma oneWorkerEach_of_eq_some {params : List LcoreParams}
    (h : P.configureLcoreParams = some params) :
    P.OneWorkerEach (params.map fun lp => (lp.portId, lp.lcoreId)) := by
  obtain ⟨hports, hlcores⟩ := configureLcoreParams_spec h
  refine ⟨by rw [List.map_map]; exact hports, ?_⟩
  intro x hx
  obtain ⟨lp, hlp, rfl⟩ := List.mem_map.mp hx
  exact hlcores lp hlp

end Search

end Platform

end DaqSwitch.VoqHwq
