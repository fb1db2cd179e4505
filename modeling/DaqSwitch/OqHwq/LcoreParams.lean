import DaqSwitch.VoqHwq.NumaLocality

/-!
# The lcores of the ports

`configure_lcore_params` of `dp_oq_hwq.c`.  It searches as the function of the same name in
`dp_voq_hwq.c` does; its entries carry the number of an rx queue as well.
-/

namespace DaqSwitch.OqHwq

open Lib.Machine
open VoqHwq (Platform)

structure LcoreParams where
  portId : ℕ
  queueId : ℕ
  lcoreId : ℕ
deriving DecidableEq, Repr

/-- The variables of `configure_lcore_params`, with the entries of `lcore_params`. -/
structure Assignment where
  lcoreid : ℕ
  prevLcoreid : ℕ
  numaOk : Bool
  lcoreParams : List LcoreParams
deriving DecidableEq, Repr

/-- One port. -/
def assignLcore (P : Platform) (portid : ℕ) (s : Assignment) : Option Assignment :=
  (P.findLcore portid s.prevLcoreid (P.rteMaxLcore + 1) s.lcoreid s.numaOk).bind fun found =>
    (P.rteGetNextLcore found.1).map fun next =>
      ⟨next, found.1, found.2, s.lcoreParams ++ [⟨portid, 0, found.1⟩]⟩

def configureLcoreParams (P : Platform) : Option (List LcoreParams) :=
  (P.rteGetNextLcore (P.rteMaxLcore - 1)).bind fun lcoreid =>
    (run (assignLcore P) (List.range P.nbPorts) ⟨lcoreid, lcoreid, true, []⟩).map
      Assignment.lcoreParams

/-- The variables after the ports below `m`. -/
def assigned (P : Platform) (m : ℕ) : Option Assignment :=
  (P.rteGetNextLcore (P.rteMaxLcore - 1)).bind fun lcoreid =>
    run (assignLcore P) (List.range m) ⟨lcoreid, lcoreid, true, []⟩

lemma configureLcoreParams_eq_map (P : Platform) :
    configureLcoreParams P = (assigned P P.nbPorts).map Assignment.lcoreParams := by
  rw [configureLcoreParams, assigned, Option.map_bind]
  rfl

/-! ## The two data paths -/

/-- An entry of the other data path, with queue 0. -/
def LcoreParams.ofVoq (lp : VoqHwq.LcoreParams) : LcoreParams := ⟨lp.portId, 0, lp.lcoreId⟩

def Assignment.ofVoq (s : VoqHwq.Assignment) : Assignment :=
  ⟨s.lcoreid, s.prevLcoreid, s.numaOk, s.lcoreParams.map .ofVoq⟩

variable (P : Platform)

lemma assignLcore_ofVoq (portid : ℕ) (s : VoqHwq.Assignment) :
    (P.assignLcore portid s).map Assignment.ofVoq = assignLcore P portid (.ofVoq s) := by
  rw [Platform.assignLcore, assignLcore, Option.map_bind]
  congr 1
  funext found
  rw [Function.comp_apply, Option.map_map]
  congr 1
  funext next
  simp [Assignment.ofVoq, LcoreParams.ofVoq]

lemma assigned_ofVoq (m : ℕ) : (P.assigned m).map Assignment.ofVoq = assigned P m := by
  rw [assigned, Platform.assigned, Option.map_bind]
  congr 1
  funext lcoreid
  exact map_run (assignLcore_ofVoq P) (List.range m) ⟨lcoreid, lcoreid, true, []⟩

/-- The two functions give the ports the same lcores. -/
theorem configureLcoreParams_ofVoq :
    configureLcoreParams P = P.configureLcoreParams.map (·.map LcoreParams.ofVoq) := by
  rw [configureLcoreParams_eq_map, P.configureLcoreParams_eq_map, ← assigned_ofVoq,
    Option.map_map, Option.map_map]
  rfl

/-- Two workers on two sockets, and two ports on each socket. -/
def twoWorkers : Platform where
  rteMaxLcore := ⟨4, by decide⟩
  enabled lcoreid := lcoreid < 3
  master := 0
  lcoreSocket lcoreid := if lcoreid = 2 then 1 else 0
  portSocket portid := portid / 2
  nbPorts := ⟨4, by decide⟩
  use5tuple := false

/-- **The assignment of the ports ends, for both data paths.**  The search for each port breaks
after no more steps than there are workers, with the lcore that the next search begins behind;
the function ends, and each port has one entry, which names a worker. -/
theorem configureLcoreParams_ends
    (hworker : ∃ lcoreid < (P.rteMaxLcore : ℕ), P.isWorker lcoreid = true) :
    ((∀ portid < (P.nbPorts : ℕ), ∃ s t,
        P.assigned portid = some s ∧ P.assigned (portid + 1) = some t ∧ ∃ k ≤ P.nbWorkers,
          P.SearchEnds portid s.prevLcoreid k (s.lcoreid, s.numaOk) (t.prevLcoreid, t.numaOk)) ∧
      ∃ params, P.configureLcoreParams = some params ∧
        P.OneWorkerEach (params.map fun lp => (lp.portId, lp.lcoreId))) ∧
    (∀ portid < (P.nbPorts : ℕ), ∃ s t,
        assigned P portid = some s ∧ assigned P (portid + 1) = some t ∧ ∃ k ≤ P.nbWorkers,
          P.SearchEnds portid s.prevLcoreid k (s.lcoreid, s.numaOk) (t.prevLcoreid, t.numaOk)) ∧
      ∃ params, configureLcoreParams P = some params ∧
        P.OneWorkerEach (params.map fun lp => (lp.portId, lp.lcoreId)) := by
  obtain ⟨params, hparams⟩ := Platform.exists_configureLcoreParams_iff.mpr hworker
  obtain ⟨lcoreid, hlt, hworker⟩ := hworker
  have hone := Platform.oneWorkerEach_of_eq_some hparams
  refine ⟨⟨?_, params, hparams, hone⟩, ?_, params.map .ofVoq, ?_, ?_⟩
  · intro portid _
    exact Platform.exists_searchEnds_assigned hlt hworker portid
  · intro portid _
    obtain ⟨s, t, hs, ht, hends⟩ := Platform.exists_searchEnds_assigned hlt hworker portid
    refine ⟨.ofVoq s, .ofVoq t, ?_, ?_, hends⟩
    · rw [← assigned_ofVoq, hs, Option.map_some]
    · rw [← assigned_ofVoq, ht, Option.map_some]
  · rw [configureLcoreParams_ofVoq, hparams, Option.map_some]
  · rw [List.map_map]
    exact hone

/-- The theorem for two workers, one on each socket. -/
theorem configureLcoreParams_ends_twoWorkers :
    (∃ lcoreid < (twoWorkers.rteMaxLcore : ℕ), twoWorkers.isWorker lcoreid = true) ∧
    (∀ portid < (twoWorkers.nbPorts : ℕ), ∃ s t,
      assigned twoWorkers portid = some s ∧ assigned twoWorkers (portid + 1) = some t ∧
      ∃ k ≤ twoWorkers.nbWorkers, twoWorkers.SearchEnds portid s.prevLcoreid k
        (s.lcoreid, s.numaOk) (t.prevLcoreid, t.numaOk)) ∧
    ∃ params, configureLcoreParams twoWorkers = some params ∧
      twoWorkers.OneWorkerEach (params.map fun lp => (lp.portId, lp.lcoreId)) :=
  have hworker : ∃ lcoreid < (twoWorkers.rteMaxLcore : ℕ), twoWorkers.isWorker lcoreid = true :=
    ⟨1, by decide, by decide⟩
  ⟨hworker, (configureLcoreParams_ends twoWorkers hworker).2⟩

/-- **Locality of the lcores, for both data paths.**  Both functions end.  All ports get an
lcore on their sockets if and only if the turns behind the first search that comes round meet
the sockets. -/
theorem configureLcoreParams_allLocal_iff
    (hworker : ∃ lcoreid < (P.rteMaxLcore : ℕ), P.isWorker lcoreid = true) :
    (∃ params, P.configureLcoreParams = some params ∧
      (P.AllLocal (params.map fun lp => (lp.portId, lp.lcoreId)) ↔ P.TurnsMeet)) ∧
    ∃ params, configureLcoreParams P = some params ∧
      (P.AllLocal (params.map fun lp => (lp.portId, lp.lcoreId)) ↔ P.TurnsMeet) := by
  obtain ⟨params, h⟩ := Platform.exists_configureLcoreParams_iff.mpr hworker
  have hiff : P.AllLocal (params.map fun lp => (lp.portId, lp.lcoreId)) ↔ P.TurnsMeet := by
    refine Platform.allLocal_iff (Platform.oneWorkerEach_of_eq_some h).ports ?_
    intro x hx
    obtain ⟨lp, hlp, rfl⟩ := List.mem_map.mp hx
    exact Platform.configureLcoreParams_isTurn h lp hlp
  refine ⟨⟨params, h, hiff⟩, params.map .ofVoq, ?_, ?_⟩
  · rw [configureLcoreParams_ofVoq, h, Option.map_some]
  · rw [List.map_map]
    exact hiff

/-- The theorem for two workers. -/
theorem configureLcoreParams_allLocal_iff_twoWorkers :
    (∃ lcoreid < (twoWorkers.rteMaxLcore : ℕ), twoWorkers.isWorker lcoreid = true) ∧
    ∃ params, configureLcoreParams twoWorkers = some params ∧
      (twoWorkers.AllLocal (params.map fun lp => (lp.portId, lp.lcoreId)) ↔
        twoWorkers.TurnsMeet) :=
  have hworker : ∃ lcoreid < (twoWorkers.rteMaxLcore : ℕ), twoWorkers.isWorker lcoreid = true :=
    ⟨1, by decide, by decide⟩
  ⟨hworker, (configureLcoreParams_allLocal_iff twoWorkers hworker).2⟩

/-- Port 1 makes the search come round, and port 3 then gets the worker on the other socket,
in both data paths. -/
theorem not_allLocal_twoWorkers :
    (∃ params, twoWorkers.configureLcoreParams = some params ∧
      ¬ twoWorkers.AllLocal (params.map fun lp => (lp.portId, lp.lcoreId))) ∧
    ∃ params, configureLcoreParams twoWorkers = some params ∧
      ¬ twoWorkers.AllLocal (params.map fun lp => (lp.portId, lp.lcoreId)) := by
  have hnot : ¬ twoWorkers.AllLocal [(0, 1), (1, 1), (2, 2), (3, 1)] := by
    intro h
    exact absurd (h (3, 1) (by decide) ⟨2, by decide, by decide⟩) (by decide)
  exact ⟨⟨[⟨0, 1⟩, ⟨1, 1⟩, ⟨2, 2⟩, ⟨3, 1⟩], by decide, hnot⟩,
    [⟨0, 0, 1⟩, ⟨1, 0, 1⟩, ⟨2, 0, 2⟩, ⟨3, 0, 1⟩], by decide, hnot⟩

end DaqSwitch.OqHwq
