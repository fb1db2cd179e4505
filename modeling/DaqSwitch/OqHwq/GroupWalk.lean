import DaqSwitch.OqHwq.MainLoop

/-!
# The groups that are sent

The last loop of `main_loop` on a burst goes from group to group by the lengths in `pnum`.  The
vector comparisons, the fake repetition of the last port and the scalar tail together make these
the lengths of the maximal runs of equal ports, so the loop sends the groups that a comparison of
each packet with the one before gives.
-/

namespace DaqSwitch.OqHwq

open Lib Lib.Machine

variable {α : Type*} {rteMaxEthports : Fin (2 ^ 8)}

/-! ## The loop over the groups -/

namespace Lcore

variable {m : ℕ → α} {j : ℕ} {s t : Lcore α}

lemma sendGroup_pnum (h : sendGroup m j s = some t) : t.pnum = s.pnum := by
  rw [sendGroup] at h
  split at h
  · exact (sendPacketsx4_frame h).pnum
  · obtain rfl := Option.some_inj.mp h
    rfl

/-- The loop is a walk over `pnum`, with one group sent at each index that it visits. -/
theorem sendGroups_eq_walk (m : ℕ → α) (nbRx fuel j : ℕ) (s : Lcore α) :
    sendGroups m nbRx fuel j s =
      (walk s.pnum nbRx fuel j).bind fun w => run (sendGroup m) w.1 s := by
  induction fuel generalizing j s with
  | zero =>
    rw [sendGroups, walk]
    split
    · rfl
    · rfl
  | succ fuel ih =>
    by_cases hlt : j < nbRx
    · rw [sendGroups_of_lt hlt, walk, if_pos hlt]
      cases hsend : sendGroup m j s with
      | none =>
        cases walk s.pnum nbRx fuel (j + s.pnum j) with
        | none => rfl
        | some w => simp [run_cons, hsend]
      | some t =>
        rw [Option.bind_some, ih, sendGroup_pnum hsend]
        cases walk s.pnum nbRx fuel (j + s.pnum j) with
        | none => rfl
        | some w => simp [run_cons, hsend]
    · rw [sendGroups, walk, if_neg hlt, if_neg hlt]
      rfl

end Lcore

/-! ## The runs of a burst -/

/-- The loop on a received burst sends one group for each run of equal destination ports. -/
theorem Lcore.rxQueue_eq_run {b : Burst α rteMaxEthports} (hnb : 0 < b.nbRx) (s : Lcore α) :
    rxQueue b s = run (sendGroup b.pktsBurst) (starts b.dst 0 b.nbRx) { s with
      dstPort := (groupPorts b.dst b.nbRx s.dstPort s.pnum).dstPort
      pnum := (groupPorts b.dst b.nbRx s.dstPort s.pnum).pnum } := by
  obtain ⟨hc, -⟩ := groupPorts_counted hnb (b.dst_zero_ne hnb) s.dstPort s.pnum
  rw [rxQueue, if_neg (by omega), sendGroups_eq_walk, hc.walk_eq]
  rfl

section Burst

variable {dst : ℕ → BitVec 16} {nbRx : ℕ}

/-- **Vector grouping is run-length grouping.**  For a burst of any size and any destination
ports other than `BAD_PORT - 1`, the walk over `pnum` visits the starts of the maximal runs of
equal ports and ends at the end of the burst; `pnum` has the length of each run at its start;
and the groups are those that the list of the ports falls into. -/
theorem groupPorts_walk (hnb : 1 ≤ nbRx ∧ nbRx ≤ maxPktBurst)
    (hdst : ∀ i < nbRx, dst i ≠ badPort - 1) (dstPort : ℕ → BitVec 16) (pnum : ℕ → ℕ) :
    let g := groupPorts dst nbRx dstPort pnum
    walk g.pnum nbRx nbRx 0 = some (starts dst 0 nbRx, nbRx) ∧
      (∀ h ∈ starts dst 0 nbRx, IsRun dst h (g.pnum h) nbRx) ∧
      (starts dst 0 nbRx).map (fun h => window g.dstPort h (g.pnum h)) =
        (window dst 0 nbRx).splitBy fun a b => a = b := by
  obtain ⟨hc, hd⟩ := groupPorts_counted hnb.1 (hdst 0 hnb.1) dstPort pnum
  have hruns : ∀ h ∈ starts dst 0 nbRx,
      IsRun dst h ((groupPorts dst nbRx dstPort pnum).pnum h) nbRx := by
    intro h hh
    obtain ⟨⟨-, hlt⟩, hs⟩ := mem_starts.mp hh
    exact hc.run h (by omega) hs
  refine ⟨hc.walk_eq, hruns, ?_⟩
  rw [hc.splitBy_eq]
  refine List.map_congr_left ?_
  intro h hh
  have hle := (hruns h hh).le
  exact window_congr fun i hi => hd _ (by omega)

/-- Five packets for port 1, one without a valid port, and packets for port 2. -/
def threeRuns (i : ℕ) : BitVec 16 := if i < 5 then 1 else if i = 5 then badPort else 2

/-- The theorem for a run over a group of four, with a tail of three. -/
theorem groupPorts_walk_threeRuns :
    ((1 ≤ 7 ∧ 7 ≤ maxPktBurst) ∧ ∀ i < 7, threeRuns i ≠ badPort - 1) ∧
      let g := groupPorts threeRuns 7 (fun _ => 0) fun _ => 0
      walk g.pnum 7 7 0 = some (starts threeRuns 0 7, 7) ∧
        (∀ h ∈ starts threeRuns 0 7, IsRun threeRuns h (g.pnum h) 7) ∧
        (starts threeRuns 0 7).map (fun h => window g.dstPort h (g.pnum h)) =
          (window threeRuns 0 7).splitBy fun a b => a = b :=
  ⟨⟨by decide, by decide⟩, groupPorts_walk (by decide) (by decide) _ _⟩

/-- The vector code counts what the scalar macro alone would count. -/
theorem groupPorts_eq_scalar (hnb : 0 < nbRx) (h0 : dst 0 ≠ badPort - 1)
    (dstPort : ℕ → BitVec 16) (pnum : ℕ → ℕ) : ∀ h ∈ starts dst 0 nbRx,
      (groupPorts dst nbRx dstPort pnum).pnum h =
        ((Group.tail dst)^[nbRx] ⟨dstPort, pnum, maxPktBurst, badPort - 1, 0⟩).pnum h := by
  intro h hh
  obtain ⟨⟨-, hlt⟩, hs⟩ := mem_starts.mp hh
  rw [Nat.zero_add] at hlt
  have hscalar : Group.Inv dst ⟨dstPort, pnum, maxPktBurst, badPort - 1, 0⟩ 0 :=
    ⟨rfl, nofun, fun _ => rfl, nofun, nofun⟩
  have hc := (hscalar.iterate_tail h0 nbRx).counted (by omega)
  rw [Nat.zero_add] at hc
  exact ((groupPorts_counted hnb h0 dstPort pnum).1.run h hlt hs).unique (hc.run h hlt hs)

end Burst

end DaqSwitch.OqHwq
