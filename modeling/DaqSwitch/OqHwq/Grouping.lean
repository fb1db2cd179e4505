import DaqSwitch.Lib.Runs
import DaqSwitch.OqHwq.Types

/-!
# Grouping of packets by destination port

`main_loop` of `dp_oq_hwq.c` cuts the array `dst_port` of a burst into runs of equal ports,
four comparisons at once.  `pnum` receives the length of each run at its start; at the other
indices it holds values that nobody reads.  `lp` is the index of the entry of the run that is
still open.

A vector register is the function of its eight lanes of 16 bits.
-/

namespace DaqSwitch.OqHwq

open Lib

/-! ## Vector instructions -/

abbrev M128 : Type := ℕ → BitVec 16

def mmLoaduSi128 (d : ℕ → BitVec 16) (off : ℕ) : M128 := fun i => d (off + i)

def mmCmpeqEpi16 (a b : M128) : M128 := fun i => if a i = b i then -1 else 0

def mmUnpackloEpi16 (a b : M128) : M128 := fun i => if i % 2 = 0 then a (i / 2) else b (i / 2)

/-- The sign bits of the four lanes of 32 bits. -/
def mmMovemaskPs (a : M128) : ℕ :=
  ((List.range 4).map fun i => if (a (2 * i + 1)).msb then 2 ^ i else 0).sum

/-- A shift by an even number of bytes. -/
def mmSrliSi128 (a : M128) (bytes : ℕ) : M128 := fun i =>
  if i + bytes / 2 < 8 then a (i + bytes / 2) else 0

def mmShuffleloEpi16 (a : M128) (imm : ℕ) : M128 := fun i =>
  if i < 4 then a (imm / 4 ^ i % 4) else a i

/-! ## The table -/

/-- An entry of `gptbl`: four 16-bit values for `pnum`, the index of the new open run, and
what the old open run gains. -/
structure Gp where
  pnum : ℕ
  idx : ℕ
  lpv : ℕ

/-- Indexed by the mask of the comparisons `a == b`, `b == c`, `c == d`, `d == e`. -/
def gptblEntries : List Gp :=
  [⟨0x0001000100010001, 4, 0⟩,
    ⟨0x0001000100010002, 4, 1⟩,
    ⟨0x0001000100020001, 4, 0⟩,
    ⟨0x0001000100020003, 4, 2⟩,
    ⟨0x0001000200010001, 4, 0⟩,
    ⟨0x0001000200010002, 4, 1⟩,
    ⟨0x0001000200030001, 4, 0⟩,
    ⟨0x0001000200030004, 4, 3⟩,
    ⟨0x0002000100010001, 3, 0⟩,
    ⟨0x0002000100010002, 3, 1⟩,
    ⟨0x0002000100020001, 3, 0⟩,
    ⟨0x0002000100020003, 3, 2⟩,
    ⟨0x0002000300010001, 2, 0⟩,
    ⟨0x0002000300010002, 2, 1⟩,
    ⟨0x0002000300040001, 1, 0⟩,
    ⟨0x0002000300040005, 0, 4⟩]

def gptbl (v : ℕ) : Gp := (gptblEntries[v]?).getD ⟨0, 0, 0⟩

def grpmsk : ℕ := 2 ^ fwdstep - 1

/-! ## The functions -/

/-- The 64-bit store to four entries of `pnum` from index `pn` on. -/
def storeU64 (pnum : ℕ → ℕ) (pn x : ℕ) : ℕ → ℕ := fun i =>
  if pn ≤ i ∧ i < pn + 4 then x / 2 ^ (16 * (i - pn)) % 2 ^ 16 else pnum i

/-- `port_groupx4`: the new `pnum` and `lp`. -/
def portGroupx4 (pnum : ℕ → ℕ) (pn lp : ℕ) (dp1 dp2 : M128) : (ℕ → ℕ) × ℕ :=
  let dp1 := mmCmpeqEpi16 dp1 dp2
  let dp1 := mmUnpackloEpi16 dp1 dp1
  let v := mmMovemaskPs dp1
  let pnum := Function.update pnum lp (pnum lp + (gptbl v).lpv)
  if v ≠ grpmsk then
    let lp := pn + (gptbl v).idx
    let pnum := Function.update pnum lp 1
    (storeU64 pnum pn (gptbl v).pnum, lp)
  else (pnum, lp)

/-- The variables of the grouping in `main_loop`. -/
structure Group where
  dstPort : ℕ → BitVec 16
  pnum : ℕ → ℕ
  lp : ℕ
  dlp : BitVec 16
  j : ℕ

/-- The macro `GROUP_PORT_STEP`. -/
def Group.groupPortStep (g : Group) (idx : ℕ) : Group :=
  if g.dlp = g.dstPort idx then
    { g with pnum := Function.update g.pnum g.lp (g.pnum g.lp + 1) }
  else
    { g with dlp := g.dstPort idx, lp := idx, pnum := Function.update g.pnum idx 1 }

/-- The variables of the loop over groups of four. -/
structure Groupx4 where
  pnum : ℕ → ℕ
  lp : ℕ
  dp1 : M128
  j : ℕ

/-- The body of the loop over groups of four. -/
def Groupx4.step (d : ℕ → BitVec 16) (g : Groupx4) : Groupx4 :=
  let dp2 := mmLoaduSi128 d (g.j - fwdstep + 1)
  let r := portGroupx4 g.pnum (g.j - fwdstep) g.lp g.dp1 dp2
  ⟨r.1, r.2, mmSrliSi128 dp2 ((fwdstep - 1) * 2), g.j + fwdstep⟩

/-- The part of the grouping for the first `k` packets, with `k` the number of received
packets rounded down to a multiple of four. -/
def groupx4 (d : ℕ → BitVec 16) (pnum : ℕ → ℕ) (k : ℕ) : Group :=
  if k ≠ 0 then
    -- for (j = FWDSTEP; j != k; j += FWDSTEP)
    let start : Groupx4 := ⟨Function.update pnum 0 1, 0, mmLoaduSi128 d 0, fwdstep⟩
    let g := (Groupx4.step d)^[(k - fwdstep) / fwdstep] start
    let dp2 := mmShuffleloEpi16 g.dp1 0xf9
    let r := portGroupx4 g.pnum (g.j - fwdstep) g.lp g.dp1 dp2
    -- remove values added by the last repeated dst port
    ⟨d, Function.update r.1 r.2 (r.1 r.2 - 1), r.2, d (g.j - 1), g.j⟩
  else ⟨d, pnum, maxPktBurst, badPort - 1, 0⟩

/-- `process_packet` with the answer `dst j` of the lookup, `GROUP_PORT_STEP` and `j++`. -/
def Group.tail (dst : ℕ → BitVec 16) (g : Group) : Group :=
  let g := { g with dstPort := Function.update g.dstPort g.j (dst g.j) }
  let g := g.groupPortStep g.j
  { g with j := g.j + 1 }

/-- The lookups and the grouping for a burst of `nbRx` packets: the vector lookups write
`dst_port` up to `k`, the scalar ones the rest. -/
def groupPorts (dst : ℕ → BitVec 16) (nbRx : ℕ) (dstPort : ℕ → BitVec 16) (pnum : ℕ → ℕ) :
    Group :=
  let k := nbRx / fwdstep * fwdstep
  let d := blit dstPort 0 (window dst 0 k)
  (Group.tail dst)^[nbRx % fwdstep] (groupx4 d pnum k)

/-! ## The mask and the table -/

lemma sum_bits (e : ℕ → Bool) :
    ((List.range 4).map fun i => if e i then 2 ^ i else 0).sum < 16 ∧
      ∀ i < 4, ((List.range 4).map fun i => if e i then 2 ^ i else 0).sum.testBit i = e i := by
  have hsum : ((List.range 4).map fun i => if e i then 2 ^ i else 0).sum =
      (e 0).toNat + 2 * (e 1).toNat + 4 * (e 2).toNat + 8 * (e 3).toNat := by
    simp only [List.range_succ, List.range_zero, List.nil_append, List.map_append, List.map_cons,
      List.map_nil, List.sum_append, List.sum_cons, List.sum_nil]
    cases e 0 <;> cases e 1 <;> cases e 2 <;> cases e 3 <;> rfl
  rw [hsum]
  constructor
  · cases e 0 <;> cases e 1 <;> cases e 2 <;> cases e 3 <;> decide
  · intro i hi
    interval_cases i <;> cases e 0 <;> cases e 1 <;> cases e 2 <;> cases e 3 <;> rfl

/-- The mask of the four comparisons. -/
lemma mmMovemaskPs_cmpeq (a b : M128) :
    mmMovemaskPs (mmUnpackloEpi16 (mmCmpeqEpi16 a b) (mmCmpeqEpi16 a b)) < 16 ∧ ∀ i < 4,
      ((mmMovemaskPs (mmUnpackloEpi16 (mmCmpeqEpi16 a b) (mmCmpeqEpi16 a b))).testBit i ↔
        a i = b i) := by
  have hlane : ∀ i, (mmUnpackloEpi16 (mmCmpeqEpi16 a b) (mmCmpeqEpi16 a b) (2 * i + 1)).msb =
      decide (a i = b i) := by
    intro i
    rw [mmUnpackloEpi16, if_neg (by omega), show (2 * i + 1) / 2 = i by omega, mmCmpeqEpi16]
    by_cases h : a i = b i
    · rw [if_pos h, decide_eq_true h]
      rfl
    · rw [if_neg h, decide_eq_false h]
      rfl
  simp only [mmMovemaskPs, hlane]
  obtain ⟨hlt, hbit⟩ := sum_bits fun i => decide (a i = b i)
  exact ⟨hlt, fun i hi => by rw [hbit i hi, decide_eq_true_iff]⟩

/-- The value of `pnum` in the table for index `i` of the group. -/
def Gp.lane (x : Gp) (i : ℕ) : ℕ := x.pnum / 2 ^ (16 * i) % 2 ^ 16

/-- The old open run gains the packets up to the first difference. -/
lemma gptbl_lpv : ∀ v < 16, (gptbl v).lpv ≤ 4 ∧ (∀ j < (gptbl v).lpv, v.testBit j) ∧
    ((gptbl v).lpv < 4 → ¬ v.testBit (gptbl v).lpv) ∧ (gptbl v).lane 0 = (gptbl v).lpv + 1 := by
  decide

/-- A run that starts in the group goes to the next difference. -/
lemma gptbl_lane : ∀ v < 16, ∀ i < 4, 0 < (gptbl v).lane i ∧ i + (gptbl v).lane i ≤ 5 ∧
    (i + (gptbl v).lane i < 5 → ¬ v.testBit (i + (gptbl v).lane i - 1)) := by
  decide

lemma gptbl_lane_inside : ∀ v < 16, ∀ i < 4, ∀ j < 4, i ≤ j → j + 1 < i + (gptbl v).lane i →
    v.testBit j := by
  decide

/-- The new open run starts after the last difference. -/
lemma gptbl_idx : ∀ v < 16, v ≠ grpmsk → 0 < (gptbl v).idx ∧ (gptbl v).idx ≤ 4 ∧
    ¬ v.testBit ((gptbl v).idx - 1) ∧ ∀ j < 4, (gptbl v).idx ≤ j → v.testBit j := by
  decide

lemma testBit_grpmsk : ∀ j < 4, grpmsk.testBit j := by decide

/-! ## What the functions do to the runs -/

variable {d : ℕ → BitVec 16} {pnum : ℕ → ℕ} {p lp : ℕ}

/-- The `pnum` and `lp` after `port_groupx4` with the mask `v`. -/
structure Grouped (pnum : ℕ → ℕ) (p lp v : ℕ) (r : (ℕ → ℕ) × ℕ) : Prop where
  closed : ∀ h < lp, r.1 h = pnum h
  gains : lp < p ∨ pnum lp = 1 → r.1 lp = pnum lp + (gptbl v).lpv
  same : v = grpmsk → r.2 = lp
  moved : v ≠ grpmsk → r.2 = p + (gptbl v).idx
  stored : v ≠ grpmsk → ∀ i < 4, r.1 (p + i) = (gptbl v).lane i
  opened : v ≠ grpmsk → (gptbl v).idx = 4 → r.1 (p + 4) = 1

lemma portGroupx4_grouped (pnum : ℕ → ℕ) (hlp : lp ≤ p) (dp1 dp2 : M128) : ∃ v < 16,
    (∀ i < 4, (v.testBit i ↔ dp1 i = dp2 i)) ∧
      Grouped pnum p lp v (portGroupx4 pnum p lp dp1 dp2) := by
  obtain ⟨hlt, hbit⟩ := mmMovemaskPs_cmpeq dp1 dp2
  refine ⟨_, hlt, hbit, ?_⟩
  rw [portGroupx4]
  generalize mmMovemaskPs (mmUnpackloEpi16 (mmCmpeqEpi16 dp1 dp2) (mmCmpeqEpi16 dp1 dp2)) = v
    at hlt
  by_cases hmsk : v = grpmsk
  · simp only [hmsk, ne_eq, not_true_eq_false, if_false]
    exact ⟨fun h hh => Function.update_of_ne (by omega) _ _, fun _ => Function.update_self _ _ _,
      fun _ => rfl, fun h => absurd rfl h, fun h => absurd rfl h, fun h => absurd rfl h⟩
  · obtain ⟨hidx, -, -⟩ := gptbl_idx v hlt hmsk
    have hstore : ∀ (f : ℕ → ℕ) (i : ℕ), i < 4 →
        storeU64 f p (gptbl v).pnum (p + i) = (gptbl v).lane i := by
      intro f i hi
      rw [storeU64, if_pos (by omega), Nat.add_sub_cancel_left, Gp.lane]
    have hkeep : ∀ (f : ℕ → ℕ) (i : ℕ), i < p ∨ p + 4 ≤ i →
        storeU64 f p (gptbl v).pnum i = f i := by
      intro f i hi
      rw [storeU64, if_neg (by omega)]
    simp only [ne_eq, hmsk, not_false_eq_true, if_true]
    refine ⟨?_, ?_, fun h => absurd h hmsk, fun _ => rfl,
      fun _ => hstore _, ?_⟩
    · intro h hh
      refine (hkeep _ h (by omega)).trans ?_
      rw [Function.update_of_ne (by omega), Function.update_of_ne (by omega)]
    · intro hor
      rcases hlp.lt_or_eq with hlt' | rfl
      · refine (hkeep _ lp (by omega)).trans ?_
        rw [Function.update_of_ne (by omega), Function.update_self]
      · -- the store overwrites what the open run has gained, with the same value
        refine (hstore _ 0 (by omega)).trans ?_
        rw [(gptbl_lpv v hlt).2.2.2, hor.resolve_left (lt_irrefl _), Nat.add_comm]
    · intro _ h4
      refine (hkeep _ (p + 4) (by omega)).trans ?_
      rw [h4, Function.update_self]

section Links

variable {v : ℕ} {r : (ℕ → ℕ) × ℕ} (hv : v < 16)
  (hbit : ∀ i < 4, (v.testBit i ↔ d (p + i) = d (p + i + 1)))

include hbit in
/-- A packet of the group starts a run if and only if its bit is clear. -/
lemma isStart_iff_testBit {i : ℕ} (hi : 0 < i) (hi4 : i ≤ 4) :
    IsStart d (p + i) ↔ ¬ v.testBit (i - 1) := by
  rw [hbit (i - 1) (by omega), show p + (i - 1) + 1 = p + i by omega, IsStart,
    show p + i - 1 = p + (i - 1) by omega]
  exact or_iff_right (by omega)

include hv hbit

/-- The run that was open reaches the first difference. -/
lemma Grouped.run_last (hg : Grouped pnum p lp v r) (hc : Counted d pnum lp (p + 1)) :
    IsRun d lp (r.1 lp) (p + 5) := by
  have hreach := hc.reach
  have hpos := hc.pos
  obtain ⟨hlpv, hgain, hstop, -⟩ := gptbl_lpv v hv
  rw [hg.gains (by omega)]
  refine .of_links (by omega) (by omega) ?_ ?_
  · intro i hi hi'
    rcases Nat.lt_or_ge i p with hip | hip
    · exact (hc.eq_last hi (by omega)).trans (hc.eq_last (by omega) (by omega)).symm
    · have := (hbit (i - p) (by omega)).mp (hgain _ (by omega))
      rwa [Nat.add_sub_cancel' hip] at this
  · intro hlt
    have := mt (hbit (gptbl v).lpv (by omega)).mpr (hstop (by omega))
    rwa [show lp + (pnum lp + (gptbl v).lpv) = p + (gptbl v).lpv + 1 by omega]

/-- A run that starts in the group reaches the next difference. -/
lemma Grouped.run_new (hg : Grouped pnum p lp v r) {i : ℕ} (hi : 0 < i) (hi4 : i ≤ 4)
    (hs : IsStart d (p + i)) : IsRun d (p + i) (r.1 (p + i)) (p + 5) := by
  have hclear := (isStart_iff_testBit hbit hi hi4).mp hs
  have hmsk : v ≠ grpmsk := by
    rintro rfl
    exact hclear (testBit_grpmsk (i - 1) (by omega))
  rcases hi4.lt_or_eq with hi4 | rfl
  · -- the table knows the run up to the last comparison
    obtain ⟨hpos, hle, hend⟩ := gptbl_lane v hv i hi4
    rw [hg.stored hmsk i hi4]
    refine .of_links hpos (by omega) ?_ ?_
    · intro j hj hj'
      have := (hbit (j - p) (by omega)).mp
        (gptbl_lane_inside v hv i hi4 (j - p) (by omega) (by omega) (by omega))
      rwa [Nat.add_sub_cancel' (by omega)] at this
    · intro hlt
      have := mt (hbit (i + (gptbl v).lane i - 1) (by omega)).mpr (hend (by omega))
      rwa [show p + (i + (gptbl v).lane i - 1) + 1 = p + i + (gptbl v).lane i by omega,
        show p + (i + (gptbl v).lane i - 1) = p + i + (gptbl v).lane i - 1 by omega] at this
  · -- the last packet of the group opens a run of one
    obtain ⟨-, hidx4, -, hset⟩ := gptbl_idx v hv hmsk
    have hidx : (gptbl v).idx = 4 := by
      by_contra hne
      exact hclear (hset 3 (by omega) (by omega))
    rw [hg.opened hmsk hidx]
    exact isRun_last d (p + 4)

/-- The entry `lp` is that of the last run. -/
lemma Grouped.lp_open (hg : Grouped pnum p lp v r) (hc : Counted d pnum lp (p + 1)) :
    IsStart d r.2 ∧ r.2 + r.1 r.2 = p + 5 ∧ r.2 < p + 5 := by
  have hreach := hc.reach
  by_cases hmsk : v = grpmsk
  · have hlpv : (gptbl grpmsk).lpv = 4 := rfl
    rw [hg.same hmsk, hg.gains (by have := hc.lt; omega), hmsk]
    exact ⟨hc.start, by omega, by have := hc.lt; omega⟩
  · obtain ⟨hidx0, hidx4, hclear, hset⟩ := gptbl_idx v hv hmsk
    rw [hg.moved hmsk]
    refine ⟨(isStart_iff_testBit hbit hidx0 hidx4).mpr hclear, ?_, by omega⟩
    rcases hidx4.lt_or_eq with hlt | h4
    · obtain ⟨hpos, hle, hend⟩ := gptbl_lane v hv _ hlt
      rw [hg.stored hmsk _ hlt]
      by_contra hne
      exact hend (by omega) (hset _ (by omega) (by omega))
    · rw [h4, hg.opened hmsk h4]

end Links

/-- Four comparisons at once: when the lanes of the two registers are neighbours in `d`, the
first `p + 1` keys being counted, four more keys are counted. -/
lemma portGroupx4_counted {dp1 dp2 : M128} (hc : Counted d pnum lp (p + 1))
    (hcmp : ∀ i < 4, (dp1 i = dp2 i ↔ d (p + i) = d (p + i + 1))) :
    Counted d (portGroupx4 pnum p lp dp1 dp2).1 (portGroupx4 pnum p lp dp1 dp2).2 (p + 5) := by
  obtain ⟨v, hv, hmask, hg⟩ := portGroupx4_grouped pnum (Nat.lt_succ_iff.mp hc.lt) dp1 dp2
  have hbit : ∀ i < 4, (v.testBit i ↔ d (p + i) = d (p + i + 1)) := fun i hi =>
    (hmask i hi).trans (hcmp i hi)
  obtain ⟨hstart, hreach, hlt⟩ := hg.lp_open hv hbit hc
  refine hc.extend (by omega) hg.closed (hg.run_last hv hbit hc) ?_ hstart hreach hlt
  intro h hge hlt' hs
  obtain ⟨i, rfl⟩ := Nat.exists_eq_add_of_le (show p ≤ h by omega)
  exact hg.run_new hv hbit (by omega) (by omega) hs

/-! ## The loops -/

/-- Before an iteration of the loop over groups of four. -/
structure Groupx4.Inv (d : ℕ → BitVec 16) (g : Groupx4) (k : ℕ) : Prop where
  j : g.j = k
  counted : Counted d g.pnum g.lp (k - 3)
  dp1 : ∀ i < 4, g.dp1 i = d (k - 4 + i)

lemma Groupx4.Inv.step {g : Groupx4} {j : ℕ} (h : g.Inv d j) (hj : 4 ≤ j) :
    (g.step d).Inv d (j + 4) := by
  refine ⟨congrArg (· + 4) h.j, ?_, ?_⟩
  · have hc := h.counted
    rw [show j - 3 = j - 4 + 1 by omega] at hc
    rw [show j + 4 - 3 = j - 4 + 5 by omega, Groupx4.step, h.j]
    refine portGroupx4_counted hc ?_
    intro i hi
    rw [h.dp1 i hi, mmLoaduSi128, show j - fwdstep + 1 + i = j - 4 + i + 1 by rw [fwdstep]; omega]
    exact Iff.rfl
  · intro i hi
    have hlane : i + (fwdstep - 1) * 2 / 2 < 8 := by rw [fwdstep]; omega
    rw [Groupx4.step, h.j]
    simp only [mmSrliSi128, if_pos hlane, mmLoaduSi128]
    congr 1
    rw [fwdstep]
    omega

lemma Groupx4.Inv.iterate {g : Groupx4} (h : g.Inv d 4) (i : ℕ) :
    ((Groupx4.step d)^[i] g).Inv d (4 * i + 4) := by
  induction i with
  | zero => exact h
  | succ i ih =>
    rw [Function.iterate_succ_apply']
    exact ih.step (by omega)

lemma mmShuffleloEpi16_f9 (a : M128) :
    (∀ i < 3, mmShuffleloEpi16 a 0xf9 i = a (i + 1)) ∧ mmShuffleloEpi16 a 0xf9 3 = a 3 := by
  refine ⟨?_, rfl⟩
  intro i hi
  interval_cases i <;> rfl

/-- The last group: its last comparison is with a repetition of the last destination port,
which is taken back. -/
lemma Groupx4.Inv.last {g : Groupx4} {k : ℕ} (h : g.Inv d k) (hk : 4 ≤ k) {r : (ℕ → ℕ) × ℕ}
    (hr : portGroupx4 g.pnum (g.j - fwdstep) g.lp g.dp1 (mmShuffleloEpi16 g.dp1 0xf9) = r) :
    Counted d (Function.update r.1 r.2 (r.1 r.2 - 1)) r.2 k := by
  -- the keys as the comparison sees them: `d` with its last key once more
  generalize hrep : Function.update d k (d (k - 1)) = rep
  have hsame : ∀ i < k, rep i = d i := fun i hi => by rw [← hrep, Function.update_of_ne (by omega)]
  have hend : rep k = d (k - 1) := by rw [← hrep, Function.update_self]
  have hc : Counted rep g.pnum g.lp (k - 4 + 1) := by
    rw [show k - 4 + 1 = k - 3 by omega]
    exact h.counted.congr fun i hi => hsame i (by omega)
  have hcmp : ∀ i < 4, (g.dp1 i = mmShuffleloEpi16 g.dp1 0xf9 i ↔
      rep (k - 4 + i) = rep (k - 4 + i + 1)) := by
    intro i hi
    obtain ⟨hlow, hhigh⟩ := mmShuffleloEpi16_f9 g.dp1
    rw [hsame _ (by omega), h.dp1 i hi]
    rcases Nat.lt_or_ge i 3 with hi3 | hi3
    · rw [hlow i hi3, h.dp1 _ (by omega), hsame _ (by omega)]
      rfl
    · obtain rfl : i = 3 := by omega
      rw [hhigh, h.dp1 3 (by omega), show k - 4 + 3 + 1 = k by omega, hend,
        show k - 4 + 3 = k - 1 by omega]
  have hlast := portGroupx4_counted hc hcmp
  rw [show k - 4 = g.j - fwdstep by rw [h.j, fwdstep], hr, h.j,
    show k - fwdstep + 5 = k + 1 by rw [fwdstep]; omega] at hlast
  exact (hlast.shrink (by rw [hsame _ (by omega), hend]) (by omega)).congr
    fun i hi => (hsame i hi).symm

/-- Between two packets of the tail, `n` packets being grouped. -/
structure Group.Inv (dst : ℕ → BitVec 16) (g : Group) (n : ℕ) : Prop where
  j : g.j = n
  dstPort : ∀ i < n, g.dstPort i = dst i
  unused : n = 0 → g.dlp = badPort - 1
  counted : 0 < n → Counted dst g.pnum g.lp n
  dlp : 0 < n → g.dlp = dst g.lp

/-- The vector part groups the packets up to `k`. -/
lemma groupx4_inv {dst : ℕ → BitVec 16} {k : ℕ} (hk : 4 ∣ k) (hd : ∀ i < k, d i = dst i)
    (pnum : ℕ → ℕ) : (groupx4 d pnum k).Inv dst k := by
  rw [groupx4]
  split
  · next hk0 =>
    have hstart : (⟨Function.update pnum 0 1, 0, mmLoaduSi128 d 0, fwdstep⟩ : Groupx4).Inv d 4 :=
      ⟨rfl, counted_one d (Function.update_self 0 1 pnum), fun i _ => congrArg d (by omega)⟩
    have hloop := hstart.iterate ((k - fwdstep) / fwdstep)
    rw [show 4 * ((k - fwdstep) / fwdstep) + 4 = k by rw [fwdstep]; omega] at hloop
    have hc := (hloop.last (by omega) rfl).congr fun i hi => (hd i hi).symm
    refine ⟨hloop.j, hd, fun h => absurd h hk0, fun _ => hc, ?_⟩
    intro _
    have hdlp := hc.eq_last (Nat.le_sub_one_of_lt hc.lt) (by omega)
    rw [← hd _ (by omega)] at hdlp
    exact (congrArg (fun j => d (j - 1)) hloop.j).trans hdlp
  · next hk0 =>
    obtain rfl : k = 0 := by simpa using hk0
    exact ⟨rfl, hd, fun _ => rfl, fun h => absurd h (lt_irrefl 0), fun h => absurd h (lt_irrefl 0)⟩

/-- A packet of the tail. -/
lemma Group.Inv.tail {dst : ℕ → BitVec 16} {g : Group} {n : ℕ} (h : g.Inv dst n)
    (h0 : dst 0 ≠ badPort - 1) : (g.tail dst).Inv dst (n + 1) := by
  have hdst : ∀ i < n + 1, Function.update g.dstPort n (dst n) i = dst i := by
    intro i hi
    rcases Nat.lt_succ_iff_lt_or_eq.mp hi with hi | rfl
    · rw [Function.update_of_ne (by omega), h.dstPort i hi]
    · rw [Function.update_self]
  rw [Group.tail, h.j, Group.groupPortStep]
  simp only [Function.update_self]
  split
  · next heq =>
    -- the first packet differs from the value that `dlp` starts with
    have hn : 0 < n := by
      rcases Nat.eq_zero_or_pos n with rfl | hn
      · exact absurd (heq.symm.trans (h.unused rfl)) h0
      · exact hn
    have hc := (h.counted hn).grow (heq.symm.trans (h.dlp hn))
    exact ⟨rfl, hdst, fun h => absurd h (by omega), fun _ => hc, fun _ => h.dlp hn⟩
  · next hne =>
    refine ⟨rfl, hdst, fun h => absurd h (by omega), ?_, fun _ => rfl⟩
    intro _
    rcases Nat.eq_zero_or_pos n with rfl | hn
    · exact counted_one dst (Function.update_self 0 1 g.pnum)
    · exact (h.counted hn).next fun heq => hne ((h.dlp hn).trans heq.symm)

lemma Group.Inv.iterate_tail {dst : ℕ → BitVec 16} {g : Group} {n : ℕ} (h : g.Inv dst n)
    (h0 : dst 0 ≠ badPort - 1) (r : ℕ) : ((Group.tail dst)^[r] g).Inv dst (n + r) := by
  induction r with
  | zero => exact h
  | succ r ih =>
    rw [Function.iterate_succ_apply']
    exact ih.tail h0

/-- **Grouping.**  In a burst of `nbRx` packets `pnum` has the length of each run of equal
destination ports at its start. -/
theorem groupPorts_counted {dst : ℕ → BitVec 16} {nbRx : ℕ} (hnb : 0 < nbRx)
    (h0 : dst 0 ≠ badPort - 1) (dstPort : ℕ → BitVec 16) (pnum : ℕ → ℕ) :
    Counted dst (groupPorts dst nbRx dstPort pnum).pnum (groupPorts dst nbRx dstPort pnum).lp nbRx ∧
      ∀ i < nbRx, (groupPorts dst nbRx dstPort pnum).dstPort i = dst i := by
  have hread : ∀ i < nbRx / fwdstep * fwdstep,
      blit dstPort 0 (window dst 0 (nbRx / fwdstep * fwdstep)) i = dst i := by
    intro i hi
    have := blit_window dstPort 0 dst 0 hi
    rwa [Nat.zero_add] at this
  have hk : 4 ∣ nbRx / fwdstep * fwdstep := Nat.dvd_mul_left fwdstep _
  have h := (groupx4_inv hk hread pnum).iterate_tail h0 (nbRx % fwdstep)
  rw [Nat.div_add_mod'] at h
  exact ⟨h.counted hnb, h.dstPort⟩

end DaqSwitch.OqHwq
