import DaqSwitch.OqHwq.SendPackets

/-!
# The entries that `send_packetsx4` touches

`send_packetsx4` once more, with a log of the entries of `m` that it reads and of the entries
of `m_table` that it writes.  Both copy loops jump into their body before they test the bound,
so that a loop with nothing to copy still makes a round of four.  The first loop always has
something to copy.  The second has nothing to copy when the run fills the buffer exactly.
-/

namespace DaqSwitch.OqHwq

open Lib

variable {α : Type*}

/-! ## The functions with a log -/

/-- The entries of `m` that were read, and the entries of `m_table` that were written.  Those
of `m` are counted from the pointer `m` of `send_packetsx4` on. -/
@[ext] structure Accesses where
  m : List ℕ
  mTable : List ℕ

namespace Accesses

def append (a b : Accesses) : Accesses := ⟨a.m ++ b.m, a.mTable ++ b.mTable⟩

/-- What is read lies below `num`, and what is written lies in the buffer. -/
structure InBounds (a : Accesses) (num : ℕ) : Prop where
  m : ∀ i ∈ a.m, i < num
  mTable : ∀ i ∈ a.mTable, i < maxPktBurst

end Accesses

/-- The entries that the calls of `txLoop` hand over, from entry `i` on. -/
def txReads : List ℕ → ℕ → ℕ → List ℕ
  | _, _, 0 => []
  | [], _, _ + 1 => []
  | r :: rets, i, n + 1 =>
    let ret := min r (n + 1)
    List.range' i (n + 1) ++ txReads rets (i + ret) (n + 1 - ret)

/-- One statement `m_table[dst + j] = m[src + j]`, with its log. -/
def copyEntryLogged (dst : ℕ) (m : ℕ → α) (off src j : ℕ) (x : (ℕ → α) × Accesses) :
    (ℕ → α) × Accesses :=
  (Function.update x.1 (dst + j) (m (off + src + j)), x.2.append ⟨[src + j], [dst + j]⟩)

namespace Lcore

/-- One of the two copy loops, from entry `src` of the `m` that starts at `off`. -/
def copyInLogged (s : Lcore α) (port dst : ℕ) (m : ℕ → α) (off src n : ℕ) :
    Lcore α × Accesses :=
  let x := duff (copyEntryLogged dst m off src) n ((s.qconf.txMbufs port).mTable, ⟨[], []⟩)
  (s.setTable port x.1, x.2)

/-- `send_packetsx4` with its log, which a call that has not ended has as well. -/
def sendPacketsx4Logged (s : Lcore α) (port : ℕ) (m : ℕ → α) (off num : ℕ) :
    Option (Lcore α) × Accesses :=
  let len := (s.qconf.txMbufs port).len
  if num ≥ maxTxBurst ∧ len = 0 then (s.txAll port m off num, ⟨txReads s.txRets 0 num, []⟩)
  else
    let n := if len + num > maxPktBurst then maxPktBurst - len else num
    let x := s.copyInLogged port len m off 0 n
    if len + n = maxPktBurst then
      match x.1.sendBurst maxPktBurst port with
      | none => (none, x.2)
      | some s =>
        let y := s.copyInLogged port 0 m off n (num - n)
        (some (y.1.setLen port (num - n)), x.2.append y.2)
    else (some (x.1.setLen port (len + n)), x.2)

end Lcore

/-! ## The log changes nothing -/

namespace Lcore

variable {s t : Lcore α} {m : ℕ → α} {port off n num : ℕ}

/-- The log of a copy loop lists its rounds. -/
lemma copyInLogged_eq (s : Lcore α) (port dst : ℕ) (m : ℕ → α) (off src n : ℕ) :
    s.copyInLogged port dst m off src n = (s.copyIn port dst m (off + src) n,
      ⟨(duffRounds n).map (src + ·), (duffRounds n).map (dst + ·)⟩) := by
  rw [copyInLogged, copyIn]
  set x := duff (copyEntryLogged dst m off src) n ((s.qconf.txMbufs port).mTable, ⟨[], []⟩)
  have htable : x.1 = duff (copyEntry dst m (off + src)) n (s.qconf.txMbufs port).mTable :=
    duff_map (f := Prod.fst) (fun _ _ => rfl) n _
  have hreads : x.2.m = duff (fun j l => l ++ [src + j]) n [] :=
    duff_map (f := fun x : (ℕ → α) × Accesses => x.2.m) (fun _ _ => rfl) n _
  have hwrites : x.2.mTable = duff (fun j l => l ++ [dst + j]) n [] :=
    duff_map (f := fun x : (ℕ → α) × Accesses => x.2.mTable) (fun _ _ => rfl) n _
  rw [duff_log, List.nil_append] at hreads hwrites
  exact Prod.ext (congrArg (s.setTable port) htable) (Accesses.ext hreads hwrites)

/-- The function with its log computes what the function computes. -/
theorem sendPacketsx4Logged_fst (s : Lcore α) (port : ℕ) (m : ℕ → α) (off num : ℕ) :
    (s.sendPacketsx4Logged port m off num).1 = s.sendPacketsx4 port m off num := by
  rw [sendPacketsx4Logged, sendPacketsx4]
  split
  · rfl
  · generalize (if (s.qconf.txMbufs port).len + num > maxPktBurst then
      maxPktBurst - (s.qconf.txMbufs port).len else num) = n
    simp only [copyInLogged_eq, Nat.add_zero]
    split
    · cases sendBurst _ maxPktBurst port <;> rfl
    · rfl

/-! ## Bounds -/

/-- Whatever the transmit function returns, it is given entries of the run only. -/
lemma mem_txReads {rets : List ℕ} {i j : ℕ} (hj : j ∈ txReads rets i n) : j < i + n := by
  induction rets generalizing i n with
  | nil => cases n <;> cases hj
  | cons r rets ih =>
    cases n with
    | zero => cases hj
    | succ n =>
      rcases List.mem_append.mp hj with hj | hj
      · exact (List.mem_range'_1.mp hj).2
      · have := ih hj
        omega

/-- The loop ends if and only if the return values add up to the number of packets. -/
lemma txLoop_eq_none {rets : List ℕ} {queue : List α} :
    txLoop m rets off n queue = none ↔ rets.sum < n := by
  induction rets generalizing off n queue with
  | nil => cases n <;> simp [txLoop]
  | cons r rets ih =>
    cases n with
    | zero => simp [txLoop]
    | succ n =>
      rw [txLoop, ih, List.sum_cons]
      omega

lemma sendBurst_eq_none : s.sendBurst n port = none ↔ s.txRets.sum < n := by
  rw [sendBurst, txAll, Option.map_eq_none_iff, txLoop_eq_none]

/-- The entries that a copy loop touches, from entry `c` on, lie below `b`. -/
lemma forall_mem_rounds_lt {b c : ℕ} :
    (∀ i ∈ (duffRounds n).map (c + ·), i < b) ↔ c + (if n = 0 then 4 else n) ≤ b := by
  simp only [duffRounds, List.mem_map, List.mem_range, forall_exists_index, and_imp,
    forall_apply_eq_imp_iff₂]
  constructor
  · intro h
    -- the last round is made
    have hpos : 0 < if n = 0 then 4 else n := by split <;> omega
    have := h ((if n = 0 then 4 else n) - 1) (by omega)
    omega
  · intro h i hi
    omega

lemma inBounds_rounds {dst src : ℕ} :
    Accesses.InBounds ⟨(duffRounds n).map (src + ·), (duffRounds n).map (dst + ·)⟩ num ↔
      src + (if n = 0 then 4 else n) ≤ num ∧ dst + (if n = 0 then 4 else n) ≤ maxPktBurst := by
  rw [← forall_mem_rounds_lt, ← forall_mem_rounds_lt]
  exact ⟨fun h => ⟨h.m, h.mTable⟩, fun h => ⟨h.1, h.2⟩⟩

lemma inBounds_append {a b : Accesses} :
    (a.append b).InBounds num ↔ a.InBounds num ∧ b.InBounds num := by
  constructor
  · intro h
    exact ⟨⟨fun i hi => h.m i (List.mem_append_left _ hi),
        fun i hi => h.mTable i (List.mem_append_left _ hi)⟩,
      ⟨fun i hi => h.m i (List.mem_append_right _ hi),
        fun i hi => h.mTable i (List.mem_append_right _ hi)⟩⟩
  · rintro ⟨ha, hb⟩
    exact ⟨fun i hi => (List.mem_append.mp hi).elim (ha.m i) (hb.m i),
      fun i hi => (List.mem_append.mp hi).elim (ha.mTable i) (hb.mTable i)⟩

/-- **Bounds of one run of packets.**  A call stays in its bounds unless the run fills up a
buffer that holds something, and the full buffer is sent. -/
theorem sendPacketsx4_inBounds_iff (m : ℕ → α) (off : ℕ)
    (hlen : (s.qconf.txMbufs port).len < maxPktBurst) (hpos : 0 < num)
    (hnum : num ≤ maxPktBurst) :
    (s.sendPacketsx4Logged port m off num).2.InBounds num ↔
      ((s.qconf.txMbufs port).len + num = maxPktBurst →
        (s.qconf.txMbufs port).len = 0 ∨ s.txRets.sum < maxPktBurst) := by
  rw [sendPacketsx4Logged]
  split
  · next hdirect =>
    refine iff_of_true ⟨?_, nofun⟩ fun _ => .inl hdirect.2
    intro i hi
    simpa using mem_txReads hi
  · next hbuffered =>
    generalize hn : (if (s.qconf.txMbufs port).len + num > maxPktBurst then
      maxPktBurst - (s.qconf.txMbufs port).len else num) = n
    have hn0 : 0 < n ∧ n ≤ num ∧ (s.qconf.txMbufs port).len + n ≤ maxPktBurst := by
      split at hn <;> omega
    -- the first loop has something to copy
    have hfirst : Accesses.InBounds ⟨(duffRounds n).map (0 + ·),
        (duffRounds n).map ((s.qconf.txMbufs port).len + ·)⟩ num := by
      rw [inBounds_rounds, if_neg (by omega)]
      omega
    have hsum : (s.copyIn port (s.qconf.txMbufs port).len m (off + 0) n).sendBurst maxPktBurst
        port = none ↔ s.txRets.sum < maxPktBurst := sendBurst_eq_none
    simp only [copyInLogged_eq]
    split
    · next hfull =>
      split
      · next hnone =>
        exact iff_of_true hfirst fun _ => .inr (hsum.mp hnone)
      · next t hsome =>
        have hsent : ¬ s.txRets.sum < maxPktBurst := by
          rw [← hsum, hsome]
          nofun
        -- the second loop has nothing to copy if and only if the run ends with the buffer
        have hsecond : Accesses.InBounds ⟨(duffRounds (num - n)).map (n + ·),
            (duffRounds (num - n)).map (0 + ·)⟩ num ↔ num - n ≠ 0 := by
          rw [inBounds_rounds]
          split <;> omega
        have hburst : maxTxBurst ≤ maxPktBurst := by decide
        rw [inBounds_append, hsecond, and_iff_right hfirst, or_iff_left hsent]
        split at hn <;> omega
    · next hfull =>
      refine iff_of_true hfirst fun heq => ?_
      split at hn <;> omega

end Lcore

/-- An lcore whose buffers hold 31 packets each, with a driver that accepts 32. -/
def almostFull : Lcore ℕ where
  qconf := ⟨1, fun _ => 0, fun _ => ⟨31, fun _ => 0⟩⟩
  dstPort := fun _ => 0
  pnum := fun _ => 0
  accepted := fun _ _ => []
  freed := []
  txRets := [32]

/-- The theorem for two packets. -/
theorem sendPacketsx4_inBounds_iff_almostFull : (31 < maxPktBurst ∧ 0 < 2 ∧ 2 ≤ maxPktBurst) ∧
    ((almostFull.sendPacketsx4Logged 0 id 0 2).2.InBounds 2 ↔
      (31 + 2 = maxPktBurst → 31 = 0 ∨ 32 < maxPktBurst)) :=
  ⟨by decide, Lcore.sendPacketsx4_inBounds_iff (s := almostFull) id 0 (by decide) (by decide)
    (by decide)⟩

/-- With one packet the buffer is full, and the second loop reads four entries behind it. -/
theorem not_sendPacketsx4_inBounds :
    ¬ (almostFull.sendPacketsx4Logged 0 id 0 1).2.InBounds 1 := by
  intro h
  exact absurd (h.m 1 (by decide)) (by decide)

end DaqSwitch.OqHwq
