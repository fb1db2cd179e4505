import DaqSwitch.Ovs.DaqringRecv

/-!
# The limits of the receive function

With a fixed positive burst and a polling interval a daqring is a token bucket: that bounds
the packets returned in any window of time.  The bound on a single call has to hold for every
history of administrative commands as well, and there the two ways to set the burst differ:
`netdev_dpdk_set_config` ignores what is not positive, the command `set-max-burst` takes it.
-/

namespace DaqSwitch.Ovs

open Lib

/-! ## The rate limit of a daqring -/

/-- What happens to a daqring whose configuration is fixed. -/
inductive RingOp where
  | enqueue (numa : ℕ) (pkts : List ℕ)
  | recv (currTsc : BitVec 64)

/-- The calls of the receive function in a run, by the time and what they return. -/
def recvs : List RingOp → DpdkDaqring → List (BitVec 64 × RecvResult)
  | [], _ => []
  | .enqueue numa pkts :: ops, d => recvs ops (d.enqueue numa pkts)
  | .recv currTsc :: ops, d =>
    let res := d.netdevDpdkDaqringRxqRecv currTsc
    (currTsc, res.2) :: recvs ops res.1

/-- The times at which a run calls the receive function. -/
def recvTimes (ops : List RingOp) : List (BitVec 64) :=
  ops.filterMap fun
    | .enqueue _ _ => none
    | .recv currTsc => some currTsc

/-- A call as the bucket sees it: the time and the number of packets returned. -/
def tokensOf (call : BitVec 64 × RecvResult) : ℕ × ℕ := (call.1.toNat, call.2.ret.getD 0)

namespace DpdkDaqring

/-- The bucket that a daqring implements: `curr_burst` tokens, filled up at `prev_tsc`. -/
def bucket (d : DpdkDaqring) : Bucket := ⟨d.currBurst.toNat, d.prevTsc.toNat⟩

/-- A daqring with a rate limit, at a time when the clock has not passed `now` yet. -/
structure Limited (maxBurst : BitVec 32) (pollTsc now : BitVec 64) (d : DpdkDaqring) : Prop where
  maxBurst_eq : d.maxBurst = maxBurst
  pollTsc_eq : d.pollTsc = pollTsc
  nonneg : 0 ≤ d.currBurst.toInt
  currBurst_le : d.currBurst.toNat ≤ maxBurst.toNat
  prevTsc_le : d.prevTsc ≤ now

variable {maxBurst : BitVec 32} {pollTsc now : BitVec 64} {d : DpdkDaqring}

@[simp] lemma bucket_tokens (d : DpdkDaqring) : d.bucket.tokens = d.currBurst.toNat := rfl

@[simp] lemma bucket_last (d : DpdkDaqring) : d.bucket.last = d.prevTsc.toNat := rfl

/-- The reset of the burst is the refill of the bucket. -/
lemma Limited.reset (h : Limited maxBurst pollTsc now d) (hmax : 0 < maxBurst.toInt) :
    Limited maxBurst pollTsc now (d.reset now) ∧
      (d.reset now).bucket = d.bucket.refill maxBurst.toNat pollTsc.toNat now.toNat := by
  have hdiff : (now - d.prevTsc).toNat = now.toNat - d.prevTsc.toNat :=
    BitVec.toNat_sub_of_le h.prevTsc_le
  have hlate : d.pollTsc < now - d.prevTsc ↔ pollTsc.toNat < now.toNat - d.prevTsc.toNat := by
    rw [BitVec.lt_def, hdiff, h.pollTsc_eq]
  unfold DpdkDaqring.reset Bucket.refill bucket
  by_cases hcase : d.pollTsc < now - d.prevTsc
  · rw [if_pos hcase, if_pos (hlate.mp hcase)]
    refine ⟨⟨h.maxBurst_eq, h.pollTsc_eq, ?_, ?_, BitVec.le_refl now⟩, ?_⟩
    · simp only [h.maxBurst_eq]
      omega
    · simp only [h.maxBurst_eq, le_rfl]
    · simp only [h.maxBurst_eq]
  · rw [if_neg hcase, if_neg fun hl => hcase (hlate.mpr hl)]
    exact ⟨h, rfl⟩

/-- A call takes from the bucket what it returns. -/
lemma Limited.recv (h : Limited maxBurst pollTsc now d) (hmax : 0 < maxBurst.toInt)
    (hpoll : 0 < pollTsc) :
    Limited maxBurst pollTsc now (d.netdevDpdkDaqringRxqRecv now).1 ∧
      (d.netdevDpdkDaqringRxqRecv now).2.ret.getD 0 ≤ maxBurst.toNat ∧
      Bucket.serve maxBurst.toNat pollTsc.toNat
        (tokensOf (now, (d.netdevDpdkDaqringRxqRecv now).2)) d.bucket =
          some (d.netdevDpdkDaqringRxqRecv now).1.bucket := by
  obtain ⟨hreset, hbucket⟩ := h.reset hmax
  -- it is enough to say what is returned from the bucket after the reset
  suffices hcall : ∀ (e : DpdkDaqring) (res : DpdkDaqring × RecvResult),
      Limited maxBurst pollTsc now e →
      res.2.ret.getD 0 + res.1.currBurst.toNat = e.currBurst.toNat →
      res.1.prevTsc = e.prevTsc →
      e.bucket = d.bucket.refill maxBurst.toNat pollTsc.toNat now.toNat →
      res.2.ret.getD 0 ≤ maxBurst.toNat ∧
        Bucket.serve maxBurst.toNat pollTsc.toNat (tokensOf (now, res.2)) d.bucket =
          some res.1.bucket by
    unfold netdevDpdkDaqringRxqRecv
    rw [if_pos (h.pollTsc_eq ▸ hpoll)]
    simp only
    split
    · -- the burst is used up
      exact ⟨hreset, hcall _ (d.reset now, ⟨none, [], []⟩) hreset (Nat.zero_add _) rfl hbucket⟩
    · obtain ⟨-, hnonneg, hbalance⟩ := dequeue_of_nonneg hreset.nonneg
      obtain ⟨hmaxBurst, hpollTsc, hprevTsc⟩ := dequeue_config (d.reset now)
      have hle := hreset.currBurst_le
      refine ⟨⟨?_, ?_, hnonneg, by omega, ?_⟩, hcall _ _ hreset ?_ hprevTsc hbucket⟩
      · rw [hmaxBurst, hreset.maxBurst_eq]
      · rw [hpollTsc, hreset.pollTsc_eq]
      · rw [hprevTsc]
        exact hreset.prevTsc_le
      · rwa [dequeue_ret]
  intro e res he hbalance hprevTsc hrefill
  have hle := he.currBurst_le
  have htokens : (tokensOf (now, res.2)).2 ≤ e.bucket.tokens := by
    simp only [tokensOf, bucket_tokens]
    omega
  refine ⟨by omega, ?_⟩
  rw [hrefill] at htokens
  have hserve := Bucket.serve_of_le htokens
  have hrest : e.currBurst.toNat - res.2.ret.getD 0 = res.1.currBurst.toNat := by omega
  simp only [tokensOf] at hserve ⊢
  rw [hserve, ← hrefill, bucket_tokens, bucket_last, hrest, ← hprevTsc]
  rfl

lemma Limited.mono {later : BitVec 64} (h : Limited maxBurst pollTsc now d) (hle : now ≤ later) :
    Limited maxBurst pollTsc later d :=
  ⟨h.maxBurst_eq, h.pollTsc_eq, h.nonneg, h.currBurst_le, BitVec.le_trans h.prevTsc_le hle⟩

lemma Limited.enqueue (h : Limited maxBurst pollTsc now d) (numa : ℕ) (pkts : List ℕ) :
    Limited maxBurst pollTsc now (d.enqueue numa pkts) :=
  ⟨h.maxBurst_eq, h.pollTsc_eq, h.nonneg, h.currBurst_le, h.prevTsc_le⟩

end DpdkDaqring

open DpdkDaqring

lemma map_fst_recvs (ops : List RingOp) (d : DpdkDaqring) :
    (recvs ops d).map Prod.fst = recvTimes ops := by
  induction ops generalizing d with
  | nil => rfl
  | cons op ops ih =>
    cases op with
    | enqueue numa pkts => exact ih _
    | recv currTsc =>
      simp only [recvs, recvTimes, List.map_cons, List.filterMap_cons]
      rw [ih]
      rfl

/-- A run of a daqring with a rate limit is a run of its bucket. -/
lemma recvs_serve {maxBurst : BitVec 32} {pollTsc now : BitVec 64} (hmax : 0 < maxBurst.toInt)
    (hpoll : 0 < pollTsc) (ops : List RingOp) {d : DpdkDaqring}
    (hd : Limited maxBurst pollTsc now d) (hsorted : (now :: recvTimes ops).Pairwise (· ≤ ·)) :
    (∀ call ∈ recvs ops d, call.2.ret.getD 0 ≤ maxBurst.toNat) ∧
      ∃ b, Machine.run (Bucket.serve maxBurst.toNat pollTsc.toNat)
        ((recvs ops d).map tokensOf) d.bucket = some b := by
  induction ops generalizing d now with
  | nil => exact ⟨by simp [recvs], d.bucket, rfl⟩
  | cons op ops ih =>
    cases op with
    | enqueue numa pkts => exact ih (hd.enqueue numa pkts) hsorted
    | recv currTsc =>
      obtain ⟨hnow, hrest⟩ := List.pairwise_cons.mp hsorted
      obtain ⟨hd', hle, hserve⟩ :=
        (hd.mono (hnow currTsc List.mem_cons_self)).recv hmax hpoll
      obtain ⟨hall, b, hb⟩ := ih hd' hrest
      refine ⟨?_, b, ?_⟩
      · intro call hcall
        rcases List.mem_cons.mp hcall with rfl | hcall
        · exact hle
        · exact hall call hcall
      · exact Machine.run_cons_eq_some.mpr ⟨_, hserve, hb⟩

/-- The rate limit: with a positive burst and a polling interval fixed from the creation of the
daqring on, no call returns more than the burst, and the calls of any window of `w` ticks
return at most so many packets for each interval in the window and for two more. -/
theorem rxqRecv_rate_limit (nNuma : ℕ) (tscHz : BitVec 64) {maxBurst : BitVec 32}
    {pollTsc : BitVec 64} (hmax : 0 < maxBurst.toInt) (hpoll : 0 < pollTsc) (ops : List RingOp)
    (hsorted : (recvTimes ops).Pairwise (· ≤ ·)) :
    let daqr := { dpdkDaqringCreate nNuma tscHz with maxBurst := maxBurst, pollTsc := pollTsc }
    (∀ call ∈ recvs ops daqr, call.2.ret.getD 0 ≤ maxBurst.toNat) ∧
      ∀ t w, Bucket.taken t (t + w) ((recvs ops daqr).map tokensOf) ≤
        maxBurst.toNat * (w / pollTsc.toNat + 2) := by
  intro daqr
  have hzero : Limited maxBurst pollTsc 0 daqr :=
    ⟨rfl, rfl, by simp [daqr, dpdkDaqringCreate], by simp [daqr, dpdkDaqringCreate],
      BitVec.le_refl 0⟩
  have hsorted' : ((0 : BitVec 64) :: recvTimes ops).Pairwise (· ≤ ·) :=
    List.pairwise_cons.mpr ⟨fun t _ => by rw [BitVec.le_def]; exact Nat.zero_le _, hsorted⟩
  obtain ⟨hall, b, hrun⟩ := recvs_serve hmax hpoll ops hzero hsorted'
  refine ⟨hall, fun t w => Bucket.taken_window_le ?_ t w hrun ?_ hzero.currBurst_le⟩
  · rwa [BitVec.lt_def] at hpoll
  · have htimes : ((recvs ops daqr).map tokensOf).map Prod.fst =
        (recvTimes ops).map BitVec.toNat := by
      rw [← map_fst_recvs ops daqr, List.map_map, List.map_map]
      rfl
    rw [htimes, List.pairwise_map]
    exact hsorted.imp fun hle => by rwa [BitVec.le_def] at hle

/-- Two bursts in a window of one tick: the first interval ends when the second begins. -/
theorem rxqRecv_rate_limit_example :
    let daqr := { dpdkDaqringCreate 2 0 with maxBurst := 2, pollTsc := 10 }
    let ops := [RingOp.enqueue 0 [1, 2, 3], .recv 20, .enqueue 1 [4], .recv 31]
    (∀ call ∈ recvs ops daqr, call.2.ret.getD 0 ≤ 2) ∧
      ∀ t w, Bucket.taken t (t + w) ((recvs ops daqr).map tokensOf) ≤ 2 * (w / 10 + 2) :=
  rxqRecv_rate_limit 2 0 (by decide) (by decide) _ (by decide)

/-! ## The array of the receive function -/

/-- What happens to the daqrings of a switch. -/
inductive DaqringOp where
  | create (nNuma : ℕ) (tscHz : BitVec 64)
  | setConfig (daqr : ℕ) (maxBurst pollTsc : BitVec 32)
  | setMaxBurst (daqr : Option ℕ) (maxBurst : BitVec 32)
  | setPollTsc (daqr : Option ℕ) (pollTsc : BitVec 32)
  | enqueue (daqr numa : ℕ) (pkts : List ℕ)
  | recv (daqr : ℕ) (currTsc : BitVec 64)

/-- The daqrings, in the order of `dpdk_daqring_list`, after an operation. -/
def daqringStep (M : NetdevMaxBurst) (op : DaqringOp) (daqrings : List DpdkDaqring) :
    Option (List DpdkDaqring) :=
  some <| match op with
    | .create nNuma tscHz => daqrings ++ [dpdkDaqringCreate nNuma tscHz]
    | .setConfig i maxBurst pollTsc =>
      daqrings.modify i fun d => d.netdevDpdkSetConfig M maxBurst pollTsc
    | .setMaxBurst name maxBurst => netdevDpdkDaqringSetMaxBurst M name maxBurst daqrings
    | .setPollTsc name pollTsc => netdevDpdkDaqringSetPollTsc name pollTsc daqrings
    | .enqueue i numa pkts => daqrings.modify i fun d => d.enqueue numa pkts
    | .recv i currTsc => daqrings.modify i fun d => (d.netdevDpdkDaqringRxqRecv currTsc).1

/-- A call of the receive function stays within the array of `NETDEV_MAX_BURST` entries: the
packets stored and those asked for next are never more. -/
def RecvFits (M : NetdevMaxBurst) (op : DaqringOp) (daqrings : List DpdkDaqring) : Prop :=
  ∀ i currTsc d, op = .recv i currTsc → daqrings[i]? = some d →
    (d.netdevDpdkDaqringRxqRecv currTsc).2.Fits M.val.toNat

/-- When a daqring without polling interval is read, its burst is not negative (or it has no
sub-ring). -/
def BurstNonneg (op : DaqringOp) (daqrings : List DpdkDaqring) : Prop :=
  ∀ i currTsc d, op = .recv i currTsc → daqrings[i]? = some d → d.pollTsc = 0 → d.r ≠ [] →
    0 ≤ d.maxBurst.toInt

/-- No burst is above the length of the array. -/
structure DpdkDaqring.Bounded (M : NetdevMaxBurst) (d : DpdkDaqring) : Prop where
  maxBurst : d.maxBurst.toInt ≤ M.val.toInt
  currBurst : d.currBurst.toInt ≤ M.val.toInt

namespace DpdkDaqring.Bounded

variable {M : NetdevMaxBurst} {d : DpdkDaqring}

lemma reset (h : Bounded M d) (now : BitVec 64) : Bounded M (d.reset now) := by
  unfold DpdkDaqring.reset
  split
  · exact ⟨h.maxBurst, h.maxBurst⟩
  · exact h

lemma toNat_le {x : BitVec 32} (h : 0 ≤ x.toInt) (hle : x.toInt ≤ M.val.toInt) :
    x.toNat ≤ M.val.toNat := by
  have hx := toNat_of_toInt_nonneg h
  have hM := toNat_of_toInt_nonneg (le_trans h hle)
  omega

/-- The loop, from a burst within the array. -/
lemma dequeue (h : Bounded M d) (hnonneg : 0 ≤ d.currBurst.toInt) :
    d.dequeue.2.Fits M.val.toNat ∧ Bounded M d.dequeue.1 := by
  obtain ⟨hfits, hnonneg', hbalance⟩ := dequeue_of_nonneg hnonneg
  have hle := toNat_le hnonneg h.currBurst
  have hnat := toNat_of_toInt_nonneg hnonneg
  have hnat' := toNat_of_toInt_nonneg hnonneg'
  have hcurr := h.currBurst
  refine ⟨⟨fun a ha => le_trans (hfits.asked a ha) hle, le_trans hfits.stored hle⟩, ?_, by omega⟩
  rw [(dequeue_config d).1]
  exact h.maxBurst

/-- A call stays within the array unless it reads a negative burst without polling interval;
and one that does keeps the bounds. -/
lemma recv (h : Bounded M d) (now : BitVec 64) :
    ((d.netdevDpdkDaqringRxqRecv now).2.Fits M.val.toNat ↔
        (d.pollTsc = 0 → d.r ≠ [] → 0 ≤ d.maxBurst.toInt)) ∧
      ((d.netdevDpdkDaqringRxqRecv now).2.Fits M.val.toNat →
        Bounded M (d.netdevDpdkDaqringRxqRecv now).1) := by
  unfold netdevDpdkDaqringRxqRecv
  by_cases hpoll : 0 < d.pollTsc
  · have hne : d.pollTsc ≠ 0 := by
      rintro heq
      rw [heq] at hpoll
      exact absurd hpoll (by decide)
    rw [if_pos hpoll]
    have hreset := h.reset now
    simp only
    split
    · exact ⟨⟨fun _ h0 => absurd h0 hne, fun _ => ⟨by simp, by simp⟩⟩, fun _ => hreset⟩
    · obtain ⟨hfits, hbounded⟩ := hreset.dequeue (by omega)
      exact ⟨⟨fun _ h0 => absurd h0 hne, fun _ => hfits⟩, fun _ => hbounded⟩
  · have hzero : d.pollTsc = 0 := by
      rw [BitVec.lt_def] at hpoll
      exact BitVec.eq_of_toNat_eq (by simpa using hpoll)
    rw [if_neg hpoll]
    have hstart : Bounded M { d with currBurst := d.maxBurst } := ⟨h.maxBurst, h.maxBurst⟩
    rcases lt_or_ge d.maxBurst.toInt 0 with hneg | hnonneg
    · -- the negative burst is asked for as an unsigned count, if there is a sub-ring to ask
      by_cases hr : d.r = []
      · have hdequeue : { d with currBurst := d.maxBurst }.dequeue =
            ({ d with r := [], currBurst := d.maxBurst }, ⟨none, [], []⟩) := by
          simp [DpdkDaqring.dequeue, hr, dequeueLoop]
        rw [hdequeue]
        exact ⟨⟨fun _ _ hne => absurd hr hne, fun _ => ⟨by simp, by simp⟩⟩,
          fun _ => ⟨h.maxBurst, h.maxBurst⟩⟩
      · have hM : M.val.toNat < 2 ^ 31 := by
          have hdef := M.default_le
          have hnat := toNat_of_toInt_nonneg (x := M.val) (by omega)
          have hlt : M.val.toInt < 2 ^ 31 := BitVec.toInt_lt
          omega
        have hbad : ¬ ({ d with currBurst := d.maxBurst }.dequeue).2.Fits M.val.toNat :=
          dequeue_of_neg (d := { d with currBurst := d.maxBurst }) hneg hr hM
        exact ⟨⟨fun hfits => absurd hfits hbad, fun hcond => absurd (hcond hzero hr) (by omega)⟩,
          fun hfits => absurd hfits hbad⟩
    · obtain ⟨hfits, hbounded⟩ := hstart.dequeue hnonneg
      exact ⟨⟨fun _ _ _ => hnonneg, fun _ => hfits⟩, fun _ => hbounded⟩

lemma setConfig (h : Bounded M d) (maxBurst pollTsc : BitVec 32) :
    Bounded M (d.netdevDpdkSetConfig M maxBurst pollTsc) := by
  unfold netdevDpdkSetConfig
  split
  · exact h
  · next hbig =>
    -- a value that is too big has been turned away
    have hset : Bounded M (if 0 < maxBurst.toInt then { d with maxBurst := maxBurst } else d) := by
      split
      · next hpos =>
        refine ⟨not_lt.mp fun hlt => hbig ⟨hpos, hlt⟩, h.currBurst⟩
      · exact h
    simp only
    split
    · exact ⟨hset.maxBurst, hset.currBurst⟩
    · exact hset

end DpdkDaqring.Bounded

/-- What holds of all daqrings holds after one of them has changed to one with it. -/
lemma forall_mem_modify {P : DpdkDaqring → Prop} {daqrings : List DpdkDaqring} {i : ℕ}
    {f : DpdkDaqring → DpdkDaqring} (h : ∀ d ∈ daqrings, P d)
    (hf : ∀ d, daqrings[i]? = some d → P d → P (f d)) : ∀ d ∈ daqrings.modify i f, P d := by
  intro d hd
  obtain ⟨j, hj⟩ := List.mem_iff_getElem?.mp hd
  rw [List.getElem?_modify] at hj
  split at hj
  · next hij =>
    subst hij
    obtain ⟨e, he, rfl⟩ := Option.map_eq_some_iff.mp hj
    exact hf e he (h e (List.mem_of_getElem? he))
  · exact h d (List.mem_of_getElem? (by simpa using hj))

lemma forall_mem_onDaqrings {P : DpdkDaqring → Prop} {daqrings : List DpdkDaqring}
    {set : DpdkDaqring → DpdkDaqring} (h : ∀ d ∈ daqrings, P d) (hset : ∀ d, P d → P (set d))
    (name : Option ℕ) : ∀ d ∈ onDaqrings name set daqrings, P d := by
  cases name with
  | some i => exact forall_mem_modify h fun d _ hd => hset d hd
  | none =>
    intro d hd
    obtain ⟨e, he, rfl⟩ := List.mem_map.mp hd
    exact hset e (h e he)

/-- Every operation whose receive call stays within the array keeps the bounds. -/
lemma daqringStep_bounded {M : NetdevMaxBurst} {op : DaqringOp} {s t : List DpdkDaqring}
    (hstep : daqringStep M op s = some t) (hs : ∀ d ∈ s, d.Bounded M) (hfits : RecvFits M op s) :
    ∀ d ∈ t, d.Bounded M := by
  obtain rfl := Option.some_inj.mp hstep
  cases op with
  | create nNuma tscHz =>
    intro d hd
    rcases List.mem_append.mp hd with hd | hd
    · exact hs d hd
    · obtain rfl := List.mem_singleton.mp hd
      have hdef := M.default_le
      refine ⟨hdef, ?_⟩
      show (0 : ℤ) ≤ M.val.toInt
      omega
  | setConfig i maxBurst pollTsc =>
    exact forall_mem_modify hs fun d _ hd => hd.setConfig maxBurst pollTsc
  | setMaxBurst name maxBurst =>
    show ∀ d ∈ netdevDpdkDaqringSetMaxBurst M name maxBurst s, d.Bounded M
    unfold netdevDpdkDaqringSetMaxBurst
    split
    · exact hs
    · next hle =>
      refine forall_mem_onDaqrings hs ?_ name
      intro d hd
      exact ⟨not_lt.mp hle, hd.currBurst⟩
  | setPollTsc name pollTsc =>
    refine forall_mem_onDaqrings hs ?_ name
    intro d hd
    exact ⟨hd.maxBurst, hd.currBurst⟩
  | enqueue i numa pkts =>
    exact forall_mem_modify hs fun d _ hd => ⟨hd.maxBurst, hd.currBurst⟩
  | recv i currTsc =>
    exact forall_mem_modify hs fun d hd hbounded =>
      (hbounded.recv currTsc).2 (hfits i currTsc d rfl hd)

/-- In every history of commands, enqueues and receive calls from the start of the switch, each
call stays within the array if and only if no call reads a negative burst on a daqring
without polling interval. -/
theorem rxqRecv_fits_iff (M : NetdevMaxBurst) (ops : List DaqringOp) :
    Machine.Throughout (daqringStep M) (RecvFits M) ops [] ↔
      Machine.Throughout (daqringStep M) BurstNonneg ops [] := by
  refine Machine.throughout_congr (I := fun s => ∀ d ∈ s, d.Bounded M) ?_
    (fun op _ s t hstep hs hfits => daqringStep_bounded hstep hs hfits) (by simp)
  intro op _ s hs
  constructor
  · intro hfits i currTsc d hop hd
    exact ((hs d (List.mem_of_getElem? hd)).recv currTsc).1.mp (hfits i currTsc d hop hd)
  · intro hnonneg i currTsc d hop hd
    exact ((hs d (List.mem_of_getElem? hd)).recv currTsc).1.mpr (hnonneg i currTsc d hop hd)

/-- An array of 32 entries, as in the releases of Open vSwitch that the patch is for. -/
def netdevMaxBurst32 : NetdevMaxBurst := ⟨32, by decide⟩

/-- Unlimited polling with a burst of -1: one call stores all 33 packets of the ring. -/
theorem rxqRecv_overruns :
    ¬ ∀ (M : NetdevMaxBurst) (ops : List DaqringOp),
      Machine.Throughout (daqringStep M) (RecvFits M) ops [] := by
  intro h
  obtain ⟨-, hrest⟩ := h netdevMaxBurst32
    [.create 1 0, .setPollTsc none 0, .setMaxBurst none (-1), .enqueue 0 0 (List.range 33),
      .recv 0 1]
  obtain ⟨-, hrest⟩ := hrest _ rfl
  obtain ⟨-, hrest⟩ := hrest _ rfl
  obtain ⟨-, hrest⟩ := hrest _ rfl
  obtain ⟨hrecv, -⟩ := hrest _ rfl
  exact absurd (hrecv 0 1 _ rfl rfl).stored (by decide)

/-! ## Draining a daqring -/

lemma dequeueLoop_cons (r : List ℕ) (rs : List (List ℕ)) (b : Burst) :
    dequeueLoop (r :: rs) b =
      let n := b.currBurst.toNat
      if (b.add (r.take n)).currBurst.toInt ≤ 0 then (r.drop n :: rs, b.add (r.take n))
      else
        (r.drop n :: (dequeueLoop rs (b.add (r.take n))).1,
          (dequeueLoop rs (b.add (r.take n))).2) := rfl

/-- The loop takes the packets of the sub-rings as of one queue, in which the packets of a lower
NUMA node stand before those of a higher one. -/
lemma dequeueLoop_flatten {total : ℕ} (rs : List (List ℕ)) {b : Burst} (h : b.Within total)
    (hpos : 0 < b.currBurst.toInt) :
    (dequeueLoop rs b).2.packets = b.packets ++ rs.flatten.take b.currBurst.toNat ∧
      (dequeueLoop rs b).1.flatten = rs.flatten.drop b.currBurst.toNat := by
  induction rs generalizing b with
  | nil => simp [dequeueLoop]
  | cons r rs ih =>
    have hgot : (r.take b.currBurst.toNat).length ≤ b.currBurst.toNat := List.length_take_le _ _
    have hadd := h.add hgot
    -- what is left of the burst
    have hleft : (b.add (r.take b.currBurst.toNat)).currBurst.toNat =
        b.currBurst.toNat - (r.take b.currBurst.toNat).length := by
      have hbal := h.balance
      have hbal' := hadd.balance
      simp only [Burst.add, List.length_append] at hbal' ⊢
      omega
    have hnat := toNat_of_toInt_nonneg hadd.nonneg
    rw [List.length_take] at hleft
    by_cases hzero : (b.add (r.take b.currBurst.toNat)).currBurst.toInt ≤ 0
    · -- the burst is used up by this sub-ring
      have hle : b.currBurst.toNat ≤ r.length := by omega
      rw [dequeueLoop_cons, if_pos hzero, List.flatten_cons, List.take_append_of_le_length hle,
        List.drop_append_of_le_length hle]
      exact ⟨rfl, rfl⟩
    · have hle : r.length ≤ b.currBurst.toNat := by omega
      obtain ⟨hpackets, hrest⟩ := ih hadd (by omega)
      rw [hleft, Nat.min_eq_right hle] at hpackets hrest
      rw [dequeueLoop_cons, if_neg hzero, List.flatten_cons, List.flatten_cons, List.take_append,
        List.drop_append, hpackets, hrest]
      exact ⟨List.append_assoc _ _ _, rfl⟩

namespace DpdkDaqring

variable {d : DpdkDaqring}

/-- A call that may take a whole burst. -/
structure Refilled (d : DpdkDaqring) (now : BitVec 64) (res : DpdkDaqring × RecvResult) : Prop where
  packets : res.2.packets = d.r.flatten.take d.maxBurst.toNat
  r : res.1.r.flatten = d.r.flatten.drop d.maxBurst.toNat
  maxBurst : res.1.maxBurst = d.maxBurst
  pollTsc : res.1.pollTsc = d.pollTsc
  prevTsc : d.pollTsc = 0 ∨ res.1.prevTsc = now

lemma dequeue_refilled {now : BitVec 64} (hcurr : d.currBurst = d.maxBurst)
    (hmax : 0 < d.maxBurst.toInt) (hprev : d.pollTsc = 0 ∨ d.prevTsc = now) :
    Refilled d now d.dequeue := by
  have hwithin := Burst.Within.init (x := d.currBurst) (by rw [hcurr]; omega)
  obtain ⟨hpackets, hrest⟩ := dequeueLoop_flatten d.r hwithin (by rw [hcurr]; exact hmax)
  obtain ⟨hmaxBurst, hpoll, hprevTsc⟩ := d.dequeue_config
  rw [hcurr, List.nil_append] at hpackets
  rw [hcurr] at hrest
  refine ⟨by rw [dequeue_packets, hcurr, hpackets], ?_, hmaxBurst, hpoll, by rwa [hprevTsc]⟩
  rw [← hrest, ← hcurr]
  simp only [dequeue]
  split <;> rfl

/-- A call when there is no polling interval, or when it has elapsed. -/
lemma recv_refilled (hmax : 0 < d.maxBurst.toInt) {now : BitVec 64}
    (helapsed : d.pollTsc = 0 ∨ d.pollTsc < now - d.prevTsc) :
    Refilled d now (d.netdevDpdkDaqringRxqRecv now) := by
  unfold netdevDpdkDaqringRxqRecv
  split
  · next hpoll =>
    have hlt : d.pollTsc < now - d.prevTsc := by
      refine helapsed.resolve_left ?_
      rintro hzero
      simp [hzero] at hpoll
    have hreset : d.reset now = { d with prevTsc := now, currBurst := d.maxBurst } := if_pos hlt
    rw [hreset, if_neg (not_le.mpr hmax)]
    have hrefilled : Refilled _ now _ :=
      dequeue_refilled (d := { d with prevTsc := now, currBurst := d.maxBurst }) rfl hmax
        (Or.inr rfl)
    exact ⟨hrefilled.packets, hrefilled.r, hrefilled.maxBurst, hrefilled.pollTsc, hrefilled.prevTsc⟩
  · next hpoll =>
    have hzero : d.pollTsc = 0 := by simpa using hpoll
    have hrefilled : Refilled _ now _ :=
      dequeue_refilled (d := { d with currBurst := d.maxBurst }) rfl hmax (Or.inl hzero)
    exact ⟨hrefilled.packets, hrefilled.r, hrefilled.maxBurst, hrefilled.pollTsc, Or.inl hzero⟩

end DpdkDaqring

/-- **Draining.**  Calls that are more than a polling interval apart, or any calls when there is
none, return the queued packets in the order of the NUMA nodes, a whole burst each until the daqring
is empty. -/
theorem rxqRecv_drains {d : DpdkDaqring} (hmax : 0 < d.maxBurst.toInt) {times : List (BitVec 64)}
    (hspaced : d.pollTsc = 0 ∨
      (d.prevTsc :: times).IsChain fun earlier later => d.pollTsc < later - earlier) :
    ((recvs (times.map RingOp.recv) d).flatMap fun call => call.2.packets) =
      d.r.flatten.take (times.length * d.maxBurst.toNat) := by
  induction times generalizing d with
  | nil => simp [recvs]
  | cons now times ih =>
    rw [List.isChain_cons_cons] at hspaced
    have helapsed : d.pollTsc = 0 ∨ d.pollTsc < now - d.prevTsc := hspaced.imp id And.left
    have hcall := DpdkDaqring.recv_refilled hmax helapsed
    have hspaced' : (d.netdevDpdkDaqringRxqRecv now).1.pollTsc = 0 ∨
        ((d.netdevDpdkDaqringRxqRecv now).1.prevTsc :: times).IsChain fun earlier later =>
          (d.netdevDpdkDaqringRxqRecv now).1.pollTsc < later - earlier := by
      rw [hcall.pollTsc]
      rcases hcall.prevTsc with hzero | hprev
      · exact Or.inl hzero
      · rw [hprev]
        exact hspaced.imp id And.right
    have hrest := ih (by rw [hcall.maxBurst]; exact hmax) hspaced'
    rw [hcall.maxBurst, hcall.r] at hrest
    rw [List.map_cons, recvs, List.flatMap_cons, hrest, hcall.packets, List.length_cons,
      Nat.succ_mul, Nat.add_comm, List.take_add]

/-- Two bursts of two packets from two sub-rings with three. -/
theorem rxqRecv_drains_example :
    let daqr := { dpdkDaqringCreate 2 0 with
      r := [[1], [2, 3]], maxBurst := 2, pollTsc := 10 }
    ((recvs ([20, 31].map RingOp.recv) daqr).flatMap fun call => call.2.packets) =
      daqr.r.flatten.take (2 * 2) :=
  rxqRecv_drains (by decide) (Or.inr (by decide))

end DaqSwitch.Ovs
