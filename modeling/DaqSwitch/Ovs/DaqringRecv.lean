import DaqSwitch.Lib.TokenBucket

/-!
# Receiving from a daqring

The rate limit of the Open vSwitch patch: `netdev_dpdk_daqring_rxq_recv`, the functions that
set `max_burst` and `poll_tsc`, and `dpdk_daqring_create`.  A C `int` is a 32-bit vector read
by `toInt`, the count handed to `rte_ring_dequeue_burst` is the same vector read by `toNat`.
-/

namespace DaqSwitch.Ovs

open Lib

/-- `NETDEV_MAX_BURST`, the length of the array that `netdev_rxq_recv` fills.  The header that
defines it is not part of the patch, which relies on the default burst to be in its range. -/
structure NetdevMaxBurst where
  val : BitVec 32
  default_le : 32 ≤ val.toInt

/-- What the functions use of `struct dpdk_daqring`, the sub-rings by NUMA node, and the
received packets in the counters of its netdev. -/
structure DpdkDaqring where
  r : List (List ℕ)
  maxBurst : BitVec 32
  currBurst : BitVec 32
  prevTsc : BitVec 64
  pollTsc : BitVec 64
  rxPackets : BitVec 64

/-- `dpdk_daqring_create`: the memory is zeroed, so `curr_burst` starts at 0. -/
def dpdkDaqringCreate (nNuma : ℕ) (tscHz : BitVec 64) : DpdkDaqring where
  r := List.replicate nNuma []
  maxBurst := 32
  currBurst := 0
  prevTsc := 0
  pollTsc := (tscHz + 1000000 - 1) / 1000000 * 100
  rxPackets := 0

/-! ## The receive function -/

/-- `rte_ring_dequeue_burst`: the packets taken and the ring after. -/
def rteRingDequeueBurst (r : List ℕ) (n : ℕ) : List ℕ × List ℕ := (r.take n, r.drop n)

/-- The locals of the dequeue loop: what is left of the burst, `packets[0 .. nb_rx)`, and the
calls of `rte_ring_dequeue_burst` by offset in the array and count asked for. -/
structure Burst where
  currBurst : BitVec 32
  packets : List ℕ
  asked : List (ℕ × ℕ)

namespace Burst

/-- The body of the loop for a sub-ring that gives `got`. -/
def add (b : Burst) (got : List ℕ) : Burst where
  currBurst := b.currBurst - BitVec.ofNat 32 got.length
  packets := b.packets ++ got
  asked := b.asked ++ [(b.packets.length, b.currBurst.toNat)]

end Burst

/-- The loop over the sub-rings, which ends early when the burst is used up. -/
def dequeueLoop : List (List ℕ) → Burst → List (List ℕ) × Burst
  | [], b => ([], b)
  | r :: rs, b =>
    let got := rteRingDequeueBurst r b.currBurst.toNat
    let b := b.add got.1
    if b.currBurst.toInt ≤ 0 then (got.2 :: rs, b)
    else
      let rest := dequeueLoop rs b
      (got.2 :: rest.1, rest.2)

/-- What a call returns: the value of `*c`, or `none` for `EAGAIN`, and what it did to the
array. -/
structure RecvResult where
  ret : Option ℕ
  packets : List ℕ
  asked : List (ℕ × ℕ)

namespace DpdkDaqring

/-- The part of the function from the loop on. -/
def dequeue (d : DpdkDaqring) : DpdkDaqring × RecvResult :=
  let (r, b) := dequeueLoop d.r ⟨d.currBurst, [], []⟩
  let d := { d with r := r, currBurst := b.currBurst }
  if b.packets.length = 0 then (d, ⟨none, b.packets, b.asked⟩)
  else
    ({ d with rxPackets := d.rxPackets + BitVec.ofNat 64 b.packets.length },
      ⟨some b.packets.length, b.packets, b.asked⟩)

/-- The reset of the burst when the polling interval has elapsed. -/
def reset (d : DpdkDaqring) (currTsc : BitVec 64) : DpdkDaqring :=
  if d.pollTsc < currTsc - d.prevTsc then { d with prevTsc := currTsc, currBurst := d.maxBurst }
  else d

/-- `netdev_dpdk_daqring_rxq_recv`, when `rte_rdtsc` reads `currTsc`. -/
def netdevDpdkDaqringRxqRecv (d : DpdkDaqring) (currTsc : BitVec 64) : DpdkDaqring × RecvResult :=
  if 0 < d.pollTsc then
    let d := d.reset currTsc
    if d.currBurst.toInt ≤ 0 then (d, ⟨none, [], []⟩) else d.dequeue
  else
    -- no polling interval: the burst is the maximum, whatever its sign
    { d with currBurst := d.maxBurst }.dequeue

/-- Packets put into the sub-ring of one NUMA node by the senders. -/
def enqueue (d : DpdkDaqring) (numa : ℕ) (pkts : List ℕ) : DpdkDaqring :=
  { d with r := d.r.modify numa (· ++ pkts) }

/-! ## The administrative commands -/

/-- `netdev_dpdk_set_config`; the arguments are the values of `smap_get_int`, which is -1 for a
missing key. -/
def netdevDpdkSetConfig (M : NetdevMaxBurst) (d : DpdkDaqring) (maxBurst pollTsc : BitVec 32) :
    DpdkDaqring :=
  if 0 < maxBurst.toInt ∧ M.val.toInt < maxBurst.toInt then d
  else
    let d := if 0 < maxBurst.toInt then { d with maxBurst := maxBurst } else d
    if 0 < pollTsc.toInt then { d with pollTsc := pollTsc.signExtend 64 } else d

end DpdkDaqring

/-- The daqring that `argv[1]` names is changed, or all of `dpdk_daqring_list`.  On a name that
is no daqring the commands only reply with an error. -/
def onDaqrings (name : Option ℕ) (set : DpdkDaqring → DpdkDaqring) (daqrings : List DpdkDaqring) :
    List DpdkDaqring :=
  match name with
  | some i => daqrings.modify i set
  | none => daqrings.map set

/-- `netdev_dpdk_daqring_set_poll_tsc` with the value of `atoi`. -/
def netdevDpdkDaqringSetPollTsc (name : Option ℕ) (pollTsc : BitVec 32)
    (daqrings : List DpdkDaqring) : List DpdkDaqring :=
  onDaqrings name (fun daqr => { daqr with pollTsc := pollTsc.signExtend 64 }) daqrings

/-- `netdev_dpdk_daqring_set_max_burst`, which only refuses a value that is too big. -/
def netdevDpdkDaqringSetMaxBurst (M : NetdevMaxBurst) (name : Option ℕ) (maxBurst : BitVec 32)
    (daqrings : List DpdkDaqring) : List DpdkDaqring :=
  if M.val.toInt < maxBurst.toInt then daqrings
  else onDaqrings name (fun daqr => { daqr with maxBurst := maxBurst }) daqrings

/-! ## The dequeue loop -/

lemma toNat_of_toInt_nonneg {x : BitVec 32} (h : 0 ≤ x.toInt) : (x.toNat : ℤ) = x.toInt := by
  rw [BitVec.toInt_eq_toNat_cond] at *
  split at h <;> omega

/-- A burst that was not negative at the start of the loop, of `total` packets: so many are
stored or may still be, and no call asks for more. -/
structure Burst.Within (total : ℕ) (b : Burst) : Prop where
  nonneg : 0 ≤ b.currBurst.toInt
  balance : b.packets.length + b.currBurst.toNat = total
  asked : ∀ a ∈ b.asked, a.1 + a.2 ≤ total

namespace Burst.Within

variable {total : ℕ} {b : Burst}

lemma init {x : BitVec 32} (h : 0 ≤ x.toInt) : Within x.toNat ⟨x, [], []⟩ :=
  ⟨h, by simp, by simp⟩

/-- One round of the loop. -/
lemma add (h : Within total b) {got : List ℕ} (hgot : got.length ≤ b.currBurst.toNat) :
    Within total (b.add got) := by
  have hnat := toNat_of_toInt_nonneg h.nonneg
  have hbal := h.balance
  have hlt : b.currBurst.toInt < 2 ^ 31 := BitVec.toInt_lt
  have hsub : (b.currBurst - BitVec.ofNat 32 got.length).toNat =
      b.currBurst.toNat - got.length := by
    have hofNat : (BitVec.ofNat 32 got.length).toNat = got.length := by
      rw [BitVec.toNat_ofNat, Nat.mod_eq_of_lt (by omega)]
    rw [BitVec.toNat_sub_of_le (by rw [BitVec.le_def]; omega), hofNat]
  refine ⟨?_, ?_, ?_⟩
  · have : (b.currBurst - BitVec.ofNat 32 got.length).toNat < 2 ^ 31 := by omega
    show 0 ≤ (b.currBurst - BitVec.ofNat 32 got.length).toInt
    rw [BitVec.toInt_eq_toNat_of_lt (by omega)]
    omega
  · simp only [Burst.add, List.length_append, hsub]
    omega
  · intro a ha
    rcases List.mem_append.mp ha with ha | ha
    · exact h.asked a ha
    · obtain rfl := List.mem_singleton.mp ha
      exact hbal.le

/-- The whole loop. -/
lemma loop (h : Within total b) (rs : List (List ℕ)) : Within total (dequeueLoop rs b).2 := by
  induction rs generalizing b with
  | nil => exact h
  | cons r rs ih =>
    have hgot : (rteRingDequeueBurst r b.currBurst.toNat).1.length ≤ b.currBurst.toNat :=
      List.length_take_le _ _
    have hadd := h.add hgot
    simp only [dequeueLoop]
    split
    · exact hadd
    · exact ih hadd

end Burst.Within

/-- The loop keeps its record of the calls. -/
lemma mem_dequeueLoop_asked {a : ℕ × ℕ} (rs : List (List ℕ)) {b : Burst} (h : a ∈ b.asked) :
    a ∈ (dequeueLoop rs b).2.asked := by
  induction rs generalizing b with
  | nil => exact h
  | cons r rs ih =>
    have hadd : a ∈ (b.add (rteRingDequeueBurst r b.currBurst.toNat).1).asked :=
      List.mem_append_left _ h
    simp only [dequeueLoop]
    split
    · exact hadd
    · exact ih hadd

/-! ## What a call does -/

/-- A call asks for packets and stores them within an array of `n` entries. -/
structure RecvResult.Fits (n : ℕ) (res : RecvResult) : Prop where
  asked : ∀ a ∈ res.asked, a.1 + a.2 ≤ n
  stored : res.packets.length ≤ n

namespace DpdkDaqring

variable {d : DpdkDaqring}

@[simp] lemma dequeue_packets (d : DpdkDaqring) :
    d.dequeue.2.packets = (dequeueLoop d.r ⟨d.currBurst, [], []⟩).2.packets := by
  simp only [dequeue]
  split <;> rfl

@[simp] lemma dequeue_asked (d : DpdkDaqring) :
    d.dequeue.2.asked = (dequeueLoop d.r ⟨d.currBurst, [], []⟩).2.asked := by
  simp only [dequeue]
  split <;> rfl

@[simp] lemma dequeue_currBurst (d : DpdkDaqring) :
    d.dequeue.1.currBurst = (dequeueLoop d.r ⟨d.currBurst, [], []⟩).2.currBurst := by
  simp only [dequeue]
  split <;> rfl

/-- The loop leaves the configuration and the time of the last reset alone. -/
lemma dequeue_config (d : DpdkDaqring) :
    d.dequeue.1.maxBurst = d.maxBurst ∧ d.dequeue.1.pollTsc = d.pollTsc ∧
      d.dequeue.1.prevTsc = d.prevTsc := by
  simp only [dequeue]
  split <;> exact ⟨rfl, rfl, rfl⟩

/-- The function returns the number of packets that it has stored, if there are any. -/
lemma dequeue_ret (d : DpdkDaqring) : d.dequeue.2.ret.getD 0 = d.dequeue.2.packets.length := by
  simp only [dequeue]
  split
  · next h => simp [h]
  · rfl

/-- From a burst that is not negative, the loop stores what it takes off the burst, and stays
within it. -/
lemma dequeue_of_nonneg (h : 0 ≤ d.currBurst.toInt) :
    d.dequeue.2.Fits d.currBurst.toNat ∧ 0 ≤ d.dequeue.1.currBurst.toInt ∧
      d.dequeue.2.packets.length + d.dequeue.1.currBurst.toNat = d.currBurst.toNat := by
  have hw := (Burst.Within.init h).loop d.r
  rw [dequeue_currBurst, dequeue_packets]
  refine ⟨⟨?_, ?_⟩, hw.nonneg, hw.balance⟩
  · rw [dequeue_asked]
    exact hw.asked
  · rw [dequeue_packets]
    have := hw.balance
    omega

/-- A negative burst is asked for as a huge count. -/
lemma dequeue_of_neg (h : d.currBurst.toInt < 0) (hr : d.r ≠ []) {n : ℕ} (hn : n < 2 ^ 31) :
    ¬ d.dequeue.2.Fits n := by
  intro hfits
  obtain ⟨r, rs, hrs⟩ := List.exists_cons_of_ne_nil hr
  have hmem : (0, d.currBurst.toNat) ∈ d.dequeue.2.asked := by
    rw [dequeue_asked, hrs]
    have hadd (got : List ℕ) :
        (0, d.currBurst.toNat) ∈ ((⟨d.currBurst, [], []⟩ : Burst).add got).asked := by
      simp [Burst.add]
    simp only [dequeueLoop]
    split
    · exact hadd _
    · exact mem_dequeueLoop_asked rs (hadd _)
  have hle := hfits.asked _ hmem
  rw [BitVec.toInt_eq_toNat_cond] at h
  split at h <;> omega

end DpdkDaqring

end DaqSwitch.Ovs
