import DaqSwitch.Lib.Machine
import DaqSwitch.Ovs.DaqringSend
import DaqSwitch.Ovs.RecvLimits

/-!
# The threads of a daqring

Any number of lcores send to a daqring while one reads it.  A step of the model is what one
thread does between two accesses to what they share: a sub-ring, a counter under its lock, the
mempool.  What is not in the daqring or in the hands of one of its functions is outside: free
in the mempool, or with the rest of the switch, which may write to it.
-/

namespace DaqSwitch.Ovs

open Lib Lib.Machine

/-- How far an lcore is in `__netdev_dpdk_daqring_send`, with its locals.  Both of its callers
pass `may_steal`. -/
inductive Sender where
  | idle
  | reset (pkts : ℕ → ℕ) (cnt i : ℕ)
  | count (pkts : ℕ → ℕ) (cnt nbEnq : ℕ)
  | drop (pkts : ℕ → ℕ) (cnt nbEnq i dropped : ℕ)

/-- How far the reader is in `netdev_dpdk_daqring_rxq_recv`, with `packets[0 .. nb_rx)`. -/
inductive Receiver where
  | idle
  | dequeue (i : ℕ) (packets : List ℕ)
  | count (packets : List ℕ)

/-- A daqring with `nLcores` lcores that send to it: the device, the packets outside, the two
functions in progress, and the record of what each sub-ring took in and gave out. -/
structure Device (nLcores : ℕ) where
  netdev : Netdev
  nNuma : ℕ
  maxBurst : BitVec 32
  currBurst : BitVec 32
  prevTsc : BitVec 64
  pollTsc : BitVec 64
  rxPackets : BitVec 64
  outside : Multiset ℕ
  senders : Fin nLcores → Sender
  receiver : Receiver
  accepted : ℕ → List ℕ
  taken : ℕ → List ℕ

/-- What `netdev_dpdk_daqring_get_stats` sets to something else than `UINT64_MAX`. -/
structure NetdevStats where
  rxPackets : BitVec 64
  rxDropped : BitVec 64
  txPackets : BitVec 64
  txDropped : BitVec 64

namespace Device

variable {nLcores : ℕ}

/-- The part of the device that the receiver and the commands work on. -/
def daqr (s : Device nLcores) : DpdkDaqring :=
  ⟨window s.netdev.subring 0 s.nNuma, s.maxBurst, s.currBurst, s.prevTsc, s.pollTsc, s.rxPackets⟩

/-- What the commands change. -/
def setRate (s : Device nLcores) (d : DpdkDaqring) : Device nLcores :=
  { s with
    maxBurst := d.maxBurst
    currBurst := d.currBurst
    prevTsc := d.prevTsc
    pollTsc := d.pollTsc }

/-- `netdev_dpdk_daqring_get_stats`; no function counts in `rx_dropped`. -/
def getStats (s : Device nLcores) : NetdevStats where
  rxPackets := s.rxPackets
  rxDropped := 0
  txPackets := s.netdev.txPackets
  txDropped := s.netdev.txDropped

/-- A new daqring, by `dpdk_daqring_create`, and the packets that there are. -/
def created (nLcores nNuma : ℕ) (tscHz : BitVec 64) (rssHash recircId : ℕ → BitVec 32)
    (outside : Multiset ℕ) : Device nLcores where
  netdev := ⟨rssHash, recircId, fun _ => [], [], 0, 0⟩
  nNuma := nNuma
  maxBurst := (dpdkDaqringCreate nNuma tscHz).maxBurst
  currBurst := (dpdkDaqringCreate nNuma tscHz).currBurst
  prevTsc := (dpdkDaqringCreate nNuma tscHz).prevTsc
  pollTsc := (dpdkDaqringCreate nNuma tscHz).pollTsc
  rxPackets := (dpdkDaqringCreate nNuma tscHz).rxPackets
  outside := outside
  senders := fun _ => .idle
  receiver := .idle
  accepted := fun _ => []
  taken := fun _ => []

/-! ## The sender -/

def setSender (s : Device nLcores) (l : Fin nLcores) (x : Sender) : Device nLcores :=
  { s with senders := Function.update s.senders l x }

/-- The function is called with packets that the caller owns. -/
def send (s : Device nLcores) (l : Fin nLcores) (pkts : ℕ → ℕ) (cnt : ℕ) : Device nLcores :=
  { s.setSender l (.reset pkts cnt 0) with outside := s.outside - (window pkts 0 cnt : Multiset ℕ) }

/-- The ring takes the first `nbEnq` packets. -/
def enqueueBurst (s : Device nLcores) (subringId : ℕ) (pkts : ℕ → ℕ) (nbEnq : ℕ) :
    Device nLcores :=
  let ring := s.accepted subringId ++ window pkts 0 nbEnq
  { s with
    netdev := s.netdev.enqueueBurst subringId pkts nbEnq
    accepted := Function.update s.accepted subringId ring }

/-- `stats.tx_packets += nb_enq`. -/
def countTx (s : Device nLcores) (nbEnq : ℕ) : Device nLcores :=
  { s with netdev := { s.netdev with txPackets := s.netdev.txPackets + BitVec.ofNat 64 nbEnq } }

/-- The packet goes back to the mempool. -/
def delete (s : Device nLcores) (pkt : ℕ) : Device nLcores :=
  { s with netdev := s.netdev.delete pkt, outside := pkt ::ₘ s.outside }

/-- `if (dropped) stats.tx_dropped += dropped`. -/
def countDropped (s : Device nLcores) (dropped : ℕ) : Device nLcores :=
  if dropped ≠ 0 then
    { s with netdev := { s.netdev with txDropped := s.netdev.txDropped + BitVec.ofNat 64 dropped } }
  else s

lemma countDropped_eq (s : Device nLcores) (dropped : ℕ) : s.countDropped dropped =
    { s with
      netdev := { s.netdev with txDropped := s.netdev.txDropped + BitVec.ofNat 64 dropped } } := by
  unfold countDropped
  split
  · rfl
  · next h =>
    have hzero : dropped = 0 := by simpa using h
    simp [hzero]

/-- The next step of the sending lcore `l`, on socket `subringId`; the ring takes `nbEnq` packets
if it is asked now.  A socket without a sub-ring is a null pointer. -/
def senderStep (s : Device nLcores) (l : Fin nLcores) (subringId nbEnq : ℕ) :
    Option (Device nLcores) :=
  match s.senders l with
  | .idle => none
  | .reset pkts cnt i =>
    if i < cnt then
      some ({ s with netdev := s.netdev.reset (pkts i) }.setSender l (.reset pkts cnt (i + 1)))
    else if subringId < s.nNuma ∧ nbEnq ≤ cnt then
      some ((s.enqueueBurst subringId pkts nbEnq).setSender l (.count pkts cnt nbEnq))
    else none
  | .count pkts cnt nbEnq => some ((s.countTx nbEnq).setSender l (.drop pkts cnt nbEnq 0 0))
  | .drop pkts cnt nbEnq i dropped =>
    if i < cnt - nbEnq then
      some ((s.delete (pkts i)).setSender l (.drop pkts cnt nbEnq (i + 1) (dropped + 1)))
    else some ((s.countDropped dropped).setSender l .idle)

/-! ## The receiver -/

/-- The function up to the loop; the configuration is read under its lock. -/
def recv (s : Device nLcores) (currTsc : BitVec 64) : Device nLcores :=
  if 0 < s.pollTsc then
    let d := s.daqr.reset currTsc
    if d.currBurst.toInt ≤ 0 then s.setRate d
    else { s.setRate d with receiver := .dequeue 0 [] }
  else { s with currBurst := s.maxBurst, receiver := .dequeue 0 [] }

/-- The body of the loop for sub-ring `i`. -/
def dequeueBurst (s : Device nLcores) (i : ℕ) (packets : List ℕ) : Device nLcores :=
  let (got, ring) := rteRingDequeueBurst (s.netdev.subring i) s.currBurst.toNat
  let currBurst := s.currBurst - BitVec.ofNat 32 got.length
  { s with
    netdev := { s.netdev with subring := Function.update s.netdev.subring i ring }
    taken := Function.update s.taken i (s.taken i ++ got)
    currBurst := currBurst
    receiver :=
      if currBurst.toInt ≤ 0 then .count (packets ++ got) else .dequeue (i + 1) (packets ++ got) }

/-- The packets are counted and returned to the caller, if there are any. -/
def ret (s : Device nLcores) (packets : List ℕ) : Device nLcores :=
  if packets.length = 0 then { s with receiver := .idle }
  else
    { s with
      rxPackets := s.rxPackets + BitVec.ofNat 64 packets.length
      receiver := .idle
      outside := s.outside + (packets : Multiset ℕ) }

lemma ret_eq (s : Device nLcores) (packets : List ℕ) : s.ret packets =
    { s with
      rxPackets := s.rxPackets + BitVec.ofNat 64 packets.length
      receiver := .idle
      outside := s.outside + (packets : Multiset ℕ) } := by
  unfold ret
  split
  · next h => simp [List.length_eq_zero_iff.mp h]
  · rfl

/-- The next step of the reader. -/
def receiverStep (s : Device nLcores) : Option (Device nLcores) :=
  match s.receiver with
  | .idle => none
  | .dequeue i packets =>
    if i < s.nNuma then some (s.dequeueBurst i packets)
    else some { s with receiver := .count packets }
  | .count packets => some (s.ret packets)

/-- The rest of the switch writes to a packet. -/
def write (s : Device nLcores) (pkt : ℕ) (rssHash recircId : BitVec 32) : Device nLcores :=
  { s with
    netdev :=
      { s.netdev with
        rssHash := Function.update s.netdev.rssHash pkt rssHash
        recircId := Function.update s.netdev.recircId pkt recircId } }

end Device

/-! ## The threads together -/

/-- What happens next: a call of one of the two functions, a step of one that is in progress, a
write to the fields of a packet outside, or a command. -/
inductive Act (nLcores : ℕ) where
  | send (l : Fin nLcores) (pkts : ℕ → ℕ) (cnt : ℕ)
  | sender (l : Fin nLcores) (nbEnq : ℕ)
  | recv (currTsc : BitVec 64)
  | receiver
  | write (pkt : ℕ) (rssHash recircId : BitVec 32)
  | setConfig (maxBurst pollTsc : BitVec 32)
  | setMaxBurst (maxBurst : BitVec 32)
  | setPollTsc (pollTsc : BitVec 32)

section

variable {nLcores : ℕ} (M : NetdevMaxBurst) (socketId : Fin nLcores → ℕ)

/-- One step of the threads, `none` when it cannot be taken. -/
def actStep (a : Act nLcores) (s : Device nLcores) : Option (Device nLcores) :=
  match a with
  | .send l pkts cnt =>
    match s.senders l with
    | .idle =>
      if (window pkts 0 cnt : Multiset ℕ) ≤ s.outside then some (s.send l pkts cnt) else none
    | _ => none
  | .sender l nbEnq => s.senderStep l (socketId l) nbEnq
  | .recv currTsc =>
    match s.receiver with
    | .idle => some (s.recv currTsc)
    | _ => none
  | .receiver => s.receiverStep
  | .write pkt rssHash recircId =>
    if pkt ∈ s.outside then some (s.write pkt rssHash recircId) else none
  | .setConfig maxBurst pollTsc => some (s.setRate (s.daqr.netdevDpdkSetConfig M maxBurst pollTsc))
  | .setMaxBurst maxBurst =>
    -- the command for all daqrings, on this one
    some (s.setRate ((netdevDpdkDaqringSetMaxBurst M none maxBurst [s.daqr]).headD s.daqr))
  | .setPollTsc pollTsc =>
    some (s.setRate ((netdevDpdkDaqringSetPollTsc none pollTsc [s.daqr]).headD s.daqr))

end

/-! ## The steps one by one -/

section

variable {nLcores : ℕ}

/-- All that a step can do. -/
inductive ActCase (socketId : Fin nLcores → ℕ) (s : Device nLcores) :
    Act nLcores → Device nLcores → Prop
  | send {l : Fin nLcores} {pkts : ℕ → ℕ} {cnt : ℕ} (hl : s.senders l = .idle)
      (hown : (window pkts 0 cnt : Multiset ℕ) ≤ s.outside) :
      ActCase socketId s (.send l pkts cnt) (s.send l pkts cnt)
  | reset {l : Fin nLcores} {nbEnq : ℕ} {pkts : ℕ → ℕ} {cnt i : ℕ}
      (hl : s.senders l = .reset pkts cnt i) (hi : i < cnt) :
      ActCase socketId s (.sender l nbEnq)
        ({ s with netdev := s.netdev.reset (pkts i) }.setSender l (.reset pkts cnt (i + 1)))
  | enqueue {l : Fin nLcores} {nbEnq : ℕ} {pkts : ℕ → ℕ} {cnt i : ℕ}
      (hl : s.senders l = .reset pkts cnt i) (hi : cnt ≤ i) (hring : socketId l < s.nNuma)
      (hle : nbEnq ≤ cnt) :
      ActCase socketId s (.sender l nbEnq)
        ((s.enqueueBurst (socketId l) pkts nbEnq).setSender l (.count pkts cnt nbEnq))
  | countTx {l : Fin nLcores} {n : ℕ} {pkts : ℕ → ℕ} {cnt nbEnq : ℕ}
      (hl : s.senders l = .count pkts cnt nbEnq) :
      ActCase socketId s (.sender l n) ((s.countTx nbEnq).setSender l (.drop pkts cnt nbEnq 0 0))
  | delete {l : Fin nLcores} {n : ℕ} {pkts : ℕ → ℕ} {cnt nbEnq i dropped : ℕ}
      (hl : s.senders l = .drop pkts cnt nbEnq i dropped) (hi : i < cnt - nbEnq) :
      ActCase socketId s (.sender l n)
        ((s.delete (pkts i)).setSender l (.drop pkts cnt nbEnq (i + 1) (dropped + 1)))
  | countDropped {l : Fin nLcores} {n : ℕ} {pkts : ℕ → ℕ} {cnt nbEnq i dropped : ℕ}
      (hl : s.senders l = .drop pkts cnt nbEnq i dropped) (hi : cnt - nbEnq ≤ i) :
      ActCase socketId s (.sender l n) ((s.countDropped dropped).setSender l .idle)
  | recv {currTsc : BitVec 64} (hidle : s.receiver = .idle) :
      ActCase socketId s (.recv currTsc) (s.recv currTsc)
  | dequeue {i : ℕ} {packets : List ℕ} (hrecv : s.receiver = .dequeue i packets)
      (hi : i < s.nNuma) : ActCase socketId s .receiver (s.dequeueBurst i packets)
  | lastRing {i : ℕ} {packets : List ℕ} (hrecv : s.receiver = .dequeue i packets) :
      ActCase socketId s .receiver { s with receiver := .count packets }
  | ret {packets : List ℕ} (hrecv : s.receiver = .count packets) :
      ActCase socketId s .receiver (s.ret packets)
  | write {pkt : ℕ} {rssHash recircId : BitVec 32} (hpkt : pkt ∈ s.outside) :
      ActCase socketId s (.write pkt rssHash recircId) (s.write pkt rssHash recircId)
  | setConfig {maxBurst pollTsc : BitVec 32} (d : DpdkDaqring) :
      ActCase socketId s (.setConfig maxBurst pollTsc) (s.setRate d)
  | setMaxBurst {maxBurst : BitVec 32} (d : DpdkDaqring) :
      ActCase socketId s (.setMaxBurst maxBurst) (s.setRate d)
  | setPollTsc {pollTsc : BitVec 32} (d : DpdkDaqring) :
      ActCase socketId s (.setPollTsc pollTsc) (s.setRate d)

variable {M : NetdevMaxBurst} {socketId : Fin nLcores → ℕ} {a : Act nLcores} {s t : Device nLcores}

lemma senderStep_case {l : Fin nLcores} {nbEnq : ℕ}
    (h : s.senderStep l (socketId l) nbEnq = some t) : ActCase socketId s (.sender l nbEnq) t := by
  cases hl : s.senders l with
  | idle => simp [Device.senderStep, hl] at h
  | reset pkts cnt i =>
    simp only [Device.senderStep, hl] at h
    split at h
    · next hi =>
      obtain rfl := Option.some_inj.mp h
      exact .reset hl hi
    · next hi =>
      split at h
      · next hring =>
        obtain rfl := Option.some_inj.mp h
        exact .enqueue hl (Nat.le_of_not_lt hi) hring.1 hring.2
      · cases h
  | count pkts cnt nbEnq =>
    simp only [Device.senderStep, hl, Option.some_inj] at h
    subst h
    exact .countTx hl
  | drop pkts cnt nbEnq i dropped =>
    simp only [Device.senderStep, hl] at h
    split at h
    · next hi =>
      obtain rfl := Option.some_inj.mp h
      exact .delete hl hi
    · next hi =>
      obtain rfl := Option.some_inj.mp h
      exact .countDropped hl (Nat.le_of_not_lt hi)

lemma receiverStep_case (h : s.receiverStep = some t) : ActCase socketId s .receiver t := by
  cases hrecv : s.receiver with
  | idle => simp [Device.receiverStep, hrecv] at h
  | dequeue i packets =>
    simp only [Device.receiverStep, hrecv] at h
    split at h
    · next hi =>
      obtain rfl := Option.some_inj.mp h
      exact .dequeue hrecv hi
    · obtain rfl := Option.some_inj.mp h
      exact .lastRing hrecv
  | count packets =>
    simp only [Device.receiverStep, hrecv, Option.some_inj] at h
    subst h
    exact .ret hrecv

lemma actStep_case (h : actStep M socketId a s = some t) : ActCase socketId s a t := by
  cases a with
  | send l pkts cnt =>
    cases hl : s.senders l with
    | idle =>
      simp only [actStep, hl, Option.ite_none_right_eq_some, Option.some_inj] at h
      obtain ⟨hown, rfl⟩ := h
      exact .send hl hown
    | _ => simp [actStep, hl] at h
  | sender l nbEnq => exact senderStep_case h
  | recv currTsc =>
    cases hrecv : s.receiver with
    | idle =>
      simp only [actStep, hrecv, Option.some_inj] at h
      subst h
      exact .recv hrecv
    | _ => simp [actStep, hrecv] at h
  | receiver => exact receiverStep_case h
  | write pkt rssHash recircId =>
    simp only [actStep, Option.ite_none_right_eq_some, Option.some_inj] at h
    obtain ⟨hpkt, rfl⟩ := h
    exact .write hpkt
  | setConfig maxBurst pollTsc =>
    obtain rfl := Option.some_inj.mp h
    exact .setConfig _
  | setMaxBurst maxBurst =>
    obtain rfl := Option.some_inj.mp h
    exact .setMaxBurst _
  | setPollTsc pollTsc =>
    obtain rfl := Option.some_inj.mp h
    exact .setPollTsc _

/-! ## One thread alone -/

/-- What the steps of lcore `l` alone change: the device, and how far that lcore is. -/
structure Sent (l : Fin nLcores) (x : Sender) (d : Netdev) (s t : Device nLcores) : Prop where
  sender : t.senders = Function.update s.senders l x
  netdev : t.netdev = d
  nNuma : t.nNuma = s.nNuma

lemma Sent.at_self {l : Fin nLcores} {x : Sender} {d : Netdev} (h : Sent l x d s t) :
    t.senders l = x := by
  rw [h.sender, Function.update_self]

lemma Sent.trans {l : Fin nLcores} {x y : Sender} {d e : Netdev} {u : Device nLcores}
    (h : Sent l x d s t) (h' : Sent l y e t u) : Sent l y e s u := by
  refine ⟨?_, h'.netdev, h'.nNuma.trans h.nNuma⟩
  rw [h'.sender, h.sender, Function.update_idem]

/-- The first loop. -/
lemma runs_reset {l : Fin nLcores} {pkts : ℕ → ℕ} {cnt nbEnq n i : ℕ}
    (hl : s.senders l = .reset pkts cnt i) (hn : i + n = cnt) :
    ∃ t, Repeats (actStep M socketId) (.sender l nbEnq) s t ∧
      Sent l (.reset pkts cnt cnt) ((window pkts i n).foldl Netdev.reset s.netdev) s t := by
  induction n generalizing s i with
  | zero =>
    refine ⟨s, .refl, ?_, rfl, rfl⟩
    rw [← hn, Nat.add_zero] at hl ⊢
    rw [← hl, Function.update_eq_self]
  | succ n ih =>
    let s₁ := { s with netdev := s.netdev.reset (pkts i) }.setSender l (.reset pkts cnt (i + 1))
    have hstep : actStep M socketId (.sender l nbEnq) s = some s₁ := by
      simp only [actStep, Device.senderStep, hl]
      exact if_pos (by omega)
    have hl₁ : s₁.senders l = .reset pkts cnt (i + 1) := Function.update_self _ _ _
    have hsent : Sent l (.reset pkts cnt (i + 1)) (s.netdev.reset (pkts i)) s s₁ := ⟨rfl, rfl, rfl⟩
    obtain ⟨t, hruns, ht⟩ := ih hl₁ (by omega)
    rw [window_cons, List.foldl_cons]
    exact ⟨t, .head hstep hruns, hsent.trans ht⟩

/-- The drop loop. -/
lemma runs_drop {l : Fin nLcores} {pkts : ℕ → ℕ} {cnt nbEnq m n i dropped : ℕ}
    (hl : s.senders l = .drop pkts cnt nbEnq i dropped) (hn : i + n = cnt - nbEnq) :
    ∃ t, Repeats (actStep M socketId) (.sender l m) s t ∧
      Sent l (.drop pkts cnt nbEnq (i + n) (dropped + n))
        ((window pkts i n).foldl Netdev.delete s.netdev) s t := by
  induction n generalizing s i dropped with
  | zero =>
    refine ⟨s, .refl, ?_, rfl, rfl⟩
    rw [Nat.add_zero, Nat.add_zero, ← hl, Function.update_eq_self]
  | succ n ih =>
    let s₁ := (s.delete (pkts i)).setSender l (.drop pkts cnt nbEnq (i + 1) (dropped + 1))
    have hstep : actStep M socketId (.sender l m) s = some s₁ := by
      simp only [actStep, Device.senderStep, hl]
      exact if_pos (by omega)
    have hl₁ : s₁.senders l = .drop pkts cnt nbEnq (i + 1) (dropped + 1) :=
      Function.update_self _ _ _
    have hsent : Sent l (.drop pkts cnt nbEnq (i + 1) (dropped + 1)) (s.netdev.delete (pkts i)) s
      s₁ := ⟨rfl, rfl, rfl⟩
    obtain ⟨t, hruns, ht⟩ := ih hl₁ (by omega)
    rw [window_cons, List.foldl_cons, Nat.add_comm n 1, ← Nat.add_assoc, ← Nat.add_assoc]
    exact ⟨t, .head hstep hruns, hsent.trans ht⟩

lemma foldl_delete (burst : List ℕ) (d : Netdev) :
    burst.foldl Netdev.delete d = { d with deleted := d.deleted ++ burst } := by
  induction burst generalizing d with
  | nil => simp
  | cons pkt burst ih => simp [ih, Netdev.delete]

/-- The steps of a call are the function: an lcore that is not interrupted does what
`__netdev_dpdk_daqring_send` does. -/
theorem send_alone {l : Fin nLcores} {pkts : ℕ → ℕ} {cnt nbEnq : ℕ} (hl : s.senders l = .idle)
    (hown : (window pkts 0 cnt : Multiset ℕ) ≤ s.outside) (hring : socketId l < s.nNuma)
    (hle : nbEnq ≤ cnt) :
    ∃ k t, run (actStep M socketId) (.send l pkts cnt :: List.replicate k (.sender l nbEnq)) s =
        some t ∧ t.senders = s.senders ∧
      t.netdev = s.netdev._netdevDpdkDaqringSend (socketId l) pkts cnt true nbEnq := by
  have hcall : actStep M socketId (.send l pkts cnt) s = some (s.send l pkts cnt) := by
    simp only [actStep, hl]
    exact if_pos hown
  have hl₀ : (s.send l pkts cnt).senders l = .reset pkts cnt 0 := Function.update_self _ _ _
  have hsent₀ : Sent l (.reset pkts cnt 0) s.netdev s (s.send l pkts cnt) := ⟨rfl, rfl, rfl⟩
  have hreset : ∃ t₁, Repeats (actStep M socketId) (.sender l nbEnq) (s.send l pkts cnt) t₁ ∧ _ :=
    runs_reset hl₀ (Nat.zero_add cnt)
  obtain ⟨t₁, hruns₁, hsent₁⟩ := hreset
  -- the enqueue
  have hl₁ : t₁.senders l = .reset pkts cnt cnt := hsent₁.at_self
  have hring₁ : socketId l < t₁.nNuma := by rwa [hsent₁.nNuma]
  let t₂ := (t₁.enqueueBurst (socketId l) pkts nbEnq).setSender l (.count pkts cnt nbEnq)
  have hstep₂ : actStep M socketId (.sender l nbEnq) t₁ = some t₂ := by
    simp only [actStep, Device.senderStep, hl₁, Nat.lt_irrefl, if_false]
    exact if_pos ⟨hring₁, hle⟩
  have hsent₂ : Sent l (.count pkts cnt nbEnq) (t₁.netdev.enqueueBurst (socketId l) pkts nbEnq) t₁
    t₂ := ⟨rfl, rfl, rfl⟩
  -- the count of the sent packets
  let t₃ := (t₂.countTx nbEnq).setSender l (.drop pkts cnt nbEnq 0 0)
  have hstep₃ : actStep M socketId (.sender l nbEnq) t₂ = some t₃ := by
    simp only [actStep, Device.senderStep, hsent₂.at_self]
    rfl
  have hsent₃ : Sent l (.drop pkts cnt nbEnq 0 0) (t₂.countTx nbEnq).netdev t₂ t₃ := ⟨rfl, rfl, rfl⟩
  have hdrop : ∃ t₄, Repeats (actStep M socketId) (.sender l nbEnq) t₃ t₄ ∧ _ :=
    runs_drop hsent₃.at_self (Nat.zero_add (cnt - nbEnq))
  obtain ⟨t₄, hruns₄, hsent₄⟩ := hdrop
  rw [Nat.zero_add] at hsent₄
  -- the count of the dropped packets
  let t₅ := (t₄.countDropped (cnt - nbEnq)).setSender l .idle
  have hstep₅ : actStep M socketId (.sender l nbEnq) t₄ = some t₅ := by
    simp only [actStep, Device.senderStep, hsent₄.at_self, Nat.lt_irrefl, if_false]
    rfl
  have hsent₅ : Sent l .idle (t₄.countDropped (cnt - nbEnq)).netdev t₄ t₅ := by
    refine ⟨?_, rfl, ?_⟩ <;> simp [t₅, Device.setSender, Device.countDropped_eq]
  obtain ⟨k, hk⟩ := hruns₁.trans (.head hstep₂ (.head hstep₃ (hruns₄.trans (.head hstep₅ .refl))))
  have hsent := hsent₀.trans (hsent₁.trans (hsent₂.trans (hsent₃.trans (hsent₄.trans hsent₅))))
  refine ⟨k, t₅, run_cons_eq_some.mpr ⟨_, hcall, hk⟩, ?_, ?_⟩
  · rw [hsent.sender, ← hl, Function.update_eq_self]
  · rw [hsent.netdev, Device.countDropped_eq, hsent₄.netdev, foldl_delete]
    simp only [t₃, t₂, Device.setSender, Device.countTx, Device.enqueueBurst, hsent₁.netdev]
    simp only [Netdev._netdevDpdkDaqringSend, if_true, foldl_drop, length_window, Nat.zero_add]
    split
    · rfl
    · next hzero =>
      -- nothing was dropped, and the counter is not touched
      have hzero : cnt - nbEnq = 0 := by simpa using hzero
      simp [hzero, Device.send, Device.setSender]

/-- One lcore, one sub-ring, and two packets with a hash. -/
def Device.twoPackets : Device 1 := .created 1 1 0 (fun _ => 7) (fun _ => 0) {1, 2}

theorem send_alone_twoPackets :
    let s := Device.twoPackets
    ∃ k t, run (actStep netdevMaxBurst32 fun _ => 0)
        (.send 0 Nat.succ 2 :: List.replicate k (.sender 0 1)) s = some t ∧
      t.senders = s.senders ∧
      t.netdev = s.netdev._netdevDpdkDaqringSend 0 Nat.succ 2 true 1 :=
  send_alone rfl (by decide) (by decide) (by decide)

/-! ### The reader alone -/

/-- What the steps of the reader in the loop alone change. -/
structure Received (r : Receiver) (s t : Device nLcores) : Prop where
  receiver : t.receiver = r
  nNuma : t.nNuma = s.nNuma
  outside : t.outside = s.outside
  rate : t.maxBurst = s.maxBurst ∧ t.prevTsc = s.prevTsc ∧ t.pollTsc = s.pollTsc ∧
    t.rxPackets = s.rxPackets

lemma Received.trans {r r' : Receiver} {u : Device nLcores} (h : Received r s t)
    (h' : Received r' t u) : Received r' s u := by
  obtain ⟨-, hn, hout, hmax, hprev, hpoll, hrx⟩ := h
  obtain ⟨hr, hn', hout', hmax', hprev', hpoll', hrx'⟩ := h'
  exact ⟨hr, hn'.trans hn, hout'.trans hout, hmax'.trans hmax, hprev'.trans hprev,
    hpoll'.trans hpoll, hrx'.trans hrx⟩

/-- The loop, from sub-ring `i` on. -/
lemma runs_dequeue {n i : ℕ} {packets : List ℕ} {asked : List (ℕ × ℕ)}
    (hrecv : s.receiver = .dequeue i packets) (hn : i + n = s.nNuma) :
    let rest := dequeueLoop (window s.netdev.subring i n) ⟨s.currBurst, packets, asked⟩
    ∃ t, Repeats (actStep M socketId) .receiver s t ∧ Received (.count rest.2.packets) s t ∧
      t.currBurst = rest.2.currBurst ∧ window t.netdev.subring i n = rest.1 ∧
      ∀ k < i, t.netdev.subring k = s.netdev.subring k := by
  induction n generalizing s i packets asked with
  | zero =>
    let t := { s with receiver := .count packets }
    have hstep : actStep M socketId .receiver s = some t := by
      simp only [actStep, Device.receiverStep, hrecv]
      exact if_neg (by omega)
    exact ⟨t, .head hstep .refl, ⟨rfl, rfl, rfl, rfl, rfl, rfl, rfl⟩, rfl, rfl, fun _ _ => rfl⟩
  | succ n ih =>
    let got := rteRingDequeueBurst (s.netdev.subring i) s.currBurst.toNat
    let s₁ := s.dequeueBurst i packets
    have hstep : actStep M socketId .receiver s = some s₁ := by
      simp only [actStep, Device.receiverStep, hrecv]
      exact if_pos (by omega)
    have hkeep : ∀ k, k ≠ i → s₁.netdev.subring k = s.netdev.subring k :=
      fun k hk => Function.update_of_ne hk _ _
    have hself : s₁.netdev.subring i = got.2 := Function.update_self _ _ _
    have hwindow : window s₁.netdev.subring (i + 1) n = window s.netdev.subring (i + 1) n :=
      window_congr fun k _ => hkeep _ (by omega)
    have hdone {r : Receiver} (hr : s₁.receiver = r) : Received r s s₁ :=
      ⟨hr, rfl, rfl, rfl, rfl, rfl, rfl⟩
    simp only [window_cons, dequeueLoop]
    split
    · next hburst =>
      -- the burst is used up
      refine ⟨s₁, .head hstep .refl, hdone (if_pos hburst), rfl, ?_, ?_⟩
      · rw [hself, hwindow]
      · exact fun k hk => hkeep k (by omega)
    · next hburst =>
      have hrecv₁ : s₁.receiver = .dequeue (i + 1) (packets ++ got.1) := if_neg hburst
      have hn₁ : i + 1 + n = s₁.nNuma := (Nat.add_right_comm i 1 n).trans hn
      let asked₁ := asked ++ [(packets.length, s.currBurst.toNat)]
      obtain ⟨t, hruns, hreceived, hcurr, hring, hbelow⟩ :=
        @ih s₁ (i + 1) (packets ++ got.1) asked₁ hrecv₁ hn₁
      rw [hwindow] at hreceived hcurr hring
      refine ⟨t, .head hstep hruns, (hdone hrecv₁).trans hreceived, hcurr, ?_, ?_⟩
      · rw [hbelow i (Nat.lt_succ_self i), hself, hring]
        rfl
      · exact fun k hk => (hbelow k (by omega)).trans (hkeep k (by omega))

lemma dequeue_fst (d : DpdkDaqring) : d.dequeue.1 =
    { d with
      r := (dequeueLoop d.r ⟨d.currBurst, [], []⟩).1
      currBurst := (dequeueLoop d.r ⟨d.currBurst, [], []⟩).2.currBurst
      rxPackets := d.rxPackets +
        BitVec.ofNat 64 (dequeueLoop d.r ⟨d.currBurst, [], []⟩).2.packets.length } := by
  simp only [DpdkDaqring.dequeue]
  split
  · next h => simp [h]
  · rfl

/-- The loop and what follows it. -/
lemma runs_dequeue_ret (hrecv : s.receiver = .dequeue 0 []) :
    ∃ t, Repeats (actStep M socketId) .receiver s t ∧ t.receiver = .idle ∧
      t.daqr = s.daqr.dequeue.1 ∧
      t.outside = s.outside + (s.daqr.dequeue.2.packets : Multiset ℕ) := by
  obtain ⟨t, hruns, hreceived, hcurr, hring, -⟩ :=
    @runs_dequeue _ M socketId s s.nNuma 0 [] [] hrecv (Nat.zero_add _)
  let b := (dequeueLoop s.daqr.r ⟨s.currBurst, [], []⟩).2
  have hret : actStep M socketId .receiver t = some (t.ret b.packets) := by
    simp only [actStep, Device.receiverStep, hreceived.receiver]
    rfl
  obtain ⟨hmax, hprev, hpoll, hrx⟩ := hreceived.rate
  refine ⟨t.ret b.packets, hruns.trans (.head hret .refl), ?_, ?_, ?_⟩
  · rw [Device.ret_eq]
  · rw [Device.ret_eq, dequeue_fst, Device.daqr, hmax, hprev, hpoll, hrx]
    simp only [hreceived.nNuma, hcurr, hring]
    rfl
  · rw [Device.ret_eq, DpdkDaqring.dequeue_packets, ← hreceived.outside]
    rfl

/-- A reader that is not interrupted does what `netdev_dpdk_daqring_rxq_recv` does. -/
theorem recv_alone (hidle : s.receiver = .idle) (currTsc : BitVec 64) :
    ∃ k t, run (actStep M socketId) (.recv currTsc :: List.replicate k .receiver) s = some t ∧
      t.receiver = .idle ∧ t.daqr = (s.daqr.netdevDpdkDaqringRxqRecv currTsc).1 ∧
      t.outside =
        s.outside + ((s.daqr.netdevDpdkDaqringRxqRecv currTsc).2.packets : Multiset ℕ) := by
  have hcall : actStep M socketId (.recv currTsc) s = some (s.recv currTsc) := by
    simp only [actStep, hidle]
  have hreset : (s.setRate (s.daqr.reset currTsc)).daqr = s.daqr.reset currTsc := by
    unfold DpdkDaqring.reset
    split <;> rfl
  have hloop (s₀ : Device nLcores) (h₀ : s.recv currTsc = s₀) (hrecv : s₀.receiver = .dequeue 0 [])
      (hout : s₀.outside = s.outside) :
      ∃ k t, run (actStep M socketId) (.recv currTsc :: List.replicate k .receiver) s = some t ∧
        t.receiver = .idle ∧ t.daqr = s₀.daqr.dequeue.1 ∧
        t.outside = s.outside + (s₀.daqr.dequeue.2.packets : Multiset ℕ) := by
    have hruns : ∃ t, Repeats (actStep M socketId) .receiver s₀ t ∧ _ := runs_dequeue_ret hrecv
    obtain ⟨t, ⟨k, hk⟩, hidle', hdaqr, hout'⟩ := hruns
    exact ⟨k, t, run_cons_eq_some.mpr ⟨s₀, h₀ ▸ hcall, hk⟩, hidle', hdaqr, hout ▸ hout'⟩
  simp only [DpdkDaqring.netdevDpdkDaqringRxqRecv]
  split
  · next hpoll =>
    split
    · next hburst =>
      -- nothing can be taken at this time
      have hrecv : s.recv currTsc = s.setRate (s.daqr.reset currTsc) :=
        (if_pos hpoll).trans (if_pos hburst)
      refine ⟨0, _, run_cons_eq_some.mpr ⟨_, hcall, rfl⟩, ?_⟩
      rw [hrecv]
      exact ⟨hidle, hreset, (add_zero _).symm⟩
    · next hburst =>
      have h := hloop { s.setRate (s.daqr.reset currTsc) with receiver := .dequeue 0 [] }
        ((if_pos hpoll).trans (if_neg hburst)) rfl rfl
      rw [← hreset]
      exact h
  · next hpoll =>
    exact hloop _ (if_neg hpoll) rfl rfl

/-- Both packets are queued, and a call may take one packet every ten ticks. -/
theorem recv_alone_twoPackets :
    let acts : List (Act 1) := [.setConfig 1 10, .send 0 Nat.succ 2, .sender 0 0, .sender 0 0,
      .sender 0 2, .sender 0 0, .sender 0 0]
    ∃ s, run (actStep netdevMaxBurst32 fun _ => 0) acts .twoPackets = some s ∧
      s.netdev.subring 0 = [1, 2] ∧ s.pollTsc < 101 - s.prevTsc ∧
        ∃ k t, run (actStep netdevMaxBurst32 fun _ => 0)
            (.recv 101 :: List.replicate k .receiver) s = some t ∧
          t.receiver = .idle ∧ t.daqr = (s.daqr.netdevDpdkDaqringRxqRecv 101).1 ∧
            (s.daqr.netdevDpdkDaqringRxqRecv 101).2.packets = [1] ∧
              t.outside = s.outside +
                ((s.daqr.netdevDpdkDaqringRxqRecv 101).2.packets : Multiset ℕ) := by
  intro acts
  obtain ⟨s, hrun, hqueued, helapsed, hidle, hone⟩ :
      ∃ s, run (actStep netdevMaxBurst32 fun _ => 0) acts .twoPackets = some s ∧
        s.netdev.subring 0 = [1, 2] ∧ s.pollTsc < 101 - s.prevTsc ∧ s.receiver = .idle ∧
          (s.daqr.netdevDpdkDaqringRxqRecv 101).2.packets = [1] :=
    ⟨_, rfl, rfl, by decide, rfl, by decide⟩
  obtain ⟨k, t, hcall, hret, hdaqr, hout⟩ :=
    @recv_alone _ netdevMaxBurst32 (fun _ => 0) s hidle 101
  exact ⟨s, hrun, hqueued, helapsed, k, t, hcall, hret, hdaqr, hone, hout⟩

end

end DaqSwitch.Ovs
