import DaqSwitch.Ovs.DaqringThreads

/-!
# Packets of a daqring under any interleaving

Where the packets are, and what the counters of the device say about them, whatever the order
in which its threads take their steps.
-/

namespace DaqSwitch.Ovs

open Lib Lib.Machine

/-! ## Where the packets are -/

/-- The packets that an lcore holds: those of the burst, and after the enqueue those that the
drop loop has still to delete. -/
def Sender.inHand : Sender → List ℕ
  | .idle => []
  | .reset pkts cnt _ => window pkts 0 cnt
  | .count pkts cnt nbEnq => window pkts 0 (cnt - nbEnq)
  | .drop pkts cnt nbEnq i _ => window pkts i (cnt - nbEnq - i)

def Receiver.inHand : Receiver → List ℕ
  | .idle => []
  | .dequeue _ packets => packets
  | .count packets => packets

namespace Device

variable {nLcores : ℕ}

def held (s : Device nLcores) : Multiset ℕ := ∑ l, ((s.senders l).inHand : Multiset ℕ)

def queued (s : Device nLcores) : Multiset ℕ :=
  ∑ i ∈ Finset.range s.nNuma, (s.netdev.subring i : Multiset ℕ)

/-- All packets, wherever they are. -/
def places (s : Device nLcores) : Multiset ℕ :=
  s.outside + s.held + s.queued + (s.receiver.inHand : Multiset ℕ)

lemma held_eq {s t : Device nLcores} {l : Fin nLcores} {x : Sender}
    (h : t.senders = Function.update s.senders l x) :
    t.held + ((s.senders l).inHand : Multiset ℕ) = s.held + (x.inHand : Multiset ℕ) := by
  rw [held, h]
  exact sum_update (fun x : Sender => (x.inHand : Multiset ℕ)) s.senders (Finset.mem_univ l) x

lemma queued_eq {s t : Device nLcores} {i : ℕ} {ring : List ℕ} (hi : i < s.nNuma)
    (hn : t.nNuma = s.nNuma) (h : t.netdev.subring = Function.update s.netdev.subring i ring) :
    t.queued + (s.netdev.subring i : Multiset ℕ) = s.queued + (ring : Multiset ℕ) := by
  rw [queued, hn, h]
  exact sum_update (fun ring : List ℕ => (ring : Multiset ℕ)) s.netdev.subring
    (Finset.mem_range.mpr hi) ring

lemma inHand_le_places (s : Device nLcores) (l : Fin nLcores) :
    ((s.senders l).inHand : Multiset ℕ) ≤ s.places := by
  have hheld : ((s.senders l).inHand : Multiset ℕ) ≤ s.held :=
    Finset.single_le_sum (f := fun k => ((s.senders k).inHand : Multiset ℕ))
      (fun _ _ => Multiset.zero_le _) (Finset.mem_univ l)
  rw [Multiset.le_iff_count] at hheld ⊢
  intro pkt
  have := hheld pkt
  simp only [places, Multiset.count_add]
  omega

/-- A sender gives packets to the outside, or gets them from there. -/
lemma places_eq_of_sender {s t : Device nLcores} {l : Fin nLcores} {x : Sender}
    (hsenders : t.senders = Function.update s.senders l x) (hqueued : t.queued = s.queued)
    (hrecv : t.receiver = s.receiver)
    (hout : t.outside + (x.inHand : Multiset ℕ) =
      s.outside + ((s.senders l).inHand : Multiset ℕ)) : t.places = s.places := by
  have hheld := held_eq hsenders
  ext pkt
  replace hheld := congrArg (Multiset.count pkt) hheld
  replace hout := congrArg (Multiset.count pkt) hout
  simp only [places, Multiset.count_add, hqueued, hrecv] at hheld hout ⊢
  omega

/-- The receiver gets packets from a sub-ring, or gives them to the outside. -/
lemma places_eq_of_receiver {s t : Device nLcores} (hsenders : t.senders = s.senders)
    (hrecv : t.outside + t.queued + (t.receiver.inHand : Multiset ℕ) =
      s.outside + s.queued + (s.receiver.inHand : Multiset ℕ)) : t.places = s.places := by
  have hheld : t.held = s.held := by rw [held, hsenders, held]
  ext pkt
  replace hrecv := congrArg (Multiset.count pkt) hrecv
  simp only [places, Multiset.count_add, hheld] at hrecv ⊢
  omega

lemma mem_held {s : Device nLcores} {pkt : ℕ} : pkt ∈ s.held ↔ ∃ l, pkt ∈ (s.senders l).inHand := by
  simp [held]

lemma mem_queued {s : Device nLcores} {pkt : ℕ} :
    pkt ∈ s.queued ↔ ∃ i < s.nNuma, pkt ∈ s.netdev.subring i := by
  simp [queued]

@[simp] lemma queued_created (nNuma : ℕ) (tscHz : BitVec 64) (rssHash recircId : ℕ → BitVec 32)
    (outside : Multiset ℕ) :
    (created nLcores nNuma tscHz rssHash recircId outside).queued = 0 := by
  simp [queued, created]

lemma places_created (nNuma : ℕ) (tscHz : BitVec 64) (rssHash recircId : ℕ → BitVec 32)
    (outside : Multiset ℕ) :
    (created nLcores nNuma tscHz rssHash recircId outside).places = outside := by
  simp [places, held, created, queued, Sender.inHand, Receiver.inHand]

/-! ### The start of a receive call -/

variable (s : Device nLcores) (currTsc : BitVec 64)

@[simp] lemma recv_netdev : (s.recv currTsc).netdev = s.netdev := by
  simp only [recv]
  split_ifs <;> rfl

@[simp] lemma recv_nNuma : (s.recv currTsc).nNuma = s.nNuma := by
  simp only [recv]
  split_ifs <;> rfl

@[simp] lemma recv_rxPackets : (s.recv currTsc).rxPackets = s.rxPackets := by
  simp only [recv]
  split_ifs <;> rfl

@[simp] lemma recv_outside : (s.recv currTsc).outside = s.outside := by
  simp only [recv]
  split_ifs <;> rfl

@[simp] lemma recv_senders : (s.recv currTsc).senders = s.senders := by
  simp only [recv]
  split_ifs <;> rfl

@[simp] lemma recv_queued : (s.recv currTsc).queued = s.queued := by
  simp [queued]

@[simp] lemma recv_accepted : (s.recv currTsc).accepted = s.accepted := by
  simp only [recv]
  split_ifs <;> rfl

@[simp] lemma recv_taken : (s.recv currTsc).taken = s.taken := by
  simp only [recv]
  split_ifs <;> rfl

lemma recv_inHand (h : s.receiver = .idle) : (s.recv currTsc).receiver.inHand = [] := by
  simp only [recv]
  split_ifs
  · show s.receiver.inHand = []
    rw [h]
    rfl
  · rfl
  · rfl

lemma inHand_dequeueBurst (i : ℕ) (packets : List ℕ) :
    (s.dequeueBurst i packets).receiver.inHand =
      packets ++ (rteRingDequeueBurst (s.netdev.subring i) s.currBurst.toNat).1 := by
  simp only [dequeueBurst]
  split_ifs <;> rfl

end Device

/-! ## Ownership -/

/-- If the next step of the lcore is the enqueue, the ring takes all packets of the burst or
none. -/
def Sender.AllOrNothing (nbEnq : ℕ) : Sender → Prop
  | .reset _ cnt i => cnt ≤ i → nbEnq = 0 ∨ nbEnq = cnt
  | _ => True

instance (nbEnq : ℕ) : ∀ x : Sender, Decidable (x.AllOrNothing nbEnq)
  | .reset _ cnt i => inferInstanceAs (Decidable (cnt ≤ i → nbEnq = 0 ∨ nbEnq = cnt))
  | .idle => isTrue trivial
  | .count _ _ _ => isTrue trivial
  | .drop _ _ _ _ _ => isTrue trivial

def AllOrNothing {nLcores : ℕ} : Act nLcores → Device nLcores → Prop
  | .sender l nbEnq, s => (s.senders l).AllOrNothing nbEnq
  | _, _ => True

instance {nLcores : ℕ} : ∀ (a : Act nLcores) (s : Device nLcores), Decidable (AllOrNothing a s)
  | .sender l nbEnq, s => inferInstanceAs (Decidable ((s.senders l).AllOrNothing nbEnq))
  | .send _ _ _, _ => isTrue trivial
  | .recv _, _ => isTrue trivial
  | .receiver, _ => isTrue trivial
  | .write _ _ _, _ => isTrue trivial
  | .setConfig _ _, _ => isTrue trivial
  | .setMaxBurst _, _ => isTrue trivial
  | .setPollTsc _, _ => isTrue trivial

section

variable {nLcores : ℕ} {M : NetdevMaxBurst} {socketId : Fin nLcores → ℕ} {a : Act nLcores}
  {s t : Device nLcores}

lemma coe_rteRingDequeueBurst (ring : List ℕ) (n : ℕ) :
    ((rteRingDequeueBurst ring n).1 : Multiset ℕ) + (rteRingDequeueBurst ring n).2 = ring := by
  rw [rteRingDequeueBurst, Multiset.coe_add, List.take_append_drop]

/-- The enqueue puts the first packets into the sub-ring, and it is again the first ones that
will be deleted. -/
lemma places_enqueue {l : Fin nLcores} {nbEnq : ℕ} {pkts : ℕ → ℕ} {cnt i : ℕ}
    (hl : s.senders l = .reset pkts cnt i) (hring : socketId l < s.nNuma) :
    ((s.enqueueBurst (socketId l) pkts nbEnq).setSender l (.count pkts cnt nbEnq)).places +
        (window pkts 0 cnt : Multiset ℕ) =
      s.places + (window pkts 0 nbEnq + window pkts 0 (cnt - nbEnq) : Multiset ℕ) := by
  let t := (s.enqueueBurst (socketId l) pkts nbEnq).setSender l (.count pkts cnt nbEnq)
  have hheld := Device.held_eq (s := s) (t := t) (x := .count pkts cnt nbEnq) rfl
  have hqueued := Device.queued_eq (s := s) (t := t) hring rfl rfl
  rw [hl] at hheld
  show t.places + _ = _
  ext pkt
  replace hheld := congrArg (Multiset.count pkt) hheld
  replace hqueued := congrArg (Multiset.count pkt) hqueued
  simp only [← Multiset.coe_add, Multiset.count_add] at hheld hqueued
  have hrest : t.outside = s.outside ∧ t.receiver = s.receiver := ⟨rfl, rfl⟩
  simp only [Device.places, Multiset.count_add, hrest]
  simp only [Sender.inHand] at hheld
  omega

/-- An enqueue that takes a part of the burst brings its first packet to two places. -/
lemma allOrNothing_of_nodup (h : ActCase socketId s a t) (hnodup : t.places.Nodup) :
    AllOrNothing a s := by
  cases h with
  | @enqueue l nbEnq pkts cnt i hl hi hring hle =>
    rw [AllOrNothing, hl, Sender.AllOrNothing]
    intro _
    by_contra hpart
    have hplaces := congrArg (Multiset.count (pkts 0))
      (show _ = s.places + (window pkts 0 nbEnq + _ : Multiset ℕ) from places_enqueue hl hring)
    have hburst := Multiset.count_le_of_le (pkts 0) (s.inHand_le_places l)
    have hin : 0 < (window pkts 0 nbEnq).count (pkts 0) :=
      List.count_pos_iff.mpr (mem_window.mpr ⟨0, by omega, rfl⟩)
    have hout : 0 < (window pkts 0 (cnt - nbEnq)).count (pkts 0) :=
      List.count_pos_iff.mpr (mem_window.mpr ⟨0, by omega, rfl⟩)
    have hone := Multiset.nodup_iff_count_le_one.mp hnodup (pkts 0)
    rw [hl] at hburst
    simp only [Multiset.count_add, Multiset.coe_count, Sender.inHand] at hplaces hburst
    omega
  | reset hl hi =>
    rw [AllOrNothing, hl, Sender.AllOrNothing]
    omega
  | countTx hl | delete hl | countDropped hl =>
    rw [AllOrNothing, hl]
    trivial
  | _ => trivial

/-- No other step creates or loses a packet. -/
lemma ActCase.places_eq (h : ActCase socketId s a t) (hall : AllOrNothing a s) :
    t.places = s.places := by
  cases h with
  | @send l pkts cnt hl hown =>
    refine Device.places_eq_of_sender (l := l) rfl rfl rfl ?_
    rw [hl]
    exact (tsub_add_cancel_of_le hown).trans (add_zero _).symm
  | @reset l _ pkts cnt i hl hi =>
    refine Device.places_eq_of_sender (l := l) rfl rfl rfl ?_
    rw [hl]
    rfl
  | @enqueue l nbEnq pkts cnt i hl hi hring hle =>
    refine add_right_cancel (b := (window pkts 0 cnt : Multiset ℕ))
      ((places_enqueue hl hring).trans ?_)
    rw [AllOrNothing, hl, Sender.AllOrNothing] at hall
    obtain rfl | rfl := hall hi
    · simp
    · simp
  | @countTx l _ pkts cnt nbEnq hl =>
    refine Device.places_eq_of_sender (l := l) rfl rfl rfl ?_
    rw [hl]
    rfl
  | @delete l _ pkts cnt nbEnq i dropped hl hi =>
    refine Device.places_eq_of_sender (l := l) rfl rfl rfl ?_
    obtain ⟨k, hk⟩ : ∃ k, cnt - nbEnq - i = k + 1 := ⟨cnt - nbEnq - i - 1, by omega⟩
    have hk' : cnt - nbEnq - (i + 1) = k := by omega
    rw [hl]
    simp only [Sender.inHand, hk, hk', window_cons, ← Multiset.cons_coe]
    show pkts i ::ₘ s.outside + _ = _
    rw [Multiset.cons_add, Multiset.add_cons]
  | @countDropped l _ pkts cnt nbEnq i dropped hl hi =>
    rw [Device.countDropped_eq]
    refine Device.places_eq_of_sender (l := l) rfl rfl rfl ?_
    rw [hl]
    simp [Sender.inHand, Nat.sub_eq_zero_of_le hi, Device.setSender]
  | recv hidle =>
    refine Device.places_eq_of_receiver (by simp) ?_
    rw [Device.recv_outside, Device.recv_inHand _ _ hidle, hidle]
    simp [Device.queued, Receiver.inHand]
  | @dequeue i packets hrecv hi =>
    let got := rteRingDequeueBurst (s.netdev.subring i) s.currBurst.toNat
    have hring : (got.1 : Multiset ℕ) + got.2 = s.netdev.subring i :=
      coe_rteRingDequeueBurst _ _
    have hqueued : (s.dequeueBurst i packets).queued + (s.netdev.subring i : Multiset ℕ) =
        s.queued + (got.2 : Multiset ℕ) := Device.queued_eq hi rfl rfl
    refine Device.places_eq_of_receiver rfl ?_
    rw [Device.inHand_dequeueBurst, hrecv, Receiver.inHand, ← Multiset.coe_add]
    show s.outside + _ + (_ + (got.1 : Multiset ℕ)) = _
    ext pkt
    replace hring := congrArg (Multiset.count pkt) hring
    replace hqueued := congrArg (Multiset.count pkt) hqueued
    simp only [Multiset.count_add] at hring hqueued ⊢
    omega
  | lastRing hrecv =>
    refine Device.places_eq_of_receiver rfl ?_
    rw [hrecv]
    rfl
  | ret hrecv =>
    rw [Device.ret_eq]
    refine Device.places_eq_of_receiver rfl ?_
    rw [hrecv]
    simp [Device.queued, Receiver.inHand, add_right_comm]
  | write | setConfig | setMaxBurst | setPollTsc => rfl

/-- **Conservation.**  From packets that are each in one place, every packet is in one place
after any interleaving if and only if each enqueue of it took the whole burst or nothing: a burst
that is taken in part leaves its first packet both in the sub-ring and free, and loses its
last. -/
theorem places_eq_iff {acts : List (Act nLcores)} (h : run (actStep M socketId) acts s = some t)
    (hnodup : s.places.Nodup) :
    t.places = s.places ↔ Throughout (actStep M socketId) AllOrNothing acts s := by
  have hexact : t.places = s.places ↔
      s.places = s.places ∧ Throughout (actStep M socketId) AllOrNothing acts s := by
    refine run_iff_throughout (I := fun _ => True) (J := fun u => u.places = s.places)
      (fun _ _ _ _ _ _ => trivial) ?_ ?_ h trivial
    · intro a _ u v huv _ hu hall
      exact ((actStep_case huv).places_eq hall).trans hu
    · intro a _ u v huv _ hv
      have hall := allOrNothing_of_nodup (actStep_case huv) (hv ▸ hnodup)
      exact ⟨((actStep_case huv).places_eq hall).symm.trans hv, hall⟩
  simpa using hexact

/-- The ring takes the first of two packets. -/
def Act.halfBurst : List (Act 1) :=
  [.send 0 Nat.succ 2, .sender 0 0, .sender 0 0, .sender 0 1, .sender 0 0]

theorem places_eq_iff_halfBurst :
    ∃ t, run (actStep netdevMaxBurst32 fun _ => 0) Act.halfBurst .twoPackets = some t ∧
      (t.places = Device.places .twoPackets ↔
        Throughout (actStep netdevMaxBurst32 fun _ => 0) AllOrNothing Act.halfBurst .twoPackets) :=
  ⟨_, rfl, places_eq_iff rfl (by decide)⟩

/-! ## The hash of the packets -/

/-- `the emc lookup after dequeuing from the daqring does not update the emc`: the packets on
their way through the daqring have no hash. -/
structure HashReset (s : Device nLcores) : Prop where
  sending : ∀ l pkts cnt i, s.senders l = .reset pkts cnt i →
    i ≤ cnt ∧ ∀ j < i, s.netdev.rssHash (pkts j) = 0
  queued : ∀ pkt ∈ s.queued, s.netdev.rssHash pkt = 0
  received : ∀ pkt ∈ s.receiver.inHand, s.netdev.rssHash pkt = 0

namespace HashReset

/-- A step of an lcore that leaves the fields of the packets alone. -/
lemma of_sender (hs : HashReset s) {l : Fin nLcores} {x : Sender}
    (hsenders : t.senders = Function.update s.senders l x)
    (hx : ∀ pkts cnt i, x = .reset pkts cnt i → i ≤ cnt ∧ ∀ j < i, s.netdev.rssHash (pkts j) = 0)
    (hhash : t.netdev.rssHash = s.netdev.rssHash)
    (hqueued : ∀ pkt ∈ t.queued, s.netdev.rssHash pkt = 0) (hrecv : t.receiver = s.receiver) :
    HashReset t := by
  refine ⟨?_, ?_, ?_⟩
  · intro k pkts cnt i hk
    rw [hsenders] at hk
    rw [hhash]
    rcases eq_or_ne k l with rfl | hkl
    · rw [Function.update_self] at hk
      exact hx pkts cnt i hk
    · rw [Function.update_of_ne hkl] at hk
      exact hs.sending k pkts cnt i hk
  · rw [hhash]
    exact hqueued
  · rw [hhash, hrecv]
    exact hs.received

/-- A step of the reader. -/
lemma of_receiver (hs : HashReset s) (hsenders : t.senders = s.senders)
    (hhash : t.netdev.rssHash = s.netdev.rssHash) (hqueued : ∀ pkt ∈ t.queued, pkt ∈ s.queued)
    (hrecv : ∀ pkt ∈ t.receiver.inHand, pkt ∈ s.queued ∨ pkt ∈ s.receiver.inHand) :
    HashReset t := by
  refine ⟨?_, ?_, ?_⟩
  · rw [hsenders, hhash]
    exact hs.sending
  · intro pkt hpkt
    rw [hhash]
    exact hs.queued pkt (hqueued pkt hpkt)
  · intro pkt hpkt
    rw [hhash]
    exact (hrecv pkt hpkt).elim (hs.queued pkt) (hs.received pkt)

/-- A write to a packet that is nowhere in the daqring. -/
lemma write (hs : HashReset s) (hnodup : s.places.Nodup) {pkt : ℕ} (hpkt : pkt ∈ s.outside)
    (rssHash recircId : BitVec 32) : HashReset (s.write pkt rssHash recircId) := by
  have hkeep (pkt' : ℕ) (hmem : pkt' ∈ s.held + s.queued + (s.receiver.inHand : Multiset ℕ)) :
      (s.write pkt rssHash recircId).netdev.rssHash pkt' = s.netdev.rssHash pkt' := by
    refine Function.update_of_ne ?_ _ _
    rintro rfl
    rw [Device.places, add_assoc, add_assoc, ← add_assoc s.held] at hnodup
    exact Multiset.disjoint_left.mp (Multiset.nodup_add.mp hnodup).2.2 hpkt hmem
  refine ⟨?_, ?_, ?_⟩
  · intro l pkts cnt i hl
    replace hl : s.senders l = .reset pkts cnt i := hl
    obtain ⟨hi, hzero⟩ := hs.sending l pkts cnt i hl
    refine ⟨hi, ?_⟩
    intro j hj
    have hmem : pkts j ∈ s.held := by
      refine Device.mem_held.mpr ⟨l, ?_⟩
      rw [hl]
      exact mem_window.mpr ⟨j, Nat.lt_of_lt_of_le hj hi, by rw [Nat.zero_add]⟩
    rw [hkeep _ (by simp [hmem])]
    exact hzero j hj
  · intro pkt' hmem
    replace hmem : pkt' ∈ s.queued := hmem
    rw [hkeep _ (by simp [hmem])]
    exact hs.queued pkt' hmem
  · intro pkt' hmem
    replace hmem : pkt' ∈ s.receiver.inHand := hmem
    rw [hkeep _ (by simp [hmem])]
    exact hs.received pkt' hmem

end HashReset

lemma ActCase.hashReset (h : ActCase socketId s a t) (hnodup : s.places.Nodup)
    (hs : HashReset s) : HashReset t := by
  cases h with
  | @send l pkts cnt hl hown =>
    refine hs.of_sender (l := l) rfl ?_ rfl hs.queued rfl
    rintro _ _ _ ⟨rfl, rfl, rfl⟩
    exact ⟨Nat.zero_le _, fun j hj => absurd hj (Nat.not_lt_zero j)⟩
  | @reset l _ pkts cnt i hl hi =>
    have hkeep {pkt : ℕ} (hzero : s.netdev.rssHash pkt = 0) :
        (s.netdev.reset (pkts i)).rssHash pkt = 0 := by
      simp only [Netdev.reset, Function.update_apply]
      split_ifs <;> simp [hzero]
    have hthis := (hs.sending l pkts cnt i hl).2
    refine ⟨?_, fun pkt hpkt => hkeep (hs.queued pkt hpkt),
      fun pkt hpkt => hkeep (hs.received pkt hpkt)⟩
    intro k pkts' cnt' i' hk
    rcases eq_or_ne k l with rfl | hkl
    · obtain ⟨rfl, rfl, rfl⟩ : pkts = pkts' ∧ cnt = cnt' ∧ i + 1 = i' := by
        simpa [Device.setSender] using hk
      refine ⟨hi, ?_⟩
      intro j hj
      rcases Nat.lt_succ_iff_lt_or_eq.mp hj with hj | rfl
      · exact hkeep (hthis j hj)
      · exact Function.update_self _ _ _
    · simp only [Device.setSender, Function.update_of_ne hkl] at hk
      obtain ⟨hi', hzero⟩ := hs.sending k pkts' cnt' i' hk
      exact ⟨hi', fun j hj => hkeep (hzero j hj)⟩
  | @enqueue l nbEnq pkts cnt i hl hi hring hle =>
    have hburst := (hs.sending l pkts cnt i hl).2
    refine hs.of_sender (l := l) rfl (by simp) rfl ?_ rfl
    intro pkt hpkt
    obtain ⟨k, hk, hpkt⟩ := Device.mem_queued.mp hpkt
    replace hpkt : pkt ∈ Function.update s.netdev.subring (socketId l)
      (s.netdev.subring (socketId l) ++ window pkts 0 nbEnq) k := hpkt
    rcases eq_or_ne k (socketId l) with rfl | hkl
    · rw [Function.update_self, List.mem_append] at hpkt
      rcases hpkt with hpkt | hpkt
      · exact hs.queued pkt (Device.mem_queued.mpr ⟨_, hk, hpkt⟩)
      · obtain ⟨j, hj, rfl⟩ := mem_window.mp hpkt
        rw [Nat.zero_add]
        exact hburst j (by omega)
    · rw [Function.update_of_ne hkl] at hpkt
      exact hs.queued pkt (Device.mem_queued.mpr ⟨k, hk, hpkt⟩)
  | @countTx l _ pkts cnt nbEnq hl => exact hs.of_sender (l := l) rfl (by simp) rfl hs.queued rfl
  | @delete l _ pkts cnt nbEnq i dropped hl hi =>
    exact hs.of_sender (l := l) rfl (by simp) rfl hs.queued rfl
  | @countDropped l _ pkts cnt nbEnq i dropped hl hi =>
    rw [Device.countDropped_eq]
    exact hs.of_sender (l := l) rfl (by simp) rfl hs.queued rfl
  | recv hidle =>
    refine hs.of_receiver (by simp) (by simp) (by simp) ?_
    simp [Device.recv_inHand _ _ hidle]
  | @dequeue i packets hrecv hi =>
    refine hs.of_receiver rfl rfl ?_ ?_
    · intro pkt hpkt
      obtain ⟨k, hk, hpkt⟩ := Device.mem_queued.mp hpkt
      refine Device.mem_queued.mpr ⟨k, hk, ?_⟩
      replace hpkt : pkt ∈ Function.update s.netdev.subring i
        ((s.netdev.subring i).drop s.currBurst.toNat) k := hpkt
      rcases eq_or_ne k i with rfl | hki
      · rw [Function.update_self] at hpkt
        exact List.mem_of_mem_drop hpkt
      · rwa [Function.update_of_ne hki] at hpkt
    · intro pkt hpkt
      rw [Device.inHand_dequeueBurst, List.mem_append] at hpkt
      rw [hrecv]
      rcases hpkt with hpkt | hpkt
      · exact Or.inr hpkt
      · exact Or.inl (Device.mem_queued.mpr ⟨i, hi, List.mem_of_mem_take hpkt⟩)
  | lastRing hrecv =>
    refine hs.of_receiver rfl rfl (fun _ => id) ?_
    rw [hrecv]
    exact fun _ => Or.inr
  | ret hrecv =>
    rw [Device.ret_eq]
    refine hs.of_receiver rfl rfl (fun _ => id) ?_
    simp [Receiver.inHand]
  | write hpkt => exact hs.write hnodup hpkt _ _
  | setConfig | setMaxBurst | setPollTsc => exact ⟨hs.sending, hs.queued, hs.received⟩

/-- While the ring takes whole bursts, a packet that is queued or has just been received has no
hash, although the rest of the switch writes to the packets that it owns. -/
theorem rssHash_eq_zero {nNuma : ℕ} {tscHz : BitVec 64} {rssHash recircId : ℕ → BitVec 32}
    {outside : Multiset ℕ} {acts : List (Act nLcores)}
    (h : run (actStep M socketId) acts (.created nLcores nNuma tscHz rssHash recircId outside) =
      some t) (hnodup : outside.Nodup)
    (hall : Throughout (actStep M socketId) AllOrNothing acts
      (.created nLcores nNuma tscHz rssHash recircId outside)) :
    ∀ pkt ∈ t.queued + (t.receiver.inHand : Multiset ℕ), t.netdev.rssHash pkt = 0 := by
  have hinv := run_keeps (I := fun u : Device nLcores => u.places.Nodup ∧ HashReset u) ?_ h hall ?_
  · intro pkt hpkt
    exact (Multiset.mem_add.mp hpkt).elim (hinv.2.queued pkt) (hinv.2.received pkt)
  · rintro a u v huv ha ⟨hu, hhash⟩
    have hcase := actStep_case huv
    exact ⟨hcase.places_eq ha ▸ hu, hcase.hashReset hu hhash⟩
  · refine ⟨by rwa [Device.places_created], ?_⟩
    exact ⟨by simp [Device.created], by simp, by simp [Device.created, Receiver.inHand]⟩

/-- A packet is queued while the other one gets a new hash, and is taken out. -/
def Act.wholeBurst : List (Act 1) :=
  [.send 0 Nat.succ 1, .sender 0 0, .sender 0 1, .write 2 5 0, .recv 1, .receiver]

theorem rssHash_eq_zero_wholeBurst :
    ∃ t, run (actStep netdevMaxBurst32 fun _ => 0) Act.wholeBurst .twoPackets = some t ∧
      ∀ pkt ∈ t.queued + (t.receiver.inHand : Multiset ℕ), t.netdev.rssHash pkt = 0 :=
  ⟨_, rfl, rssHash_eq_zero
    (show run (actStep netdevMaxBurst32 fun _ => 0) Act.wholeBurst .twoPackets = some _ from rfl)
    (by decide) (by decide)⟩

/-! ## The counters -/

/-- The packets in the ring that the lcore has yet to count. -/
def Sender.uncounted : Sender → ℕ
  | .count _ _ nbEnq => nbEnq
  | _ => 0

/-- The packets of the call that the lcore has yet to count as sent or dropped. -/
def Sender.pending : Sender → ℕ
  | .idle => 0
  | .reset _ cnt _ => cnt
  | .count _ cnt nbEnq => nbEnq + (cnt - nbEnq)
  | .drop _ cnt nbEnq i dropped => dropped + (cnt - nbEnq - i)

/-- The packets that a call hands to the daqring. -/
def Act.handed : Act nLcores → ℕ
  | .send _ _ cnt => cnt
  | _ => 0

def Device.uncounted (s : Device nLcores) : ℕ := ∑ l, (s.senders l).uncounted

def Device.pending (s : Device nLcores) : ℕ := ∑ l, (s.senders l).pending

lemma uncounted_eq {l : Fin nLcores} {x : Sender} (h : t.senders = Function.update s.senders l x) :
    t.uncounted + (s.senders l).uncounted = s.uncounted + x.uncounted := by
  rw [Device.uncounted, h]
  exact sum_update Sender.uncounted s.senders (Finset.mem_univ l) x

lemma pending_eq {l : Fin nLcores} {x : Sender} (h : t.senders = Function.update s.senders l x) :
    t.pending + (s.senders l).pending = s.pending + x.pending := by
  rw [Device.pending, h]
  exact sum_update Sender.pending s.senders (Finset.mem_univ l) x

/-- What the records and the counters say after the lcores have been handed `handed` packets. -/
structure Account (handed : ℕ) (s : Device nLcores) : Prop where
  fifo : ∀ i, s.accepted i = s.taken i ++ s.netdev.subring i
  balance : s.netdev.txPackets + BitVec.ofNat 64 s.uncounted =
    s.rxPackets + BitVec.ofNat 64 (s.receiver.inHand.length + s.queued.card)
  handed : s.netdev.txPackets + s.netdev.txDropped + BitVec.ofNat 64 s.pending =
    BitVec.ofNat 64 handed

namespace Account

variable {handed : ℕ}

/-- A step of an lcore that counts `sent` and `dropped` packets and is handed `more`. -/
lemma of_sender (hs : Account handed s) {l : Fin nLcores} {x : Sender} (sent dropped more : ℕ)
    (hsenders : t.senders = Function.update s.senders l x)
    (hfifo : ∀ i, t.accepted i = t.taken i ++ t.netdev.subring i)
    (hrecv : t.receiver = s.receiver) (hrx : t.rxPackets = s.rxPackets)
    (htx : t.netdev.txPackets = s.netdev.txPackets + BitVec.ofNat 64 sent)
    (hdropped : t.netdev.txDropped = s.netdev.txDropped + BitVec.ofNat 64 dropped)
    (hqueued : t.queued.card + (s.senders l).uncounted = s.queued.card + x.uncounted + sent)
    (hpending : sent + dropped + x.pending = (s.senders l).pending + more) :
    Account (handed + more) t := by
  have hunc := congrArg (Nat.cast (R := BitVec 64)) (uncounted_eq hsenders)
  have hpend := congrArg (Nat.cast (R := BitVec 64)) (pending_eq hsenders)
  have hbalance := hs.balance
  have hhanded := hs.handed
  replace hqueued := congrArg (Nat.cast (R := BitVec 64)) hqueued
  replace hpending := congrArg (Nat.cast (R := BitVec 64)) hpending
  simp only [← BitVec.natCast_eq_ofNat] at hbalance hhanded htx hdropped
  push_cast at hunc hpend hqueued hpending hbalance hhanded
  refine ⟨hfifo, ?_, ?_⟩
  · rw [htx, hrecv, hrx, ← BitVec.natCast_eq_ofNat, ← BitVec.natCast_eq_ofNat]
    push_cast
    linear_combination hbalance + hunc - hqueued
  · rw [htx, hdropped, ← BitVec.natCast_eq_ofNat, ← BitVec.natCast_eq_ofNat]
    push_cast
    linear_combination hhanded + hpend + hpending

/-- A step of the reader that counts `received` packets. -/
lemma of_receiver (hs : Account handed s) (received : ℕ) (hsenders : t.senders = s.senders)
    (hfifo : ∀ i, t.accepted i = t.taken i ++ t.netdev.subring i)
    (htx : t.netdev.txPackets = s.netdev.txPackets)
    (hdropped : t.netdev.txDropped = s.netdev.txDropped)
    (hrx : t.rxPackets = s.rxPackets + BitVec.ofNat 64 received)
    (hqueued : received + t.receiver.inHand.length + t.queued.card =
      s.receiver.inHand.length + s.queued.card) : Account handed t := by
  have hunc : t.uncounted = s.uncounted := by rw [Device.uncounted, hsenders, Device.uncounted]
  have hpend : t.pending = s.pending := by rw [Device.pending, hsenders, Device.pending]
  have hbalance := hs.balance
  replace hqueued := congrArg (Nat.cast (R := BitVec 64)) hqueued
  simp only [← BitVec.natCast_eq_ofNat] at hbalance hrx
  push_cast at hqueued hbalance
  refine ⟨hfifo, ?_, ?_⟩
  · rw [htx, hunc, hrx, ← BitVec.natCast_eq_ofNat, ← BitVec.natCast_eq_ofNat]
    push_cast
    linear_combination hbalance - hqueued
  · rw [htx, hdropped, hpend]
    exact hs.handed

end Account

lemma ActCase.account {handed : ℕ} (h : ActCase socketId s a t) (hs : Account handed s) :
    Account (handed + a.handed) t := by
  cases h with
  | @send l pkts cnt hl hown =>
    refine hs.of_sender (l := l) 0 0 cnt rfl hs.fifo rfl rfl ?_ ?_ ?_ ?_
    · exact (BitVec.add_zero _).symm
    · exact (BitVec.add_zero _).symm
    · rw [hl]
      rfl
    · rw [hl]
      simp [Sender.pending]
  | @reset l _ pkts cnt i hl hi =>
    refine hs.of_sender (l := l) 0 0 0 rfl hs.fifo rfl rfl ?_ ?_ ?_ ?_
    · exact (BitVec.add_zero _).symm
    · exact (BitVec.add_zero _).symm
    · rw [hl]
      rfl
    · rw [hl]
      simp [Sender.pending]
  | @enqueue l nbEnq pkts cnt i hl hi hring hle =>
    let t := (s.enqueueBurst (socketId l) pkts nbEnq).setSender l (.count pkts cnt nbEnq)
    have hqueued := congrArg Multiset.card (Device.queued_eq (s := s) (t := t) hring rfl rfl)
    refine hs.of_sender (l := l) 0 0 0 rfl ?_ rfl rfl ?_ ?_ ?_ ?_
    · intro k
      show Function.update s.accepted (socketId l) (_ ++ window pkts 0 nbEnq) k =
        s.taken k ++ Function.update s.netdev.subring (socketId l) _ k
      rcases eq_or_ne k (socketId l) with rfl | hkl
      · rw [Function.update_self, Function.update_self, hs.fifo, List.append_assoc]
      · rw [Function.update_of_ne hkl, Function.update_of_ne hkl, hs.fifo]
    · exact (BitVec.add_zero _).symm
    · exact (BitVec.add_zero _).symm
    · simp only [Multiset.card_add, Multiset.coe_card, List.length_append, length_window] at hqueued
      rw [hl]
      show t.queued.card + 0 = s.queued.card + nbEnq + 0
      omega
    · rw [hl]
      simp only [Sender.pending]
      omega
  | @countTx l _ pkts cnt nbEnq hl =>
    refine hs.of_sender (l := l) nbEnq 0 0 rfl hs.fifo rfl rfl rfl ?_ ?_ ?_
    · exact (BitVec.add_zero _).symm
    · rw [hl]
      rfl
    · rw [hl]
      simp only [Sender.pending]
      omega
  | @delete l _ pkts cnt nbEnq i dropped hl hi =>
    refine hs.of_sender (l := l) 0 0 0 rfl hs.fifo rfl rfl ?_ ?_ ?_ ?_
    · exact (BitVec.add_zero _).symm
    · exact (BitVec.add_zero _).symm
    · rw [hl]
      rfl
    · rw [hl]
      simp only [Sender.pending]
      omega
  | @countDropped l _ pkts cnt nbEnq i dropped hl hi =>
    rw [Device.countDropped_eq]
    refine hs.of_sender (l := l) 0 dropped 0 rfl hs.fifo rfl rfl ?_ rfl ?_ ?_
    · exact (BitVec.add_zero _).symm
    · rw [hl]
      rfl
    · rw [hl]
      simp only [Sender.pending]
      omega
  | recv hidle =>
    refine hs.of_receiver 0 (by simp) (by simpa using hs.fifo) (by simp) (by simp) (by simp) ?_
    rw [Device.recv_inHand _ _ hidle, hidle, Device.recv_queued]
    rfl
  | @dequeue i packets hrecv hi =>
    let got := rteRingDequeueBurst (s.netdev.subring i) s.currBurst.toNat
    have hgot : got.1 ++ got.2 = s.netdev.subring i := List.take_append_drop _ _
    have hqueued : (s.dequeueBurst i packets).queued + (s.netdev.subring i : Multiset ℕ) =
        s.queued + (got.2 : Multiset ℕ) := Device.queued_eq hi rfl rfl
    refine hs.of_receiver 0 rfl ?_ rfl rfl ?_ ?_
    · intro k
      show s.accepted k = Function.update s.taken i (s.taken i ++ got.1) k ++
        Function.update s.netdev.subring i got.2 k
      rcases eq_or_ne k i with rfl | hki
      · rw [Function.update_self, Function.update_self, List.append_assoc, hgot, hs.fifo]
      · rw [Function.update_of_ne hki, Function.update_of_ne hki, hs.fifo]
    · exact (BitVec.add_zero _).symm
    · replace hqueued := congrArg Multiset.card hqueued
      have hlength := congrArg List.length hgot
      simp only [Multiset.card_add, Multiset.coe_card, List.length_append] at hqueued hlength
      rw [Device.inHand_dequeueBurst, hrecv, List.length_append]
      show 0 + (packets.length + got.1.length) + _ = packets.length + _
      omega
  | lastRing hrecv =>
    refine hs.of_receiver 0 rfl hs.fifo rfl rfl (BitVec.add_zero _).symm ?_
    rw [hrecv]
    simp [Receiver.inHand, Device.queued]
  | @ret packets hrecv =>
    rw [Device.ret_eq]
    refine hs.of_receiver packets.length rfl hs.fifo rfl rfl rfl ?_
    rw [hrecv]
    rfl
  | write hpkt => exact ⟨hs.fifo, hs.balance, hs.handed⟩
  | setConfig | setMaxBurst | setPollTsc => exact ⟨hs.fifo, hs.balance, hs.handed⟩

/-- No function of the daqring is in progress. -/
def Device.Idle (s : Device nLcores) : Prop := (∀ l, s.senders l = .idle) ∧ s.receiver = .idle

/-- **Accounts.**  After any interleaving, each sub-ring has given out its packets in the order in
which it took them in; and when no call is in progress, the statistics agree with the rings: sent
less received is what is queued, and sent and dropped is what was handed to the daqring. -/
theorem account_of_run {nNuma : ℕ} {tscHz : BitVec 64} {rssHash recircId : ℕ → BitVec 32}
    {outside : Multiset ℕ} {acts : List (Act nLcores)}
    (h : run (actStep M socketId) acts (.created nLcores nNuma tscHz rssHash recircId outside) =
      some t) :
    (∀ i, t.accepted i = t.taken i ++ t.netdev.subring i) ∧
      (t.Idle →
        t.getStats.txPackets - t.getStats.rxPackets = BitVec.ofNat 64 t.queued.card ∧
          t.getStats.txPackets + t.getStats.txDropped =
            BitVec.ofNat 64 (acts.map Act.handed).sum) := by
  have hinit : Account (([] : List (Act nLcores)).map Act.handed).sum
      (.created nLcores nNuma tscHz rssHash recircId outside) := by
    refine ⟨fun _ => rfl, ?_, ?_⟩
    · simp [Device.created, Device.uncounted, Sender.uncounted, Receiver.inHand,
        dpdkDaqringCreate, Device.queued]
    · simp [Device.created, Device.pending, Sender.pending]
  have haccount : Account (acts.map Act.handed).sum t :=
    run_history (I := fun past u => Account (past.map Act.handed).sum u)
      (fun past a _ u v huv hu => by simpa using (actStep_case huv).account hu) h hinit
  refine ⟨haccount.fifo, ?_⟩
  rintro ⟨hsenders, hrecv⟩
  have hunc : t.uncounted = 0 := by simp [Device.uncounted, hsenders, Sender.uncounted]
  have hpend : t.pending = 0 := by simp [Device.pending, hsenders, Sender.pending]
  have hbalance := haccount.balance
  have hhanded := haccount.handed
  rw [hunc, hrecv, BitVec.add_zero, Receiver.inHand, List.length_nil, Nat.zero_add] at hbalance
  rw [hpend, BitVec.add_zero] at hhanded
  refine ⟨?_, hhanded⟩
  show t.netdev.txPackets - t.rxPackets = _
  rw [hbalance, BitVec.add_comm, BitVec.add_sub_cancel]

/-- Two lcores, one sub-ring, and three packets. -/
def Device.threePackets : Device 2 := .created 2 1 0 (fun _ => 7) (fun _ => 0) {1, 2, 3}

/-- The ring takes the first of two packets and the packet of the other lcore, and gives out one:
all functions have returned. -/
def Act.partBurst : List (Act 2) :=
  [.setMaxBurst 1, .send 0 Nat.succ 2, .sender 0 0, .send 1 (fun _ => 3) 1, .sender 1 0,
    .sender 0 0, .sender 0 1, .sender 1 1, .recv 1, .sender 0 0, .receiver, .sender 1 0,
    .sender 0 0, .receiver, .sender 1 0, .sender 0 0]

theorem account_of_run_partBurst :
    ∃ t, run (actStep netdevMaxBurst32 fun _ => 0) Act.partBurst .threePackets = some t ∧
      (∀ i, t.accepted i = t.taken i ++ t.netdev.subring i) ∧ t.taken 0 = [1] ∧
        t.netdev.subring 0 = [3] ∧ t.Idle ∧
          t.getStats.txPackets - t.getStats.rxPackets = BitVec.ofNat 64 t.queued.card ∧
            t.getStats.txPackets + t.getStats.txDropped =
              BitVec.ofNat 64 (Act.partBurst.map Act.handed).sum := by
  obtain ⟨t, hrun, htaken, hqueued, hidle⟩ :
      ∃ t, run (actStep netdevMaxBurst32 fun _ => 0) Act.partBurst .threePackets = some t ∧
        t.taken 0 = [1] ∧ t.netdev.subring 0 = [3] ∧ t.Idle := by
    refine ⟨_, rfl, rfl, rfl, ?_, rfl⟩
    intro l
    fin_cases l
    · rfl
    · rfl
  have haccount := account_of_run hrun
  exact ⟨t, hrun, haccount.1, htaken, hqueued, hidle, haccount.2 hidle⟩

end

end DaqSwitch.Ovs
