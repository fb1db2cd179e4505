import DaqSwitch.VoqSwq.InitSpec

/-!
# Queue ownership

`init_lcores` completes exactly when there are enough lcores, and then every data rx queue
is polled from one place and every ring is drained by one lcore.  `Ready` collects what
the later modules need to know about the initialised `dp`.
-/

namespace DaqSwitch.VoqSwq

open Lib.Machine

/-- Queue entry `j` of entry `k` of the port list of data rx lcore `l` is queue `q` of
port `p`. -/
structure RxEntry (dp : DpParams) (l k j p q : ℕ) : Prop where
  lcore : l ∈ lcoresOf dp .dataRx
  entry : k < (dp.lcores l).nbPorts
  port : ((dp.lcores l).rx k).portId = p
  queue : j < ((dp.lcores l).rx k).nbQueues
  queueId : (((dp.lcores l).rx k).queueList j).queueId = q

/-- Entry `k` of the port list of data tx lcore `l` is port `p`. -/
structure TxEntry (dp : DpParams) (l k p : ℕ) : Prop where
  lcore : l ∈ lcoresOf dp .dataTx
  entry : k < (dp.lcores l).nbPorts
  port : ((dp.lcores l).tx k).portId = p

lemma serves_dataTx_iff {dp : DpParams} {l k p : ℕ} :
    Serves dataTxWriter dp l k p ↔ TxEntry dp l k p :=
  ⟨fun ⟨hl, hk, hp⟩ => ⟨hl, hk, hp⟩, fun ⟨hl, hk, hp⟩ => ⟨hl, hk, hp⟩⟩

/-- The parameters of the lcores when `init_lcores` completes. -/
structure Ready (P : Platform) (dp : DpParams) : Prop where
  rxDist : Distributed (dataRxWriter P.nbPorts) dp P.nbPorts
  txDist : Distributed dataTxWriter dp P.nbPorts
  rxConf : ∀ l ∈ lcoresOf dp .dataRx, ∀ k < (dp.lcores l).nbPorts,
    ((dp.lcores l).rx k).nbQueues = P.nbPorts ∧
      ((dp.lcores l).rx k).queueList = rxQueueList P.nbPorts
  txConf : ∀ l ∈ lcoresOf dp .dataTx, ∀ k < (dp.lcores l).nbPorts,
    ((dp.lcores l).tx k).activeFlows = 0
  bound : ∀ l < dp.nbLcores, (dp.lcores l).nbPorts ≤ dpLcorePortMax
  flows : dp.flows = fun _ _ => default

/-! ## The run of `init_lcores` -/

variable {P : Platform} {dp dp₁ dp₂ dp₃ : DpParams}

/-- The entries that the data rx loop writes. -/
lemma rxConf_of_distribute (hT : Typed P dp₁)
    (h : distributePorts P (dataRxWriter P.nbPorts) dp₁ = some dp₂) :
    ∀ l ∈ lcoresOf dp₂ .dataRx, ∀ k < (dp₂.lcores l).nbPorts,
      ((dp₂.lcores l).rx k).nbQueues = P.nbPorts ∧
        ((dp₂.lcores l).rx k).queueList = rxQueueList P.nbPorts := by
  refine distributePorts_entries (W := dataRxWriter P.nbPorts) (G := fun lp k =>
    (lp.rx k).nbQueues = P.nbPorts ∧ (lp.rx k).queueList = rxQueueList P.nbPorts)
    ?_ ?_ h
  · intro port lp k hk hgood
    by_cases hkn : k = lp.nbPorts
    · subst hkn
      simp [PortWriter.append, dataRxWriter]
    · have hk' : k < lp.nbPorts := by
        rw [PortWriter.append_nbPorts] at hk
        omega
      simpa [PortWriter.append, dataRxWriter, Function.update_of_ne hkn] using hgood k hk'
  · intro l _ k hk
    rw [hT.nbPorts l] at hk
    exact absurd hk (Nat.not_lt_zero k)

/-- The data tx loop leaves the masks of active flows empty. -/
lemma txConf_of_distribute (htx : ∀ l ∈ lcoresOf dp₂ .dataTx, ∀ k, (dp₂.lcores l).tx k = default)
    (h : distributePorts P dataTxWriter dp₂ = some dp₃) :
    ∀ l ∈ lcoresOf dp₃ .dataTx, ∀ k, ((dp₃.lcores l).tx k).activeFlows = 0 := by
  obtain ⟨s, hs, rfl⟩ := Option.map_eq_some_iff.mp h
  refine run_invariant (I := fun s : DpParams × ℕ => ∀ l ∈ lcoresOf s.1 .dataTx,
    ∀ k, ((s.1.lcores l).tx k).activeFlows = 0) ?_ hs fun l hl k => by rw [htx l hl k]; rfl
  rintro port - ⟨dp₁, prev₁⟩ ⟨dp₂, prev₂⟩ hstep hI l hl k
  have hof := (assignPort_same hstep).lcoresOf_eq .dataTx
  obtain ⟨l₀, hl₀, -, rfl, -⟩ := assignPort_some hstep
  simp only [hof] at hl
  by_cases hll : l = l₀
  · subst hll
    simp only [DpParams.setLcore_lcores_self, PortWriter.append, dataTxWriter]
    by_cases hkn : k = (dp₁.lcores l).nbPorts
    · subst hkn
      rw [Function.update_self]
      exact hI l hl _
    · rw [Function.update_of_ne hkn]
      exact hI l hl k
  · simp only [DpParams.setLcore_lcores_of_ne hll]
    exact hI l hl k

lemma typeAt_cases (i : ℕ) : typeAt i = .default ∨ typeAt i = .dataRx ∨ typeAt i = .dataTx := by
  unfold typeAt
  split
  · simp
  · split <;> simp

lemma Typed.nbLcores_pos (hT : Typed P dp₁) : 0 < dp₁.nbLcores := by
  have := hT.nbLcores
  have := hT.three
  omega

/-- The data rx loop, which starts with empty port lists. -/
lemma Typed.dataRx_spec (hT : Typed P dp₁) :
    ((∃ dp₂, distributePorts P (dataRxWriter P.nbPorts) dp₁ = some dp₂) ↔
        P.nbPorts ≤ dpLcorePortMax * (lcoresOf dp₁ .dataRx).card) ∧
      ∀ dp₂, distributePorts P (dataRxWriter P.nbPorts) dp₁ = some dp₂ →
        SameLcores (dataRxWriter P.nbPorts) dp₁ dp₂ ∧
          Distributed (dataRxWriter P.nbPorts) dp₂ P.nbPorts :=
  distributePorts_spec hT.nbLcores_pos fun l _ => hT.nbPorts l

/-- The data tx lcores are still as they were typed when their loop starts. -/
lemma Typed.dataTx_lcores (hT : Typed P dp₁)
    (h₂ : distributePorts P (dataRxWriter P.nbPorts) dp₁ = some dp₂) :
    ∀ l ∈ lcoresOf dp₂ .dataTx, dp₂.lcores l = dp₁.lcores l := by
  intro l hl
  have hsame := (hT.dataRx_spec.2 dp₂ h₂).1
  rw [hsame.lcoresOf_eq] at hl
  exact hsame.other l (by rw [(mem_lcoresOf.mp hl).2]; simp [dataRxWriter])

/-- The data tx loop, which runs after the data rx loop. -/
lemma Typed.dataTx_spec (hT : Typed P dp₁)
    (h₂ : distributePorts P (dataRxWriter P.nbPorts) dp₁ = some dp₂) :
    ((∃ dp₃, distributePorts P dataTxWriter dp₂ = some dp₃) ↔
        P.nbPorts ≤ dpLcorePortMax * (lcoresOf dp₁ .dataTx).card) ∧
      ∀ dp₃, distributePorts P dataTxWriter dp₂ = some dp₃ →
        SameLcores dataTxWriter dp₂ dp₃ ∧ Distributed dataTxWriter dp₃ P.nbPorts := by
  have hsame := (hT.dataRx_spec.2 dp₂ h₂).1
  rw [← hsame.lcoresOf_eq]
  refine distributePorts_spec ?_ ?_
  · rw [hsame.nbLcores]
    exact hT.nbLcores_pos
  · intro l hl
    rw [hT.dataTx_lcores h₂ l hl]
    exact hT.nbPorts l

/-- What both loops establish. -/
lemma Typed.ready (hT : Typed P dp₁) (hflows : dp₁.flows = fun _ _ => default)
    (h₂ : distributePorts P (dataRxWriter P.nbPorts) dp₁ = some dp₂)
    (h₃ : distributePorts P dataTxWriter dp₂ = some dp₃) :
    Ready P dp₃ ∧ dp₃.rings = dp₁.rings := by
  obtain ⟨hsame₂, hD₂⟩ := hT.dataRx_spec.2 dp₂ h₂
  obtain ⟨hsame₃, hD₃⟩ := (hT.dataTx_spec h₂).2 dp₃ h₃
  -- the data tx loop leaves the data rx lcores alone
  have hrxSame : ∀ l ∈ lcoresOf dp₃ .dataRx, dp₃.lcores l = dp₂.lcores l := fun l hl =>
    hsame₃.other l (by rw [← hsame₃.type, (mem_lcoresOf.mp hl).2]; simp [dataTxWriter])
  have hD₂' := hD₂.of_same hsame₃ (by simp [dataRxWriter, dataTxWriter])
  refine ⟨⟨hD₂', hD₃, ?_,
    fun l hl k _ => txConf_of_distribute ?_ h₃ l hl k, ?_, ?_⟩, ?_⟩
  · intro l hl k hk
    have hl₂ := hl
    rw [hsame₃.lcoresOf_eq] at hl₂
    rw [hrxSame l hl] at hk ⊢
    exact rxConf_of_distribute hT h₂ l hl₂ k hk
  · intro l hl k
    rw [hT.dataTx_lcores h₂ l hl]
    exact hT.tx l k
  · intro l hl
    have hl₁ : l < dp₁.nbLcores := by rwa [hsame₃.nbLcores, hsame₂.nbLcores] at hl
    have hty : (dp₃.lcores l).type = typeAt l := by
      rw [hsame₃.type, hsame₂.type, hT.type l hl₁]
    rcases typeAt_cases l with h | h | h
    · -- neither loop touches the default lcore
      rw [hsame₃.other l (by rw [hsame₂.type, hT.type l hl₁, h]; simp [dataTxWriter]),
        hsame₂.other l (by rw [hT.type l hl₁, h]; simp [dataRxWriter]), hT.nbPorts l]
      exact Nat.zero_le _
    · exact hD₂'.cap l (mem_lcoresOf.mpr ⟨hl, hty.trans h⟩)
    · exact hD₃.cap l (mem_lcoresOf.mpr ⟨hl, hty.trans h⟩)
  · rw [hsame₃.flows, hsame₂.flows, hflows]
  · rw [hsame₃.rings, hsame₂.rings]

/-- `init_lcores` after the types are assigned: it completes exactly when the ports fit
into the port lists of both types of data lcores. -/
lemma initLcoresData_spec (hT : Typed P dp₁) (hflows : dp₁.flows = fun _ _ => default) :
    ((∃ dp, (initLcoresDataRx P dp₁).bind (initLcoresDataTx P) = some dp) ↔
        P.nbPorts ≤ dpLcorePortMax * nbLcoresOfType dp₁ .dataRx ∧
          P.nbPorts ≤ dpLcorePortMax * nbLcoresOfType dp₁ .dataTx) ∧
      ∀ dp, (initLcoresDataRx P dp₁).bind (initLcoresDataTx P) = some dp →
        Ready P dp ∧ dp.rings = dp₁.rings := by
  have hrxq : P.nbPorts ≤ P.dpPortRxqMax := P.nbPorts_le.trans (Nat.le_succ _)
  simp only [initLcoresDataRx, initLcoresDataTx, if_pos hrxq, Option.bind_eq_some_iff,
    nbLcoresOfType_eq_card]
  refine ⟨⟨?_, ?_⟩, ?_⟩
  · rintro ⟨dp, dp₂, h₂, h₃⟩
    exact ⟨hT.dataRx_spec.1.mp ⟨dp₂, h₂⟩, (hT.dataTx_spec h₂).1.mp ⟨dp, h₃⟩⟩
  · rintro ⟨hr, ht⟩
    obtain ⟨dp₂, h₂⟩ := hT.dataRx_spec.1.mpr hr
    obtain ⟨dp, h₃⟩ := (hT.dataTx_spec h₂).1.mpr ht
    exact ⟨dp, dp₂, h₂, h₃⟩
  · rintro dp ⟨dp₂, h₂, h₃⟩
    exact hT.ready hflows h₂ h₃

/-- `init_lcores` from zeroed lcores. -/
lemma initLcores_spec (P : Platform) (rings : ℕ → ℕ → Option RteRing) :
    ((∃ dp, initLcores P (DpParams.zeroed rings) = some dp) ↔
        3 ≤ P.slaves.length ∧ P.nbPorts ≤ dpLcorePortMax * P.nbDataRx ∧
          P.nbPorts ≤ dpLcorePortMax * P.nbDataTx) ∧
      ∀ dp, initLcores P (DpParams.zeroed rings) = some dp → Ready P dp ∧ dp.rings = rings := by
  obtain ⟨htypes, htyped⟩ := typeLcores_spec P rings
  -- from typed lcores on
  have hdata : ∀ dp₁, typeLcores P (DpParams.zeroed rings) = some dp₁ →
      ((∃ dp, (initLcoresDataRx P dp₁).bind (initLcoresDataTx P) = some dp) ↔
        P.nbPorts ≤ dpLcorePortMax * P.nbDataRx ∧ P.nbPorts ≤ dpLcorePortMax * P.nbDataTx) ∧
      ∀ dp, (initLcoresDataRx P dp₁).bind (initLcoresDataTx P) = some dp →
        Ready P dp ∧ dp.rings = dp₁.rings := by
    intro dp₁ h₁
    obtain ⟨hT, -, hflows⟩ := htyped dp₁ h₁
    rw [← hT.nbLcoresOfType_eq.1, ← hT.nbLcoresOfType_eq.2]
    exact initLcoresData_spec hT hflows
  simp only [initLcores, Option.bind_eq_some_iff] at hdata ⊢
  constructor
  · constructor
    · rintro ⟨dp, dp₁, h₁, h⟩
      exact ⟨(htyped dp₁ h₁).1.three, (hdata dp₁ h₁).1.mp ⟨dp, h⟩⟩
    · rintro ⟨h3, hfit⟩
      obtain ⟨dp₁, h₁⟩ := htypes h3
      obtain ⟨dp, hdp⟩ := (hdata dp₁ h₁).1.mpr hfit
      exact ⟨dp, dp₁, h₁, hdp⟩
  · rintro dp ⟨dp₁, h₁, h⟩
    obtain ⟨hready, hrings⟩ := (hdata dp₁ h₁).2 dp h
    exact ⟨hready, hrings.trans (htyped dp₁ h₁).2.1⟩

/-- `dp_init`: the lcores are ready and the rings that `init_rings` creates are there. -/
lemma dpInit_spec (h : dpInit P = some dp) :
    Ready P dp ∧ ∀ i j, dp.rings i j =
      if i < P.nbPorts ∧ j < dpPortMaxDataFlows - 1 then some ⟨i, j⟩ else none := by
  obtain ⟨dp₀, h₀, h₁⟩ := Option.bind_eq_some_iff.mp h
  rw [initRings] at h₀
  split at h₀
  · rw [Option.some_inj] at h₀
    obtain ⟨hready, hrings⟩ := (initLcores_spec P dp₀.rings).2 dp (by subst h₀; exact h₁)
    refine ⟨hready, ?_⟩
    intro i j
    rw [hrings, ← h₀]
    rfl
  · cases h₀

/-! ## Who serves what -/

namespace Ready

variable (hR : Ready P dp)

include hR

lemma rxEntry_iff {l k j p q : ℕ} : RxEntry dp l k j p q ↔
    Serves (dataRxWriter P.nbPorts) dp l k p ∧ j < P.nbPorts ∧ q = dpPortRxqIdDataMin + j := by
  constructor
  · rintro ⟨hl, hk, hp, hj, hq⟩
    obtain ⟨hnb, hlist⟩ := hR.rxConf l hl k hk
    rw [hnb] at hj
    rw [hlist, rxQueueList, if_pos hj] at hq
    exact ⟨⟨hl, hk, hp⟩, hj, hq.symm⟩
  · rintro ⟨⟨hl, hk, hp⟩, hj, rfl⟩
    obtain ⟨hnb, hlist⟩ := hR.rxConf l hl k hk
    exact ⟨hl, hk, hp, by rwa [hnb], by rw [hlist, rxQueueList, if_pos hj]⟩

/-- The output port of an rx queue is the number of the queue among the data queues. -/
lemma outPortId_eq {l k j p q : ℕ} (h : RxEntry dp l k j p q) :
    (((dp.lcores l).rx k).queueList j).outPortId = j := by
  obtain ⟨⟨hl, hk, -⟩, hj, -⟩ := hR.rxEntry_iff.mp h
  rw [(hR.rxConf l hl k hk).2, rxQueueList, if_pos hj]

lemma rxEntry_unique {l k j p l' k' j' q : ℕ} (h : RxEntry dp l k j p q)
    (h' : RxEntry dp l' k' j' p q) : l = l' ∧ k = k' ∧ j = j' := by
  obtain ⟨hs, -, hj⟩ := hR.rxEntry_iff.mp h
  obtain ⟨hs', -, hj'⟩ := hR.rxEntry_iff.mp h'
  obtain ⟨hl, hk⟩ := hR.rxDist.unique _ _ _ _ _ hs hs'
  exact ⟨hl, hk, by omega⟩

lemma exists_rxEntry {p o : ℕ} (hp : p < P.nbPorts) (ho : o < P.nbPorts) :
    ∃ l k, RxEntry dp l k o p (dpPortRxqIdDataMin + o) := by
  obtain ⟨l, k, hs⟩ := hR.rxDist.exists_serves p hp
  exact ⟨l, k, hR.rxEntry_iff.mpr ⟨hs, ho, rfl⟩⟩

lemma txEntry_unique {l k l' k' p : ℕ} (h : TxEntry dp l k p) (h' : TxEntry dp l' k' p) :
    l = l' ∧ k = k' :=
  hR.txDist.unique _ _ _ _ _ (serves_dataTx_iff.mpr h) (serves_dataTx_iff.mpr h')

lemma exists_txEntry {p : ℕ} (hp : p < P.nbPorts) : ∃ l k, TxEntry dp l k p := by
  obtain ⟨l, k, hs⟩ := hR.txDist.exists_serves p hp
  exact ⟨l, k, serves_dataTx_iff.mp hs⟩

end Ready

/-- Every data rx queue is polled from one place, for the output port of its number, every
port is drained from one place, and no port list is overrun. -/
structure QueueOwnership (P : Platform) (dp : DpParams) : Prop where
  rxQueue : ∀ p < P.nbPorts, ∀ o < P.nbPorts,
    ∃! e : ℕ × ℕ × ℕ, RxEntry dp e.1 e.2.1 e.2.2 p (dpPortRxqIdDataMin + o)
  outPort : ∀ p < P.nbPorts, ∀ o < P.nbPorts, ∀ l k j,
    RxEntry dp l k j p (dpPortRxqIdDataMin + o) →
      (((dp.lcores l).rx k).queueList j).outPortId = o
  txPort : ∀ p < P.nbPorts, ∃! e : ℕ × ℕ, TxEntry dp e.1 e.2 p
  consumer : ∀ p < P.nbPorts, ∃! l, ∃ k, TxEntry dp l k p
  bound : ∀ l < dp.nbLcores, ∀ k < (dp.lcores l).nbPorts, k < dpLcorePortMax

lemma Ready.queueOwnership (hR : Ready P dp) : QueueOwnership P dp where
  rxQueue p hp o ho := by
    obtain ⟨l, k, h⟩ := hR.exists_rxEntry hp ho
    refine ⟨(l, k, o), h, ?_⟩
    rintro ⟨l', k', j'⟩ h'
    obtain ⟨rfl, rfl, rfl⟩ := hR.rxEntry_unique h h'
    rfl
  outPort p _ o _ l k j h := by
    obtain ⟨-, -, hq⟩ := hR.rxEntry_iff.mp h
    rw [hR.outPortId_eq h]
    omega
  txPort p hp := by
    obtain ⟨l, k, h⟩ := hR.exists_txEntry hp
    refine ⟨(l, k), h, ?_⟩
    rintro ⟨l', k'⟩ h'
    obtain ⟨rfl, rfl⟩ := hR.txEntry_unique h h'
    rfl
  consumer p hp := by
    obtain ⟨l, k, h⟩ := hR.exists_txEntry hp
    exact ⟨l, ⟨k, h⟩, fun l' ⟨k', h'⟩ => (hR.txEntry_unique h' h).1⟩
  bound l hl k hk := hk.trans_le (hR.bound l hl)

/-- **Initialisation of the lcores.**  `init_lcores` completes exactly when there are at
least three worker lcores and the ports fit, sixteen to an lcore, both on the data rx and
on the data tx lcores; then every queue has one owner. -/
theorem initLcores_queueOwnership (P : Platform) (rings : ℕ → ℕ → Option RteRing) :
    ((∃ dp, initLcores P (DpParams.zeroed rings) = some dp) ↔
        3 ≤ P.slaves.length ∧ P.nbPorts ≤ 16 * P.nbDataRx ∧ P.nbPorts ≤ 16 * P.nbDataTx) ∧
      (∀ dp, typeLcores P (DpParams.zeroed rings) = some dp →
        nbLcoresOfType dp .dataRx = P.nbDataRx ∧ nbLcoresOfType dp .dataTx = P.nbDataTx) ∧
      ∀ dp, initLcores P (DpParams.zeroed rings) = some dp → QueueOwnership P dp := by
  obtain ⟨hiff, hready⟩ := initLcores_spec P rings
  refine ⟨hiff, ?_, fun dp hdp => (hready dp hdp).1.queueOwnership⟩
  intro dp hdp
  exact ((typeLcores_spec P rings).2 dp hdp).1.nbLcoresOfType_eq

/-! ## The smallest machine -/

/-- Three worker lcores on one socket, and two ports. -/
def Platform.small : Platform where
  slaves := [1, 2, 3]
  lcoreSocket _ := 0
  portSocket _ := 0
  devCount := 2
  rteMaxEthports := 32
  ringCreate _ _ := true

lemma dpInit_small_isSome : (dpInit Platform.small).isSome := by decide +kernel

/-- Its data path after initialisation. -/
def dpSmall : DpParams := (dpInit Platform.small).get dpInit_small_isSome

lemma dpInit_small : dpInit Platform.small = some dpSmall := (Option.some_get _).symm

end DaqSwitch.VoqSwq
