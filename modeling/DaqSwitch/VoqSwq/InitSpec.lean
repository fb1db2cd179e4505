import DaqSwitch.VoqSwq.Init

/-!
# What the initialisation establishes

The types of the lcores, when the distribution of the ports succeeds, and who serves
which port afterwards.
-/

namespace DaqSwitch.VoqSwq

open Lib.Machine Lib.CyclicScan

/-! ## Lcores of a type -/

/-- The lcores of a type, by their position in `dp.lcores`. -/
def lcoresOf (dp : DpParams) (type : DpLcoreType) : Finset ℕ :=
  (Finset.range dp.nbLcores).filter fun l => (dp.lcores l).type = type

lemma mem_lcoresOf {dp : DpParams} {type : DpLcoreType} {l : ℕ} :
    l ∈ lcoresOf dp type ↔ l < dp.nbLcores ∧ (dp.lcores l).type = type := by
  simp [lcoresOf]

lemma nbLcoresOfType_eq_card (dp : DpParams) (type : DpLcoreType) :
    nbLcoresOfType dp type = (lcoresOf dp type).card := by
  have hnd : ((List.range dp.nbLcores).filter fun i => (dp.lcores i).type = type).Nodup :=
    List.nodup_range.filter _
  rw [nbLcoresOfType, ← List.toFinset_card_of_nodup hnd]
  congr 1
  ext l
  simp [lcoresOf]

/-! ## The types -/

/-- Type of the lcore at position `i` after `init_lcores`. -/
def typeAt (i : ℕ) : DpLcoreType :=
  if i = 0 then .default else if i % 2 = 1 then .dataRx else .dataTx

/-- The numbers of data rx and data tx lcores among the first `n` lcores. -/
lemma length_filter_typeAt (n : ℕ) :
    ((List.range n).filter fun i => typeAt i = .dataRx).length = n / 2 ∧
      ((List.range n).filter fun i => typeAt i = .dataTx).length = (n - 1) / 2 := by
  induction n with
  | zero => exact ⟨rfl, rfl⟩
  | succ n ih =>
    simp only [List.range_succ, List.filter_append, List.length_append, ih.1, ih.2]
    rcases Nat.eq_zero_or_pos n with rfl | hpos
    · exact ⟨rfl, rfl⟩
    · rcases Nat.mod_two_eq_zero_or_one n with h | h <;>
        simp only [List.filter_singleton, typeAt, h, hpos.ne'] <;> simp <;> omega

lemma setDataTypes_of_le {nb fuel i : ℕ} (h : nb ≤ i) (lcores : ℕ → DpLcoreParams) :
    setDataTypes nb fuel i lcores = lcores := by
  cases fuel with
  | zero => rfl
  | succ fuel => rw [setDataTypes, if_neg (by omega)]

/-- From an odd index on, the loop alternates between the two data types. -/
lemma setDataTypes_odd {nb : ℕ} (fuel : ℕ) : ∀ (i : ℕ) (lcores : ℕ → DpLcoreParams),
    nb ≤ i + fuel → i % 2 = 1 → (∀ j, i ≤ j → j < nb → (lcores j).type = .unused) →
    setDataTypes nb fuel i lcores = fun j =>
      if i ≤ j ∧ j < nb then (lcores j).setType (typeAt j) else lcores j := by
  -- a pair of lcores takes one unit of fuel for two steps of `i`
  induction fuel using Nat.strong_induction_on with
  | _ fuel ih =>
    intro i lcores hfuel hi hunused
    by_cases hnb : nb ≤ i
    · rw [setDataTypes_of_le hnb]
      funext j
      rw [if_neg (by omega)]
    · obtain ⟨fuel, rfl⟩ : ∃ f, fuel = f + 1 := ⟨fuel - 1, by omega⟩
      rw [setDataTypes, if_pos (by omega), if_neg (by simp [hunused i le_rfl (by omega)])]
      by_cases hnb' : i + 1 < nb
      · simp only [if_pos hnb']
        rw [ih fuel (by omega) (i + 2) _ (by omega) (by omega) ?_]
        · funext j
          by_cases hj : j = i
          · subst hj
            have h2 : j ≤ j ∧ j < nb := by omega
            simp [h2, typeAt, hi, show j ≠ 0 by omega]
          · by_cases hj' : j = i + 1
            · subst hj'
              have h1 : ¬ (i + 2 ≤ i + 1 ∧ i + 1 < nb) := by omega
              have h2 : i ≤ i + 1 ∧ i + 1 < nb := by omega
              simp [h2, typeAt, show (i + 1) % 2 = 0 by omega]
            · rw [Function.update_of_ne hj', Function.update_of_ne hj]
              by_cases hij : i ≤ j ∧ j < nb
              · rw [if_pos (by omega), if_pos hij]
              · rw [if_neg (by omega), if_neg hij]
        · intro j hij hj
          rw [Function.update_of_ne (by omega), Function.update_of_ne (by omega)]
          exact hunused j (by omega) hj
      · -- the number of lcores is even: the last pair has no data tx lcore
        simp only [if_neg hnb']
        rw [setDataTypes_of_le (by omega)]
        funext j
        by_cases hj : j = i
        · subst hj
          have h2 : j ≤ j ∧ j < nb := by omega
          simp [h2, typeAt, hi, show j ≠ 0 by omega]
        · rw [Function.update_of_ne hj, if_neg (by omega)]

/-- What `init_lcores` knows before it distributes the ports. -/
structure Typed (P : Platform) (dp : DpParams) : Prop where
  nbLcores : dp.nbLcores = P.slaves.length
  three : 3 ≤ P.slaves.length
  type : ∀ l < dp.nbLcores, (dp.lcores l).type = typeAt l
  nbPorts : ∀ l, (dp.lcores l).nbPorts = 0
  tx : ∀ l k, (dp.lcores l).tx k = default

/-- Number of data rx lcores of a machine with three or more worker lcores. -/
def Platform.nbDataRx (P : Platform) : ℕ := P.slaves.length / 2

/-- Number of its data tx lcores. -/
def Platform.nbDataTx (P : Platform) : ℕ := (P.slaves.length - 1) / 2

lemma Typed.nbLcoresOfType_eq {P : Platform} {dp : DpParams} (hT : Typed P dp) :
    nbLcoresOfType dp .dataRx = P.nbDataRx ∧ nbLcoresOfType dp .dataTx = P.nbDataTx := by
  have hcount (type : DpLcoreType) : nbLcoresOfType dp type =
      ((List.range P.slaves.length).filter fun i => typeAt i = type).length := by
    rw [nbLcoresOfType, hT.nbLcores]
    refine congrArg List.length (List.filter_congr ?_)
    intro i hi
    rw [hT.type i (by rw [hT.nbLcores]; exact List.mem_range.mp hi)]
  rw [hcount, hcount]
  exact length_filter_typeAt P.slaves.length

/-- The lcores as the first loop of `init_lcores` leaves them. -/
lemma foldl_registerLcore (ids : List ℕ) (dp : DpParams)
    (hdp : ∀ l, (dp.lcores l).type = .unused ∧ (dp.lcores l).nbPorts = 0 ∧
      ∀ k, (dp.lcores l).tx k = default) :
    (ids.foldl registerLcore dp).nbLcores = dp.nbLcores + ids.length ∧
      (ids.foldl registerLcore dp).rings = dp.rings ∧
      (ids.foldl registerLcore dp).flows = dp.flows ∧
      ∀ l, ((ids.foldl registerLcore dp).lcores l).type = .unused ∧
        ((ids.foldl registerLcore dp).lcores l).nbPorts = 0 ∧
        ∀ k, ((ids.foldl registerLcore dp).lcores l).tx k = default := by
  induction ids generalizing dp with
  | nil => exact ⟨rfl, rfl, rfl, hdp⟩
  | cons id ids ih =>
    have h := ih (registerLcore dp id) (by
      intro l
      by_cases hl : l = dp.nbLcores
      · subst hl
        simp only [registerLcore, DpParams.setLcore_lcores_self]
        exact ⟨trivial, trivial, (hdp _).2.2⟩
      · simp only [registerLcore, DpParams.setLcore_lcores_of_ne hl]
        exact hdp l)
    refine ⟨?_, h.2.1, h.2.2.1, h.2.2.2⟩
    rw [List.foldl_cons, h.1]
    simp only [registerLcore, List.length_cons]
    omega

/-- The lcores once the default lcore has its type. -/
lemma initLcoreDefault_spec {dp : DpParams} (hunused : ∀ l, (dp.lcores l).type = .unused) :
    initLcoreDefault dp = if 1 ≤ dp.nbLcores then
      some (dp.setLcore dpLcoreIdDefault ((dp.lcores dpLcoreIdDefault).setType .default))
      else none := by
  rw [initLcoreDefault]
  simp [hunused]

lemma nbLcoresOfType_unused {dp : DpParams} (hdp : ∀ l, (dp.lcores l).type = .unused) :
    nbLcoresOfType (dp.setLcore dpLcoreIdDefault
      ((dp.lcores dpLcoreIdDefault).setType .default)) .unused = dp.nbLcores - 1 := by
  rw [nbLcoresOfType_eq_card, ← Nat.card_Ico 1 dp.nbLcores]
  congr 1
  ext l
  rw [mem_lcoresOf, Finset.mem_Ico, DpParams.setLcore_nbLcores]
  by_cases hl : l = dpLcoreIdDefault
  · subst hl
    simp [dpLcoreIdDefault]
  · rw [DpParams.setLcore_lcores_of_ne hl]
    have : l ≠ 0 := hl
    simp only [hdp, and_true]
    omega

/-- The third loop of `init_lcores` after the default lcore has its type. -/
lemma setDataTypes_default {dp : DpParams} (hnb : 1 ≤ dp.nbLcores)
    (hdp : ∀ l, (dp.lcores l).type = .unused) :
    setDataTypes dp.nbLcores dp.nbLcores 0 (dp.setLcore dpLcoreIdDefault
      ((dp.lcores dpLcoreIdDefault).setType .default)).lcores = fun l =>
      if l < dp.nbLcores then (dp.lcores l).setType (typeAt l) else dp.lcores l := by
  obtain ⟨n, hn⟩ : ∃ n, dp.nbLcores = n + 1 := ⟨dp.nbLcores - 1, by omega⟩
  have hne : ∀ l, l ≠ 0 → (dp.setLcore dpLcoreIdDefault
      ((dp.lcores dpLcoreIdDefault).setType .default)).lcores l = dp.lcores l :=
    fun l hl => DpParams.setLcore_lcores_of_ne hl ..
  have hself : (dp.setLcore dpLcoreIdDefault
      ((dp.lcores dpLcoreIdDefault).setType .default)).lcores 0
      = (dp.lcores 0).setType .default := DpParams.setLcore_lcores_self ..
  -- the loop passes over the default lcore and pairs the lcores from index 1 on
  rw [hn, setDataTypes, if_pos (by omega), if_pos (by rw [hself]; simp),
    setDataTypes_odd n (0 + 1) _ (by omega) rfl
      (fun j hj _ => by rw [hne j (by omega)]; exact hdp j)]
  funext l
  by_cases hl : l = 0
  · subst hl
    rw [if_neg (by omega), if_pos (by omega), hself]
    rfl
  · rw [hne l hl]
    by_cases hl' : l < n + 1
    · rw [if_pos (by omega), if_pos hl']
    · rw [if_neg (by omega), if_neg hl']

/-- `init_lcores` reaches the distribution of the ports when there are at least three
worker lcores, and then the types alternate. -/
lemma typeLcores_spec (P : Platform) (rings : ℕ → ℕ → Option RteRing) :
    (3 ≤ P.slaves.length → ∃ dp, typeLcores P (DpParams.zeroed rings) = some dp) ∧
      ∀ dp, typeLcores P (DpParams.zeroed rings) = some dp →
        Typed P dp ∧ dp.rings = rings ∧ dp.flows = fun _ _ => default := by
  obtain ⟨hnb, hrings, hflows, hlcores⟩ := foldl_registerLcore P.slaves
    (DpParams.zeroed rings) fun l => ⟨rfl, rfl, fun _ => rfl⟩
  unfold typeLcores
  have hnb' : (P.slaves.foldl registerLcore (DpParams.zeroed rings)).nbLcores
      = P.slaves.length := by
    rw [hnb]
    exact Nat.zero_add _
  generalize P.slaves.foldl registerLcore (DpParams.zeroed rings) = dp₁ at *
  have hfree := nbLcoresOfType_unused fun l => (hlcores l).1
  rw [initLcoreDefault_spec fun l => (hlcores l).1, hnb']
  constructor
  · intro h3
    rw [if_pos (by omega), Option.bind_some, hfree, if_pos (by omega)]
    exact ⟨_, rfl⟩
  · intro dp hdp
    by_cases h1 : 1 ≤ P.slaves.length
    · rw [if_pos h1, Option.bind_some, hfree, hnb'] at hdp
      by_cases h2 : 2 ≤ P.slaves.length - 1
      · rw [if_pos h2, Option.some_inj] at hdp
        subst hdp
        have hset := setDataTypes_default (by omega) fun l => (hlcores l).1
        refine ⟨⟨hnb', by omega, ?_, ?_, ?_⟩, hrings, hflows⟩ <;>
          simp only [DpParams.setLcore_nbLcores, hset]
        · intro l hl
          rw [if_pos (show l < dp₁.nbLcores from hl), DpLcoreParams.setType_type]
        · intro l
          split
          · exact (hlcores l).2.1
          · exact (hlcores l).2.1
        · intro l k
          split
          · exact (hlcores l).2.2 k
          · exact (hlcores l).2.2 k
      · rw [if_neg h2] at hdp
        cases hdp
    · rw [if_neg h1] at hdp
      cases hdp

/-! ## The numbers of the lcores -/

/-- The first loop leaves the lcores alone that it has registered before. -/
lemma foldl_registerLcore_of_lt (ids : List ℕ) {dp : DpParams} {l : ℕ} (hl : l < dp.nbLcores) :
    (ids.foldl registerLcore dp).lcores l = dp.lcores l := by
  induction ids generalizing dp with
  | nil => rfl
  | cons id ids ih =>
    rw [List.foldl_cons, ih (Nat.lt_succ_of_lt hl)]
    exact DpParams.setLcore_lcores_of_ne hl.ne ..

/-- It numbers the lcores in their order. -/
lemma foldl_registerLcore_id (ids : List ℕ) (dp : DpParams) {k id : ℕ} (hk : ids[k]? = some id) :
    ((ids.foldl registerLcore dp).lcores (dp.nbLcores + k)).id = id := by
  induction ids generalizing dp k with
  | nil => cases hk
  | cons id' ids ih =>
    rw [List.foldl_cons]
    cases k with
    | zero =>
      obtain rfl := Option.some_inj.mp hk
      rw [Nat.add_zero, foldl_registerLcore_of_lt ids (Nat.lt_succ_self _)]
      simp only [registerLcore, DpParams.setLcore_lcores_self]
    | succ k =>
      have h := ih (registerLcore dp id') hk
      rwa [show (registerLcore dp id').nbLcores + k = dp.nbLcores + (k + 1) from
        Nat.succ_add_eq_add_succ _ _] at h

lemma setDataTypes_id (nb fuel i : ℕ) (lcores : ℕ → DpLcoreParams) (l : ℕ) :
    (setDataTypes nb fuel i lcores l).id = (lcores l).id := by
  have hset (lcores : ℕ → DpLcoreParams) (i : ℕ) (type : DpLcoreType) (l : ℕ) :
      (Function.update lcores i ((lcores i).setType type) l).id = (lcores l).id :=
    apply_update_eq DpLcoreParams.id (by rfl) l
  induction fuel generalizing i lcores with
  | zero => rfl
  | succ fuel ih =>
    rw [setDataTypes]
    split
    · split
      · exact ih ..
      · simp only
        split <;> simp only [ih, hset]
    · rfl

/-- The lcores have the numbers of the worker lcores, in their order. -/
lemma typeLcores_id {P : Platform} {rings : ℕ → ℕ → Option RteRing} {dp : DpParams}
    (h : typeLcores P (DpParams.zeroed rings) = some dp) {l id : ℕ} (hl : P.slaves[l]? = some id) :
    (dp.lcores l).id = id := by
  obtain ⟨dp₁, h₁, h₂⟩ := Option.bind_eq_some_iff.mp h
  rw [initLcoreDefault, Option.ite_none_right_eq_some, Option.some_inj] at h₁
  rw [Option.ite_none_right_eq_some, Option.some_inj] at h₂
  obtain ⟨-, rfl⟩ := h₁
  obtain ⟨-, rfl⟩ := h₂
  have hid := foldl_registerLcore_id P.slaves (DpParams.zeroed rings) hl
  rw [show (DpParams.zeroed rings).nbLcores = 0 from rfl, Nat.zero_add] at hid
  rw [setDataTypes_id]
  exact (DpParams.setLcore_keeps DpLcoreParams.id (by rfl) l).trans hid

/-! ## The distribution of the ports -/

/-- Entry `k` of the port list of lcore `l`, a lcore of the writer's type, is port `p`. -/
structure Serves (W : PortWriter) (dp : DpParams) (l k p : ℕ) : Prop where
  lcore : l ∈ lcoresOf dp W.type
  entry : k < (dp.lcores l).nbPorts
  port : W.portId (dp.lcores l) k = p

/-- The ports below `m` are distributed: each is in one port list, once, and no list is
longer than its array. -/
structure Distributed (W : PortWriter) (dp : DpParams) (m : ℕ) : Prop where
  cap : ∀ l ∈ lcoresOf dp W.type, (dp.lcores l).nbPorts ≤ dpLcorePortMax
  lt : ∀ l k p, Serves W dp l k p → p < m
  exists_serves : ∀ p < m, ∃ l k, Serves W dp l k p
  unique : ∀ l k l' k' p, Serves W dp l k p → Serves W dp l' k' p → l = l' ∧ k = k'
  total : ∑ l ∈ lcoresOf dp W.type, (dp.lcores l).nbPorts = m

/-- What the distribution leaves alone. -/
structure SameLcores (W : PortWriter) (dp dp' : DpParams) : Prop where
  nbLcores : dp'.nbLcores = dp.nbLcores
  rings : dp'.rings = dp.rings
  flows : dp'.flows = dp.flows
  id : ∀ l, (dp'.lcores l).id = (dp.lcores l).id
  type : ∀ l, (dp'.lcores l).type = (dp.lcores l).type
  other : ∀ l, (dp.lcores l).type ≠ W.type → dp'.lcores l = dp.lcores l

lemma SameLcores.refl (W : PortWriter) (dp : DpParams) : SameLcores W dp dp :=
  ⟨rfl, rfl, rfl, fun _ => rfl, fun _ => rfl, fun _ _ => rfl⟩

lemma SameLcores.trans {W : PortWriter} {dp dp' dp'' : DpParams} (h : SameLcores W dp dp')
    (h' : SameLcores W dp' dp'') : SameLcores W dp dp'' where
  nbLcores := h'.nbLcores.trans h.nbLcores
  rings := h'.rings.trans h.rings
  flows := h'.flows.trans h.flows
  id l := (h'.id l).trans (h.id l)
  type l := (h'.type l).trans (h.type l)
  other l hl := (h'.other l (by rw [h.type l]; exact hl)).trans (h.other l hl)

lemma SameLcores.lcoresOf_eq {W : PortWriter} {dp dp' : DpParams} (h : SameLcores W dp dp')
    (type : DpLcoreType) : lcoresOf dp' type = lcoresOf dp type := by
  ext l
  rw [mem_lcoresOf, mem_lcoresOf, h.nbLcores, h.type]

/-- The lcore that a round appends `port` to. -/
def PortWriter.append (W : PortWriter) (port : ℕ) (lp : DpLcoreParams) : DpLcoreParams :=
  { W.write port lp with nbPorts := (W.write port lp).nbPorts + 1 }

section Append

variable (W : PortWriter) (port : ℕ) (lp : DpLcoreParams)

@[simp] lemma PortWriter.append_id : (W.append port lp).id = lp.id := W.write_id port lp

@[simp] lemma PortWriter.append_type : (W.append port lp).type = lp.type := W.write_type port lp

@[simp] lemma PortWriter.append_nbPorts : (W.append port lp).nbPorts = lp.nbPorts + 1 := by
  rw [append, W.write_nbPorts]

lemma PortWriter.portId_append (k : ℕ) :
    W.portId (W.append port lp) k = if k = lp.nbPorts then port else W.portId lp k := by
  rw [append, W.portId_nbPorts, W.portId_write]

end Append

variable {P : Platform} {W : PortWriter} {dp dp' : DpParams} {m prev prev' port : ℕ}

lemma internalId_of_mem {l : ℕ} (hl : l < dp.nbLcores) :
    ∃ k, internalId dp (dp.lcores l).id = some k := by
  rw [← Option.isSome_iff_exists, internalId, List.find?_isSome]
  exact ⟨l, List.mem_range.mpr hl, by simp⟩

/-- A round ends on an lcore of the right type that has room. -/
lemma assignPort_some (h : assignPort P W port (dp, prev) = some (dp', prev')) :
    ∃ l ∈ lcoresOf dp W.type, (dp.lcores l).nbPorts < dpLcorePortMax ∧
      dp' = dp.setLcore l (W.append port (dp.lcores l)) ∧ prev' = (dp.lcores l).id := by
  simp only [assignPort, Option.map_eq_some_iff, Prod.mk.injEq] at h
  obtain ⟨l, hl, rfl, rfl⟩ := h
  refine ⟨l, ?_⟩
  have hcand : l < dp.nbLcores ∧ ∃ numaOk,
      candidate P dp W.type (P.portSocket port) numaOk l = true := by
    simp only [getNextLcore, Option.join_eq_some_iff, Option.map_eq_some_iff,
      Option.or_eq_some_iff] at hl
    -- found by the pass that asks for the socket, or by the one that does not
    obtain ⟨k, -, hl | ⟨-, hl⟩⟩ := hl
    · exact ⟨(scan_some hl).1, true, (scan_some hl).2⟩
    · exact ⟨(scan_some hl).1, false, (scan_some hl).2⟩
  obtain ⟨hlt, numaOk, hc⟩ := hcand
  simp only [candidate, Bool.and_eq_true, beq_iff_eq, decide_eq_true_eq] at hc
  exact ⟨mem_lcoresOf.mpr ⟨hlt, hc.1.1⟩, hc.1.2, rfl, W.write_id _ _⟩

/-- A round finds an lcore whenever one of the right type has room. -/
lemma assignPort_isSome (hprev : ∃ l < dp.nbLcores, (dp.lcores l).id = prev)
    (hroom : ∃ l ∈ lcoresOf dp W.type, (dp.lcores l).nbPorts < dpLcorePortMax) :
    ∃ s, assignPort P W port (dp, prev) = some s := by
  obtain ⟨l₀, hl₀, rfl⟩ := hprev
  obtain ⟨l, hl, hlt⟩ := hroom
  obtain ⟨k, hk⟩ := internalId_of_mem hl₀
  have hscan : scan dp.nbLcores k (candidate P dp W.type (P.portSocket port) false) ≠ none := by
    intro hnone
    have := scan_eq_none_iff.mp hnone l (mem_lcoresOf.mp hl).1
    simp [candidate, (mem_lcoresOf.mp hl).2, hlt] at this
  obtain ⟨l', hl'⟩ := Option.ne_none_iff_exists'.mp hscan
  have hsome : ∃ l'', (getNextLcore P dp (dp.lcores l₀).id W.type (P.portSocket port)).join
      = some l'' := by
    rw [getNextLcore, hk, Option.map_some, Option.join_some, hl']
    cases scan dp.nbLcores k (candidate P dp W.type (P.portSocket port) true) with
    | none => exact ⟨l', rfl⟩
    | some l'' => exact ⟨l'', rfl⟩
  obtain ⟨l'', hl''⟩ := hsome
  exact ⟨_, by rw [assignPort, hl'']; rfl⟩

/-- A round leaves everything but the chosen port list alone. -/
lemma assignPort_same (h : assignPort P W port (dp, prev) = some (dp', prev')) :
    SameLcores W dp dp' := by
  obtain ⟨l, hl, -, rfl, -⟩ := assignPort_some h
  refine ⟨rfl, rfl, rfl, DpParams.setLcore_keeps (·.id) (W.append_id port _),
    DpParams.setLcore_keeps (·.type) (W.append_type port _), ?_⟩
  intro l' hl'
  have hll : l' ≠ l := by
    rintro rfl
    exact hl' (mem_lcoresOf.mp hl).2
  rw [DpParams.setLcore_lcores_of_ne hll]

/-- The entries after a round: the old ones and the new port at the end of one list. -/
lemma serves_append_iff {l : ℕ} (hl : l ∈ lcoresOf dp W.type) {l' k p : ℕ} :
    Serves W (dp.setLcore l (W.append port (dp.lcores l))) l' k p ↔
      Serves W dp l' k p ∨ l' = l ∧ k = (dp.lcores l).nbPorts ∧ p = port := by
  -- appending to the list of an lcore keeps the types
  have hmem : ∀ l', l' ∈ lcoresOf (dp.setLcore l (W.append port (dp.lcores l))) W.type ↔
      l' ∈ lcoresOf dp W.type := by
    intro l'
    by_cases hll : l' = l
    · subst hll
      simp [mem_lcoresOf, mem_lcoresOf.mp hl]
    · rw [mem_lcoresOf, mem_lcoresOf, DpParams.setLcore_lcores_of_ne hll,
        DpParams.setLcore_nbLcores]
  by_cases hll : l' = l
  · subst hll
    constructor
    · rintro ⟨-, hk, hp⟩
      simp only [DpParams.setLcore_lcores_self, PortWriter.append_nbPorts,
        PortWriter.portId_append] at hk hp
      by_cases hkn : k = (dp.lcores l').nbPorts
      · rw [if_pos hkn] at hp
        exact Or.inr ⟨rfl, hkn, hp.symm⟩
      · rw [if_neg hkn] at hp
        exact Or.inl ⟨hl, by omega, hp⟩
    · rintro (⟨-, hk, hp⟩ | ⟨-, rfl, rfl⟩)
      · refine ⟨(hmem l').mpr hl, ?_, ?_⟩
        · simp only [DpParams.setLcore_lcores_self, PortWriter.append_nbPorts]
          omega
        · rw [DpParams.setLcore_lcores_self, PortWriter.portId_append, if_neg (by omega)]
          exact hp
      · refine ⟨(hmem l').mpr hl, ?_, ?_⟩
        · simp
        · rw [DpParams.setLcore_lcores_self, PortWriter.portId_append, if_pos rfl]
  · constructor
    · rintro ⟨hl', hk, hp⟩
      rw [DpParams.setLcore_lcores_of_ne hll] at hk hp
      exact Or.inl ⟨(hmem l').mp hl', hk, hp⟩
    · rintro (⟨hl', hk, hp⟩ | ⟨h, -, -⟩)
      · refine ⟨(hmem l').mpr hl', ?_, ?_⟩ <;> rw [DpParams.setLcore_lcores_of_ne hll]
        · exact hk
        · exact hp
      · exact absurd h hll

/-- The step lemma of the distribution. -/
lemma Distributed.step (hD : Distributed W dp m)
    (h : assignPort P W m (dp, prev) = some (dp', prev')) : Distributed W dp' (m + 1) := by
  have hsame := assignPort_same h
  obtain ⟨l, hl, hroom, rfl, -⟩ := assignPort_some h
  have hof := hsame.lcoresOf_eq W.type
  refine ⟨?_, ?_, ?_, ?_, ?_⟩
  · intro l' hl'
    rw [hof] at hl'
    by_cases hll : l' = l
    · subst hll
      rw [DpParams.setLcore_lcores_self, PortWriter.append_nbPorts]
      omega
    · rw [DpParams.setLcore_lcores_of_ne hll]
      exact hD.cap l' hl'
  · intro l' k p hs
    rcases (serves_append_iff hl).mp hs with hs | ⟨-, -, rfl⟩
    · have := hD.lt l' k p hs
      omega
    · omega
  · intro p hp
    by_cases hpm : p = m
    · exact ⟨l, _, (serves_append_iff hl).mpr (Or.inr ⟨rfl, rfl, hpm⟩)⟩
    · obtain ⟨l', k, hs⟩ := hD.exists_serves p (by omega)
      exact ⟨l', k, (serves_append_iff hl).mpr (Or.inl hs)⟩
  · -- the new port `m` is above every old one, so the two entries are both old or both new
    intro l₁ k₁ l₂ k₂ p h₁ h₂
    rcases (serves_append_iff hl).mp h₁ with hs₁ | ⟨hl₁, hk₁, hp₁⟩
    · rcases (serves_append_iff hl).mp h₂ with hs₂ | ⟨-, -, hp₂⟩
      · exact hD.unique _ _ _ _ _ hs₁ hs₂
      · exact absurd (hD.lt _ _ _ hs₁) (by omega)
    · rcases (serves_append_iff hl).mp h₂ with hs₂ | ⟨hl₂, hk₂, -⟩
      · exact absurd (hD.lt _ _ _ hs₂) (by omega)
      · exact ⟨hl₁.trans hl₂.symm, hk₁.trans hk₂.symm⟩
  · rw [hof, ← Finset.add_sum_erase _ _ hl, DpParams.setLcore_lcores_self,
      PortWriter.append_nbPorts, Finset.sum_congr rfl fun l' hl' => by
        rw [DpParams.setLcore_lcores_of_ne (Finset.ne_of_mem_erase hl')]]
    have htotal := hD.total
    rw [← Finset.add_sum_erase _ _ hl] at htotal
    omega

/-- There is room as long as fewer ports are distributed than the lists can hold. -/
lemma Distributed.room_iff (hD : Distributed W dp m) :
    (∃ l ∈ lcoresOf dp W.type, (dp.lcores l).nbPorts < dpLcorePortMax) ↔
      m < dpLcorePortMax * (lcoresOf dp W.type).card := by
  rw [← hD.total, mul_comm, ← smul_eq_mul, ← Finset.sum_const]
  constructor
  · exact Finset.sum_lt_sum hD.cap
  · intro hlt
    by_contra hno
    push Not at hno
    exact absurd (Finset.sum_le_sum hno) (not_le.mpr hlt)

/-- Before the first round. -/
lemma distributed_zero (hdp : ∀ l ∈ lcoresOf dp W.type, (dp.lcores l).nbPorts = 0) :
    Distributed W dp 0 where
  cap l hl := by
    rw [hdp l hl]
    exact Nat.zero_le _
  lt l k p hs := absurd hs.entry (by simp [hdp l hs.lcore])
  exists_serves p hp := absurd hp (Nat.not_lt_zero p)
  unique l k _ _ _ hs := absurd hs.entry (by simp [hdp l hs.lcore])
  total := Finset.sum_eq_zero hdp

/-- The run lemma of the distribution: after the ports below `m` were assigned. -/
lemma run_assignPort (hdp : ∀ l ∈ lcoresOf dp W.type, (dp.lcores l).nbPorts = 0) {s : DpParams × ℕ}
    (hprev : ∃ l < dp.nbLcores, (dp.lcores l).id = prev)
    (h : run (assignPort P W) (List.range m) (dp, prev) = some s) :
    SameLcores W dp s.1 ∧ Distributed W s.1 m ∧ ∃ l < s.1.nbLcores, (s.1.lcores l).id = s.2 := by
  refine run_range (I := fun i s => SameLcores W dp s.1 ∧ Distributed W s.1 i ∧
    ∃ l < s.1.nbLcores, (s.1.lcores l).id = s.2) ?_ h ⟨.refl W dp, distributed_zero hdp, hprev⟩
  rintro i hi ⟨dp₁, prev₁⟩ ⟨dp₂, prev₂⟩ h₂ ⟨hsame, hD, -⟩
  obtain ⟨l, hl, -, -, hprev₂⟩ := assignPort_some h₂
  have hsame₂ := assignPort_same h₂
  refine ⟨hsame.trans hsame₂, hD.step h₂, l, ?_, ?_⟩
  · rw [hsame₂.nbLcores]
    exact (mem_lcoresOf.mp hl).1
  · rw [hsame₂.id, hprev₂]

/-- The distribution of `m` ports succeeds exactly when they fit. -/
lemma run_assignPort_isSome (hdp : ∀ l ∈ lcoresOf dp W.type, (dp.lcores l).nbPorts = 0)
    (hprev : ∃ l < dp.nbLcores, (dp.lcores l).id = prev) :
    (∃ s, run (assignPort P W) (List.range m) (dp, prev) = some s) ↔
      m ≤ dpLcorePortMax * (lcoresOf dp W.type).card := by
  induction m with
  | zero => exact ⟨fun _ => Nat.zero_le _, fun _ => ⟨_, rfl⟩⟩
  | succ m ih =>
    -- the round for port `m` finds an lcore when the `m` ports before it left room
    have hround : ∀ s, run (assignPort P W) (List.range m) (dp, prev) = some s →
        ((∃ t, assignPort P W m s = some t) ↔
          m < dpLcorePortMax * (lcoresOf dp W.type).card) := by
      rintro ⟨dp₁, prev₁⟩ h₁
      obtain ⟨hsame, hD, hprev₁⟩ := run_assignPort hdp hprev h₁
      rw [← hsame.lcoresOf_eq W.type, ← hD.room_iff]
      constructor
      · rintro ⟨t, ht⟩
        obtain ⟨l, hl, hroom, -⟩ := assignPort_some ht
        exact ⟨l, hl, hroom⟩
      · exact assignPort_isSome hprev₁
    simp only [run_range_succ, Option.bind_eq_some_iff]
    constructor
    · rintro ⟨t, s, hs, ht⟩
      exact (hround s hs).mp ⟨t, ht⟩
    · intro hle
      obtain ⟨s, hs⟩ := ih.mpr (by omega)
      obtain ⟨t, ht⟩ := (hround s hs).mpr (by omega)
      exact ⟨t, s, hs, ht⟩

/-- The distribution of the ports over the other type of lcores does not disturb a
distribution that is done. -/
lemma Distributed.of_same {W' : PortWriter} (hD : Distributed W dp m)
    (hsame : SameLcores W' dp dp') (hW : W.type ≠ W'.type) : Distributed W dp' m := by
  have hlcore : ∀ l ∈ lcoresOf dp W.type, dp'.lcores l = dp.lcores l := fun l hl =>
    hsame.other l (by rw [(mem_lcoresOf.mp hl).2]; exact hW)
  have hof := hsame.lcoresOf_eq W.type
  have hserves : ∀ l k p, Serves W dp' l k p ↔ Serves W dp l k p := by
    intro l k p
    constructor
    · rintro ⟨hl, hk, hp⟩
      rw [hof] at hl
      rw [hlcore l hl] at hk hp
      exact ⟨hl, hk, hp⟩
    · rintro ⟨hl, hk, hp⟩
      rw [← hlcore l hl] at hk hp
      exact ⟨hof ▸ hl, hk, hp⟩
  refine ⟨?_, fun l k p hs => hD.lt l k p ((hserves l k p).mp hs), ?_,
    fun l k l' k' p h h' => hD.unique l k l' k' p ((hserves _ _ _).mp h) ((hserves _ _ _).mp h'),
    ?_⟩
  · intro l hl
    rw [hof] at hl
    rw [hlcore l hl]
    exact hD.cap l hl
  · intro p hp
    obtain ⟨l, k, hs⟩ := hD.exists_serves p hp
    exact ⟨l, k, (hserves l k p).mpr hs⟩
  · rw [hof, Finset.sum_congr rfl fun l hl => by rw [hlcore l hl]]
    exact hD.total

/-- `distributePorts` in terms of its run. -/
lemma distributePorts_spec (hpos : 0 < dp.nbLcores)
    (hdp : ∀ l ∈ lcoresOf dp W.type, (dp.lcores l).nbPorts = 0) :
    ((∃ dp', distributePorts P W dp = some dp') ↔
        P.nbPorts ≤ dpLcorePortMax * (lcoresOf dp W.type).card) ∧
      ∀ dp', distributePorts P W dp = some dp' →
        SameLcores W dp dp' ∧ Distributed W dp' P.nbPorts := by
  have hprev : ∃ l < dp.nbLcores, (dp.lcores l).id = (dp.lcores dpLcoreIdDefault).id :=
    ⟨dpLcoreIdDefault, hpos, rfl⟩
  constructor
  · rw [← run_assignPort_isSome hdp hprev]
    simp only [distributePorts, Option.map_eq_some_iff]
    exact ⟨fun ⟨_, s, hs, _⟩ => ⟨s, hs⟩, fun ⟨s, hs⟩ => ⟨s.1, s, hs, rfl⟩⟩
  · intro dp' h
    obtain ⟨s, hs, rfl⟩ := Option.map_eq_some_iff.mp h
    obtain ⟨hsame, hD, -⟩ := run_assignPort hdp hprev hs
    exact ⟨hsame, hD⟩

/-- What holds of every entry of a port list holds after the distribution when each round
writes such an entry. -/
lemma distributePorts_entries {G : DpLcoreParams → ℕ → Prop}
    (hgood : ∀ port lp k, k < (W.append port lp).nbPorts →
      (∀ k < lp.nbPorts, G lp k) → G (W.append port lp) k)
    (hdp : ∀ l ∈ lcoresOf dp W.type, ∀ k < (dp.lcores l).nbPorts, G (dp.lcores l) k)
    (h : distributePorts P W dp = some dp') :
    ∀ l ∈ lcoresOf dp' W.type, ∀ k < (dp'.lcores l).nbPorts, G (dp'.lcores l) k := by
  obtain ⟨s, hs, rfl⟩ := Option.map_eq_some_iff.mp h
  refine run_invariant (I := fun s : DpParams × ℕ => ∀ l ∈ lcoresOf s.1 W.type,
    ∀ k < (s.1.lcores l).nbPorts, G (s.1.lcores l) k) ?_ hs hdp
  rintro port - ⟨dp₁, prev₁⟩ ⟨dp₂, prev₂⟩ hstep hI l hl k hk
  have hof := (assignPort_same hstep).lcoresOf_eq W.type
  obtain ⟨l₀, hl₀, -, rfl, -⟩ := assignPort_some hstep
  simp only [hof] at hl
  by_cases hll : l = l₀
  · subst hll
    simp only [DpParams.setLcore_lcores_self] at hk ⊢
    exact hgood port _ k hk (hI l hl)
  · simp only [DpParams.setLcore_lcores_of_ne hll] at hk ⊢
    exact hI l hl k hk

end DaqSwitch.VoqSwq
