import DaqSwitch.VoqSwq.FlowTable

/-!
# The set-up of a connection

A fragment request is set up in two phases, one for each direction of its connection, and
each phase may run out of flow slots.  What the two phases leave behind is decided by the
tables before the packet; which packets of a burst start a set-up is decided by the source
ports of the burst.
-/

namespace DaqSwitch.VoqSwq

open Lib Lib.Machine

variable {C : OneShl} {nic : FdirNic} {path : Path} {pkt : HitPkt} {s t : DefState}

/-! ## Slots -/

/-- The free slots of a flow table. -/
def freeSlots (flows : ℕ → DataFlow) : Finset ℕ :=
  {i ∈ Finset.range dpPortMaxDataFlows | (flows i).active = false}

/-- The flow of the path is known or more than `n` slots are free. -/
def HasSlot (flows : ℕ → DataFlow) (path : Path) (n : ℕ) : Prop :=
  Present flows path.key ∨ n < (freeSlots flows).card

instance (flows : ℕ → DataFlow) (key : BitVec 32 × BitVec 32) : Decidable (Present flows key) :=
  inferInstanceAs (Decidable (∃ i, i < dpPortMaxDataFlows ∧ _))

instance (flows : ℕ → DataFlow) (path : Path) (n : ℕ) : Decidable (HasSlot flows path n) :=
  inferInstanceAs (Decidable (_ ∨ _))

lemma mem_freeSlots {flows : ℕ → DataFlow} {i : ℕ} :
    i ∈ freeSlots flows ↔ i < dpPortMaxDataFlows ∧ (flows i).active = false := by
  simp [freeSlots]

lemma findFree_eq_none {flows : ℕ → DataFlow} :
    findFree flows = none ↔ (freeSlots flows).card = 0 := by
  rw [findFree, List.find?_eq_none, Finset.card_eq_zero, Finset.eq_empty_iff_forall_notMem]
  simp [mem_freeSlots]

lemma findFree_mem {flows : ℕ → DataFlow} {i : ℕ} (h : findFree flows = some i) :
    i ∈ freeSlots flows := by
  rw [mem_freeSlots]
  exact ⟨List.mem_range.mp (List.mem_of_find?_eq_some h), by simpa using List.find?_some h⟩

lemma findFlow_eq_none {flows : ℕ → DataFlow} {path : Path} :
    findFlow flows path.destIp path.sinkId = none ↔ ¬ Present flows path.key := by
  rw [Path.key, ← findFlow_isSome_iff, Option.not_isSome_iff_eq_none]

/-- Filling a free slot uses it up. -/
lemma freeSlots_update {flows : ℕ → DataFlow} {i : ℕ} (hi : i ∈ freeSlots flows) (flow : DataFlow)
    (hflow : flow.active = true) :
    (freeSlots (Function.update flows i flow)).card + 1 = (freeSlots flows).card := by
  have herase : freeSlots (Function.update flows i flow) = (freeSlots flows).erase i := by
    ext j
    rw [Finset.mem_erase, mem_freeSlots, mem_freeSlots]
    rcases eq_or_ne j i with rfl | hj
    · simp [hflow]
    · simp [hj]
  rw [herase, Finset.card_erase_add_one hi]

/-- Filling a free slot makes its key present. -/
lemma present_update {flows : ℕ → DataFlow} {i : ℕ} (hi : i ∈ freeSlots flows) (flow : DataFlow)
    (hflow : flow.active = true) {key : BitVec 32 × BitVec 32} :
    Present (Function.update flows i flow) key ↔ Present flows key ∨ flow.key = key := by
  obtain ⟨hlt, hfree⟩ := mem_freeSlots.mp hi
  constructor
  · rintro ⟨j, hj, hact, hkey⟩
    rcases eq_or_ne j i with rfl | hji
    · rw [Function.update_self] at hkey
      exact Or.inr hkey
    · rw [Function.update_of_ne hji] at hact hkey
      exact Or.inl ⟨j, hj, hact, hkey⟩
  · rintro (⟨j, hj, hact, hkey⟩ | hkey)
    · have hji : j ≠ i := by
        rintro rfl
        rw [hfree] at hact
        cases hact
      exact ⟨j, hj, by rwa [Function.update_of_ne hji], by rwa [Function.update_of_ne hji]⟩
    · exact ⟨i, hlt, by rwa [Function.update_self], by rwa [Function.update_self]⟩

/-! ## One phase -/

/-- What one phase does to the state: it gives up without a slot, or it leaves the table with
the flow present and one filter more. -/
lemma setupPath_cases {r : Option DefState} (h : setupPath C nic path pkt s = some r) :
    r = none ∧ ¬ HasSlot (s.dp.flows path.outPort) path 0 ∨
      ∃ t call, r = some t ∧ t.installed = s.installed ++ [⟨path, pkt, call⟩] ∧
        call.portId = path.nicPort ∧ call.filter = path.filter ∧
        (Present (s.dp.flows path.outPort) path.key ∧ t.dp.flows = s.dp.flows ∨
          ¬ Present (s.dp.flows path.outPort) path.key ∧
            ∃ i ∈ freeSlots (s.dp.flows path.outPort), t.dp.flows =
              Function.update s.dp.flows path.outPort
                (Function.update (s.dp.flows path.outPort) i path.flow)) := by
  have hfilter {slot : ℕ} {u : DefState}
      (hu : (installFilter nic path pkt slot u).map some = some r) :
      ∃ t, installFilter nic path pkt slot u = some t ∧ r = some t := by
    obtain ⟨t, ht, hr⟩ := Option.map_eq_some_iff.mp hu
    exact ⟨t, ht, hr.symm⟩
  unfold setupPath at h
  cases hconf : findTxPortConf s.dp path.outPort with
  | none => simp [hconf] at h
  | some conf =>
    simp only [hconf] at h
    cases hflow : findFlow (s.dp.flows path.outPort) path.destIp path.sinkId with
    | some slot =>
      simp only [hflow] at h
      obtain ⟨t, ht, rfl⟩ := hfilter h
      obtain ⟨hdp, -, -, hinst⟩ := installFilter_some ht
      refine Or.inr ⟨t, _, rfl, hinst, rfl, rfl, Or.inl ⟨?_, by rw [hdp]⟩⟩
      exact findFlow_isSome_iff.mp (by rw [hflow]; rfl)
    | none =>
      have habs := findFlow_eq_none.mp hflow
      simp only [hflow] at h
      cases hfree : findFree (s.dp.flows path.outPort) with
      | none =>
        simp only [hfree, Option.some_inj] at h
        refine Or.inl ⟨h.symm, ?_⟩
        rintro (hpres | hpos)
        · exact habs hpres
        · rw [findFree_eq_none.mp hfree] at hpos
          exact hpos.false
      | some slot =>
        simp only [hfree] at h
        obtain ⟨t, ht, rfl⟩ := hfilter h
        obtain ⟨hdp, -, -, hinst⟩ := installFilter_some ht
        exact Or.inr ⟨t, _, rfl, hinst, rfl, rfl,
          Or.inr ⟨habs, slot, findFree_mem hfree, by rw [hdp]; rfl⟩⟩

/-- A phase that gives up had no slot. -/
lemma setupPath_none (h : setupPath C nic path pkt s = some none) :
    ¬ HasSlot (s.dp.flows path.outPort) path 0 := by
  rcases setupPath_cases h with ⟨-, hno⟩ | ⟨t, -, ht, -⟩
  · exact hno
  · cases ht

/-- A phase that succeeds had a slot. -/
lemma setupPath_hasSlot (h : setupPath C nic path pkt s = some (some t)) :
    HasSlot (s.dp.flows path.outPort) path 0 := by
  rcases setupPath_cases h with ⟨h0, -⟩ | ⟨t', -, -, -, -, -, ⟨hpres, -⟩ | ⟨-, i, hi, -⟩⟩
  · cases h0
  · exact Or.inl hpres
  · exact Or.inr (Finset.card_pos.mpr ⟨i, hi⟩)

/-- A phase that succeeds asks for its filter. -/
lemma setupPath_installed (h : setupPath C nic path pkt s = some (some t)) :
    ∃ call : FdirCall, t.installed = s.installed ++ [⟨path, pkt, call⟩] ∧
      call.portId = path.nicPort ∧ call.filter = path.filter := by
  rcases setupPath_cases h with ⟨h0, -⟩ | ⟨t', call, ht, hinst, hport, hfilter, -⟩
  · cases h0
  · cases ht
    exact ⟨call, hinst, hport, hfilter⟩

/-! ## All or nothing -/

/-- Both filters of the connection are installed, each on the NIC where its packets come
in, or nothing has changed. -/
def AllOrNothing (pkt : HitPkt) (s t : DefState) : Prop :=
  (∃ c c' : FdirCall, t.installed =
      s.installed ++ [⟨rosToDcm pkt, pkt, c⟩, ⟨dcmToRos pkt, pkt, c'⟩] ∧
    c.portId = pkt.entryPort ∧ c.filter = (rosToDcm pkt).filter ∧
    c'.portId = pkt.port ∧ c'.filter = (dcmToRos pkt).filter) ∨
  t.installed = s.installed ∧ t.dp = s.dp ∧ t.fdirId = s.fdirId

/-- The first phase has no slot, or the second has one besides: on one and the same port the
first may take a slot from the second, or enter its flow. -/
def SlotsForBoth (pkt : HitPkt) (flows : ℕ → ℕ → DataFlow) : Prop :=
  HasSlot (flows pkt.port) (rosToDcm pkt) 0 →
    pkt.port = pkt.entryPort ∧ (rosToDcm pkt).key = (dcmToRos pkt).key ∨
      HasSlot (flows pkt.entryPort) (dcmToRos pkt)
        (if pkt.port = pkt.entryPort ∧ ¬ Present (flows pkt.port) (rosToDcm pkt).key then 1 else 0)

/-- After the first phase the second has a slot exactly when there were slots for both. -/
lemma hasSlot_after_ros (h : setupPath C nic (rosToDcm pkt) pkt s = some (some t)) :
    HasSlot (t.dp.flows pkt.entryPort) (dcmToRos pkt) 0 ↔ SlotsForBoth pkt s.dp.flows := by
  have hslot : HasSlot (s.dp.flows pkt.port) (rosToDcm pkt) 0 := setupPath_hasSlot h
  rw [SlotsForBoth, imp_iff_right hslot]
  rcases setupPath_cases h with
    ⟨h0, -⟩ | ⟨t', -, ht, -, -, -, ⟨hpres, hflows⟩ | ⟨habs, i, hi, hflows⟩⟩
  · cases h0
  · -- the flow was known: the tables are as before
    cases ht
    rw [hflows, if_neg (by simp only [not_and, not_not]; exact fun _ => hpres)]
    refine (or_iff_right_of_imp ?_).symm
    rintro ⟨hport, hkey⟩
    exact Or.inl (hport ▸ hkey ▸ hpres)
  · cases ht
    change _ ∈ freeSlots (s.dp.flows pkt.port) at hi
    change t.dp.flows = Function.update s.dp.flows pkt.port
      (Function.update (s.dp.flows pkt.port) i (rosToDcm pkt).flow) at hflows
    change ¬ Present (s.dp.flows pkt.port) _ at habs
    by_cases hport : pkt.port = pkt.entryPort
    · -- both flows go into one table
      rw [if_pos ⟨hport, habs⟩, hflows, ← hport, Function.update_self]
      have hcard := freeSlots_update hi (rosToDcm pkt).flow rfl
      have hkey : (rosToDcm pkt).flow.key = (rosToDcm pkt).key := rfl
      simp only [HasSlot, present_update hi (rosToDcm pkt).flow rfl, hkey, true_and]
      constructor
      · rintro ((hp | hk) | hn)
        · exact Or.inr (Or.inl hp)
        · exact Or.inl hk
        · exact Or.inr (Or.inr (by omega))
      · rintro (hk | hp | hn)
        · exact Or.inl (Or.inr hk)
        · exact Or.inl (Or.inl hp)
        · exact Or.inr (by omega)
    · -- the table of the second phase is another one
      rw [if_neg fun h => hport h.1, hflows, Function.update_of_ne (Ne.symm hport)]
      exact (or_iff_right fun h => hport h.1).symm

/-- **All or nothing.**  The handling of a packet installs both filters of the connection or
changes nothing if and only if, for a packet that is taken for a new request, the tables had
slots for both directions or none for the first. -/
theorem allOrNothing_iff {filter : RteFdirFilter} {b : DefState × RteFdirFilter}
    (h : handlePkt C nic pkt (s, filter) = some b) :
    AllOrNothing pkt s b.1 ↔ (detects pkt filter = true → SlotsForBoth pkt s.dp.flows) := by
  cases handlePkt_step h with
  | skip hdet ht =>
    change b.1 = s at ht
    change detects pkt filter = false at hdet
    rw [hdet, ht]
    exact iff_of_true (Or.inr ⟨rfl, rfl, rfl⟩) (fun h => absurd h Bool.false_ne_true)
  | full hdet ht h₁ =>
    change b.1 = s at ht
    rw [ht]
    exact iff_of_true (Or.inr ⟨rfl, rfl, rfl⟩) fun _ hslot => absurd hslot (setupPath_none h₁)
  | half hdet h₁ h₂ =>
    -- one filter is there, and the other is not
    obtain ⟨c, hinst, -⟩ := setupPath_installed h₁
    refine iff_of_false ?_ ?_
    · rintro (⟨c₁, c₂, hboth, -⟩ | ⟨hnone, -⟩)
      · have hlen := congrArg List.length (hinst.symm.trans hboth)
        simp at hlen
      · have hlen := congrArg List.length (hinst.symm.trans hnone)
        simp at hlen
    · intro hslots
      exact setupPath_none h₂ ((hasSlot_after_ros h₁).mpr (hslots hdet))
  | both hdet m h₁ h₂ =>
    obtain ⟨c, hinst, hport, hfilter⟩ := setupPath_installed h₁
    obtain ⟨c', hinst', hport', hfilter'⟩ := setupPath_installed h₂
    refine iff_of_true (Or.inl ⟨c, c', ?_, hport, hfilter, hport', hfilter'⟩) ?_
    · rw [hinst', hinst, List.append_assoc]
      rfl
    · intro _
      exact (hasSlot_after_ros h₁).mp (setupPath_hasSlot h₂)

theorem allOrNothing_iff_small : ∃ b,
    handlePkt OneShl.modular FdirNic.accepting (HitPkt.request 4000 7)
      (DefState.init dpSmall, RteFdirFilter.zero) = some b ∧
    (AllOrNothing (HitPkt.request 4000 7) (DefState.init dpSmall) b.1 ↔
      (detects (HitPkt.request 4000 7) RteFdirFilter.zero = true →
        SlotsForBoth (HitPkt.request 4000 7) dpSmall.flows)) := by
  have hsome : (handlePkt OneShl.modular FdirNic.accepting (HitPkt.request 4000 7)
      (DefState.init dpSmall, RteFdirFilter.zero)).isSome := by decide +kernel
  obtain ⟨b, hb⟩ := Option.isSome_iff_exists.mp hsome
  exact ⟨b, hb, allOrNothing_iff hb⟩

/-- A request of one event to some data source. -/
def HitPkt.requestTo (dip : BitVec 32) : HitPkt :=
  let pkt := HitPkt.request 4000 7
  { pkt with flowKey := { pkt.flowKey with dip := dip } }

/-- Requests to as many data sources as a flow table has slots. -/
def fillingBursts : List PktBurst :=
  (List.range dpPortMaxDataFlows).map fun i =>
    PktBurst.single (HitPkt.requestTo (BitVec.ofNat 32 i))

/-- When all slots toward the data sources are taken, a request to another source gets the
filter for the answers and none for the requests. -/
theorem not_allOrNothing : ∃ s b,
    run (tableActionHandlerHit OneShl.modular FdirNic.accepting) fillingBursts
      (DefState.init dpSmall) = some s ∧
    handlePkt OneShl.modular FdirNic.accepting (HitPkt.requestTo 64) (s, RteFdirFilter.zero) =
      some b ∧ ¬ AllOrNothing (HitPkt.requestTo 64) s b.1 := by
  have hrun : ((run (tableActionHandlerHit OneShl.modular FdirNic.accepting) fillingBursts
      (DefState.init dpSmall)).bind fun s =>
        (handlePkt OneShl.modular FdirNic.accepting (HitPkt.requestTo 64)
          (s, RteFdirFilter.zero)).map fun b => (s.installed.length, b.1.installed.length))
      = some (128, 129) := by decide +kernel
  obtain ⟨s, hs, hmap⟩ := Option.bind_eq_some_iff.mp hrun
  obtain ⟨b, hb, hlen⟩ := Option.map_eq_some_iff.mp hmap
  rw [Prod.mk.injEq] at hlen
  refine ⟨s, b, hs, hb, ?_⟩
  rintro (⟨c, c', hboth, -⟩ | ⟨hnone, -⟩)
  · have := congrArg List.length hboth
    simp [hlen] at this
  · have := congrArg List.length hnone
    simp [hlen] at this

/-! ## The set-ups of a burst -/

/-- The connection of a packet. -/
def HitPkt.conn (pkt : HitPkt) : BitVec 32 × BitVec 16 × BitVec 32 × BitVec 16 :=
  (pkt.flowKey.sip, pkt.flowKey.sport, pkt.flowKey.dip, pkt.flowKey.dport)

def HitPkt.isRequest (pkt : HitPkt) : Bool :=
  pkt.flowKey.typeId == tdaqTypeIdFragmentRequestMessage

/-- The masked fragment requests of a burst. -/
def PktBurst.fragmentRequests (b : PktBurst) : List HitPkt := b.masked.filter HitPkt.isRequest

/-- The requests whose source port is not that of the request before them; before the first
one there is `last`. -/
def runStarts (last : BitVec 16) (reqs : List HitPkt) : List HitPkt :=
  (((last :: reqs.map (·.flowKey.sport)).zip reqs).filter fun x =>
    x.2.flowKey.sport != x.1).map Prod.snd

/-- The slots suffice for the set-ups of a burst. -/
def SlotsAvailable (C : OneShl) (nic : FdirNic) : PktBurst → DefState → Prop :=
  BurstMeets C nic fun path s => HasSlot (s.dp.flows path.outPort) path 0

/-- The two filters for a packet, with their directions. -/
def bothFilters (pkt : HitPkt) : List (Dir × RteFdirFilter) :=
  [(.rosToDcm, (rosToDcm pkt).filter), (.dcmToRos, (dcmToRos pkt).filter)]

/-- The call adds filters of the masked requests only, and for each connection among them
exactly one in either direction. -/
def OneSetUpEach (burst : PktBurst) (s t : DefState) : Prop :=
  ∃ new, t.installed = s.installed ++ new ∧
    (∀ f ∈ new, ∃ pkt ∈ burst.fragmentRequests, (f.path.dir, f.call.filter) ∈ bothFilters pkt) ∧
    ∀ pkt ∈ burst.fragmentRequests, ∀ x ∈ bothFilters pkt,
      (new.map fun f => (f.path.dir, f.call.filter)).count x = 1

@[simp] lemma runStarts_nil (last : BitVec 16) : runStarts last [] = [] := rfl

lemma runStarts_cons (last : BitVec 16) (pkt : HitPkt) (reqs : List HitPkt) :
    runStarts last (pkt :: reqs) =
      (if pkt.flowKey.sport = last then [] else [pkt]) ++ runStarts pkt.flowKey.sport reqs := by
  rw [runStarts, List.map_cons, List.zip_cons_cons, List.filter_cons]
  by_cases h : pkt.flowKey.sport = last <;> simp [h, runStarts]

lemma runStarts_subset {last : BitVec 16} {reqs : List HitPkt} {pkt : HitPkt}
    (h : pkt ∈ runStarts last reqs) : pkt ∈ reqs := by
  obtain ⟨x, hx, rfl⟩ := List.mem_map.mp h
  exact (List.of_mem_zip (List.mem_filter.mp hx).1).2

/-- A filter with its direction tells the connection. -/
lemma mem_bothFilters_iff {pkt pkt' : HitPkt} {x : Dir × RteFdirFilter} (h : x ∈ bothFilters pkt) :
    x ∈ bothFilters pkt' ↔ pkt'.conn = pkt.conn := by
  simp only [bothFilters, List.mem_cons, List.not_mem_nil, or_false] at h ⊢
  rcases h with rfl | rfl
  · simp only [Prod.mk.injEq, reduceCtorEq, false_and, or_false, true_and, rosToDcm,
      RteFdirFilter.mk.injEq, HitPkt.conn]
    constructor
    · rintro ⟨h₁, h₂, h₃, h₄⟩
      exact ⟨h₁.symm, h₂.symm, h₃.symm, h₄.symm⟩
    · rintro ⟨h₁, h₂, h₃, h₄⟩
      exact ⟨h₁.symm, h₂.symm, h₃.symm, h₄.symm⟩
  · simp only [Prod.mk.injEq, reduceCtorEq, false_and, false_or, true_and, dcmToRos,
      RteFdirFilter.mk.injEq, HitPkt.conn]
    constructor
    · rintro ⟨h₁, h₂, h₃, h₄⟩
      exact ⟨h₃.symm, h₄.symm, h₁.symm, h₂.symm⟩
    · rintro ⟨h₁, h₂, h₃, h₄⟩
      exact ⟨h₃.symm, h₄.symm, h₁.symm, h₂.symm⟩

/-- The packet step when slots are available: a packet that is taken for a new request adds its
two filters and leaves its source port behind. -/
lemma handlePkt_slots {b b' : DefState × RteFdirFilter} (h : handlePkt C nic pkt b = some b')
    (hK : PktMeets C nic (fun path s => HasSlot (s.dp.flows path.outPort) path 0) pkt b) :
    (detects pkt b.2 = false ∧ b' = b) ∨
      detects pkt b.2 = true ∧ b'.2.portSrc = pkt.flowKey.sport ∧
        ∃ new, b'.1.installed = b.1.installed ++ new ∧
          (new.map fun f => (f.path.dir, f.call.filter)) = bothFilters pkt := by
  unfold handlePkt at h
  by_cases hdet : detects pkt b.2 = true
  · rw [if_pos hdet] at h
    obtain ⟨r, hr, h⟩ := Option.bind_eq_some_iff.mp h
    obtain ⟨hros, hdcm⟩ := hK hdet
    cases r with
    | none => exact absurd hros (setupPath_none hr)
    | some m =>
      obtain ⟨r', hr', rfl⟩ := Option.map_eq_some_iff.mp h
      cases r' with
      | none => exact absurd (hdcm m hr) (setupPath_none hr')
      | some t =>
        obtain ⟨c, hinst, -, hfilter⟩ := setupPath_installed hr
        obtain ⟨c', hinst', -, hfilter'⟩ := setupPath_installed hr'
        refine Or.inr ⟨hdet, rfl, [⟨rosToDcm pkt, pkt, c⟩, ⟨dcmToRos pkt, pkt, c'⟩], ?_, ?_⟩
        · show t.installed = _
          rw [hinst', hinst, List.append_assoc]
          rfl
        · rw [List.map_cons, List.map_cons, hfilter, hfilter']
          rfl
  · rw [if_neg hdet, Option.some_inj] at h
    exact Or.inl ⟨by simpa using hdet, h.symm⟩

/-- The run over the packets of a burst: the filters added are those of the requests that
start a run of source ports. -/
lemma installed_run {pkts : List HitPkt} {b b' : DefState × RteFdirFilter}
    (h : run (handlePkt C nic) pkts b = some b')
    (hK : Throughout (handlePkt C nic)
      (PktMeets C nic fun path s => HasSlot (s.dp.flows path.outPort) path 0) pkts b) :
    ∃ new, b'.1.installed = b.1.installed ++ new ∧
      (new.map fun f => (f.path.dir, f.call.filter)) =
        (runStarts b.2.portSrc (pkts.filter HitPkt.isRequest)).flatMap bothFilters := by
  induction pkts generalizing b with
  | nil =>
    obtain rfl : b = b' := by simpa using h
    exact ⟨[], by simp⟩
  | cons pkt pkts ih =>
    obtain ⟨b₁, h₁, h₂⟩ := run_cons_eq_some.mp h
    obtain ⟨hpkt, hpkts⟩ := (throughout_cons h₁).mp hK
    obtain ⟨new, hnew, hmap⟩ := ih h₂ hpkts
    have hdef : detects pkt b.2 = (pkt.isRequest && pkt.flowKey.sport != b.2.portSrc) := rfl
    rw [List.filter_cons]
    rcases handlePkt_slots h₁ hpkt with ⟨hdet, rfl⟩ | ⟨hdet, hsport, first, hfirst, hfmap⟩
    · -- no request, or one with the source port of the request before it
      refine ⟨new, hnew, ?_⟩
      rw [hdef, Bool.and_eq_false_iff, bne_eq_false_iff_eq] at hdet
      by_cases hreq : pkt.isRequest = true
      · have hlast : pkt.flowKey.sport = b₁.2.portSrc :=
          hdet.resolve_left fun h => by rw [hreq] at h; cases h
        rw [if_pos hreq, runStarts_cons, if_pos hlast, List.nil_append, hlast, hmap]
      · rw [if_neg hreq, hmap]
    · rw [hdef, Bool.and_eq_true, bne_iff_ne] at hdet
      refine ⟨first ++ new, by rw [hnew, hfirst, List.append_assoc], ?_⟩
      rw [if_pos hdet.1, runStarts_cons, if_neg hdet.2, ← hsport, List.flatMap_append,
        List.map_append, hmap, hfmap, List.flatMap_singleton]

/-- Among the filters of some packets, those of a connection are as many as its packets. -/
lemma count_flatMap_bothFilters {pkt : HitPkt} {x : Dir × RteFdirFilter} (hx : x ∈ bothFilters pkt)
    (pkts : List HitPkt) :
    (pkts.flatMap bothFilters).count x = pkts.countP (·.conn = pkt.conn) := by
  induction pkts with
  | nil => rfl
  | cons q qs ih =>
    rw [List.flatMap_cons, List.count_append, ih, List.countP_cons, add_comm]
    congr 1
    have hnodup : (bothFilters q).Nodup := by simp [bothFilters]
    rw [hnodup.count]
    simp [mem_bothFilters_iff hx]

/-- **One set-up per connection.**  When the slots suffice, a call of the handler sets up
each connection of the burst exactly once if and only if each connection starts exactly one
run of equal source ports among the requests, where a first run with source port zero is not
counted. -/
theorem oneSetUpEach_iff {burst : PktBurst} (h : tableActionHandlerHit C nic burst s = some t)
    (hslots : SlotsAvailable C nic burst s) :
    OneSetUpEach burst s t ↔ ∀ pkt ∈ burst.fragmentRequests,
      (runStarts 0 burst.fragmentRequests).countP (·.conn = pkt.conn) = 1 := by
  obtain ⟨b, hb, rfl⟩ := Option.map_eq_some_iff.mp h
  obtain ⟨new, hnew, hmap⟩ := installed_run hb hslots
  change (new.map fun f => (f.path.dir, f.call.filter)) =
    (runStarts 0 burst.fragmentRequests).flatMap bothFilters at hmap
  constructor
  · rintro ⟨new', hnew', -, hone⟩ pkt hpkt
    obtain rfl : new' = new := List.append_cancel_left (hnew'.symm.trans hnew)
    have hx : (Dir.rosToDcm, (rosToDcm pkt).filter) ∈ bothFilters pkt := List.mem_cons_self
    have := hone pkt hpkt _ hx
    rwa [hmap, count_flatMap_bothFilters hx] at this
  · intro hone
    refine ⟨new, hnew, ?_, ?_⟩
    · intro f hf
      have hmem := List.mem_map_of_mem (f := fun f => (f.path.dir, f.call.filter)) hf
      rw [hmap] at hmem
      obtain ⟨pkt, hpkt, hx⟩ := List.mem_flatMap.mp hmem
      exact ⟨pkt, runStarts_subset hpkt, hx⟩
    · intro pkt hpkt x hx
      rw [hmap, count_flatMap_bothFilters hx, hone pkt hpkt]

/-! ## Room for a whole burst -/

/-- A phase takes at most one slot of a table. -/
lemma setupPath_freeSlots (h : setupPath C nic path pkt s = some (some t)) (port : ℕ) :
    (freeSlots (s.dp.flows port)).card ≤ (freeSlots (t.dp.flows port)).card + 1 := by
  rcases setupPath_cases h with ⟨h0, -⟩ | ⟨t', -, ht, -, -, -, ⟨-, hflows⟩ | ⟨-, i, hi, hflows⟩⟩
  · cases h0
  · cases ht
    rw [hflows]
    omega
  · cases ht
    rw [hflows]
    rcases eq_or_ne port path.outPort with rfl | hport
    · rw [Function.update_self, freeSlots_update hi path.flow rfl]
    · rw [Function.update_of_ne hport]
      omega

/-- Two free slots in each table for each packet suffice. -/
lemma meets_of_room {pkts : List HitPkt} {b : DefState × RteFdirFilter}
    (hroom : ∀ port, 2 * pkts.length ≤ (freeSlots (b.1.dp.flows port)).card) :
    Throughout (handlePkt C nic)
      (PktMeets C nic fun path s => HasSlot (s.dp.flows path.outPort) path 0) pkts b := by
  induction pkts generalizing b with
  | nil => trivial
  | cons pkt pkts ih =>
    rw [List.length_cons] at hroom
    refine ⟨fun _ => ⟨Or.inr ?_, fun m hm => Or.inr ?_⟩, fun b' hb' => ih ?_⟩
    · have := hroom (rosToDcm pkt).outPort
      omega
    · have := hroom (dcmToRos pkt).outPort
      have := setupPath_freeSlots hm (dcmToRos pkt).outPort
      omega
    · intro port
      have := hroom port
      cases handlePkt_step hb' with
      | skip _ ht => rw [ht]; omega
      | full _ ht => rw [ht]; omega
      | half _ h₁ =>
        have := setupPath_freeSlots h₁ port
        omega
      | both _ m h₁ h₂ =>
        have := setupPath_freeSlots h₁ port
        have := setupPath_freeSlots h₂ port
        omega

lemma slotsAvailable_of_room {burst : PktBurst}
    (hroom : ∀ port, 2 * burst.masked.length ≤ (freeSlots (s.dp.flows port)).card) :
    SlotsAvailable C nic burst s :=
  meets_of_room hroom

/-- Before the first packet all slots are free. -/
lemma card_freeSlots_small (port : ℕ) :
    (freeSlots ((DefState.init dpSmall).dp.flows port)).card = dpPortMaxDataFlows := by
  have hflows : (DefState.init dpSmall).dp.flows port = fun _ => default :=
    congrFun (dpInit_spec dpInit_small).1.flows port
  rw [hflows]
  rfl

/-- A burst of the given packets, all of them masked. -/
def PktBurst.ofList (pkts : List HitPkt) : PktBurst :=
  ⟨fun i => pkts.getD i (HitPkt.request 0 0), BitVec.ofNat 64 (2 ^ pkts.length - 1)⟩

/-- Two connections in turn. -/
def turnsBurst : PktBurst :=
  PktBurst.ofList [HitPkt.request 4000 7, HitPkt.request 4001 8, HitPkt.request 4000 7]

theorem oneSetUpEach_iff_small : ∃ t,
    tableActionHandlerHit OneShl.modular FdirNic.accepting turnsBurst (DefState.init dpSmall) =
      some t ∧
    (OneSetUpEach turnsBurst (DefState.init dpSmall) t ↔ ∀ pkt ∈ turnsBurst.fragmentRequests,
      (runStarts 0 turnsBurst.fragmentRequests).countP (·.conn = pkt.conn) = 1) := by
  have hsome : (tableActionHandlerHit OneShl.modular FdirNic.accepting turnsBurst
      (DefState.init dpSmall)).isSome := by decide +kernel
  obtain ⟨t, ht⟩ := Option.isSome_iff_exists.mp hsome
  refine ⟨t, ht, oneSetUpEach_iff ht (slotsAvailable_of_room ?_)⟩
  intro port
  rw [card_freeSlots_small]
  decide +kernel

/-- The connection whose packets are apart in the burst is set up twice. -/
theorem not_oneSetUpEach : ∃ t,
    tableActionHandlerHit OneShl.modular FdirNic.accepting turnsBurst (DefState.init dpSmall) =
      some t ∧
    SlotsAvailable OneShl.modular FdirNic.accepting turnsBurst (DefState.init dpSmall) ∧
    ¬ OneSetUpEach turnsBurst (DefState.init dpSmall) t := by
  have hrun : ((tableActionHandlerHit OneShl.modular FdirNic.accepting turnsBurst
      (DefState.init dpSmall)).map fun t => (t.installed.map fun f =>
        (f.path.dir, f.call.filter)).count (.rosToDcm, (rosToDcm (HitPkt.request 4000 7)).filter))
      = some 2 := by decide +kernel
  obtain ⟨t, ht, hcount⟩ := Option.map_eq_some_iff.mp hrun
  refine ⟨t, ht, slotsAvailable_of_room ?_, ?_⟩
  · intro port
    rw [card_freeSlots_small]
    decide +kernel
  · rintro ⟨new, hnew, -, hone⟩
    have hreq : HitPkt.request 4000 7 ∈ turnsBurst.fragmentRequests := by decide +kernel
    have := hone _ hreq _ List.mem_cons_self
    rw [show t.installed = new from hnew, this] at hcount
    omega

end DaqSwitch.VoqSwq
