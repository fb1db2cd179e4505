import DaqSwitch.Lib.Registry
import DaqSwitch.VoqSwq.LcoreDefault
import DaqSwitch.VoqSwq.Ownership

/-!
# What a call of the handler does

The flow table of a port is a slot array that holds a registry of flows.  `SetupStep` says
what one successful path set-up does to the state and to the registries; every property of
the default lcore is derived from it by the run rule `handler_run`.
-/

namespace DaqSwitch.VoqSwq

open Lib Lib.Machine

/-! ## Flow tables as registries -/

/-- What a flow is looked up by. -/
def DataFlow.key (f : DataFlow) : BitVec 32 × BitVec 32 := (f.destIp, f.sinkId)

def Path.key (path : Path) : BitVec 32 × BitVec 32 := (path.destIp, path.sinkId)

abbrev FlowRegistry := Registry DataFlow.key dpPortMaxDataFlows

/-- The flow table of every port holds the registry of the port. -/
def Tables (flows : ℕ → ℕ → DataFlow) (R : ℕ → FlowRegistry) : Prop :=
  ∀ port, SlotArray.Holds DataFlow.active (flows port) (R port)

lemma tables_init : Tables (fun _ _ => default) fun _ => Registry.empty _ _ :=
  fun _ => SlotArray.holds_empty fun _ => rfl

lemma findFlow_eq_lookup (flows : ℕ → DataFlow) (destIp sinkId : BitVec 32) :
    findFlow flows destIp sinkId =
      SlotArray.lookup DataFlow.active DataFlow.key dpPortMaxDataFlows flows (destIp, sinkId) := by
  rw [findFlow, SlotArray.lookup]
  congr 1
  funext i
  rw [Bool.eq_iff_iff]
  simp [DataFlow.key, Prod.ext_iff, and_assoc]

lemma findFree_eq_free (flows : ℕ → DataFlow) :
    findFree flows = SlotArray.free DataFlow.active dpPortMaxDataFlows flows := by
  rw [findFree, SlotArray.free]
  congr 1
  funext i
  cases (flows i).active <;> rfl

variable {flows : ℕ → ℕ → DataFlow} {R R' : ℕ → FlowRegistry}

lemma Tables.findFlow_eq (hR : Tables flows R) (port : ℕ) (destIp sinkId : BitVec 32) :
    findFlow (flows port) destIp sinkId = (R port).indexOf (destIp, sinkId) := by
  rw [findFlow_eq_lookup, (hR port).lookup_eq]

lemma Tables.findFree_eq (hR : Tables flows R) (port : ℕ) :
    findFree (flows port) = if (R port).entries.length < dpPortMaxDataFlows then
      some (R port).entries.length else none := by
  rw [findFree_eq_free, (hR port).free_eq]

/-! ## Frames -/

/-- The parameters of the lcores agree up to the masks of active flows. -/
structure SameConf (dp dp' : DpParams) : Prop where
  nbLcores : dp'.nbLcores = dp.nbLcores
  rings : dp'.rings = dp.rings
  id : ∀ l, (dp'.lcores l).id = (dp.lcores l).id
  type : ∀ l, (dp'.lcores l).type = (dp.lcores l).type
  nbPorts : ∀ l, (dp'.lcores l).nbPorts = (dp.lcores l).nbPorts
  rx : ∀ l, (dp'.lcores l).rx = (dp.lcores l).rx
  txPort : ∀ l k, ((dp'.lcores l).tx k).portId = ((dp.lcores l).tx k).portId

namespace SameConf

variable {dp dp' dp'' : DpParams}

lemma refl (dp : DpParams) : SameConf dp dp :=
  ⟨rfl, rfl, fun _ => rfl, fun _ => rfl, fun _ => rfl, fun _ => rfl, fun _ _ => rfl⟩

lemma trans (h : SameConf dp dp') (h' : SameConf dp' dp'') : SameConf dp dp'' where
  nbLcores := h'.nbLcores.trans h.nbLcores
  rings := h'.rings.trans h.rings
  id l := (h'.id l).trans (h.id l)
  type l := (h'.type l).trans (h.type l)
  nbPorts l := (h'.nbPorts l).trans (h.nbPorts l)
  rx l := (h'.rx l).trans (h.rx l)
  txPort l k := (h'.txPort l k).trans (h.txPort l k)

lemma mem_lcoresOf (h : SameConf dp dp') {l : ℕ} {type : DpLcoreType} :
    l ∈ lcoresOf dp' type ↔ l ∈ lcoresOf dp type := by
  rw [VoqSwq.mem_lcoresOf, VoqSwq.mem_lcoresOf, h.nbLcores, h.type]

lemma txEntry_iff (h : SameConf dp dp') {l k p : ℕ} :
    TxEntry dp' l k p ↔ TxEntry dp l k p := by
  constructor
  · rintro ⟨hl, hk, hp⟩
    exact ⟨h.mem_lcoresOf.mp hl, h.nbPorts l ▸ hk, h.txPort l k ▸ hp⟩
  · rintro ⟨hl, hk, hp⟩
    exact ⟨h.mem_lcoresOf.mpr hl, by rwa [h.nbPorts l], by rwa [h.txPort l k]⟩

lemma rxEntry_iff (h : SameConf dp dp') {l k j p q : ℕ} :
    RxEntry dp' l k j p q ↔ RxEntry dp l k j p q := by
  constructor
  · rintro ⟨hl, hk, hp, hj, hq⟩
    rw [h.rx l] at hp hj hq
    exact ⟨h.mem_lcoresOf.mp hl, h.nbPorts l ▸ hk, hp, hj, hq⟩
  · rintro ⟨hl, hk, hp, hj, hq⟩
    rw [← h.rx l] at hp hj hq
    exact ⟨h.mem_lcoresOf.mpr hl, by rwa [h.nbPorts l], hp, hj, hq⟩

end SameConf

/-- Activating a flow changes one mask. -/
lemma setActive_lcores (dp : DpParams) (C : OneShl) (conf : ℕ × ℕ) (slot l k : ℕ) :
    ((dp.setActive C conf slot).lcores l).tx k =
      if (l, k) = conf then
        ⟨((dp.lcores l).tx k).portId, ((dp.lcores l).tx k).activeFlows ||| C.val64 slot⟩
      else (dp.lcores l).tx k := by
  obtain ⟨l₀, k₀⟩ := conf
  simp only [DpParams.setActive, Prod.mk.injEq]
  -- the entry written is `k₀` of lcore `l₀`
  by_cases hl : l = l₀
  · subst hl
    rw [DpParams.setLcore_lcores_self]
    by_cases hk : k = k₀
    · subst hk
      simp
    · simp [hk]
  · rw [DpParams.setLcore_lcores_of_ne hl, if_neg fun h => hl h.1]

lemma sameConf_setActive (dp : DpParams) (C : OneShl) (conf : ℕ × ℕ) (slot : ℕ) :
    SameConf dp (dp.setActive C conf slot) := by
  refine ⟨rfl, rfl, DpParams.setLcore_keeps (·.id) rfl, DpParams.setLcore_keeps (·.type) rfl,
    DpParams.setLcore_keeps (·.nbPorts) rfl, DpParams.setLcore_keeps (·.rx) rfl, ?_⟩
  intro l k
  rw [setActive_lcores]
  split <;> rfl

/-- What `findTxPortConf` finds is a tx entry of the port. -/
lemma findTxPortConf_some {dp : DpParams} {port : ℕ} {conf : ℕ × ℕ}
    (h : findTxPortConf dp port = some conf) : TxEntry dp conf.1 conf.2 port := by
  have hmem := List.mem_of_getLast? h
  simp only [List.mem_flatMap, List.mem_range] at hmem
  obtain ⟨l, hl, hmem⟩ := hmem
  by_cases hty : (dp.lcores l).type = .dataTx
  · rw [if_neg (by simpa using hty), List.mem_map] at hmem
    obtain ⟨k, hk, rfl⟩ := hmem
    simp only [List.mem_filter, List.mem_range, beq_iff_eq] at hk
    exact ⟨VoqSwq.mem_lcoresOf.mpr ⟨hl, hty⟩, hk.1, hk.2⟩
  · rw [if_pos (by simpa using hty)] at hmem
    cases hmem

/-- A port with a tx entry has its tx configuration found. -/
lemma findTxPortConf_isSome {dp : DpParams} {port l k : ℕ} (h : TxEntry dp l k port) :
    ∃ conf, findTxPortConf dp port = some conf := by
  obtain ⟨hl, hty⟩ := VoqSwq.mem_lcoresOf.mp h.lcore
  rw [← Option.ne_none_iff_exists', findTxPortConf, ne_eq, List.getLast?_eq_none_iff]
  refine List.ne_nil_of_mem (a := (l, k)) (List.mem_flatMap.mpr ⟨l, List.mem_range.mpr hl, ?_⟩)
  rw [if_neg (by simpa using hty)]
  refine List.mem_map.mpr ⟨k, List.mem_filter.mpr ⟨List.mem_range.mpr h.entry, ?_⟩, rfl⟩
  simpa using h.port

/-! ## One set-up -/

/-- A path set-up that allocates a slot: the flow is new, goes into the next slot of its
registry, and the polling of that slot is activated. -/
structure Allocates (C : OneShl) (path : Path) (s t : DefState) (R R' : ℕ → FlowRegistry)
    (slot : ℕ) : Prop where
  fresh : (R path.outPort).indexOf path.key = none
  slot_eq : slot = (R path.outPort).entries.length
  slot_lt : slot < dpPortMaxDataFlows
  entries : (R' path.outPort).entries = (R path.outPort).entries ++ [path.flow]
  other : ∀ port, port ≠ path.outPort → R' port = R port
  shifts : t.shifts = Function.update s.shifts path.outPort (s.shifts path.outPort ++ [slot])
  exists_conf : ∃ conf : ℕ × ℕ, TxEntry s.dp conf.1 conf.2 path.outPort ∧
    t.dp = (s.dp.setFlow path.outPort slot path.flow).setActive C conf slot

/-- What a successful path set-up does. -/
structure SetupStep (C : OneShl) (path : Path) (pkt : HitPkt) (s t : DefState)
    (R R' : ℕ → FlowRegistry) (slot : ℕ) : Prop where
  tables : Tables t.dp.flows R'
  index : (R' path.outPort).indexOf path.key = some slot
  choice : R' = R ∧ t.dp = s.dp ∧ t.shifts = s.shifts ∨ Allocates C path s t R R' slot
  fdirId : t.fdirId = Function.update s.fdirId path.nicPort (s.fdirId path.nicPort + 1)
  installed : t.installed = s.installed ++ [⟨path, pkt, path.nicPort, path.filter,
    fdirIdLocal slot (s.fdirId path.nicPort + 1), path.outPort + dpPortRxqIdDataMin, 0⟩]

section SetupStep

variable {C : OneShl} {nic : FdirNic} {path : Path} {pkt : HitPkt} {s t : DefState} {slot : ℕ}

lemma installFilter_some (h : installFilter nic path pkt slot s = some t) :
    t.dp = s.dp ∧ t.shifts = s.shifts ∧
      t.fdirId = Function.update s.fdirId path.nicPort (s.fdirId path.nicPort + 1) ∧
      t.installed = s.installed ++ [⟨path, pkt, path.nicPort, path.filter,
        fdirIdLocal slot (s.fdirId path.nicPort + 1), path.outPort + dpPortRxqIdDataMin, 0⟩] := by
  simp only [installFilter] at h
  split at h
  · rw [Option.some_inj] at h
    subst h
    exact ⟨rfl, rfl, rfl, rfl⟩
  · cases h

/-- The tables after an allocation. -/
lemma Tables.alloc (hR : Tables s.dp.flows R) (hfresh : (R path.outPort).indexOf path.key = none)
    (hroom : (R path.outPort).entries.length < dpPortMaxDataFlows) (conf : ℕ × ℕ) :
    Tables (activate C path conf (R path.outPort).entries.length s).dp.flows
      (Function.update R path.outPort ((R path.outPort).push path.flow hfresh hroom)) := by
  intro port
  show SlotArray.Holds _ (Function.update s.dp.flows path.outPort _ port) _
  by_cases hp : port = path.outPort
  · subst hp
    rw [Function.update_self, Function.update_self]
    exact (hR _).push rfl hfresh hroom
  · rw [Function.update_of_ne hp, Function.update_of_ne hp]
    exact hR port

/-- What the set-up computes, in terms of the registry of the port. -/
lemma setupPath_eq_some (hR : Tables s.dp.flows R) {r : Option DefState}
    (h : setupPath C nic path pkt s = some r) :
    ∃ conf, findTxPortConf s.dp path.outPort = some conf ∧
      ((∃ slot, (R path.outPort).indexOf path.key = some slot ∧
          (installFilter nic path pkt slot s).map some = some r) ∨
        (R path.outPort).indexOf path.key = none ∧
          ((R path.outPort).entries.length < dpPortMaxDataFlows ∧
              (installFilter nic path pkt (R path.outPort).entries.length
                (activate C path conf (R path.outPort).entries.length s)).map some = some r ∨
            ¬ (R path.outPort).entries.length < dpPortMaxDataFlows ∧ none = r)) := by
  unfold setupPath at h
  cases hconf : findTxPortConf s.dp path.outPort with
  | none => simp [hconf] at h
  | some conf =>
    simp only [hconf, hR.findFlow_eq, hR.findFree_eq] at h
    refine ⟨conf, rfl, ?_⟩
    rw [Path.key]
    cases hidx : (R path.outPort).indexOf (path.destIp, path.sinkId) with
    | some slot =>
      rw [hidx] at h
      exact Or.inl ⟨slot, rfl, h⟩
    | none =>
      by_cases hroom : (R path.outPort).entries.length < dpPortMaxDataFlows
      · simp only [hidx, if_pos hroom] at h
        exact Or.inr ⟨rfl, Or.inl ⟨hroom, h⟩⟩
      · simp only [hidx, if_neg hroom, Option.some_inj] at h
        exact Or.inr ⟨rfl, Or.inr ⟨hroom, h⟩⟩

/-- The step lemma of the set-up: a successful set-up registers its flow. -/
lemma setupPath_step (hR : Tables s.dp.flows R)
    (h : setupPath C nic path pkt s = some (some t)) :
    ∃ R' slot, SetupStep C path pkt s t R R' slot := by
  obtain ⟨conf, hconf, ⟨slot, hidx, h⟩ | ⟨hidx, ⟨hroom, h⟩ | ⟨-, h⟩⟩⟩ := setupPath_eq_some hR h
  · -- the flow is known: only the filter is new
    simp only [Option.map_eq_some_iff, Option.some_inj, exists_eq_right] at h
    obtain ⟨hdp, hshifts, hfdir, hinst⟩ := installFilter_some h
    exact ⟨R, slot, by rwa [hdp], hidx, Or.inl ⟨rfl, hdp, hshifts⟩, hfdir, hinst⟩
  · -- the flow is new: its slot is the next number of the registry
    simp only [Option.map_eq_some_iff, Option.some_inj, exists_eq_right] at h
    obtain ⟨hdp, hshifts, hfdir, hinst⟩ := installFilter_some h
    refine ⟨_, (R path.outPort).entries.length, by rw [hdp]; exact hR.alloc hidx hroom conf,
      ?_, Or.inr ?_, hfdir, hinst⟩
    · rw [Function.update_self]
      exact (R path.outPort).indexOf_push path.flow hidx hroom
    · exact ⟨hidx, rfl, hroom, by rw [Function.update_self]; rfl,
        fun port hp => Function.update_of_ne hp .., hshifts, conf,
        findTxPortConf_some hconf, hdp⟩
  · cases h

/-- The set-up gives up only when the flow is unknown and the table of the port is full. -/
lemma setupPath_full (hR : Tables s.dp.flows R)
    (h : setupPath C nic path pkt s = some none) :
    (R path.outPort).indexOf path.key = none ∧
      (R path.outPort).entries.length = dpPortMaxDataFlows := by
  obtain ⟨conf, -, ⟨slot, -, h⟩ | ⟨hidx, ⟨-, h⟩ | ⟨hfull, -⟩⟩⟩ := setupPath_eq_some hR h
  · simp at h
  · simp at h
  · have := (R path.outPort).bounded
    exact ⟨hidx, by omega⟩

/-- The set-up does not end the program when the port has a tx lcore and the NIC
agrees. -/
lemma setupPath_isSome {l k : ℕ} (hconf : TxEntry s.dp l k path.outPort)
    (hnic : ∀ calls call, nic calls call = 0) : ∃ r, setupPath C nic path pkt s = some r := by
  obtain ⟨conf, hconf⟩ := findTxPortConf_isSome hconf
  unfold setupPath
  rw [hconf]
  simp only [installFilter, hnic, if_true]
  split
  · exact ⟨_, rfl⟩
  · split
    · exact ⟨_, rfl⟩
    · exact ⟨_, rfl⟩

end SetupStep

namespace SetupStep

variable {C : OneShl} {path : Path} {pkt : HitPkt} {s t : DefState} {slot : ℕ}

/-- A set-up only adds to the registries. -/
lemma ext (h : SetupStep C path pkt s t R R' slot) (port : ℕ) :
    Registry.Extends (R port) (R' port) := by
  rcases h.choice with ⟨rfl, -, -⟩ | ha
  · exact Registry.Extends.refl _
  · by_cases hp : port = path.outPort
    · subst hp
      rw [Registry.Extends, ha.entries]
      exact List.prefix_append _ _
    · rw [ha.other port hp]
      exact Registry.Extends.refl _

lemma sameConf (h : SetupStep C path pkt s t R R' slot) : SameConf s.dp t.dp := by
  rcases h.choice with ⟨-, hdp, -⟩ | ha
  · rw [hdp]
    exact SameConf.refl _
  · obtain ⟨conf, -, hdp⟩ := ha.exists_conf
    rw [hdp]
    exact (⟨rfl, rfl, fun _ => rfl, fun _ => rfl, fun _ => rfl, fun _ => rfl, fun _ _ => rfl⟩ :
      SameConf s.dp (s.dp.setFlow path.outPort slot path.flow)).trans
        (sameConf_setActive _ C conf slot)

lemma slot_lt (h : SetupStep C path pkt s t R R' slot) : slot < dpPortMaxDataFlows :=
  (Registry.indexOf_lt h.index).trans_le (R' path.outPort).bounded

end SetupStep

/-! ## Runs of the handler -/

section Run

variable {C : OneShl} {nic : FdirNic}

/-- What the handling of a packet can do: nothing, when no request is detected or the first
set-up gives up; one set-up, when the second gives up; or both. -/
inductive PktStep (C : OneShl) (nic : FdirNic) (pkt : HitPkt) (filter : RteFdirFilter)
    (s t : DefState) : Prop
  | skip (h : detects pkt filter = false) (ht : t = s)
  | full (h : detects pkt filter = true) (ht : t = s)
      (h₁ : setupPath C nic (rosToDcm pkt) pkt s = some none)
  | half (h : detects pkt filter = true)
      (h₁ : setupPath C nic (rosToDcm pkt) pkt s = some (some t))
      (h₂ : setupPath C nic (dcmToRos pkt) pkt t = some none)
  | both (h : detects pkt filter = true) (m : DefState)
      (h₁ : setupPath C nic (rosToDcm pkt) pkt s = some (some m))
      (h₂ : setupPath C nic (dcmToRos pkt) pkt m = some (some t))

lemma handlePkt_step {pkt : HitPkt} {b b' : DefState × RteFdirFilter}
    (h : handlePkt C nic pkt b = some b') : PktStep C nic pkt b.2 b.1 b'.1 := by
  unfold handlePkt at h
  split at h
  · next hdet =>
    obtain ⟨r, hr, h⟩ := Option.bind_eq_some_iff.mp h
    cases r with
    | none =>
      rw [Option.some_inj] at h
      exact .full hdet (h ▸ rfl) hr
    | some m =>
      obtain ⟨r', hr', rfl⟩ := Option.map_eq_some_iff.mp h
      cases r' with
      | none => exact .half hdet hr hr'
      | some t => exact .both hdet m hr hr'
  · next hdet =>
    rw [Option.some_inj] at h
    exact .skip (by simpa using hdet) (h ▸ rfl)

lemma handleSingle_step {pkt : HitPkt} {s t : DefState}
    (h : tableActionHandlerHit C nic (PktBurst.single pkt) s = some t) :
    PktStep C nic pkt RteFdirFilter.zero s t := by
  obtain ⟨b, hb, rfl⟩ := Option.map_eq_some_iff.mp h
  rw [PktBurst.masked_single, run_singleton] at hb
  exact handlePkt_step hb

/-- What holds along with the registries `R`, in a state that extends `R₀`. -/
def Along (I : (ℕ → FlowRegistry) → DefState → Prop) (R₀ : ℕ → FlowRegistry) (s : DefState) :
    Prop :=
  ∃ R, Tables s.dp.flows R ∧ (∀ port, Registry.Extends (R₀ port) (R port)) ∧ I R s

/-- The paths that the packets with property `Q` ask for. -/
def PathOf (Q : HitPkt → Prop) (path : Path) (pkt : HitPkt) : Prop :=
  Q pkt ∧ (path = rosToDcm pkt ∨ path = dcmToRos pkt)

variable {I : (ℕ → FlowRegistry) → DefState → Prop} {Q : HitPkt → Prop} {R₀ : ℕ → FlowRegistry}

lemma Along.setup (hI : ∀ path pkt s t R R' slot, PathOf Q path pkt →
      SetupStep C path pkt s t R R' slot → I R s → I R' t)
    {path : Path} {pkt : HitPkt} {s t : DefState} (hpath : PathOf Q path pkt)
    (h : setupPath C nic path pkt s = some (some t)) (hs : Along I R₀ s) : Along I R₀ t := by
  obtain ⟨R, hR, hext, hIs⟩ := hs
  obtain ⟨R', slot, hstep⟩ := setupPath_step hR h
  exact ⟨R', hstep.tables, fun port => (hext port).trans (hstep.ext port),
    hI path pkt s t R R' slot hpath hstep hIs⟩

lemma Along.handlePkt (hI : ∀ path pkt s t R R' slot, PathOf Q path pkt →
      SetupStep C path pkt s t R R' slot → I R s → I R' t)
    {pkt : HitPkt} {b b' : DefState × RteFdirFilter} (hpkt : Q pkt)
    (h : handlePkt C nic pkt b = some b') (hs : Along I R₀ b.1) : Along I R₀ b'.1 := by
  cases handlePkt_step h with
  | skip _ ht => rwa [ht]
  | full _ ht => rwa [ht]
  | half _ h₁ => exact hs.setup hI ⟨hpkt, Or.inl rfl⟩ h₁
  | both _ m h₁ h₂ => exact (hs.setup hI ⟨hpkt, Or.inl rfl⟩ h₁).setup hI ⟨hpkt, Or.inr rfl⟩ h₂

lemma Along.burst (hI : ∀ path pkt s t R R' slot, PathOf Q path pkt →
      SetupStep C path pkt s t R R' slot → I R s → I R' t)
    {burst : PktBurst} (hQ : ∀ pkt ∈ burst.masked, Q pkt) {s t : DefState}
    (h : tableActionHandlerHit C nic burst s = some t) (hs : Along I R₀ s) : Along I R₀ t := by
  obtain ⟨b', hb', rfl⟩ := Option.map_eq_some_iff.mp h
  exact run_invariant (I := fun b => Along I R₀ b.1)
    (fun pkt hpkt _ _ hstep hs => hs.handlePkt hI (hQ pkt hpkt) hstep) hb' hs

/-- The run rule of the handler: what every set-up preserves, together with the
registries, holds after any sequence of bursts. -/
lemma handler_run (hI : ∀ path pkt s t R R' slot, PathOf Q path pkt →
      SetupStep C path pkt s t R R' slot → I R s → I R' t)
    {bursts : List PktBurst} (hQ : ∀ b ∈ bursts, ∀ pkt ∈ b.masked, Q pkt)
    {s t : DefState} (h : run (tableActionHandlerHit C nic) bursts s = some t)
    (hs : Along I R₀ s) : Along I R₀ t :=
  run_invariant (fun b hb _ _ hst hs => hs.burst hI (hQ b hb) hst) h hs

/-- The registries at the end of a run extend those at its start. -/
lemma registries_run {bursts : List PktBurst} {s t : DefState}
    (h : run (tableActionHandlerHit C nic) bursts s = some t) {R : ℕ → FlowRegistry}
    (hR : Tables s.dp.flows R) :
    ∃ R', Tables t.dp.flows R' ∧ ∀ port, Registry.Extends (R port) (R' port) := by
  have hs : Along (fun _ _ => True) R s := ⟨R, hR, fun _ => Registry.Extends.refl _, trivial⟩
  obtain ⟨R', hR', hext, -⟩ := handler_run (Q := fun _ => True)
    (fun _ _ _ _ _ _ _ _ _ _ => trivial) (fun _ _ _ _ => trivial) h hs
  exact ⟨R', hR', hext⟩

/-- From the zeroed flow tables. -/
lemma tables_defInit {dp : DpParams} (hflows : dp.flows = fun _ _ => default) :
    Tables (DefState.init dp).dp.flows fun _ => Registry.empty _ _ := by
  rw [DefState.init, hflows]
  exact tables_init

lemma along_init {dp : DpParams} (hflows : dp.flows = fun _ _ => default)
    (hI : I (fun _ => Registry.empty _ _) (DefState.init dp)) :
    Along I (fun _ => Registry.empty _ _) (DefState.init dp) :=
  ⟨_, tables_defInit hflows, fun _ => Registry.Extends.refl _, hI⟩

/-- The parameters of the lcores are only touched at the masks. -/
lemma handler_sameConf {bursts : List PktBurst} {s t : DefState}
    (h : run (tableActionHandlerHit C nic) bursts s = some t) {R : ℕ → FlowRegistry}
    (hR : Tables s.dp.flows R) : SameConf s.dp t.dp := by
  have hs : Along (fun _ t => SameConf s.dp t.dp) R s :=
    ⟨R, hR, fun _ => Registry.Extends.refl _, SameConf.refl _⟩
  obtain ⟨-, -, -, hsame⟩ := handler_run (Q := fun _ => True)
    (fun _ _ _ _ _ _ _ _ hstep hs => hs.trans hstep.sameConf) (fun _ _ _ _ => trivial) h hs
  exact hsame

/-! ## Totality -/

section Total

variable {P : Platform} {dp : DpParams} (hready : Ready P dp)
  (hnic : ∀ calls call, nic calls call = 0)

include hready hnic

lemma setupPath_total {path : Path} {pkt : HitPkt} {s : DefState} (hsame : SameConf dp s.dp)
    (hport : path.outPort < P.nbPorts) : ∃ r, setupPath C nic path pkt s = some r := by
  obtain ⟨l, k, h⟩ := hready.exists_txEntry hport
  exact setupPath_isSome (hsame.txEntry_iff.mpr h) hnic

lemma handlePkt_total {pkt : HitPkt} {b : DefState × RteFdirFilter}
    (hR : Tables b.1.dp.flows R) (hsame : SameConf dp b.1.dp)
    (hpkt : pkt.port < P.nbPorts ∧ pkt.entryPort < P.nbPorts) :
    ∃ b', handlePkt C nic pkt b = some b' := by
  unfold handlePkt
  split
  · obtain ⟨r, hr⟩ : ∃ r, setupPath C nic (rosToDcm pkt) pkt b.1 = some r :=
      setupPath_total hready hnic hsame hpkt.1
    rw [hr, Option.bind_some]
    cases r with
    | none => exact ⟨b, rfl⟩
    | some m =>
      -- the first set-up keeps the tx entries, so the second finds its port too
      obtain ⟨R', slot, h⟩ := setupPath_step hR hr
      obtain ⟨r', hr'⟩ : ∃ r, setupPath C nic (dcmToRos pkt) pkt m = some r :=
        setupPath_total hready hnic (hsame.trans h.sameConf) hpkt.2
      exact ⟨_, Option.map_eq_some_iff.mpr ⟨r', hr', rfl⟩⟩
  · exact ⟨b, rfl⟩

/-- A call of the handler does not end the program when the ports exist and the NIC takes
the filters. -/
lemma tableActionHandlerHit_total {burst : PktBurst} (hports : burst.PortsBelow P.nbPorts)
    {s : DefState} (hR : Tables s.dp.flows R) (hsame : SameConf dp s.dp) :
    ∃ t, tableActionHandlerHit C nic burst s = some t := by
  have hstep : ∀ pkt ∈ burst.masked, ∀ b : DefState × RteFdirFilter,
      Along (fun _ t => SameConf dp t.dp) R b.1 →
        ∃ b', handlePkt C nic pkt b = some b' ∧ Along (fun _ t => SameConf dp t.dp) R b'.1 := by
    intro pkt hpkt b hb
    have ⟨R', hR', _, hsame'⟩ := hb
    obtain ⟨b', hb'⟩ := handlePkt_total (C := C) hready hnic hR' hsame' (hports pkt hpkt)
    exact ⟨b', hb', Along.handlePkt (Q := fun _ => True)
      (fun _ _ _ _ _ _ _ _ hstep hs => hs.trans hstep.sameConf) trivial hb' hb⟩
  obtain ⟨b', hb', -⟩ := run_total hstep (s := (s, RteFdirFilter.zero))
    ⟨R, hR, fun _ => Registry.Extends.refl _, hsame⟩
  exact ⟨b'.1, by rw [tableActionHandlerHit, hb']; rfl⟩

end Total

end Run

/-! ## A run on the smallest machine -/

/-- Two requests with different events. -/
def smallBursts : List PktBurst :=
  [PktBurst.single (HitPkt.request 4000 7), PktBurst.single (HitPkt.request 4001 8)]

lemma run_small_isSome : (run (tableActionHandlerHit OneShl.modular FdirNic.accepting) smallBursts
    (DefState.init dpSmall)).isSome := by decide +kernel

/-- The state after the two requests. -/
def smallState : DefState :=
  (run (tableActionHandlerHit OneShl.modular FdirNic.accepting) smallBursts
    (DefState.init dpSmall)).get run_small_isSome

lemma run_small : run (tableActionHandlerHit OneShl.modular FdirNic.accepting) smallBursts
    (DefState.init dpSmall) = some smallState := (Option.some_get _).symm

/-- Two more, for a new event and for one of the first two. -/
def laterBursts : List PktBurst :=
  [PktBurst.single (HitPkt.request 4002 9), PktBurst.single (HitPkt.request 4003 7)]

lemma run_later_isSome : (run (tableActionHandlerHit OneShl.modular FdirNic.accepting) laterBursts
    smallState).isSome := by decide +kernel

/-- The state after these as well. -/
def laterState : DefState :=
  (run (tableActionHandlerHit OneShl.modular FdirNic.accepting) laterBursts smallState).get
    run_later_isSome

lemma run_later : run (tableActionHandlerHit OneShl.modular FdirNic.accepting) laterBursts
    smallState = some laterState := (Option.some_get _).symm

lemma smallBursts_portsBelow : ∀ b ∈ smallBursts ++ laterBursts,
    b.PortsBelow Platform.small.nbPorts := by
  simp [smallBursts, laterBursts, PktBurst.PortsBelow, HitPkt.request, Platform.small,
    Platform.nbPorts]

end DaqSwitch.VoqSwq
