import DaqSwitch.VoqSwq.FlowTable

/-!
# Activation of flows

A slot that becomes active gets its ring polled.  Two bounds stand in the way for a port
with many flows: `init_rings` creates one ring less than there are slots, and the masks of
active flows are built and tested with `int` shifts, which are defined for half of the
slots.  The sign bits of `1 << 31` also let the tx lcore poll the slot without a ring.
-/

namespace DaqSwitch.VoqSwq

open Lib Lib.Machine

variable {C : OneShl} {nic : FdirNic} {Q : HitPkt → Prop} {R R' : ℕ → FlowRegistry}
  {path : Path} {pkt : HitPkt} {s t : DefState} {slot : ℕ}

/-! ## Room in a table -/

/-- The tables of the ports in `S` have no active slot from `m` on. -/
def Within (S : ℕ → Prop) (m : ℕ) (s : DefState) : Prop :=
  ∀ port, S port → (s.dp.flows port m).active = false

/-- The flow of the path is known, or slot `m` of the table is still free; asked of the
ports in `S`. -/
def Room (S : ℕ → Prop) (m : ℕ) (path : Path) (s : DefState) : Prop :=
  S path.outPort → Present (s.dp.flows path.outPort) path.key ∨
    (s.dp.flows path.outPort m).active = false

lemma Tables.present_iff (hR : Tables s.dp.flows R) : Present (s.dp.flows path.outPort) path.key ↔
    ∃ slot, (R path.outPort).indexOf path.key = some slot := by
  rw [Path.key, ← findFlow_isSome_iff, hR.findFlow_eq, Option.isSome_iff_exists]

lemma Tables.inactive_iff (hR : Tables s.dp.flows R) {port m : ℕ} :
    (s.dp.flows port m).active = false ↔ (R port).entries.length ≤ m := by
  rw [← not_lt, ← (hR port).live_iff, Bool.not_eq_true]

lemma Tables.within_iff (hR : Tables s.dp.flows R) {S : ℕ → Prop} {m : ℕ} :
    Within S m s ↔ ∀ port, S port → (R port).entries.length ≤ m := by
  simp only [Within, hR.inactive_iff]

/-- The step lemma: an allocation needs room. -/
lemma SetupStep.within_iff (hR : Tables s.dp.flows R) (h : SetupStep C path pkt s t R R' slot)
    {S : ℕ → Prop} {m : ℕ} : Within S (m + 1) t ↔ Within S (m + 1) s ∧ Room S m path s := by
  rw [h.tables.within_iff, hR.within_iff, Room, hR.present_iff, hR.inactive_iff]
  rcases h.choice with ⟨rfl, -, -⟩ | ha
  · exact (and_iff_left fun _ => Or.inl ⟨slot, h.index⟩).symm
  · have hlen : (R' path.outPort).entries.length = (R path.outPort).entries.length + 1 := by
      rw [ha.entries, List.length_append]
      rfl
    constructor
    · intro ht
      refine ⟨?_, fun hp => Or.inr ?_⟩
      · intro port hp
        exact (h.ext port).length_le.trans (ht port hp)
      · have := ht path.outPort hp
        omega
    · rintro ⟨hs, hroom⟩ port hp
      by_cases hpo : port = path.outPort
      · subst hpo
        rcases hroom hp with ⟨i, hi⟩ | hle
        · rw [ha.fresh] at hi
          cases hi
        · omega
      · rw [ha.other port hpo]
        exact hs port hp

/-- Room for the next flow is the exact condition for a bound on the tables. -/
lemma exact_room {I : (ℕ → FlowRegistry) → DefState → Prop}
    (hI : ∀ path pkt s t R R' slot, PathOf Q path pkt →
      SetupStep C path pkt s t R R' slot → I R s → I R' t)
    (S : ℕ → Prop) {m : ℕ} (hm : m + 1 < dpPortMaxDataFlows) :
    Exact C Q I (Within S (m + 1)) (Room S m) where
  inv := hI
  keep path pkt s t R R' slot _ h _ hR hJ hK := (h.within_iff hR).mpr ⟨hJ, hK⟩
  need path pkt s t R R' slot _ h _ hR hJ := (h.within_iff hR).mp hJ
  full path pkt s R _ _ hR _ hfull hJ hp := by
    have := (hR.within_iff.mp hJ) path.outPort hp
    omega

lemma room_run_iff {dp : DpParams} (hflows : dp.flows = fun _ _ => default) (S : ℕ → Prop)
    {m : ℕ} (hm : m + 1 < dpPortMaxDataFlows) {bursts : List PktBurst}
    (h : run (tableActionHandlerHit C nic) bursts (DefState.init dp) = some t) :
    Within S (m + 1) t ↔ SetupsMeet C nic (Room S m) bursts (DefState.init dp) := by
  have hE : Exact C (fun _ => True) (fun _ _ => True) (Within S (m + 1)) (Room S m) :=
    exact_room (fun _ _ _ _ _ _ _ _ _ _ => trivial) S hm
  rw [hE.run_iff (fun _ _ _ _ => trivial) h (along_init hflows trivial)]
  refine and_iff_right ?_
  intro port _
  rw [DefState.init, hflows]
  rfl

/-! ## Masks of active flows -/

/-- The mask of a port is built from the slots of its registry in their order. -/
structure Masks (C : OneShl) (dp : DpParams) (R : ℕ → FlowRegistry) (s : DefState) : Prop where
  same : SameConf dp s.dp
  shifts : ∀ port, s.shifts port = List.range (R port).entries.length
  mask : ∀ l k port, TxEntry s.dp l k port →
    ((s.dp.lcores l).tx k).activeFlows = C.maskOf (s.shifts port)

lemma masks_init {P : Platform} {dp : DpParams} (hready : Ready P dp) :
    Masks C dp (fun _ => Registry.empty _ _) (DefState.init dp) where
  same := SameConf.refl dp
  shifts _ := rfl
  mask l k _ h := hready.txConf l h.lcore k h.entry

lemma Masks.step {P : Platform} {dp : DpParams} (hready : Ready P dp) (hM : Masks C dp R s)
    (h : SetupStep C path pkt s t R R' slot) : Masks C dp R' t := by
  rcases h.choice with ⟨rfl, hdp, hshifts⟩ | ha
  · refine ⟨hM.same.trans h.sameConf, ?_, ?_⟩
    · intro port
      rw [hshifts, hM.shifts port]
    · intro l k port hconf
      rw [hdp] at hconf ⊢
      rw [hshifts, hM.mask l k port hconf]
  · refine ⟨hM.same.trans h.sameConf, ?_, ?_⟩
    · intro port
      rw [ha.shifts]
      by_cases hp : port = path.outPort
      · subst hp
        rw [Function.update_self, hM.shifts, ha.entries, List.length_append, ha.slot_eq,
          List.length_singleton, List.range_succ]
      · rw [Function.update_of_ne hp, hM.shifts, ha.other port hp]
    · intro l k port hconf
      obtain ⟨conf, hown, hdp⟩ := ha.exists_conf
      have hold := h.sameConf.txEntry_iff.mp hconf
      have hflow : ∀ l k, ((s.dp.setFlow path.outPort slot path.flow).lcores l).tx k =
          (s.dp.lcores l).tx k := fun _ _ => rfl
      rw [hdp, setActive_lcores, ha.shifts, hflow]
      by_cases hlk : (l, k) = conf
      · -- the entry that was found serves the port of the path
        obtain rfl : port = path.outPort := by
          subst hlk
          rw [← hold.port, ← hown.port]
        rw [if_pos hlk, Function.update_self, OneShl.maskOf_concat, hM.mask l k _ hold]
      · -- another entry serves another port
        have hp : port ≠ path.outPort := by
          rintro rfl
          obtain ⟨hl, hk⟩ := hready.txEntry_unique (hM.same.txEntry_iff.mp hold)
            (hM.same.txEntry_iff.mp hown)
          exact hlk (Prod.ext hl hk)
        rw [if_neg hlk, Function.update_of_ne hp, hM.mask l k port hold]

/-! ## Rings of active flows -/

/-- Every ring that is used exists: the rings of the active slots, which `dp_dump_cfg`
counts, those that the rx lcores read from the filters, and those that the tx lcores poll. -/
structure RingsExist (C : OneShl) (s : DefState) : Prop where
  active : ∀ port, ∀ i < dpPortMaxDataFlows, (s.dp.flows port i).active = true →
    ∃ ring, s.dp.rings port i = some ring
  decoded : ∀ f ∈ s.installed, ∃ ring,
    s.dp.rings f.destPort (fdirSlot f.call.softId) = some ring
  polled : ∀ l k port, TxEntry s.dp l k port → ∀ i < dpPortMaxDataFlows,
    activeTest C ((s.dp.lcores l).tx k).activeFlows i = true →
    ∃ ring, s.dp.rings port i = some ring

/-- Slot `m` has a ring, and its bits in a mask do not pass the test of the last slot, which
has none. -/
def Ringed (C : OneShl) (m : ℕ) : Prop :=
  m < dpPortMaxDataFlows - 1 ∧ C.val64 m &&& C.val64 (dpPortMaxDataFlows - 1) = 0

/-- All active slots are ringed. -/
def AllRinged (C : OneShl) (s : DefState) : Prop :=
  ∀ port m, (s.dp.flows port m).active = true → Ringed C m

/-- The flow of the path is known, or the table has a free slot up to which all slots are
ringed. -/
def RingRoom (C : OneShl) (path : Path) (s : DefState) : Prop :=
  Present (s.dp.flows path.outPort) path.key ∨
    ∃ m, (s.dp.flows path.outPort m).active = false ∧ ∀ j ≤ m, Ringed C j

lemma Tables.allRinged_iff (hR : Tables s.dp.flows R) :
    AllRinged C s ↔ ∀ port, ∀ m < (R port).entries.length, Ringed C m := by
  simp only [AllRinged, (hR _).live_iff]

/-- The step lemma: an allocation takes the first free slot. -/
lemma SetupStep.allRinged_iff (hR : Tables s.dp.flows R) (h : SetupStep C path pkt s t R R' slot) :
    AllRinged C t ↔ AllRinged C s ∧ RingRoom C path s := by
  rw [h.tables.allRinged_iff, hR.allRinged_iff, RingRoom, hR.present_iff]
  simp only [hR.inactive_iff]
  rcases h.choice with ⟨rfl, -, -⟩ | ha
  · exact (and_iff_left (Or.inl ⟨slot, h.index⟩)).symm
  · have hlen : (R' path.outPort).entries.length = (R path.outPort).entries.length + 1 := by
      rw [ha.entries, List.length_append]
      rfl
    constructor
    · intro ht
      refine ⟨?_, Or.inr ⟨(R path.outPort).entries.length, le_rfl, ?_⟩⟩
      · intro port m hm
        exact ht port m (hm.trans_le (h.ext port).length_le)
      · intro j hj
        exact ht path.outPort j (by omega)
    · rintro ⟨hs, hroom⟩ port m hm
      by_cases hpo : port = path.outPort
      · subst hpo
        rcases hroom with ⟨i, hi⟩ | ⟨free, hfree, hringed⟩
        · rw [ha.fresh] at hi
          cases hi
        · exact hringed m (by omega)
      · rw [ha.other port hpo] at hm
        exact hs port m hm

/-- Room for the next flow is the exact condition for ringed tables. -/
lemma exact_ringRoom : Exact C Q (fun _ _ => True) (AllRinged C) (RingRoom C) where
  inv _ _ _ _ _ _ _ _ _ _ := trivial
  keep path pkt s t R R' slot _ h _ hR hJ hK := (h.allRinged_iff hR).mpr ⟨hJ, hK⟩
  need path pkt s t R R' slot _ h _ hR hJ := (h.allRinged_iff hR).mp hJ
  full path pkt s R _ _ hR _ hfull hJ := by
    -- in a full table the last slot is active, which has no ring
    have hlast := hR.allRinged_iff.mp hJ path.outPort (dpPortMaxDataFlows - 1)
      (by rw [hfull]; decide)
    exact absurd hlast.1 (lt_irrefl _)

lemma allRinged_run_iff {dp : DpParams} (hflows : dp.flows = fun _ _ => default)
    {bursts : List PktBurst}
    (h : run (tableActionHandlerHit C nic) bursts (DefState.init dp) = some t) :
    AllRinged C t ↔ SetupsMeet C nic (RingRoom C) bursts (DefState.init dp) := by
  rw [(exact_ringRoom (Q := fun _ => True)).run_iff (fun _ _ _ _ => trivial) h
    (along_init hflows trivial)]
  refine and_iff_right ?_
  intro port m hm
  rw [DefState.init, hflows] at hm
  cases hm

/-- What a run keeps about the ports of the switch: only they get flows, and their masks
are built from their slots. -/
structure PortFlows (C : OneShl) (P : Platform) (dp : DpParams) (R : ℕ → FlowRegistry)
    (s : DefState) : Prop where
  filters : Filters (fun pkt => pkt.port < P.nbPorts ∧ pkt.entryPort < P.nbPorts) R s
  below : ∀ port, (R port).entries ≠ [] → port < P.nbPorts
  masks : Masks C dp R s

lemma PortFlows.step {P : Platform} {dp : DpParams} (hready : Ready P dp)
    (hpath : PathOf (fun pkt => pkt.port < P.nbPorts ∧ pkt.entryPort < P.nbPorts) path pkt)
    (h : SetupStep C path pkt s t R R' slot) (hI : PortFlows C P dp R s) :
    PortFlows C P dp R' t where
  filters := hI.filters.step hpath h
  below port hp := by
    rcases h.choice with ⟨rfl, -, -⟩ | ha
    · exact hI.below port hp
    · by_cases hpo : port = path.outPort
      · rw [hpo]
        obtain ⟨hpkt, rfl | rfl⟩ := hpath
        · exact hpkt.1
        · exact hpkt.2
      · rw [ha.other port hpo] at hp
        exact hI.below port hp
  masks := hI.masks.step hready h

lemma portFlows_run {P : Platform} {dp : DpParams} (hready : Ready P dp)
    {bursts : List PktBurst} (hports : ∀ b ∈ bursts, b.PortsBelow P.nbPorts)
    (h : run (tableActionHandlerHit C nic) bursts (DefState.init dp) = some t) :
    ∃ R, Tables t.dp.flows R ∧ PortFlows C P dp R t := by
  have hinit : PortFlows C P dp (fun _ => Registry.empty _ _) (DefState.init dp) :=
    ⟨filters_init dp, fun _ hp => absurd rfl hp, masks_init hready⟩
  obtain ⟨R, hR, -, hI⟩ := handler_run
    (fun _ _ _ _ _ _ _ hpath hstep hI => hI.step hready hpath hstep) hports h
    (along_init hready.flows hinit)
  exact ⟨R, hR, hI⟩

/-- What a tx lcore makes of the test of slot `i` of a port with `n` flows. -/
lemma Masks.activeTest_eq_false_iff {dp : DpParams} (hM : Masks C dp R s) {l k port : ℕ}
    (he : TxEntry s.dp l k port) (i : ℕ) :
    activeTest C ((s.dp.lcores l).tx k).activeFlows i = false ↔
      ∀ m < (R port).entries.length, C.val64 m &&& C.val64 i = 0 := by
  rw [activeTest, bne_eq_false_iff_eq, hM.mask l k port he, hM.shifts, C.maskOf_and_eq_zero_iff]
  simp only [List.mem_range]

/-- All rings that are used exist if and only if all active slots are ringed. -/
lemma ringsExist_iff_allRinged {P : Platform} {dp : DpParams} (hinit : dpInit P = some dp)
    {bursts : List PktBurst} (hports : ∀ b ∈ bursts, b.PortsBelow P.nbPorts)
    (h : run (tableActionHandlerHit C nic) bursts (DefState.init dp) = some t) :
    RingsExist C t ↔ AllRinged C t := by
  obtain ⟨hready, hrings⟩ := dpInit_spec hinit
  obtain ⟨R, hR, hI⟩ := portFlows_run hready hports h
  have hconf := handler_sameConf h (tables_defInit hready.flows)
  have hringsT : ∀ i j, t.dp.rings i j =
      if i < P.nbPorts ∧ j < dpPortMaxDataFlows - 1 then some ⟨i, j⟩ else none := by
    rw [hconf.rings]
    exact hrings
  -- `init_rings` stops one short, so the last slot has no ring
  have hlast : ∀ port, ¬ ∃ ring, t.dp.rings port (dpPortMaxDataFlows - 1) = some ring := by
    rintro port ⟨ring, hring⟩
    rw [hringsT, if_neg (by simp)] at hring
    cases hring
  rw [hR.allRinged_iff]
  constructor
  · intro hex port m hm
    refine ⟨?_, ?_⟩
    · by_contra hge
      have hact := (hR port).isLive (dpPortMaxDataFlows - 1) (by omega)
      exact hlast port (hex.active port _ (by decide) hact)
    · have hport := hI.below port (List.ne_nil_of_length_pos (by omega))
      obtain ⟨l, k, he⟩ := hready.exists_txEntry hport
      have he' := hconf.txEntry_iff.mpr he
      refine (hI.masks.activeTest_eq_false_iff he' _).mp ?_ m hm
      by_contra hpoll
      exact hlast port (hex.polled l k port he' _ (by decide) (by simpa using hpoll))
  · intro hringed
    have hslot : ∀ port i, (t.dp.flows port i).active = true →
        ∃ ring, t.dp.rings port i = some ring := by
      intro port i hact
      have hi := (hR port).live_iff.mp hact
      have hport := hI.below port (List.ne_nil_of_length_pos (by omega))
      exact ⟨_, by rw [hringsT, if_pos ⟨hport, (hringed port i hi).1⟩]⟩
    refine ⟨fun port i _ hact => hslot port i hact, fun f hf => hslot _ _ ?_, ?_⟩
    · obtain ⟨n, henc⟩ := hI.filters.exists_encoded hf
      exact (henc.decodesTo hready hconf hR).active
    · intro l k port he i hi htrue
      have hport := hready.txDist.lt l k port
        (serves_dataTx_iff.mpr (hconf.txEntry_iff.mp he))
      rcases Nat.lt_or_ge i (dpPortMaxDataFlows - 1) with hlt | hge
      · exact ⟨_, by rw [hringsT, if_pos ⟨hport, hlt⟩]⟩
      · obtain rfl : i = dpPortMaxDataFlows - 1 := by omega
        have hfalse := (hI.masks.activeTest_eq_false_iff he _).mpr
          fun m hm => (hringed port m hm).2
        rw [hfalse] at htrue
        cases htrue

/-- **Rings of active flows.**  After `init_rings`, every ring that is used in a run exists if
and only if every set-up of the run finds its flow known or a free slot up to which all
slots are ringed. -/
theorem ringsExist_run_iff {P : Platform} {dp : DpParams} (hinit : dpInit P = some dp)
    {bursts : List PktBurst} (hports : ∀ b ∈ bursts, b.PortsBelow P.nbPorts)
    (h : run (tableActionHandlerHit C nic) bursts (DefState.init dp) = some t) :
    RingsExist C t ↔ SetupsMeet C nic (RingRoom C) bursts (DefState.init dp) := by
  rw [ringsExist_iff_allRinged hinit hports h, allRinged_run_iff (dpInit_spec hinit).1.flows h]

theorem ringsExist_small : RingsExist OneShl.modular smallState ↔ SetupsMeet OneShl.modular
    FdirNic.accepting (RingRoom OneShl.modular) smallBursts (DefState.init dpSmall) :=
  ringsExist_run_iff dpInit_small
    (fun b hb => smallBursts_portsBelow b (List.mem_append_left _ hb)) run_small

/-- Where `int` shifts are taken modulo 32, only the bits of `1 << 31` pass the test of the
last slot. -/
lemma ringed_modular_iff {m : ℕ} : Ringed OneShl.modular m ↔ m < 63 ∧ m ≠ 31 := by
  have hbits : ∀ m < 63, (OneShl.modular.val64 m &&& OneShl.modular.val64 63 = 0 ↔ m ≠ 31) := by
    decide +kernel
  exact and_congr_right (hbits m)

/-- The exact condition where `int` shifts are taken modulo 32: at most 30 flows in the table
of the port, or a known flow. -/
theorem ringsExist_modular_iff {P : Platform} {dp : DpParams} (hinit : dpInit P = some dp)
    {bursts : List PktBurst} (hports : ∀ b ∈ bursts, b.PortsBelow P.nbPorts)
    (h : run (tableActionHandlerHit OneShl.modular nic) bursts (DefState.init dp) = some t) :
    RingsExist OneShl.modular t ↔
      SetupsMeet OneShl.modular nic (Room (fun _ => True) 30) bursts (DefState.init dp) := by
  obtain ⟨R, hR, -⟩ := registries_run h (tables_defInit (dpInit_spec hinit).1.flows)
  rw [ringsExist_iff_allRinged hinit hports h,
    ← room_run_iff (dpInit_spec hinit).1.flows _ (by decide) h, hR.allRinged_iff, hR.within_iff]
  simp only [ringed_modular_iff]
  constructor
  · intro hringed port _
    by_contra hlen
    exact (hringed port 31 (by omega)).2 rfl
  · intro hlen port m hm
    have := hlen port trivial
    omega

/-- A burst of `n` requests with different events. -/
def PktBurst.requests (n : ℕ) : PktBurst where
  pkts i := HitPkt.request (BitVec.ofNat 16 (4000 + i)) (BitVec.ofNat 32 i)
  pktsMask := BitVec.ofNat 64 (2 ^ n - 1)

/-- A burst of 32 requests is enough for the tx lcore of port 0 to poll the last slot, which has no
ring; a burst of 64 requests fills the table of the port up to this slot. -/
theorem not_ringsExist :
    (∃ t, run (tableActionHandlerHit OneShl.modular FdirNic.accepting) [PktBurst.requests 32]
      (DefState.init dpSmall) = some t ∧ ¬ RingsExist OneShl.modular t) ∧
    ∃ t, run (tableActionHandlerHit OneShl.modular FdirNic.accepting) [PktBurst.requests 64]
      (DefState.init dpSmall) = some t ∧ ¬ RingsExist OneShl.modular t := by
  have h32 : ((run (tableActionHandlerHit OneShl.modular FdirNic.accepting)
      [PktBurst.requests 32] (DefState.init dpSmall)).map fun t =>
        (activeTest OneShl.modular ((t.dp.lcores 2).tx 0).activeFlows 63, t.dp.rings 0 63)) =
      some (true, none) := by
    decide +kernel
  have h64 : ((run (tableActionHandlerHit OneShl.modular FdirNic.accepting)
      [PktBurst.requests 64] (DefState.init dpSmall)).map fun t =>
        ((t.dp.flows 0 63).active, t.dp.rings 0 63)) = some (true, none) := by decide +kernel
  have hentry : TxEntry dpSmall 2 0 0 := ⟨by decide, by decide, by decide⟩
  have hflows := (dpInit_spec dpInit_small).1.flows
  constructor
  · obtain ⟨t, ht, hlast⟩ := Option.map_eq_some_iff.mp h32
    rw [Prod.mk.injEq] at hlast
    refine ⟨t, ht, ?_⟩
    intro hex
    have he := (handler_sameConf ht (tables_defInit hflows)).txEntry_iff.mpr hentry
    obtain ⟨ring, hring⟩ := hex.polled 2 0 0 he 63 (by decide) hlast.1
    rw [hlast.2] at hring
    cases hring
  · obtain ⟨t, ht, hlast⟩ := Option.map_eq_some_iff.mp h64
    rw [Prod.mk.injEq] at hlast
    refine ⟨t, ht, ?_⟩
    intro hex
    obtain ⟨ring, hring⟩ := hex.active 0 63 (by decide) hlast.1
    rw [hlast.2] at hring
    cases hring

/-! ## Polling of active flows -/

/-- Activation and polling agree at slot `i` of a port: the shift of the test and all
shifts that built the mask are defined, and the test tells whether the slot is active. -/
structure PollingLaw (C : OneShl) (s : DefState) (port i : ℕ) : Prop where
  test : OneShl.Defined i
  built : ∀ n ∈ s.shifts port, OneShl.Defined n
  agree : ∀ l k, TxEntry s.dp l k port →
    (activeTest C ((s.dp.lcores l).tx k).activeFlows i = true ↔ (s.dp.flows port i).active = true)

/-- The law in terms of the number of flows of the port. -/
lemma Masks.pollingLaw_iff {dp : DpParams} (hM : Masks C dp R s) (hR : Tables s.dp.flows R)
    {port i : ℕ} : PollingLaw C s port i ↔ i < 32 ∧ (R port).entries.length ≤ 32 := by
  have hbuilt : (∀ n ∈ s.shifts port, OneShl.Defined n) ↔ (R port).entries.length ≤ 32 := by
    rw [hM.shifts]
    constructor
    · -- the 33rd flow is activated by `1 << 32`
      intro h
      by_contra hlt
      have : OneShl.Defined 32 := h 32 (List.mem_range.mpr (by omega))
      exact absurd this (lt_irrefl 32)
    · intro h n hn
      exact (List.mem_range.mp hn).trans_le h
  constructor
  · exact fun h => ⟨h.test, hbuilt.mp h.built⟩
  · rintro ⟨hi, hlen⟩
    refine ⟨hi, hbuilt.mpr hlen, ?_⟩
    intro l k hconf
    rw [activeTest, bne_iff_ne, hM.mask l k port hconf,
      C.maskOf_and_ne_zero_iff (hbuilt.mpr hlen) hi, hM.shifts, List.mem_range, (hR port).live_iff]

/-- **Polling of active flows.**  After a run, activation and polling agree at a slot of a
port if and only if the slot is one of the first 32 and every set-up toward the port found
its flow known or at most 31 flows in the table. -/
theorem pollingLaw_run_iff {P : Platform} {dp : DpParams} (hinit : dpInit P = some dp)
    {bursts : List PktBurst}
    (h : run (tableActionHandlerHit C nic) bursts (DefState.init dp) = some t) (port i : ℕ) :
    PollingLaw C t port i ↔
      i < 32 ∧ SetupsMeet C nic (Room (· = port) 31) bursts (DefState.init dp) := by
  have hready := (dpInit_spec hinit).1
  obtain ⟨R, hR, -, hM⟩ := handler_run (Q := fun _ => True)
    (fun _ _ _ _ _ _ _ _ hstep hM => Masks.step hready hM hstep) (fun _ _ _ _ => trivial) h
    (along_init hready.flows (masks_init hready))
  rw [← room_run_iff hready.flows _ (by decide) h, hM.pollingLaw_iff hR, hR.within_iff]
  exact and_congr_right fun _ => ⟨fun hlen p hp => hp ▸ hlen, fun hlen => hlen port rfl⟩

theorem pollingLaw_small : PollingLaw OneShl.modular smallState 0 3 ↔
    3 < 32 ∧ SetupsMeet OneShl.modular FdirNic.accepting (Room (· = 0) 31) smallBursts
      (DefState.init dpSmall) :=
  pollingLaw_run_iff dpInit_small run_small 0 3

/-- After 32 requests the test of a compiler that shifts modulo 32 is true at slot 63, which
is not active and has no ring. -/
theorem not_pollingLaw : ∃ t : DefState,
    run (tableActionHandlerHit OneShl.modular FdirNic.accepting) [PktBurst.requests 32]
      (DefState.init dpSmall) = some t ∧ ¬ PollingLaw OneShl.modular t 0 63 ∧
    ((t.dp.lcores 2).tx 0).portId = 0 ∧
    activeTest OneShl.modular ((t.dp.lcores 2).tx 0).activeFlows 63 = true ∧
    (t.dp.flows 0 63).active = false ∧ t.dp.rings 0 63 = none := by
  have hrun : ((run (tableActionHandlerHit OneShl.modular FdirNic.accepting)
      [PktBurst.requests 32] (DefState.init dpSmall)).map fun t =>
        (((t.dp.lcores 2).tx 0).portId,
          activeTest OneShl.modular ((t.dp.lcores 2).tx 0).activeFlows 63,
          (t.dp.flows 0 63).active, t.dp.rings 0 63)) = some (0, true, false, none) := by
    decide +kernel
  obtain ⟨t, ht, hvals⟩ := Option.map_eq_some_iff.mp hrun
  simp only [Prod.mk.injEq] at hvals
  exact ⟨t, ht, fun hlaw => absurd hlaw.test (by decide), hvals⟩

end DaqSwitch.VoqSwq
