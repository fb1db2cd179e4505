import DaqSwitch.VoqSwq.LcoreDataRx
import DaqSwitch.VoqSwq.SetupsMeet

/-!
# Flow-director filters

The default lcore packs the slot of a flow and a counter of its own into the 16-bit id of a
filter, and the data rx lcores take the slot out again.  The slot always survives the
packing, so every filter leads the packets to the flow it was installed for; the counter
loses all but ten bits, so ids repeat.
-/

namespace DaqSwitch.VoqSwq

open Lib Lib.Machine

/-! ## The packed id -/

lemma toNat_fdirIdLocal {slot : ℕ} (hslot : slot < 64) (c : BitVec 16) :
    (fdirIdLocal slot c).toNat = slot + 64 * (c.toNat % 1024) := by
  -- the slot fits into the six low bits, so `|` is `+`
  have hor : slot ||| c.toNat * 64 = slot + 64 * c.toNat := by
    rw [Nat.or_comm, Nat.mul_comm, Nat.add_comm]
    exact (Nat.two_pow_add_eq_or_of_lt (i := 6) hslot c.toNat).symm
  have hc := c.isLt
  have hmod : c.toNat * 64 % 2 ^ 32 = c.toNat * 64 := Nat.mod_eq_of_lt (by omega)
  have hmod' : c.toNat % 2 ^ 32 = c.toNat := Nat.mod_eq_of_lt (by omega)
  have hmod'' : slot % 2 ^ 16 % 2 ^ 32 = slot := by omega
  rw [fdirIdLocal, dpFdirOutQueueMaskSize]
  simp only [BitVec.toNat_setWidth, BitVec.toNat_or, BitVec.toNat_shiftLeft, BitVec.toNat_ofNat,
    Nat.shiftLeft_eq]
  rw [hmod', hmod'', hmod, hor]
  omega

lemma fdirSlot_eq_mod (id : BitVec 16) : fdirSlot id = id.toNat % 64 := by
  rw [fdirSlot, dpFdirOutQueueMask, BitVec.toNat_and]
  exact Nat.and_two_pow_sub_one_eq_mod _ 6

/-- The rx lcore reads the slot that the default lcore packed, whatever the counter. -/
lemma fdirSlot_fdirIdLocal {slot : ℕ} (hslot : slot < 64) (c : BitVec 16) :
    fdirSlot (fdirIdLocal slot c) = slot := by
  rw [fdirSlot_eq_mod, toNat_fdirIdLocal hslot]
  omega

/-- Two ids agree when the slots do and the counters do modulo 1024. -/
lemma fdirIdLocal_eq_iff {slot slot' : ℕ} (hslot : slot < 64) (hslot' : slot' < 64) (n n' : ℕ) :
    fdirIdLocal slot (BitVec.ofNat 16 n) = fdirIdLocal slot' (BitVec.ofNat 16 n') ↔
      slot = slot' ∧ n % 1024 = n' % 1024 := by
  rw [← BitVec.toNat_inj, toNat_fdirIdLocal hslot, toNat_fdirIdLocal hslot', BitVec.toNat_ofNat,
    BitVec.toNat_ofNat]
  omega

/-! ## The filters of a port -/

/-- The filters that a NIC port has accepted, in order. -/
def DefState.filtersOn (s : DefState) (port : ℕ) : List Installed :=
  s.installed.filter fun f => f.call.portId == port

/-- What the call for the `n`-th filter of a NIC port says of the path it was made for. -/
structure Encoded (Q : HitPkt → Prop) (R : ℕ → FlowRegistry) (f : Installed) (n : ℕ) : Prop where
  path : PathOf Q f.path f.pkt
  portId : f.call.portId = f.path.nicPort
  filter : f.call.filter = f.path.filter
  rxQueue : f.call.rxQueue = f.path.outPort + dpPortRxqIdDataMin
  softId : ∃ slot, (R f.path.outPort).indexOf f.path.key = some slot ∧
    f.call.softId = fdirIdLocal slot (BitVec.ofNat 16 n)

/-- The invariant of the filters: each port's counter counts its filters. -/
structure Filters (Q : HitPkt → Prop) (R : ℕ → FlowRegistry) (s : DefState) : Prop where
  counter : ∀ port, s.fdirId port = BitVec.ofNat 16 (s.filtersOn port).length
  encoded : ∀ port i f, (s.filtersOn port)[i]? = some f → Encoded Q R f (i + 1)

variable {C : OneShl} {nic : FdirNic} {Q : HitPkt → Prop} {R R' : ℕ → FlowRegistry}
  {path : Path} {pkt : HitPkt} {s t : DefState} {slot : ℕ}

lemma filters_init (dp : DpParams) :
    Filters Q (fun _ => Registry.empty _ _) (DefState.init dp) where
  counter _ := rfl
  encoded _ _ _ h := by cases h

lemma Encoded.extends {f : Installed} {n : ℕ} (h : Encoded Q R f n)
    (hext : ∀ port, Registry.Extends (R port) (R' port)) : Encoded Q R' f n := by
  obtain ⟨slot, hidx, hid⟩ := h.softId
  exact ⟨h.path, h.portId, h.filter, h.rxQueue, slot, (hext _).indexOf hidx, hid⟩

lemma SetupStep.filtersOn (h : SetupStep C path pkt s t R R' slot) (port : ℕ) :
    t.filtersOn port = s.filtersOn port ++ if path.nicPort = port then
      [⟨path, pkt, path.nicPort, path.filter, fdirIdLocal slot (s.fdirId path.nicPort + 1),
        path.outPort + dpPortRxqIdDataMin, 0⟩] else [] := by
  rw [DefState.filtersOn, h.installed, List.filter_append]
  by_cases hp : path.nicPort = port
  · rw [if_pos hp, List.filter_cons_of_pos (by simpa using hp), List.filter_nil]
    rfl
  · rw [if_neg hp, List.filter_cons_of_neg (by simpa using hp), List.filter_nil]
    rfl

lemma Filters.exists_encoded (hF : Filters Q R s) {f : Installed} (hf : f ∈ s.installed) :
    ∃ n, Encoded Q R f n := by
  have hmem : f ∈ s.filtersOn f.call.portId := by
    rw [DefState.filtersOn, List.mem_filter]
    exact ⟨hf, beq_self_eq_true _⟩
  obtain ⟨i, hi⟩ := List.mem_iff_getElem?.mp hmem
  exact ⟨i + 1, hF.encoded _ i f hi⟩

/-- The counter after the next filter. -/
lemma Filters.counter_succ (h : Filters Q R s) (port : ℕ) :
    s.fdirId port + 1 = BitVec.ofNat 16 ((s.filtersOn port).length + 1) := by
  rw [h.counter port, BitVec.ofNat_add]
  rfl

lemma Filters.step (hF : Filters Q R s) (hpath : PathOf Q path pkt)
    (h : SetupStep C path pkt s t R R' slot) : Filters Q R' t := by
  constructor
  · intro port
    rw [h.fdirId, h.filtersOn port]
    by_cases hp : port = path.nicPort
    · subst hp
      rw [Function.update_self, hF.counter_succ, if_pos rfl, List.length_append]
      rfl
    · rw [Function.update_of_ne hp, hF.counter port, if_neg fun heq => hp heq.symm,
        List.append_nil]
  · intro port i f hf
    rw [h.filtersOn port] at hf
    -- an old filter keeps its code because its flow keeps its slot
    by_cases hi : i < (s.filtersOn port).length
    · rw [List.getElem?_append_left hi] at hf
      exact (hF.encoded port i f hf).extends h.ext
    · rw [List.getElem?_append_right (by omega)] at hf
      split at hf
      · next hp =>
        obtain ⟨hlt, hf⟩ := List.getElem?_eq_some_iff.mp hf
        rw [List.length_singleton] at hlt
        have hin : i = (s.filtersOn port).length := by omega
        subst hin
        simp only [Nat.sub_self, List.getElem_cons_zero] at hf
        subst hf hp
        exact ⟨hpath, rfl, rfl, rfl, slot, h.index, by rw [hF.counter_succ]⟩
      · cases hf

/-- The filters of a run. -/
lemma filters_run {dp : DpParams} (hflows : dp.flows = fun _ _ => default)
    {bursts : List PktBurst} (hQ : ∀ b ∈ bursts, ∀ pkt ∈ b.masked, Q pkt)
    (h : run (tableActionHandlerHit C nic) bursts (DefState.init dp) = some t) :
    ∃ R, Tables t.dp.flows R ∧ Filters Q R t := by
  obtain ⟨R, hR, -, hF⟩ := handler_run
    (fun path pkt s t R R' slot hpath hstep hF => Filters.step hF hpath hstep) hQ h
    (along_init hflows (filters_init dp))
  exact ⟨R, hR, hF⟩

/-! ## Encoding and decoding agree -/

/-- The port toward the destination of a filter: the one the request came in on for the
answers, the output port of the table entry for the requests. -/
def Installed.destPort (f : Installed) : ℕ :=
  match f.path.dir with
  | .rosToDcm => f.pkt.port
  | .dcmToRos => f.pkt.entryPort

/-- How the data path reads a filter: its queue is polled for the port toward the
destination, and the slot in its id is an active flow to the filter's destination. -/
structure DecodesTo (dp : DpParams) (f : Installed) : Prop where
  polled : ∃ l k j, RxEntry dp l k j f.call.portId f.call.rxQueue
  outPort : ∀ l k j, RxEntry dp l k j f.call.portId f.call.rxQueue →
    (((dp.lcores l).rx k).queueList j).outPortId = f.destPort
  active : (dp.flows f.destPort (fdirSlot f.call.softId)).active = true
  destIp : (dp.flows f.destPort (fdirSlot f.call.softId)).destIp = f.call.filter.ipDst
  sinkId : (dp.flows f.destPort (fdirSlot f.call.softId)).sinkId = f.path.sinkId

/-- What a path says of its packet. -/
lemma PathOf.cases {f : Installed} (h : PathOf Q f.path f.pkt) :
    f.destPort = f.path.outPort ∧ f.path.filter.ipDst = f.path.destIp ∧
      (f.path.outPort = f.pkt.port ∧ f.path.nicPort = f.pkt.entryPort ∨
        f.path.outPort = f.pkt.entryPort ∧ f.path.nicPort = f.pkt.port) := by
  obtain ⟨-, h | h⟩ := h
  · simp [Installed.destPort, h, rosToDcm]
  · simp [Installed.destPort, h, dcmToRos]

/-- A registered flow sits in its slot. -/
lemma Tables.flow_of_indexOf {flows : ℕ → ℕ → DataFlow} (hR : Tables flows R) {port : ℕ}
    {key : BitVec 32 × BitVec 32} (h : (R port).indexOf key = some slot) :
    (flows port slot).active = true ∧ (flows port slot).key = key := by
  obtain ⟨e, he, rfl⟩ := Registry.indexOf_eq_some h
  exact ⟨(hR port).isLive slot (Registry.indexOf_lt h), by rw [(hR port).get slot e he]⟩

/-- A filter of a run from the initialised data path decodes. -/
lemma Encoded.decodesTo {P : Platform} {dp dp' : DpParams} (hready : Ready P dp)
    (hsame : SameConf dp dp') (hR : Tables dp'.flows R) {f : Installed} {n : ℕ}
    (hf : Encoded (fun pkt => pkt.port < P.nbPorts ∧ pkt.entryPort < P.nbPorts) R f n) :
    DecodesTo dp' f := by
  obtain ⟨hdest, hip, hports⟩ := hf.path.cases
  obtain ⟨slot, hidx, hid⟩ := hf.softId
  obtain ⟨hactive, hkey⟩ := hR.flow_of_indexOf hidx
  have hslot : slot < 64 := (Registry.indexOf_lt hidx).trans_le (R f.path.outPort).bounded
  have hdec : fdirSlot f.call.softId = slot := by
    rw [hid, fdirSlot_fdirIdLocal hslot]
  have hqueue : f.call.rxQueue = dpPortRxqIdDataMin + f.path.outPort := by
    rw [hf.rxQueue, Nat.add_comm]
  have hbelow : f.path.nicPort < P.nbPorts ∧ f.path.outPort < P.nbPorts := by
    have := hf.path.1
    omega
  refine ⟨?_, ?_, ?_, ?_, ?_⟩
  · obtain ⟨l, k, h⟩ := hready.exists_rxEntry hbelow.1 hbelow.2
    refine ⟨l, k, f.path.outPort, hsame.rxEntry_iff.mpr ?_⟩
    rwa [hf.portId, hqueue]
  · intro l k j h
    have h' := hsame.rxEntry_iff.mp h
    obtain ⟨-, -, hq⟩ := hready.rxEntry_iff.mp h'
    rw [hsame.rx l, hready.outPortId_eq h', hdest]
    omega
  · rw [hdest, hdec, hactive]
  · rw [hdest, hdec, hf.filter, hip]
    exact congrArg Prod.fst hkey
  · rw [hdest, hdec]
    exact congrArg Prod.snd hkey

/-- **Filters lead to their flows.**  Every filter that is installed in a run decodes on the
data path to the flow it was installed for, at that time and ever after. -/
theorem filter_decodes {P : Platform} {dp : DpParams} (hinit : dpInit P = some dp)
    {bursts later : List PktBurst} (hports : ∀ b ∈ bursts ++ later, b.PortsBelow P.nbPorts)
    (hs : run (tableActionHandlerHit C nic) bursts (DefState.init dp) = some s)
    (ht : run (tableActionHandlerHit C nic) later s = some t) :
    ∀ f ∈ s.installed, DecodesTo s.dp f ∧ DecodesTo t.dp f := by
  intro f hf
  obtain ⟨hready, -⟩ := dpInit_spec hinit
  obtain ⟨R, hR, hF⟩ := filters_run hready.flows
    (fun b hb => hports b (List.mem_append_left _ hb)) hs
  have hsame := handler_sameConf hs (tables_defInit hready.flows)
  obtain ⟨n, henc⟩ := hF.exists_encoded hf
  -- a filter stays decodable because the registries only grow
  obtain ⟨R', hR', hext⟩ := registries_run ht hR
  exact ⟨henc.decodesTo hready hsame hR,
    (henc.extends hext).decodesTo hready (hsame.trans (handler_sameConf ht hR)) hR'⟩

theorem filter_decodes_small : smallState.installed ≠ [] ∧
    ∀ f ∈ smallState.installed, DecodesTo smallState.dp f ∧ DecodesTo laterState.dp f :=
  ⟨List.ne_nil_of_length_pos (by decide +kernel),
    filter_decodes dpInit_small smallBursts_portsBelow run_small run_later⟩

/-! ## Uniqueness of the ids -/

/-- The ids that a NIC port was given, in order. -/
def DefState.softIds (s : DefState) (port : ℕ) : List (BitVec 16) :=
  (s.filtersOn port).map (·.call.softId)

/-- The slot that the flow of a path has, or would get. -/
def slotFor (s : DefState) (path : Path) : Option ℕ :=
  (findFlow (s.dp.flows path.outPort) path.destIp path.sinkId).or
    (findFree (s.dp.flows path.outPort))

/-- No filter of the NIC that came a multiple of 1024 filters before the next one is for a
flow in the slot that the next one is for. -/
def IdFree (path : Path) (s : DefState) : Prop :=
  ∀ i f, (s.filtersOn path.nicPort)[i]? = some f →
    i % 1024 = (s.filtersOn path.nicPort).length % 1024 → slotFor s f.path ≠ slotFor s path

lemma Tables.slotFor_of_indexOf (hR : Tables s.dp.flows R)
    (h : (R path.outPort).indexOf path.key = some slot) : slotFor s path = some slot := by
  rw [Path.key] at h
  rw [slotFor, hR.findFlow_eq, h, Option.some_or]

lemma Tables.slotFor_full (hR : Tables s.dp.flows R)
    (h : (R path.outPort).indexOf path.key = none)
    (hfull : (R path.outPort).entries.length = dpPortMaxDataFlows) : slotFor s path = none := by
  rw [Path.key] at h
  rw [slotFor, hR.findFlow_eq, h, Option.none_or, hR.findFree_eq, hfull, if_neg (lt_irrefl _)]

/-- A set-up uses the slot that was foreseen. -/
lemma SetupStep.slotFor_eq (h : SetupStep C path pkt s t R R' slot) (hR : Tables s.dp.flows R) :
    slotFor s path = some slot := by
  rcases h.choice with ⟨rfl, -, -⟩ | ha
  · exact hR.slotFor_of_indexOf h.index
  · have hfresh := ha.fresh
    rw [Path.key] at hfresh
    rw [slotFor, hR.findFlow_eq, hfresh, Option.none_or, hR.findFree_eq,
      if_pos (by rw [← ha.slot_eq]; exact ha.slot_lt), ha.slot_eq]

lemma SetupStep.softIds (hF : Filters Q R s) (h : SetupStep C path pkt s t R R' slot)
    (port : ℕ) : t.softIds port = s.softIds port ++ if path.nicPort = port then
      [fdirIdLocal slot (BitVec.ofNat 16 ((s.filtersOn port).length + 1))] else [] := by
  rw [DefState.softIds, h.filtersOn port, List.map_append, DefState.softIds]
  split
  · next hp =>
    subst hp
    rw [hF.counter_succ]
    rfl
  · rfl

/-- The id of the next filter repeats that of an earlier one when the slots agree and the
distance is a multiple of 1024. -/
lemma Encoded.softId_eq_iff {f : Installed} {n n' : ℕ} (hf : Encoded Q R f n)
    (hR : Tables s.dp.flows R) (hslot : slot < 64) (hfor : slotFor s path = some slot) :
    f.call.softId = fdirIdLocal slot (BitVec.ofNat 16 n') ↔
      slotFor s f.path = slotFor s path ∧ n % 1024 = n' % 1024 := by
  obtain ⟨slot', hidx, hid⟩ := hf.softId
  have hslot' : slot' < 64 := (Registry.indexOf_lt hidx).trans_le (R f.path.outPort).bounded
  rw [hid, fdirIdLocal_eq_iff hslot' hslot, hR.slotFor_of_indexOf hidx, hfor, Option.some_inj]

/-- The step lemma: the ids stay distinct when the next one is free. -/
lemma SetupStep.softIds_nodup_iff (hF : Filters Q R s) (hR : Tables s.dp.flows R)
    (h : SetupStep C path pkt s t R R' slot) :
    (∀ port, (t.softIds port).Nodup) ↔ (∀ port, (s.softIds port).Nodup) ∧ IdFree path s := by
  have hslot : slot < 64 := h.slot_lt
  have hfor := h.slotFor_eq hR
  have hfree : fdirIdLocal slot (BitVec.ofNat 16 ((s.filtersOn path.nicPort).length + 1)) ∉
      s.softIds path.nicPort ↔ IdFree path s := by
    rw [DefState.softIds, List.mem_map, not_exists]
    constructor
    · intro hnot i f hf hmod heq
      refine hnot f ⟨List.mem_of_getElem? hf, ?_⟩
      exact ((hF.encoded _ i f hf).softId_eq_iff hR hslot hfor).mpr ⟨heq, by omega⟩
    · rintro hfree f ⟨hmem, hid⟩
      obtain ⟨i, hi⟩ := List.mem_iff_getElem?.mp hmem
      obtain ⟨heq, hmod⟩ := ((hF.encoded _ i f hi).softId_eq_iff hR hslot hfor).mp hid
      exact hfree i f hi (by omega) heq
  constructor
  · intro ht
    refine ⟨?_, hfree.mp ?_⟩
    · intro port
      have := ht port
      rw [h.softIds hF, List.nodup_append] at this
      exact this.1
    · have := ht path.nicPort
      rw [h.softIds hF, if_pos rfl, List.nodup_append] at this
      exact fun hmem => this.2.2 _ hmem _ List.mem_cons_self rfl
  · rintro ⟨hs, hid⟩ port
    rw [h.softIds hF]
    split
    · next hp =>
      subst hp
      refine List.nodup_append.mpr ⟨hs _, List.nodup_singleton _, ?_⟩
      intro a ha b hb
      rw [List.mem_singleton.mp hb]
      rintro rfl
      exact hfree.mpr hid ha
    · rw [List.append_nil]
      exact hs port

lemma exact_idFree : Exact C (fun _ => True) (Filters fun _ => True)
    (fun s => ∀ port, (s.softIds port).Nodup) IdFree where
  inv path pkt s t R R' slot hpath h hF := hF.step hpath h
  keep path pkt s t R R' slot _ h hF hR hJ hK := (h.softIds_nodup_iff hF hR).mpr ⟨hJ, hK⟩
  need path pkt s t R R' slot _ h hF hR hJ := (h.softIds_nodup_iff hF hR).mp hJ
  full path pkt s R _ hF hR hnone hfull _ i f hf _ := by
    obtain ⟨slot, hidx, -⟩ := (hF.encoded _ i f hf).softId
    rw [hR.slotFor_of_indexOf hidx, hR.slotFor_full hnone hfull]
    exact Option.some_ne_none _

/-- **Filter ids repeat with period 1024.**  The ids given to each NIC port in a run are
pairwise distinct if and only if no set-up of the run reuses the slot of a filter that came
a multiple of 1024 filters earlier on the same port. -/
theorem softIds_nodup_run_iff {P : Platform} {dp : DpParams} (hinit : dpInit P = some dp)
    {bursts : List PktBurst}
    (h : run (tableActionHandlerHit C nic) bursts (DefState.init dp) = some t) :
    (∀ port, (t.softIds port).Nodup) ↔ SetupsMeet C nic IdFree bursts (DefState.init dp) := by
  rw [exact_idFree.run_iff (fun _ _ _ _ => trivial) h
    (along_init (dpInit_spec hinit).1.flows (filters_init dp))]
  exact and_iff_right fun port => List.nodup_nil

theorem softIds_nodup_small : (∀ port, (smallState.softIds port).Nodup) ↔
    SetupsMeet OneShl.modular FdirNic.accepting IdFree smallBursts (DefState.init dpSmall) :=
  softIds_nodup_run_iff dpInit_small run_small

/-! ## The same request over and over -/

/-- After `n` bursts that each hold the same request only. -/
structure Repeated (dp : DpParams) (pkt : HitPkt) (n : ℕ) (R : ℕ → FlowRegistry)
    (s : DefState) : Prop where
  tables : Tables s.dp.flows R
  same : SameConf dp s.dp
  filters : Filters (· = pkt) R s
  count : (s.filtersOn pkt.entryPort).length = n
  known : (R pkt.port).entries = [] ∨
    ∃ slot, (R pkt.port).indexOf (rosToDcm pkt).key = some slot

/-- The table of the port holds at most the one flow, so it is never full. -/
lemma Repeated.not_full {dp : DpParams} {n : ℕ} (hs : Repeated dp pkt n R s)
    (h : setupPath C nic (rosToDcm pkt) pkt s = some none) : False := by
  obtain ⟨hnone, hfull⟩ := setupPath_full hs.tables h
  rcases hs.known with h | ⟨slot, h⟩
  · rw [show (rosToDcm pkt).outPort = pkt.port from rfl, h] at hfull
    cases hfull
  · rw [show (rosToDcm pkt).outPort = pkt.port from rfl, h] at hnone
    cases hnone

/-- Each burst adds a filter on the port of the data source. -/
lemma Repeated.step {dp : DpParams} {n : ℕ} (hne : pkt.port ≠ pkt.entryPort)
    (hdet : detects pkt RteFdirFilter.zero = true) (hs : Repeated dp pkt n R s)
    (h : tableActionHandlerHit C nic (PktBurst.single pkt) s = some t) :
    ∃ R', Repeated dp pkt (n + 1) R' t := by
  -- the path of the answers installs on `entryPort`, the one of the requests on `port`
  have hfirst : ∀ m, setupPath C nic (rosToDcm pkt) pkt s = some (some m) →
      ∃ R' slot, Repeated dp pkt (n + 1) R' m ∧
        (R' pkt.port).indexOf (rosToDcm pkt).key = some slot := by
    intro m hm
    obtain ⟨R', slot, h₁⟩ := setupPath_step hs.tables hm
    refine ⟨R', slot, ⟨h₁.tables, hs.same.trans h₁.sameConf,
      hs.filters.step ⟨rfl, Or.inl rfl⟩ h₁, ?_, Or.inr ⟨slot, h₁.index⟩⟩, h₁.index⟩
    rw [h₁.filtersOn, if_pos (by rfl), List.length_append, hs.count]
    rfl
  cases handleSingle_step h with
  | skip hskip _ =>
    rw [hdet] at hskip
    cases hskip
  | full _ _ h₁ => exact (hs.not_full h₁).elim
  | half _ h₁ _ =>
    obtain ⟨R₁, -, ht, -⟩ := hfirst t h₁
    exact ⟨R₁, ht⟩
  | both _ m h₁ h₂ =>
    obtain ⟨R₁, slot, hm, hidx⟩ := hfirst m h₁
    obtain ⟨R₂, slot₂, h₂⟩ := setupPath_step hm.tables h₂
    refine ⟨R₂, h₂.tables, hm.same.trans h₂.sameConf, hm.filters.step ⟨rfl, Or.inr rfl⟩ h₂, ?_,
      Or.inr ⟨slot, (h₂.ext _).indexOf hidx⟩⟩
    rw [h₂.filtersOn, if_neg (by exact hne), List.append_nil, hm.count]

lemma repeated_run {P : Platform} {dp : DpParams} (hready : Ready P dp)
    (hnic : ∀ calls call, nic calls call = 0) (hport : pkt.port < P.nbPorts)
    (hentry : pkt.entryPort < P.nbPorts) (hne : pkt.port ≠ pkt.entryPort)
    (hdet : detects pkt RteFdirFilter.zero = true) (n : ℕ) :
    ∃ t, run (tableActionHandlerHit C nic)
      (List.replicate n (PktBurst.single pkt)) (DefState.init dp) = some t ∧
        ∃ R, Repeated dp pkt n R t := by
  have hbelow : (PktBurst.single pkt).PortsBelow P.nbPorts := by
    intro p hp
    rw [PktBurst.masked_single, List.mem_singleton] at hp
    rw [hp]
    exact ⟨hport, hentry⟩
  induction n with
  | zero =>
    exact ⟨_, rfl, fun _ => Registry.empty _ _, tables_defInit hready.flows, SameConf.refl _,
      filters_init dp, rfl, Or.inl rfl⟩
  | succ n ih =>
    obtain ⟨s, hs, R, hrep⟩ := ih
    obtain ⟨t, ht⟩ := tableActionHandlerHit_total (C := C) hready hnic hbelow hrep.tables hrep.same
    refine ⟨t, ?_, hrep.step hne hdet ht⟩
    rw [List.replicate_succ']
    exact run_append_of_eq_some hs (by rwa [run_singleton])

/-- The filters that a port gets for one request are all for the same flow. -/
lemma Repeated.path_eq {dp : DpParams} {n : ℕ} (hs : Repeated dp pkt n R s)
    (hne : pkt.port ≠ pkt.entryPort) {i : ℕ} {f : Installed}
    (hf : (s.filtersOn pkt.entryPort)[i]? = some f) : f.path = rosToDcm pkt := by
  have henc := hs.filters.encoded _ i f hf
  have hid : f.path.nicPort = pkt.entryPort := by
    rw [← henc.portId]
    have := List.mem_of_getElem? hf
    rw [DefState.filtersOn, List.mem_filter] at this
    simpa using this.2
  obtain ⟨heq, h | h⟩ := henc.path
  · rw [h, heq]
  · rw [h, heq] at hid
    exact absurd hid hne

/-- The 1025th filter for one request has the id of the first. -/
theorem softIds_repeat : ∃ t : DefState,
    run (tableActionHandlerHit OneShl.modular FdirNic.accepting)
      (List.replicate 1025 (PktBurst.single (HitPkt.request 4000 7))) (DefState.init dpSmall) =
        some t ∧ ¬ (t.softIds 1).Nodup := by
  have hready := (dpInit_spec dpInit_small).1
  have hne : (HitPkt.request 4000 7).port ≠ (HitPkt.request 4000 7).entryPort := by decide
  have hnic : ∀ calls call, FdirNic.accepting calls call = 0 := fun _ _ => rfl
  obtain ⟨t, ht, R, hrep⟩ := repeated_run (C := OneShl.modular) hready hnic (by decide)
    (by decide) hne (by decide) 1025
  refine ⟨t, ht, ?_⟩
  intro hnodup
  have hlen : (t.filtersOn 1).length = 1025 := hrep.count
  obtain ⟨f, hf⟩ : ∃ f, (t.filtersOn 1)[0]? = some f :=
    ⟨_, List.getElem?_eq_getElem (by omega)⟩
  obtain ⟨g, hg⟩ : ∃ g, (t.filtersOn 1)[1024]? = some g :=
    ⟨_, List.getElem?_eq_getElem (by omega)⟩
  obtain ⟨slot, hidx, hid⟩ := (hrep.filters.encoded 1 0 f hf).softId
  obtain ⟨slot', hidx', hid'⟩ := (hrep.filters.encoded 1 1024 g hg).softId
  have hslot : slot = slot' := by
    rw [hrep.path_eq hne hf] at hidx
    rw [hrep.path_eq hne hg, hidx, Option.some_inj] at hidx'
    exact hidx'
  have heq : f.call.softId = g.call.softId := by
    have hslot' : slot' < 64 := (Registry.indexOf_lt hidx').trans_le (R _).bounded
    rw [hid, hid', hslot, fdirIdLocal_eq_iff hslot' hslot']
    exact ⟨rfl, by decide⟩
  have h0 : (t.softIds 1)[0]? = some f.call.softId := by
    rw [DefState.softIds, List.getElem?_map, hf]
    rfl
  have h1 : (t.softIds 1)[1024]? = some g.call.softId := by
    rw [DefState.softIds, List.getElem?_map, hg]
    rfl
  have := (List.nodup_iff_getElem?_ne_getElem?.mp hnodup) 0 1024 (by decide)
    (by rw [DefState.softIds, List.length_map]; omega)
  rw [h0, h1, heq] at this
  exact this rfl

end DaqSwitch.VoqSwq
