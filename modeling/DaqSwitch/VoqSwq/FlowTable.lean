import DaqSwitch.VoqSwq.FilterIds
import DaqSwitch.VoqSwq.LcoreDataTx

/-!
# Flow tables

The flow table of a port only grows: its active slots are a front part of the array, keys
are unique and an active slot never changes.  Both kinds of flows share one table and are
found by the same key, so a filter points to a slot of its own kind only when no flow of
the other kind holds its key.
-/

namespace DaqSwitch.VoqSwq

open Lib Lib.Machine

variable {C : OneShl} {nic : FdirNic} {Q : HitPkt → Prop} {R R' : ℕ → FlowRegistry}
  {path : Path} {pkt : HitPkt} {s t : DefState} {slot : ℕ}

/-! ## The invariant of a table -/

/-- The active slots of a flow table are a front part of the array and have pairwise
different keys. -/
structure FlowTable (flows : ℕ → DataFlow) : Prop where
  front : ∀ i j, i ≤ j → (flows j).active = true → (flows i).active = true
  unique : ∀ i j, (flows i).active = true → (flows j).active = true →
    (flows i).key = (flows j).key → i = j

/-- An active slot keeps its contents. -/
def Keeps (flows flows' : ℕ → DataFlow) : Prop :=
  ∀ i, (flows i).active = true → flows' i = flows i

/-- Some active slot has the key. -/
def Present (flows : ℕ → DataFlow) (key : BitVec 32 × BitVec 32) : Prop :=
  ∃ i < dpPortMaxDataFlows, (flows i).active = true ∧ (flows i).key = key

lemma holds_flowTable {flows : ℕ → DataFlow} {R : FlowRegistry}
    (h : SlotArray.Holds DataFlow.active flows R) : FlowTable flows where
  front i j hij hj := h.live_iff.mpr (hij.trans_lt (h.live_iff.mp hj))
  unique i j hi hj hkey := by
    have h₁ := h.key_eq (h.live_iff.mp hi)
    rw [hkey, h.key_eq (h.live_iff.mp hj), Option.some_inj] at h₁
    exact h₁.symm

lemma holds_keeps {flows flows' : ℕ → DataFlow} {R R' : FlowRegistry}
    (h : SlotArray.Holds DataFlow.active flows R) (h' : SlotArray.Holds DataFlow.active flows' R')
    (hext : Registry.Extends R R') : Keeps flows flows' := by
  intro i hi
  have he := List.getElem?_eq_getElem (h.live_iff.mp hi)
  rw [h.get i _ he, h'.get i _ (hext.getElem? he)]

/-- A present key is found. -/
lemma findFlow_isSome_iff {flows : ℕ → DataFlow} {destIp sinkId : BitVec 32} :
    (findFlow flows destIp sinkId).isSome ↔ Present flows (destIp, sinkId) := by
  simp [findFlow, Present, DataFlow.key, and_assoc]

/-- A set-up for a present key leaves all flow tables alone. -/
lemma setupPath_present (hkey : Present (s.dp.flows path.outPort) path.key)
    (h : setupPath C nic path pkt s = some (some t)) : t.dp.flows = s.dp.flows := by
  obtain ⟨slot, hslot⟩ := Option.isSome_iff_exists.mp (findFlow_isSome_iff.mpr hkey)
  unfold setupPath at h
  split at h
  · cases h
  · next conf _ =>
    rw [hslot] at h
    obtain ⟨m, hm, hmt⟩ := Option.map_eq_some_iff.mp h
    rw [Option.some_inj] at hmt
    subst hmt
    rw [(installFilter_some hm).1]

/-- The registries of a run, and of a later part of it. -/
lemma tables_run {dp : DpParams} (hflows : dp.flows = fun _ _ => default)
    {bursts later : List PktBurst}
    (hs : run (tableActionHandlerHit C nic) bursts (DefState.init dp) = some s)
    (ht : run (tableActionHandlerHit C nic) later s = some t) :
    ∃ R R', Tables s.dp.flows R ∧ Tables t.dp.flows R' ∧
      ∀ port, Registry.Extends (R port) (R' port) := by
  obtain ⟨R, hR, -⟩ := registries_run hs (tables_defInit hflows)
  obtain ⟨R', hR', hext⟩ := registries_run ht hR
  exact ⟨R, R', hR, hR', hext⟩

/-- **The flow tables.**  In every state of a run each port's table satisfies the invariant
and its active slots keep their contents for the rest of the run.  A set-up for a key that
is present in the table of its port allocates nothing, in whatever state it is made. -/
theorem flowTable_run {P : Platform} {dp : DpParams} (hinit : dpInit P = some dp)
    {bursts later : List PktBurst}
    (hs : run (tableActionHandlerHit C nic) bursts (DefState.init dp) = some s)
    (ht : run (tableActionHandlerHit C nic) later s = some t) :
    (∀ port, FlowTable (s.dp.flows port) ∧ Keeps (s.dp.flows port) (t.dp.flows port)) ∧
      ∀ u path pkt m, Present (u.dp.flows path.outPort) path.key →
        setupPath C nic path pkt u = some (some m) → m.dp.flows = u.dp.flows := by
  obtain ⟨R, R', hR, hR', hext⟩ := tables_run (dpInit_spec hinit).1.flows hs ht
  exact ⟨fun port => ⟨holds_flowTable (hR port), holds_keeps (hR port) (hR' port) (hext port)⟩,
    fun u path pkt m hkey hm => setupPath_present hkey hm⟩

theorem flowTable_run_small :
    (∀ port, FlowTable (smallState.dp.flows port) ∧
        Keeps (smallState.dp.flows port) (laterState.dp.flows port)) ∧
      ∀ u path pkt m, Present (u.dp.flows path.outPort) path.key →
        setupPath OneShl.modular FdirNic.accepting path pkt u = some (some m) →
        m.dp.flows = u.dp.flows :=
  flowTable_run dpInit_small run_small run_later

/-! ## Data flows and request flows -/

/-- A filter points to a slot of its own kind, which is sent on the tx queue of that kind. -/
def Classified (dp : DpParams) (f : Installed) : Prop :=
  let flow := dp.flows f.destPort (fdirSlot f.call.softId)
  match f.path.dir with
  | .rosToDcm => flow.reqFlow = false ∧ flow.sinkId = f.pkt.flowKey.eventId ∧
      txQueueId flow = dpPortTxqIdData
  | .dcmToRos => flow.reqFlow = true ∧ txQueueId flow = dpPortTxqIdReq

/-- All filters are classified, and filters of different kinds never share a ring. -/
structure Classification (s : DefState) : Prop where
  classified : ∀ f ∈ s.installed, Classified s.dp f
  apart : ∀ f ∈ s.installed, ∀ g ∈ s.installed, f.destPort = g.destPort →
    fdirSlot f.call.softId = fdirSlot g.call.softId → f.path.dir = g.path.dir

/-- No active slot of the port holds the key of the path for a flow of the other kind. -/
def KindFree (path : Path) (s : DefState) : Prop :=
  ∀ i, (s.dp.flows path.outPort i).active = true → (s.dp.flows path.outPort i).key = path.key →
    (s.dp.flows path.outPort i).reqFlow = path.reqFlow

/-- The registered flow with the key of the path, if any, is of its kind. -/
def KindIn (R : ℕ → FlowRegistry) (path : Path) : Prop :=
  ∀ e ∈ (R path.outPort).entries, e.key = path.key → e.reqFlow = path.reqFlow

lemma Tables.kindFree_iff (hR : Tables s.dp.flows R) : KindFree path s ↔ KindIn R path := by
  constructor
  · intro h e he hkey
    obtain ⟨i, hi⟩ := List.mem_iff_getElem?.mp he
    have hget := (hR path.outPort).get i e hi
    have hlt := (List.getElem?_eq_some_iff.mp hi).1
    have := h i ((hR path.outPort).isLive i hlt)
    rw [hget] at this
    exact this hkey
  · intro h i hi
    have he := List.getElem?_eq_getElem ((hR path.outPort).live_iff.mp hi)
    rw [(hR path.outPort).get i _ he]
    exact h _ (List.mem_of_getElem? he)

lemma PathOf.reqFlow_eq (h : PathOf Q path pkt) :
    path.dir = .rosToDcm ∧ path.reqFlow = false ∧ path.sinkId = pkt.flowKey.eventId ∨
      path.dir = .dcmToRos ∧ path.reqFlow = true := by
  obtain ⟨-, rfl | rfl⟩ := h
  · exact Or.inl ⟨rfl, rfl, rfl⟩
  · exact Or.inr ⟨rfl, rfl⟩

lemma kindIn_iff {e : DataFlow} (hidx : (R path.outPort).indexOf path.key = some slot)
    (he : (R path.outPort).entries[slot]? = some e) : KindIn R path ↔ e.reqFlow = path.reqFlow := by
  constructor
  · intro h
    obtain ⟨e', he', hkey⟩ := Registry.indexOf_eq_some hidx
    rw [he, Option.some_inj] at he'
    exact h e (List.mem_of_getElem? he) (he' ▸ hkey)
  · -- the registered flow with the key is unique
    intro h e' he' hkey'
    obtain ⟨i, hi⟩ := List.mem_iff_getElem?.mp he'
    obtain ⟨hlt, hget⟩ := List.getElem?_eq_some_iff.mp hi
    have hidx' := (R path.outPort).indexOf_getElem hlt
    rw [hget, hkey', hidx, Option.some_inj] at hidx'
    rw [← hidx', he, Option.some_inj] at hi
    rw [← hi, h]

/-- The kind of a registered flow never changes. -/
lemma kindIn_ext_iff (hext : Registry.Extends (R path.outPort) (R' path.outPort))
    (hidx : (R path.outPort).indexOf path.key = some slot) : KindIn R' path ↔ KindIn R path := by
  obtain ⟨e, he, -⟩ := Registry.indexOf_eq_some hidx
  rw [kindIn_iff hidx he, kindIn_iff (hext.indexOf hidx) (hext.getElem? he)]

/-- A set-up makes the flow of its path of the right kind exactly when no flow of the other
kind was in the way. -/
lemma SetupStep.kindIn_iff (h : SetupStep C path pkt s t R R' slot) :
    KindIn R' path ↔ KindIn R path := by
  rcases h.choice with ⟨rfl, -, -⟩ | ha
  · rfl
  · -- before the allocation no flow has the key, after it only the new one does
    have hfresh := Registry.indexOf_eq_none_iff.mp ha.fresh
    have hold : KindIn R path := fun e he hkey =>
      absurd (hkey ▸ List.mem_map_of_mem (f := DataFlow.key) he) hfresh
    refine iff_of_true ?_ hold
    intro e he hkey
    rw [ha.entries, List.mem_append, List.mem_singleton] at he
    rcases he with he | rfl
    · exact hold e he hkey
    · rfl

/-- A filter is classified when the flow under its key is of its kind. -/
lemma Encoded.classified_iff {dp : DpParams} (hR : Tables dp.flows R) {f : Installed} {n : ℕ}
    (hf : Encoded Q R f n) : Classified dp f ↔ KindIn R f.path := by
  obtain ⟨hdest, -, -⟩ := hf.path.cases
  obtain ⟨slot, hidx, hid⟩ := hf.softId
  have hslot : slot < 64 := (Registry.indexOf_lt hidx).trans_le (R f.path.outPort).bounded
  obtain ⟨e, he, hkey⟩ := Registry.indexOf_eq_some hidx
  have hflow : dp.flows f.destPort (fdirSlot f.call.softId) = e := by
    rw [hdest, hid, fdirSlot_fdirIdLocal hslot]
    exact (hR _).get slot e he
  have hsink : e.sinkId = f.path.sinkId := congrArg Prod.snd hkey
  rw [kindIn_iff hidx he]
  simp only [Classified, hflow, txQueueId]
  rcases hf.path.reqFlow_eq with ⟨hdir, hreq, hev⟩ | ⟨hdir, hreq⟩
  · rw [hdir, hreq]
    constructor
    · exact fun h => h.1
    · intro h
      exact ⟨h, hsink.trans hev, by simp [h]⟩
  · rw [hdir, hreq]
    constructor
    · exact fun h => h.1
    · intro h
      exact ⟨h, by simp [h]⟩

/-- Classified filters of different kinds point to different rings. -/
lemma classification_of_classified (h : ∀ f ∈ s.installed, Classified s.dp f) :
    Classification s := by
  refine ⟨h, ?_⟩
  intro f hf g hg hport hslot
  have hf' := h f hf
  have hg' := h g hg
  simp only [Classified, hport, hslot] at hf' hg'
  cases hfd : f.path.dir <;> cases hgd : g.path.dir <;> simp_all

lemma classification_iff (hR : Tables s.dp.flows R) (hF : Filters Q R s) :
    Classification s ↔ ∀ f ∈ s.installed, KindIn R f.path := by
  constructor
  · intro h f hf
    obtain ⟨n, henc⟩ := hF.exists_encoded hf
    exact (henc.classified_iff hR).mp (h.classified f hf)
  · intro h
    refine classification_of_classified ?_
    intro f hf
    obtain ⟨n, henc⟩ := hF.exists_encoded hf
    exact (henc.classified_iff hR).mpr (h f hf)

/-- The step lemma of the classification. -/
lemma SetupStep.classification_iff (hF : Filters Q R s) (hR : Tables s.dp.flows R)
    (hpath : PathOf Q path pkt) (h : SetupStep C path pkt s t R R' slot) :
    Classification t ↔ Classification s ∧ KindFree path s := by
  rw [VoqSwq.classification_iff h.tables (hF.step hpath h), VoqSwq.classification_iff hR hF,
    hR.kindFree_iff, h.installed, ← h.kindIn_iff]
  -- the flow of an old filter is registered, and its kind stays
  have hold : ∀ f ∈ s.installed, KindIn R' f.path ↔ KindIn R f.path := by
    intro f hf
    obtain ⟨n, henc⟩ := hF.exists_encoded hf
    obtain ⟨slot', hidx, -⟩ := henc.softId
    exact kindIn_ext_iff (h.ext _) hidx
  constructor
  · intro ht
    refine ⟨fun f hf => (hold f hf).mp (ht f (List.mem_append_left _ hf)), ?_⟩
    exact ht _ (List.mem_append_right _ List.mem_cons_self)
  · rintro ⟨hs, hpath'⟩ f hf
    rcases List.mem_append.mp hf with hf | hf
    · exact (hold f hf).mpr (hs f hf)
    · rw [List.mem_singleton.mp hf]
      exact hpath'

lemma exact_kindFree : Exact C (fun _ => True) (Filters fun _ => True) Classification KindFree where
  inv path pkt s t R R' slot hpath h hF := hF.step hpath h
  keep path pkt s t R R' slot hpath h hF hR hJ hK :=
    (h.classification_iff hF hR hpath).mpr ⟨hJ, hK⟩
  need path pkt s t R R' slot hpath h hF hR hJ := (h.classification_iff hF hR hpath).mp hJ
  full path pkt s R _ _ hR hnone _ _ := by
    rw [hR.kindFree_iff]
    exact fun e he hkey => absurd (hkey ▸ List.mem_map_of_mem (f := DataFlow.key) he)
      (Registry.indexOf_eq_none_iff.mp hnone)

/-- **Classification of the flows.**  Every filter of a run points to a slot of its kind,
and no ring is shared between the kinds, if and only if every set-up of the run finds no
active slot that holds its key for the other kind. -/
theorem classification_run_iff {P : Platform} {dp : DpParams} (hinit : dpInit P = some dp)
    {bursts : List PktBurst}
    (h : run (tableActionHandlerHit C nic) bursts (DefState.init dp) = some t) :
    Classification t ↔ SetupsMeet C nic KindFree bursts (DefState.init dp) := by
  rw [exact_kindFree.run_iff (fun _ _ _ _ => trivial) h
    (along_init (dpInit_spec hinit).1.flows (filters_init dp))]
  refine and_iff_right ⟨?_, ?_⟩
  · intro f hf
    cases hf
  · intro f hf
    cases hf

theorem classification_small : Classification smallState ↔
    SetupsMeet OneShl.modular FdirNic.accepting KindFree smallBursts (DefState.init dpSmall) :=
  classification_run_iff dpInit_small run_small

/-- The request of the opposite direction: its destination is the source of
`HitPkt.request`. -/
def HitPkt.requestBack : HitPkt where
  port := 1
  flowKey :=
    { sip := 0x0a000002
      dip := 0x0a000001
      sport := 4001
      dport := 9000
      typeId := tdaqTypeIdFragmentRequestMessage
      eventId := 7 }
  entryPort := 0

/-- A request whose event number is the mark of the request flows, and a request toward its
sender: the second packet's requests are directed to the data slot of the first. -/
theorem not_classification : ∃ t : DefState,
    run (tableActionHandlerHit OneShl.modular FdirNic.accepting)
      [PktBurst.single (HitPkt.request 4000 0xffffffff), PktBurst.single HitPkt.requestBack]
      (DefState.init dpSmall) = some t ∧ ¬ Classification t := by
  have hrun : ((run (tableActionHandlerHit OneShl.modular FdirNic.accepting)
      [PktBurst.single (HitPkt.request 4000 0xffffffff), PktBurst.single HitPkt.requestBack]
      (DefState.init dpSmall)).map fun t => t.installed.any fun f =>
        f.path.dir == .dcmToRos &&
          (t.dp.flows f.destPort (fdirSlot f.call.softId)).reqFlow == false)
      = some true := by decide +kernel
  obtain ⟨t, ht, hany⟩ := Option.map_eq_some_iff.mp hrun
  refine ⟨t, ht, ?_⟩
  intro hcl
  obtain ⟨f, hf, hwrong⟩ := List.any_eq_true.mp hany
  rw [Bool.and_eq_true, beq_iff_eq, beq_iff_eq] at hwrong
  have := hcl.classified f hf
  simp [Classified, hwrong.1, hwrong.2] at this

end DaqSwitch.VoqSwq
