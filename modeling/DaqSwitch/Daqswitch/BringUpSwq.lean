import DaqSwitch.Daqswitch.BringUp
import DaqSwitch.VoqSwq.Configure
import DaqSwitch.VoqSwq.LcoreDataTx
import DaqSwitch.VoqSwq.PortBalance

/-!
# The software-queue switch when it is up

The default queues of the ports belong to the default pipeline, the other rx queues to the data rx
lcores and the other tx queues to the data tx lcores.  The default pipeline forwards as the rules
say.
-/

namespace DaqSwitch.Daqswitch

open Lib.Machine Lib.Attempt Lib.CallLog
open VoqHwq (PortConf)
open OqHwq (Rule route)
open VoqSwq (DpParams DefaultPipeline PipelineLibrary PipelineLog Built RxEntry TxEntry)

section VoqSwq

/-- The hooks of `dp_voq_swq.c`.  `dp_init` starts from the zeroed `dp`, since `main` calls it
once; a failed `RTE_VERIFY` ends the program. -/
def voqSwq (lib : PipelineLibrary) (P : VoqSwq.Platform) :
    Datapath (DpParams × DefaultPipeline) where
  init n := do
    let s ← get
    match VoqSwq.dpInit (P.withPorts n) with
    | some dp =>
      match run (VoqSwq.initPort n) (List.range n) ⟨false, s.1⟩ with
      | some d => set (d.portConf, dp, s.2.2)
      | none => throw .error
    | none => throw .abort
  configure n := do
    let s ← get
    match VoqSwq.dpConfigure lib (P.withPorts n) s.1 s.2 with
    | some pipeline => set (s.1, pipeline)
    | none => throw .abort
  installDefaultTables _ s := (s.1, s.2.dpInstallDefaultTables lib)

variable {lib : PipelineLibrary} {P : VoqSwq.Platform} {n : ℕ} {pc pc' : ℕ → PortConf}
  {x y : DpParams × DefaultPipeline} {dp : DpParams} {log : PipelineLog}

lemma voqSwq_init_ok (h : ((voqSwq lib P).init n).run (pc, x) = .ok () (pc', y)) :
    y.2 = x.2 ∧ VoqSwq.dpInit (P.withPorts n) = some y.1 ∧
      ∃ d, run (VoqSwq.initPort n) (List.range n) ⟨false, pc⟩ = some d ∧ d.portConf = pc' := by
  have hends : Ends (· = (pc, x)) ((voqSwq lib P).init n)
      (fun _ s => s.2.2 = x.2 ∧ VoqSwq.dpInit (P.withPorts n) = some s.2.1 ∧
        ∃ d, run (VoqSwq.initPort n) (List.range n) ⟨false, pc⟩ = some d ∧ d.portConf = s.1)
      fun _ _ => True := by
    refine .get_bind_eq ?_
    rintro _ rfl
    cases hinit : VoqSwq.dpInit (P.withPorts n) with
    | none => exact .throw fun _ _ => trivial
    | some dp =>
      cases hports : run (VoqSwq.initPort n) (List.range n) ⟨false, pc⟩ with
      | none => exact .throw fun _ _ => trivial
      | some d => exact .set fun _ _ => ⟨rfl, rfl, d, rfl, rfl⟩
  exact hends.ok rfl h

lemma voqSwq_configure_ok (h : ((voqSwq lib P).configure n).run x = .ok () y) :
    y.1 = x.1 ∧ VoqSwq.dpConfigure lib (P.withPorts n) x.1 x.2 = some y.2 := by
  have hends : Ends (· = x) ((voqSwq lib P).configure n)
      (fun _ s => s.1 = x.1 ∧ VoqSwq.dpConfigure lib (P.withPorts n) x.1 x.2 = some s.2)
      fun _ _ => True := by
    refine .get_bind_eq ?_
    rintro _ rfl
    cases hconf : VoqSwq.dpConfigure lib (P.withPorts n) _ _ with
    | none => exact .throw fun _ _ => trivial
    | some pipeline => exact .set fun _ _ => ⟨rfl, rfl⟩
  exact hends.ok rfl h

/-! ## Who uses the queues -/

/-- What polls an rx queue: an input port of the default pipeline, or entry `j` of the queues of
entry `k` of the ports of data rx lcore `l`. -/
inductive RxPlace
  | portIn (id : BitVec 32)
  | entry (l k j : ℕ)

/-- What writes to a tx queue: an output port of the default pipeline, or entry `k` of the ports of
data tx lcore `l` for the flows with or without requests. -/
inductive TxPlace
  | portOut (id : BitVec 32)
  | entry (l k : ℕ) (reqFlow : Bool)

def swqPolls (dp : DpParams) (log : PipelineLog) : RxPlace → ℕ → ℕ → Prop
  | .portIn id, p, q =>
    (∃ burst, (.portInCreate p q burst, id) ∈ log) ∧ ∃ ret, (.portInEnable id, ret) ∈ log
  | .entry l k j, p, q => RxEntry dp l k j p q

def swqWrites (dp : DpParams) (log : PipelineLog) : TxPlace → ℕ → ℕ → Prop
  | .portOut id, p, q => ∃ burst, (.portOutCreate p q burst, id) ∈ log
  | .entry l k reqFlow, p, q =>
    TxEntry dp l k p ∧ ∃ flow, flow.reqFlow = reqFlow ∧ VoqSwq.txQueueId flow = q

/-- The default pipeline uses the default queues, the data rx lcores the other rx queues and the
data tx lcores the other tx queues. -/
structure QueueUsers (dp : DpParams) (log : PipelineLog) : Prop where
  portIn : ∀ id p q, swqPolls dp log (.portIn id) p q → q = VoqSwq.dpPortRxqIdDefault
  rxEntry : ∀ l k j p q, swqPolls dp log (.entry l k j) p q →
    l ∈ VoqSwq.lcoresOf dp .dataRx ∧ q ≠ VoqSwq.dpPortRxqIdDefault
  portOut : ∀ id p q, swqWrites dp log (.portOut id) p q → q = VoqSwq.dpPortTxqIdDefault
  txEntry : ∀ l k reqFlow p q, swqWrites dp log (.entry l k reqFlow) p q →
    l ∈ VoqSwq.lcoresOf dp .dataTx ∧ q ≠ VoqSwq.dpPortTxqIdDefault

lemma queueUsers_of_built {rules : List Rule} {ids : VoqSwq.PipelineIds} (hR : VoqSwq.Ready P dp)
    (hB : Built n rules log ids) : QueueUsers dp log where
  portIn := by
    rintro id p q ⟨⟨burst, hin⟩, -⟩
    exact ((hB.portIn p q burst id).mp hin).2.1.1.symm
  rxEntry := by
    intro l k j p q hentry
    obtain ⟨-, -, rfl⟩ := hR.rxEntry_iff.mp hentry
    refine ⟨hentry.lcore, ?_⟩
    rw [VoqSwq.dpPortRxqIdDataMin, VoqSwq.dpPortRxqIdDefault]
    omega
  portOut := by
    rintro id p q ⟨burst, hout⟩
    exact ((hB.portOut p q burst id).mp hout).2.1.1.symm
  txEntry := by
    rintro l k reqFlow p q ⟨hentry, flow, -, rfl⟩
    refine ⟨hentry.lcore, ?_⟩
    rw [VoqSwq.txQueueId]
    split <;> decide

/-- The queues are as many as the places use, and each is used from one of them. -/
lemma plan_of_built {rules : List Rule} {ids : VoqSwq.PipelineIds} (hR : VoqSwq.Ready P dp)
    (hn : P.nbPorts = n) (hB : Built n rules log ids)
    (hpc : ∀ p < n, (pc p).nbRxq = n + 1 ∧ (pc p).nbTxq = VoqSwq.dpPortTxqMax) :
    Plan n pc (swqPolls dp log) (swqWrites dp log) where
  rx_lt := by
    rintro (id | ⟨l, k, j⟩) p q hpolls
    · obtain ⟨⟨burst, hin⟩, -⟩ := hpolls
      obtain ⟨hp, ⟨rfl, -⟩, -⟩ := (hB.portIn p q burst id).mp hin
      rw [(hpc p hp).1]
      exact ⟨hp, Nat.succ_pos n⟩
    · obtain ⟨hserves, hj, rfl⟩ := hR.rxEntry_iff.mp hpolls
      have hp := hR.rxDist.lt l k p hserves
      rw [hn] at hp hj
      rw [(hpc p hp).1, VoqSwq.dpPortRxqIdDataMin]
      exact ⟨hp, by omega⟩
  rx_unique := by
    intro p hp q hq
    rw [(hpc p hp).1] at hq
    rcases Nat.eq_zero_or_pos q with rfl | hpos
    · refine ⟨.portIn (ids.portInId p), ⟨⟨_, (hB.portIn p _ _ _).mpr ⟨hp, ⟨rfl, rfl⟩, rfl⟩⟩,
        (hB.enabled _).mpr ⟨p, hp, rfl⟩⟩, ?_⟩
      rintro (id | ⟨l, k, j⟩) hpolls
      · obtain ⟨⟨burst, hin⟩, -⟩ := hpolls
        rw [((hB.portIn p 0 burst id).mp hin).2.2]
      · exact absurd rfl ((queueUsers_of_built hR hB).rxEntry l k j p 0 hpolls).2
    · -- the data queues begin after the default queue
      obtain ⟨o, rfl⟩ : ∃ o, q = VoqSwq.dpPortRxqIdDataMin + o :=
        ⟨q - 1, by rw [VoqSwq.dpPortRxqIdDataMin]; omega⟩
      have ho : o < P.nbPorts := by
        rw [VoqSwq.dpPortRxqIdDataMin] at hq
        omega
      obtain ⟨l, k, hentry⟩ := hR.exists_rxEntry (hn ▸ hp) ho
      refine ⟨.entry l k o, hentry, ?_⟩
      rintro (id | ⟨l', k', j'⟩) hpolls
      · have hdefault := (queueUsers_of_built hR hB).portIn id p _ hpolls
        rw [VoqSwq.dpPortRxqIdDefault] at hdefault
        omega
      · obtain ⟨rfl, rfl, rfl⟩ := hR.rxEntry_unique hpolls hentry
        rfl
  tx_lt := by
    rintro (id | ⟨l, k, reqFlow⟩) p q hwrites
    · obtain ⟨burst, hout⟩ := hwrites
      obtain ⟨hp, ⟨rfl, -⟩, -⟩ := (hB.portOut p q burst id).mp hout
      rw [(hpc p hp).2]
      exact ⟨hp, by decide⟩
    · obtain ⟨hentry, flow, -, rfl⟩ := hwrites
      have hp := hR.txDist.lt l k p (VoqSwq.serves_dataTx_iff.mpr hentry)
      rw [hn] at hp
      rw [(hpc p hp).2, VoqSwq.txQueueId]
      refine ⟨hp, ?_⟩
      split <;> decide
  tx_unique := by
    intro p hp q hq
    rw [(hpc p hp).2] at hq
    obtain ⟨l, k, hentry⟩ := hR.exists_txEntry (hn ▸ hp)
    have hflow (flow : VoqSwq.DataFlow) (req : Bool) (h : flow.reqFlow = req) :
        VoqSwq.txQueueId flow = if req then 1 else 2 := by
      rw [VoqSwq.txQueueId, h]
      rfl
    -- the place of an entry of the lists is given by the queue
    have hplace (req : Bool) (hqueue : q = if req then 1 else 2) :
        ∃! x, swqWrites dp log x p q := by
      refine ⟨.entry l k req, ⟨hentry, ⟨true, req, 0, 0⟩, rfl, ?_⟩, ?_⟩
      · rw [hflow _ req rfl, hqueue]
      · rintro (id | ⟨l', k', req'⟩) hwrites
        · have hdefault := (queueUsers_of_built hR hB).portOut id p q hwrites
          rw [VoqSwq.dpPortTxqIdDefault] at hdefault
          cases req <;> simp at hqueue <;> omega
        · obtain ⟨hentry', flow, hreq, hqueue'⟩ := hwrites
          obtain ⟨rfl, rfl⟩ := hR.txEntry_unique hentry' hentry
          rw [hflow flow req' hreq, hqueue] at hqueue'
          cases req <;> cases req' <;> simp_all
    obtain rfl | rfl | rfl : q = 0 ∨ q = 1 ∨ q = 2 := by
      rw [VoqSwq.dpPortTxqMax] at hq
      omega
    · refine ⟨.portOut (ids.portOutId p), ⟨_, (hB.portOut p _ _ _).mpr ⟨hp, ⟨rfl, rfl⟩, rfl⟩⟩, ?_⟩
      rintro (id | ⟨l', k', req⟩) hwrites
      · obtain ⟨burst, hout⟩ := hwrites
        rw [((hB.portOut p 0 burst id).mp hout).2.2]
      · exact absurd rfl ((queueUsers_of_built hR hB).txEntry l' k' req p 0 hwrites).2
    · exact hplace true rfl
    · exact hplace false rfl

/-! ## The switch -/

lemma nbPorts_withPorts_swq (P : VoqSwq.Platform) :
    (P.withPorts (nbPortsOf P.rteMaxEthports P.devCount)).nbPorts =
      nbPortsOf P.rteMaxEthports P.devCount := by
  have hle : nbPortsOf P.rteMaxEthports P.devCount ≤ P.rteMaxEthports := Nat.min_le_right _ _
  exact if_neg hle.not_gt

/-- What the data path has done when `main` comes to the command line: with the default pipeline
that `dp_configure` has built, and those rules of `dp_install_default_tables` that it has taken. -/
structure SwqUp (lib : PipelineLibrary) (P : VoqSwq.Platform) (pc : ℕ → PortConf)
    (s : State (DpParams × DefaultPipeline)) (pipeline : DefaultPipeline) (log : PipelineLog) :
    Prop where
  nbPorts : (P.withPorts s.nbPorts).nbPorts = s.nbPorts
  init : VoqSwq.dpInit (P.withPorts s.nbPorts) = some s.dp.1
  ports : ∃ d, run (VoqSwq.initPort s.nbPorts) (List.range s.nbPorts)
    ⟨false, resetConf pc s.nbPorts⟩ = some d ∧ d.portConf = s.portConf
  configure : VoqSwq.dpConfigure lib (P.withPorts s.nbPorts) s.dp.1 .zero = some pipeline
  install : s.dp.2 = pipeline.dpInstallDefaultTables lib
  p : s.dp.2.p = some log
  built : Built s.nbPorts (pipeline.addIpv4Rules lib DefaultPipeline.defaultRules).1 log s.dp.2.ids
  portOutId : lib.Numbers → ∀ i < s.nbPorts, s.dp.2.ids.portOutId i = BitVec.ofNat 32 i

lemma swqUp_of_bringUp {nic : Nic} {rings : Bool} {s : State (DpParams × DefaultPipeline)}
    (h : (bringUp P.rteMaxEthports nic (voqSwq lib P) P.devCount rings).run
      (.zero pc (.zeroed fun _ _ => none, .zero)) = .ok () s) :
    Up P.rteMaxEthports P.devCount (voqSwq lib P) pc (.zeroed fun _ _ => none, .zero) s ∧
      ∃ pipeline log, SwqUp lib P pc s pipeline log := by
  have hup := bringUp_ends.ok rfl h
  refine ⟨hup, ?_⟩
  obtain ⟨⟨dp, zero⟩, ⟨dp', pipeline⟩, hinit, hconf, hdp⟩ := hup.dp
  obtain ⟨hzero, hdpInit, hports⟩ := voqSwq_init_ok hinit
  obtain ⟨hsame, hpipeline⟩ := voqSwq_configure_ok hconf
  obtain rfl : zero = .zero := hzero
  obtain rfl : dp' = dp := hsame
  have hn : (P.withPorts s.nbPorts).nbPorts = s.nbPorts := by
    rw [hup.nbPorts]
    exact nbPorts_withPorts_swq P
  have hbuilt := VoqSwq.dpConfigure_eq_some hdpInit hpipeline
  rw [hn] at hbuilt
  obtain ⟨-, log₀, hp₀, hB₀, hnum⟩ := VoqSwq.built_of_dpConfigureLcoreDefault hbuilt
  obtain ⟨hids, log, hp, hB⟩ := hB₀.addIpv4Rules lib hp₀ DefaultPipeline.defaultRules
  have hdp₁ : s.dp.1 = dp' := congrArg Prod.fst hdp
  have hdp₂ : s.dp.2 = (pipeline.addIpv4Rules lib DefaultPipeline.defaultRules).2 :=
    congrArg Prod.snd hdp
  refine ⟨pipeline, log, hn, ?_, hports, ?_, hdp₂, ?_, ?_, ?_⟩
  · rw [hdp₁]
    exact hdpInit
  · rw [hdp₁]
    exact hpipeline
  · rw [hdp₂]
    exact hp
  · rw [hdp₂, hids]
    exact hB
  · rw [hdp₂, hids]
    exact hnum

end VoqSwq

/-- **The software-queue switch is up.**  When `main` has brought the switch up, whatever the packet
library has answered on the way, the queues that are set up on the started ports are used from one
place each.  The default pipeline uses the default queues, the data rx lcores the other rx queues
and the data tx lcores the other tx queues. -/
theorem bringUp_voqSwq {lib : PipelineLibrary} {P : VoqSwq.Platform} {nic : Nic} {rings : Bool}
    {pc : ℕ → PortConf} {s : State (DpParams × DefaultPipeline)}
    (h : (bringUp P.rteMaxEthports nic (voqSwq lib P) P.devCount rings).run
      (.zero pc (.zeroed fun _ _ => none, .zero)) = .ok () s) :
    VoqSwq.dpInit (P.withPorts s.nbPorts) = some s.dp.1 ∧
      ∃ log, s.dp.2.p = some log ∧ QueueUsers s.dp.1 log ∧
        ∃ h, run Ports.step s.events Ports.zero = some h ∧
          Served h (swqPolls s.dp.1 log) (swqWrites s.dp.1 log) := by
  obtain ⟨hup, pipeline, log, hswq⟩ := swqUp_of_bringUp h
  obtain ⟨hR, -⟩ := VoqSwq.dpInit_spec hswq.init
  obtain ⟨d, hd, hpc⟩ := hswq.ports
  have hplan := plan_of_built hR hswq.nbPorts hswq.built (VoqSwq.queues_of_initPort hd)
  rw [hpc] at hplan
  exact ⟨hswq.init, log, hswq.p, queueUsers_of_built hR hswq.built, hup.served hplan⟩

/-- A library that numbers the objects of a pipeline and refuses entries for unknown ports. -/
def numberedLibrary : PipelineLibrary := fun log call =>
  match call.creates with
  | some k => some (BitVec.ofNat 32 (created VoqSwq.PipelineCall.creates k log))
  | none =>
    match call with
    | .tableEntryAdd _ _ _ portId =>
      if portId.toNat < created VoqSwq.PipelineCall.creates .portOut log then some 0 else none
    | _ => some 0

lemma numbers_numberedLibrary : numberedLibrary.Numbers := by
  intro log call k id hkind hid
  simp only [numberedLibrary, hkind, Option.some_inj] at hid
  exact hid.symm

lemma bringUp_voqSwq_endsWell : endsWell ((bringUp 32 (fun _ _ _ => true)
    (voqSwq numberedLibrary .small) 2 true).run
      (.zero (fun _ => portConfDefault) (.zeroed fun _ _ => none, .zero))) = true := by
  decide +kernel

/-- The theorem for three worker lcores and two ports. -/
theorem bringUp_voqSwq_small : ∃ s, (bringUp 32 (fun _ _ _ => true)
    (voqSwq numberedLibrary .small) 2 true).run
      (.zero (fun _ => portConfDefault) (.zeroed fun _ _ => none, .zero)) = .ok () s ∧
    ∃ log, s.dp.2.p = some log ∧ QueueUsers s.dp.1 log ∧
      ∃ h, run Ports.step s.events Ports.zero = some h ∧
        Served h (swqPolls s.dp.1 log) (swqWrites s.dp.1 log) := by
  obtain ⟨s, hs⟩ := exists_of_endsWell bringUp_voqSwq_endsWell
  exact ⟨s, hs, (@bringUp_voqSwq _ .small _ _ _ _ hs).2⟩

/-- **The default pipeline forwards by rules.**  With a library that numbers the objects of a
pipeline, when `main` has brought the switch up and after any further calls of `add_ipv4_rule`, a
packet for an address that comes in on the default rx queue of any port leaves through the default
tx queue of the port that the last rule for the address names, and in no other way. -/
theorem bringUp_voqSwq_forwards {lib : PipelineLibrary} (hnum : lib.Numbers) {P : VoqSwq.Platform}
    {nic : Nic} {rings : Bool} {pc : ℕ → PortConf} {s : State (DpParams × DefaultPipeline)}
    (h : (bringUp P.rteMaxEthports nic (voqSwq lib P) P.devCount rings).run
      (.zero pc (.zeroed fun _ _ => none, .zero)) = .ok () s) (calls : List Rule) :
    ∃ pipeline,
      VoqSwq.dpConfigure lib (P.withPorts s.nbPorts) s.dp.1 .zero = some pipeline ∧
      s.dp.2 = pipeline.dpInstallDefaultTables lib ∧
      ∃ log, (s.dp.2.addIpv4Rules lib calls).2.p = some log ∧
        ∀ ip portIn rxq portOut txq, log.Forwards ip portIn rxq portOut txq ↔
          (portIn < s.nbPorts ∧ rxq = 0) ∧ (portOut < s.nbPorts ∧ txq = 0) ∧
            ∃ out, route ((pipeline.addIpv4Rules lib DefaultPipeline.defaultRules).1 ++
              (s.dp.2.addIpv4Rules lib calls).1) ip = some out ∧ out.toNat = portOut := by
  obtain ⟨hup, pipeline, log₀, hswq⟩ := swqUp_of_bringUp h
  obtain ⟨-, log, hp, hB⟩ := hswq.built.addIpv4Rules lib hswq.p calls
  refine ⟨pipeline, hswq.configure, hswq.install, log, hp, ?_⟩
  intro ip portIn rxq portOut txq
  rw [hB.forwards_iff]
  refine and_congr_right fun _ => and_congr_right fun hout => ?_
  rw [hswq.portOutId hnum portOut hout.1, Option.map_eq_some_iff]
  refine exists_congr fun out => and_congr_right fun _ => ?_
  -- a port number fits into a byte
  have hlt : portOut < 2 ^ 8 := by
    have := nbPortsOf_lt P.rteMaxEthports P.devCount
    rw [← hup.nbPorts] at this
    exact hout.1.trans this
  rw [← BitVec.toNat_inj, BitVec.toNat_setWidth, BitVec.toNat_ofNat]
  have := out.isLt
  omega

/-- The theorem for these, with one more rule. -/
theorem bringUp_voqSwq_forwards_small : ∃ s, (bringUp 32 (fun _ _ _ => true)
    (voqSwq numberedLibrary .small) 2 true).run
      (.zero (fun _ => portConfDefault) (.zeroed fun _ _ => none, .zero)) = .ok () s ∧
    ∃ pipeline log, (s.dp.2.addIpv4Rules numberedLibrary [⟨0x14010701, 1⟩]).2.p = some log ∧
      ∀ portIn rxq portOut txq, log.Forwards 0x14010701 portIn rxq portOut txq ↔
        (portIn < s.nbPorts ∧ rxq = 0) ∧ (portOut < s.nbPorts ∧ txq = 0) ∧
          ∃ out, route ((DefaultPipeline.addIpv4Rules numberedLibrary DefaultPipeline.defaultRules
              pipeline).1 ++ (s.dp.2.addIpv4Rules numberedLibrary [⟨0x14010701, 1⟩]).1)
            0x14010701 = some out ∧ out.toNat = portOut := by
  obtain ⟨s, hs⟩ := exists_of_endsWell bringUp_voqSwq_endsWell
  obtain ⟨pipeline, -, -, log, hp, hforwards⟩ :=
    @bringUp_voqSwq_forwards _ numbers_numberedLibrary .small _ _ _ _ hs [⟨0x14010701, 1⟩]
  exact ⟨s, hs, pipeline, log, hp, hforwards 0x14010701⟩

end DaqSwitch.Daqswitch
