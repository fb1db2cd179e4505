import DaqSwitch.Daqswitch.PortUse
import DaqSwitch.OqHwq.Routes
import DaqSwitch.VoqHwq.Mapping

/-!
# The switch when it is up

When `main` comes to the command line, the queues of the ports and the lcores of the data path fit
together: each rx queue that is set up is polled by one lcore, and each tx queue belongs to one.
-/

namespace DaqSwitch.Daqswitch

open Lib.Machine Lib.Attempt
open VoqHwq (PortConf Platform)

/-! ## Bringing up -/

section BringUp

variable {δ : Type} {rteMaxEthports devCount : ℕ} {nic : Nic} {D : Datapath δ} {rings : Bool}
  {pc : ℕ → PortConf} {dp : δ} {s : State δ}

/-- What `main` has done when it comes to the command line. -/
structure Up (rteMaxEthports devCount : ℕ) (D : Datapath δ) (pc : ℕ → PortConf) (dp : δ)
    (s : State δ) : Prop where
  inv : ∃ h, Inv s h
  configured : s.configured = true
  started : s.started = true
  nbPorts : s.nbPorts = nbPortsOf rteMaxEthports devCount
  dp : ∃ dp₁ dp₂, (D.init s.nbPorts).run (resetConf pc s.nbPorts, dp) = .ok () (s.portConf, dp₁) ∧
    (D.configure s.nbPorts).run dp₁ = .ok () dp₂ ∧ s.dp = D.installDefaultTables s.nbPorts dp₂

/-- Why `main` has not come to the command line. -/
inductive Obstacle (rteMaxEthports devCount : ℕ) (nic : Nic) (D : Datapath δ) (rings : Bool)
    (pc : ℕ → PortConf) (dp : δ) : Failure → Prop
  | init {e x} : (D.init (nbPortsOf rteMaxEthports devCount)).run
      (resetConf pc (nbPortsOf rteMaxEthports devCount), dp) = .error e x →
      Obstacle rteMaxEthports devCount nic D rings pc dp e
  | rings : rings = false → Obstacle rteMaxEthports devCount nic D rings pc dp .abort
  | configure {e pc₁ dp₁ dp₂} : (D.init (nbPortsOf rteMaxEthports devCount)).run
      (resetConf pc (nbPortsOf rteMaxEthports devCount), dp) = .ok () (pc₁, dp₁) →
      (D.configure (nbPortsOf rteMaxEthports devCount)).run dp₁ = .error e dp₂ →
      Obstacle rteMaxEthports devCount nic D rings pc dp e
  | nic : NicFails nic → Obstacle rteMaxEthports devCount nic D rings pc dp .error

lemma bringUp_ends :
    Ends (· = State.zero pc dp) (bringUp rteMaxEthports nic D devCount rings)
      (fun _ => Up rteMaxEthports devCount D pc dp)
      fun e _ => Obstacle rteMaxEthports devCount nic D rings pc dp e := by
  refine .bind ((init_ends rteMaxEthports D (idle_zero pc dp).inv devCount rings).conseq
    (fun _ h => h) (fun _ _ h => h) ?_) fun _ => .of_eq ?_
  · rintro e s ⟨-, -, hinit | ⟨rfl, hrings⟩ | ⟨x, hx⟩⟩
    · cases hinit
    · exact .rings hrings
    · exact .init hx
  rintro s₁ ⟨⟨h₁, hinv₁⟩, -, pc₁, dp₁, hinit, rfl⟩
  refine .bind ((configure_ends nic D hinv₁).conseq (fun _ h => h) (fun _ _ h => h) ?_) fun _ =>
    .of_eq ?_
  · rintro e s ⟨-, ⟨rfl, hconf | hinit' | hnic⟩ | ⟨dp₂, hdp₂⟩⟩
    · cases hconf
    · cases hinit'
    · exact .nic hnic
    · exact .configure hinit hdp₂
  rintro s₂ ⟨⟨h₂, hinv₂⟩, dp₂, hconf, -, -, hframe₂⟩
  refine (start_ends nic D hinv₂).conseq (fun _ h => h) ?_ ?_
  · rintro - s₃ ⟨hinv₃, hconfigured, hframe₃⟩
    have hnb : s₃.nbPorts = nbPortsOf rteMaxEthports devCount :=
      hframe₃.nbPorts.trans hframe₂.nbPorts
    have hpc : s₃.portConf = pc₁ := hframe₃.portConf.trans hframe₂.portConf
    refine ⟨hinv₃, hframe₃.configured.trans hconfigured, hframe₃.started, hnb, dp₁, dp₂, ?_, ?_, ?_⟩
    · rw [hnb, hpc]
      exact hinit
    · rw [hnb]
      exact hconf
    · have hdp := hframe₃.dp
      rw [show s₂.nbPorts = s₃.nbPorts from hframe₃.nbPorts.symm,
        show s₂.dp = dp₂ from hframe₂.dp] at hdp
      exact hdp
  · rintro e s ⟨-, rfl, hstarted | hconfigured | hnic⟩
    · rw [hframe₂.started] at hstarted
      cases hstarted
    · rw [hframe₂.configured] at hconfigured
      cases hconfigured
    · exact .nic hnic

/-- What places in the data path poll and may write to, for the queues of a configuration. -/
structure Plan {ι κ : Type*} (n : ℕ) (pc : ℕ → PortConf) (polls : ι → ℕ → ℕ → Prop)
    (writes : κ → ℕ → ℕ → Prop) : Prop where
  rx_lt : ∀ x p q, polls x p q → p < n ∧ q < (pc p).nbRxq
  rx_unique : ∀ p < n, ∀ q < (pc p).nbRxq, ∃! x, polls x p q
  tx_lt : ∀ x p q, writes x p q → p < n ∧ q < (pc p).nbTxq
  tx_unique : ∀ p < n, ∀ q < (pc p).nbTxq, ∃! x, writes x p q

/-- The rx queues that are set up on started ports are those that are polled, and the tx queues those
that are there to be written to, each from one place. -/
structure Served {ι κ : Type*} (h : Ports) (polls : ι → ℕ → ℕ → Prop)
    (writes : κ → ℕ → ℕ → Prop) : Prop where
  launched : h.launched = true
  rx : ∀ x p q, polls x p q → (h.device p).started = true ∧ q ∈ (h.device p).rxSetup
  rx_unique : ∀ p, ∀ q ∈ (h.device p).rxSetup, ∃! x, polls x p q
  tx : ∀ x p q, writes x p q → (h.device p).started = true ∧ q ∈ (h.device p).txSetup
  tx_unique : ∀ p, ∀ q ∈ (h.device p).txSetup, ∃! x, writes x p q

lemma Up.served (hup : Up rteMaxEthports devCount D pc dp s) {ι κ : Type*}
    {polls : ι → ℕ → ℕ → Prop} {writes : κ → ℕ → ℕ → Prop}
    (hplan : Plan s.nbPorts s.portConf polls writes) :
    ∃ h, run Ports.step s.events Ports.zero = some h ∧ Served h polls writes := by
  obtain ⟨h, hinv⟩ := hup.inv
  have hready := hinv.ready hup.configured
  have hrunning := hinv.running hup.started
  -- the other ports have no queues
  have hnone : ∀ p, s.nbPorts ≤ p → (h.device p).rxSetup = ∅ ∧ (h.device p).txSetup = ∅ := by
    intro p hp
    rw [hinv.others p hp]
    exact ⟨rfl, rfl⟩
  refine ⟨h, hinv.run_events, hinv.launched.trans hup.started, ?_, ?_, ?_, ?_⟩
  · intro x p q hpolls
    obtain ⟨hp, hq⟩ := hplan.rx_lt x p q hpolls
    rw [(hready p hp).rxSetup]
    exact ⟨hrunning p hp, Finset.mem_range.mpr hq⟩
  · intro p q hq
    rcases lt_or_ge p s.nbPorts with hp | hp
    · rw [(hready p hp).rxSetup, Finset.mem_range] at hq
      exact hplan.rx_unique p hp q hq
    · rw [(hnone p hp).1] at hq
      cases hq
  · intro x p q hwrites
    obtain ⟨hp, hq⟩ := hplan.tx_lt x p q hwrites
    rw [(hready p hp).txSetup]
    exact ⟨hrunning p hp, Finset.mem_range.mpr hq⟩
  · intro p q hq
    rcases lt_or_ge p s.nbPorts with hp | hp
    · rw [(hready p hp).txSetup, Finset.mem_range] at hq
      exact hplan.tx_unique p hp q hq
    · rw [(hnone p hp).2] at hq
      cases hq

end BringUp

/-- **Bring-up.**  When `dp_init` and `dp_configure` succeed, the rings are created and no call of
the packet library for a port fails, `main` comes to the command line, with all ports set up and
started. -/
theorem bringUp_total {δ : Type} {rteMaxEthports devCount : ℕ} {nic : Nic} {D : Datapath δ}
    {rings : Bool} {pc pc₁ : ℕ → PortConf} {dp dp₁ dp₂ : δ}
    (hinit : (D.init (nbPortsOf rteMaxEthports devCount)).run
      (resetConf pc (nbPortsOf rteMaxEthports devCount), dp) = .ok () (pc₁, dp₁))
    (hrings : rings = true)
    (hconf : (D.configure (nbPortsOf rteMaxEthports devCount)).run dp₁ = .ok () dp₂)
    (hnic : ∀ events portid call, nic events portid call = true) :
    ∃ s, (bringUp rteMaxEthports nic D devCount rings).run (.zero pc dp) = .ok () s ∧
      s.portConf = pc₁ ∧ s.dp = D.installDefaultTables s.nbPorts dp₂ ∧
      ∃ h, run Ports.step s.events Ports.zero = some h ∧ h.launched = true ∧
        ∀ p < nbPortsOf rteMaxEthports devCount,
          SetUp (pc₁ p) (h.device p) ∧ (h.device p).started = true := by
  cases hrun : (bringUp rteMaxEthports nic D devCount rings).run (.zero pc dp) with
  | ok _ s =>
    have hup := bringUp_ends.ok rfl hrun
    obtain ⟨dp₁', dp₂', hinit', hconf', hdp⟩ := hup.dp
    rw [hup.nbPorts] at hinit' hconf'
    obtain ⟨hpc, rfl⟩ : s.portConf = pc₁ ∧ dp₁' = dp₁ := by
      simpa using hinit'.symm.trans hinit
    obtain rfl : dp₂' = dp₂ := by
      simpa using hconf'.symm.trans hconf
    obtain ⟨h, hinv⟩ := hup.inv
    refine ⟨s, rfl, hpc, hdp, h, hinv.run_events, hinv.launched.trans hup.started, ?_⟩
    intro p hp
    rw [← hup.nbPorts] at hp
    have hready := hinv.ready hup.configured p hp
    rw [hpc] at hready
    exact ⟨hready, hinv.running hup.started p hp⟩
  | error e s =>
    exfalso
    cases bringUp_ends.error rfl hrun with
    | init hfail => simp [hinit] at hfail
    | rings hfail => simp [hrings] at hfail
    | configure hinit' hfail =>
      rw [hinit] at hinit'
      obtain ⟨-, rfl⟩ : pc₁ = _ ∧ dp₁ = _ := by simpa using hinit'
      simp [hconf] at hfail
    | nic hfail =>
      obtain ⟨events, portid, call, hfail⟩ := hfail
      rw [hnic] at hfail
      cases hfail

/-- The hooks of `dp_skeleton.c`, which do nothing. -/
def skeleton : Datapath Unit := ⟨fun _ => pure (), fun _ => pure (), fun _ => id⟩

/-- The theorem for two ports with the default configuration. -/
theorem bringUp_total_skeleton : ∃ s, (bringUp 32 (fun _ _ _ => true) skeleton 2 true).run
    (.zero (fun _ => portConfDefault) ()) = .ok () s ∧
    s.portConf = resetConf (fun _ => portConfDefault) 2 ∧ s.dp = () ∧
    ∃ h, run Ports.step s.events Ports.zero = some h ∧ h.launched = true ∧
      ∀ p < 2, SetUp (resetConf (fun _ => portConfDefault) 2 p) (h.device p) ∧
        (h.device p).started = true :=
  @bringUp_total _ _ _ _ _ _ _ _ () () () rfl rfl rfl fun _ _ _ => rfl

/-! ## The output-queued data path -/

/-- The machine with another number of ports. -/
def withPorts (P : Platform) (n : ℕ) : Platform :=
  { P with nbPorts := ⟨n % 2 ^ 8, Nat.mod_lt n (Nat.two_pow_pos 8)⟩ }

lemma nbPorts_withPorts (P : Platform) {n : ℕ} (hn : n < 2 ^ 8) :
    ((withPorts P n).nbPorts : ℕ) = n :=
  Nat.mod_eq_of_lt hn

lemma nbPortsOf_lt (rteMaxEthports devCount : ℕ) : nbPortsOf rteMaxEthports devCount < 2 ^ 8 :=
  (Nat.min_le_left _ _).trans_lt (Nat.mod_lt _ (Nat.two_pow_pos 8))

section OqHwq

open OqHwq (Queues Tables LpmLibrary)

variable (lib : LpmLibrary) (P : Platform) (numaOn : Bool) (created : ℕ → ℕ → Bool)
  (rets : ℕ → ℕ → ℤ)

/-- The hooks of `dp_oq_hwq.c`.  `dp_init` starts from the zeroed `lcore_conf`, since `main` calls
it once; a socket out of the array of the tables has no result. -/
def oqHwq : Datapath (Queues × Tables) where
  init n := do
    let s ← get
    match OqHwq.dpInit (withPorts P n) ⟨false, s.1⟩ with
    | some (conf, d) => set (d.portConf, conf, s.2.2)
    | none => throw .error
  configure n := do
    let s ← get
    match OqHwq.dpConfigure lib (withPorts P n) numaOn created with
    | some tables => set (s.1, tables)
    | none => throw .abort
  installDefaultTables _ s := (s.1, s.2.dpInstallDefaultTables lib rets)

variable {lib P numaOn created rets} {n : ℕ} {pc pc' : ℕ → PortConf} {x y : Queues × Tables}

lemma oqHwq_init_ok (h : ((oqHwq lib P numaOn created rets).init n).run (pc, x) = .ok () (pc', y)) :
    ∃ d, OqHwq.dpInit (withPorts P n) ⟨false, pc⟩ = some (y.1, d) ∧ d.portConf = pc' := by
  have hends : Ends (· = (pc, x)) ((oqHwq lib P numaOn created rets).init n)
      (fun _ s => ∃ d, OqHwq.dpInit (withPorts P n) ⟨false, pc⟩ = some (s.2.1, d) ∧
        d.portConf = s.1) fun _ _ => True := by
    refine .get_bind_eq ?_
    rintro _ rfl
    cases hinit : OqHwq.dpInit (withPorts P n) ⟨false, pc⟩ with
    | none => exact .throw fun _ _ => trivial
    | some cd => exact .set fun _ _ => ⟨cd.2, rfl, rfl⟩
  exact hends.ok rfl h

lemma oqHwq_configure_ok (h : ((oqHwq lib P numaOn created rets).configure n).run x = .ok () y) :
    y.1 = x.1 ∧ OqHwq.dpConfigure lib (withPorts P n) numaOn created = some y.2 := by
  have hends : Ends (· = x) ((oqHwq lib P numaOn created rets).configure n)
      (fun _ s => s.1 = x.1 ∧ OqHwq.dpConfigure lib (withPorts P n) numaOn created = some s.2)
      fun _ _ => True := by
    refine .get_bind_eq ?_
    rintro _ rfl
    cases hconf : OqHwq.dpConfigure lib (withPorts P n) numaOn created with
    | none => exact .throw fun _ _ => trivial
    | some tables => exact .set fun _ _ => ⟨rfl, rfl⟩
  exact hends.ok rfl h

/-- Entry `x.2` of the rx queues of lcore `x.1`. -/
def oqPolls (conf : Queues) (x : ℕ × ℕ) (p q : ℕ) : Prop :=
  (conf x.1).rxQueueList[x.2]? = some ⟨p, q⟩

/-- An enabled lcore's tx queue of a port.  The main lcore and lcores without rx queues have one too,
and never write to it. -/
def oqOwns (P : Platform) (conf : Queues) (l p q : ℕ) : Prop :=
  l ∈ P.lcores ∧ p < P.nbPorts ∧ (conf l).txQueueId p = q

lemma plan_of_owned {P : Platform} {conf : Queues} {d : VoqHwq.Daqswitch}
    (h : OqHwq.Owned P conf d) :
    Plan P.nbPorts d.portConf (oqPolls conf) (oqOwns P conf) where
  rx_lt x p q hq := h.rx_lt x.1 ⟨p, q⟩ (List.mem_of_getElem? hq)
  rx_unique := h.rx_unique
  tx_lt l p q := by
    rintro ⟨hl, hp, rfl⟩
    exact ⟨hp, h.tx_lt p hp l hl⟩
  tx_unique p hp q hq := by
    obtain ⟨l, ⟨hl, hlq⟩, hunique⟩ := h.tx_unique p hp q hq
    exact ⟨l, ⟨hl, hp, hlq⟩, fun l' h' => hunique l' ⟨h'.1, h'.2.2⟩⟩

end OqHwq

/-- **The output-queued switch is up.**  When `main` has brought the switch up, whatever the packet
library has answered on the way, the data path is initialized and configured for the number of
ports.  The rx queues that are set up on the ports, which are all started, are those that its lcores
poll, each from one place, and each tx queue that is set up belongs to one enabled lcore. -/
theorem bringUp_oqHwq {lib : OqHwq.LpmLibrary} {P : Platform} {numaOn : Bool}
    {created : ℕ → ℕ → Bool} {rets : ℕ → ℕ → ℤ} {rteMaxEthports devCount : ℕ} {nic : Nic}
    {rings : Bool} {pc : ℕ → PortConf} {s : State (OqHwq.Queues × OqHwq.Tables)}
    (h : (bringUp rteMaxEthports nic (oqHwq lib P numaOn created rets) devCount rings).run
      (.zero pc (.zero, .zero)) = .ok () s) :
    (∃ d, OqHwq.dpInit (withPorts P s.nbPorts) ⟨false, resetConf pc s.nbPorts⟩ =
        some (s.dp.1, d) ∧ d.portConf = s.portConf) ∧
      (∃ tables, OqHwq.dpConfigure lib (withPorts P s.nbPorts) numaOn created = some tables ∧
        s.dp.2 = tables.dpInstallDefaultTables lib rets) ∧
      ∃ h, run Ports.step s.events Ports.zero = some h ∧
        Served h (oqPolls s.dp.1) (oqOwns (withPorts P s.nbPorts) s.dp.1) := by
  have hup := bringUp_ends.ok rfl h
  obtain ⟨⟨conf, tables₀⟩, ⟨conf', tables⟩, hinit, hconf, hdp⟩ := hup.dp
  obtain ⟨d, hd, hpc⟩ := oqHwq_init_ok hinit
  obtain ⟨hsame, htables⟩ := oqHwq_configure_ok hconf
  obtain rfl : conf' = conf := hsame
  have hconf' : s.dp.1 = conf' := congrArg Prod.fst hdp
  have hn : s.nbPorts < 2 ^ 8 := by
    rw [hup.nbPorts]
    exact nbPortsOf_lt _ _
  have hplan := plan_of_owned (OqHwq.owned_of_dpInit hd)
  rw [nbPorts_withPorts P hn, hpc] at hplan
  rw [hconf']
  exact ⟨⟨d, hd, hpc⟩, ⟨tables, htables, congrArg Prod.snd hdp⟩, hup.served hplan⟩

/-- A run that ends well. -/
def endsWell {σ : Type} : EStateM.Result Failure σ Unit → Bool
  | .ok _ _ => true
  | .error _ _ => false

lemma exists_of_endsWell {σ : Type} {r : EStateM.Result Failure σ Unit} (h : endsWell r = true) :
    ∃ s, r = .ok () s := by
  cases r with
  | ok _ s => exact ⟨s, rfl⟩
  | error e s => cases h

lemma bringUp_twoWorkers : endsWell ((bringUp 32 (fun _ _ _ => true) (oqHwq OqHwq.plainLpm
    OqHwq.twoWorkers true (fun _ _ => true) fun _ _ => 0) 4 true).run
      (.zero (fun _ => portConfDefault) (.zero, .zero))) = true := by
  decide +kernel

/-- The theorem for four ports and two worker lcores. -/
theorem bringUp_oqHwq_twoWorkers : ∃ s, (bringUp 32 (fun _ _ _ => true) (oqHwq OqHwq.plainLpm
    OqHwq.twoWorkers true (fun _ _ => true) fun _ _ => 0) 4 true).run
      (.zero (fun _ => portConfDefault) (.zero, .zero)) = .ok () s ∧
    ∃ h, run Ports.step s.events Ports.zero = some h ∧
      Served h (oqPolls s.dp.1) (oqOwns (withPorts OqHwq.twoWorkers s.nbPorts) s.dp.1) := by
  obtain ⟨s, hs⟩ := exists_of_endsWell bringUp_twoWorkers
  exact ⟨s, hs, (bringUp_oqHwq hs).2.2⟩

/-! ## The hardware-queue data path -/

section VoqHwq

open VoqHwq (LcoreConf LcoreTxQueue Configured Serves)

/-- The hooks of `dp_voq_hwq.c`.  `dp_init` starts from the zeroed `lcore_conf`, since `main` calls
it once.  `dp_install_default_tables` writes to the ports' filters only. -/
def voqHwq (P : Platform) : Datapath LcoreConf where
  init n := do
    let s ← get
    match (withPorts P n).dpInit ⟨false, s.1⟩ with
    | some (conf, d) => set (d.portConf, conf)
    | none => throw .error
  configure n := modify (withPorts P n).dpConfigure
  installDefaultTables _ conf := conf

variable {P : Platform} {n : ℕ} {pc pc' : ℕ → PortConf} {conf conf' : LcoreConf}
  {d d' : VoqHwq.Daqswitch}

lemma voqHwq_init_ok (h : ((voqHwq P).init n).run (pc, conf) = .ok () (pc', conf')) :
    ∃ d, (withPorts P n).dpInit ⟨false, pc⟩ = some (conf', d) ∧ d.portConf = pc' := by
  have hends : Ends (· = (pc, conf)) ((voqHwq P).init n)
      (fun _ s => ∃ d, (withPorts P n).dpInit ⟨false, pc⟩ = some (s.2, d) ∧ d.portConf = s.1)
      fun _ _ => True := by
    refine .get_bind_eq ?_
    rintro _ rfl
    cases hinit : (withPorts P n).dpInit ⟨false, pc⟩ with
    | none => exact .throw fun _ _ => trivial
    | some cd => exact .set fun _ _ => ⟨cd.2, rfl, rfl⟩
  exact hends.ok rfl h

/-- `dp_init` gives each port one tx queue. -/
lemma nbTxq_of_initPort {portid : ℕ} (h : P.initPort portid d = some d') :
    (d'.portConf portid).nbTxq = 1 := by
  simp only [Platform.initPort, Option.bind_eq_bind, Option.bind_eq_some_iff, Option.pure_def,
    Option.some_inj] at h
  obtain ⟨d₁, -, d₂, -, d₃, h₃, d₄, h₄, rfl⟩ := h
  have hbefore : (d₄.portConf portid).nbTxq = 1 := by
    rw [(VoqHwq.Daqswitch.set_eq_some h₄).1, (VoqHwq.Daqswitch.set_eq_some h₃).1]
  split
  · exact hbefore
  · cases hfdir : d₄.portSetFdirForwarding portid ⟨0xffffffff, true⟩ with
    | none => exact hbefore
    | some d₅ =>
      rw [Option.getD_some, (VoqHwq.Daqswitch.set_eq_some hfdir).1]
      exact hbefore

lemma nbTxq_of_dpInit (h : P.dpInit d = some (conf, d')) :
    ∀ p < (P.nbPorts : ℕ), (d'.portConf p).nbTxq = 1 := by
  obtain ⟨params, -, h⟩ := Option.bind_eq_some_iff.mp h
  obtain ⟨conf₀, -, h⟩ := Option.bind_eq_some_iff.mp h
  obtain ⟨d₁, hrun, h⟩ := Option.bind_eq_some_iff.mp h
  obtain ⟨-, rfl⟩ := Prod.mk.inj (Option.some_inj.mp h)
  refine run_range (I := fun m (d : VoqHwq.Daqswitch) => ∀ p < m, (d.portConf p).nbTxq = 1) ?_
    hrun fun _ hp => absurd hp (Nat.not_lt_zero _)
  intro portid _ s t hstep hs p hp
  rcases Nat.lt_succ_iff_lt_or_eq.mp hp with hlt | rfl
  · rw [(Platform.initPort_eq_some hstep).2 p hlt.ne]
    exact hs p hlt
  · exact nbTxq_of_initPort hstep

/-- Entry `x.2` of the tx queues of lcore `x.1` takes packets from rx queue `q` of port `p`. -/
def voqPolls (P : Platform) (conf : LcoreConf) (x : ℕ × ℕ) (p q : ℕ) : Prop :=
  ∃ e, Serves P conf x.1 x.2 e ∧ e.rxQueueId = q ∧ p ∈ e.rxPortIds

/-- Entry `x.2` of the tx queues of lcore `x.1` is tx queue `q` of port `p`. -/
def voqOwns (P : Platform) (conf : LcoreConf) (x : ℕ × ℕ) (p q : ℕ) : Prop :=
  ∃ e, Serves P conf x.1 x.2 e ∧ e.portId = p ∧ e.queueId = q

lemma plan_of_configured (h : Configured P conf)
    (hrx : ∀ p < (P.nbPorts : ℕ), (d.portConf p).nbRxq = P.nbPorts)
    (htx : ∀ p < (P.nbPorts : ℕ), (d.portConf p).nbTxq = 1) :
    Plan P.nbPorts d.portConf (voqPolls P conf) (voqOwns P conf) where
  rx_lt := by
    rintro x p _ ⟨e, he, rfl, hp⟩
    rw [h.rxPortIds e he.mem, List.mem_range] at hp
    rw [hrx p hp]
    exact ⟨hp, h.rxQueueId_lt he.mem⟩
  rx_unique p hp r hr := by
    rw [hrx p hp] at hr
    obtain ⟨l, k, e, he, rfl⟩ := h.exists_of_rxQueueId hr
    refine ⟨(l, k), ⟨e, he, rfl, by rw [h.rxPortIds e he.mem]; exact List.mem_range.mpr hp⟩, ?_⟩
    rintro ⟨l', k'⟩ ⟨e', he', heq, -⟩
    obtain rfl := h.eq_of_rxQueueId he'.mem he.mem heq
    obtain ⟨rfl, rfl, -⟩ := h.serves_unique he' he rfl
    rfl
  tx_lt := by
    rintro x _ _ ⟨e, he, rfl, rfl⟩
    have hport := h.portId_lt he.mem
    rw [htx _ hport, h.queueId e he.mem]
    exact ⟨hport, Nat.one_pos⟩
  tx_unique p hp q hq := by
    rw [htx p hp, Nat.lt_one_iff] at hq
    obtain ⟨l, k, e, he, rfl⟩ := h.exists_of_portId hp
    refine ⟨(l, k), ⟨e, he, rfl, by rw [hq, h.queueId e he.mem]⟩, ?_⟩
    rintro ⟨l', k'⟩ ⟨e', he', heq, -⟩
    obtain ⟨rfl, rfl, -⟩ := h.serves_unique he' he heq
    rfl

end VoqHwq

/-- **The switch with hardware queues is up.**  When `main` has brought the switch up, whatever the
packet library has answered on the way, rx queue `r` of each port is polled for one output port, and
all ports are started with the queues that the lcores use. -/
theorem bringUp_voqHwq {P : Platform} {rteMaxEthports devCount : ℕ} {nic : Nic} {rings : Bool}
    {pc : ℕ → PortConf} {s : State VoqHwq.LcoreConf}
    (h : (bringUp rteMaxEthports nic (voqHwq P) devCount rings).run (.zero pc fun _ => []) =
      .ok () s) :
    (∃ conf d, (withPorts P s.nbPorts).dpInit ⟨false, resetConf pc s.nbPorts⟩ = some (conf, d) ∧
        d.portConf = s.portConf ∧ s.dp = (withPorts P s.nbPorts).dpConfigure conf) ∧
      ∃ h, run Ports.step s.events Ports.zero = some h ∧
        Served h (voqPolls (withPorts P s.nbPorts) s.dp)
          (voqOwns (withPorts P s.nbPorts) s.dp) := by
  have hup := bringUp_ends.ok rfl h
  obtain ⟨conf, conf', hinit, hconf, hdp⟩ := hup.dp
  obtain ⟨d, hd, hpc⟩ := voqHwq_init_ok hinit
  obtain rfl : (withPorts P s.nbPorts).dpConfigure conf = conf' := by
    simpa [voqHwq, EStateM.run, modify, modifyGet, MonadStateOf.modifyGet, EStateM.modifyGet]
      using hconf
  have hn : s.nbPorts < 2 ^ 8 := by
    rw [hup.nbPorts]
    exact nbPortsOf_lt _ _
  have hplan := plan_of_configured (VoqHwq.configured_of_dpInit hd)
    (Platform.nbRxq_of_dpInit hd) (nbTxq_of_dpInit hd)
  rw [nbPorts_withPorts P hn, hpc] at hplan
  refine ⟨⟨conf, d, hd, hpc, hdp⟩, ?_⟩
  rw [show s.dp = (withPorts P s.nbPorts).dpConfigure conf from hdp]
  exact hup.served hplan

lemma bringUp_twoSockets : endsWell ((bringUp 32 (fun _ _ _ => true) (voqHwq OqHwq.twoWorkers) 2
    true).run (.zero (fun _ => portConfDefault) fun _ => [])) = true := by
  decide +kernel

/-- The theorem for two ports. -/
theorem bringUp_voqHwq_twoWorkers : ∃ s, (bringUp 32 (fun _ _ _ => true)
    (voqHwq OqHwq.twoWorkers) 2 true).run (.zero (fun _ => portConfDefault) fun _ => []) =
      .ok () s ∧
    ∃ h, run Ports.step s.events Ports.zero = some h ∧
      Served h (voqPolls (withPorts OqHwq.twoWorkers s.nbPorts) s.dp)
        (voqOwns (withPorts OqHwq.twoWorkers s.nbPorts) s.dp) := by
  obtain ⟨s, hs⟩ := exists_of_endsWell bringUp_twoSockets
  exact ⟨s, hs, (bringUp_voqHwq hs).2⟩

end DaqSwitch.Daqswitch
