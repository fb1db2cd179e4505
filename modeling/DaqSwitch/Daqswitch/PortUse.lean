import DaqSwitch.Daqswitch.LifeCycle

/-!
# The ports over the life of the switch

Whatever is called in whatever order, and whichever calls fail, the switch uses its ports as they
may be used, and a switch that has started has every port set up as configured.
-/

namespace DaqSwitch.Daqswitch

open Lib.Machine Lib.Attempt
open VoqHwq (PortConf FdirMasks)

/-! ## What the events say -/

section Follows

variable {δ : Type} {s t : State δ} {h : Ports} {portid : ℕ}

/-- The events so far were allowed, and have led to `h`. -/
structure Follows (s : State δ) (h : Ports) : Prop where
  run_events : run Ports.step s.events Ports.zero = some h
  pool : ∀ p, s.pktMbufPool p = (h.device p).pool
  others : ∀ p, s.nbPorts ≤ p → h.device p = .zero

/-- Only the mempools and the events have changed. -/
def Frame (s t : State δ) : Prop :=
  t = { s with pktMbufPool := t.pktMbufPool, events := t.events }

lemma Frame.refl (s : State δ) : Frame s s := rfl

lemma frame_logCall (s : State δ) (portid : ℕ) (call : EthCall) (ok : Bool) :
    Frame s (s.logCall portid call ok) := by
  cases call <;> rfl

namespace Frame

variable {u : State δ} (hframe : Frame s t)

include hframe

lemma trans (h : Frame t u) : Frame s u := by
  rw [Frame, h, hframe]

lemma nbPorts : t.nbPorts = s.nbPorts := by rw [hframe]
lemma portConf : t.portConf = s.portConf := by rw [hframe]
lemma dp : t.dp = s.dp := by rw [hframe]
lemma dpThread : t.dpThread = s.dpThread := by rw [hframe]
lemma initialized : t.initialized = s.initialized := by rw [hframe]
lemma configured : t.configured = s.configured := by rw [hframe]
lemma started : t.started = s.started := by rw [hframe]

end Frame

lemma State.logCall_events (s : State δ) (portid : ℕ) (call : EthCall) (ok : Bool) :
    (s.logCall portid call ok).events = s.events ++ [.eth portid call ok] := by
  cases call <;> rfl

/-- One call more. -/
lemma Follows.logCall (hs : Follows s h) (hlaunched : h.launched = false)
    (hport : portid < s.nbPorts) {call : EthCall} (hallow : (h.device portid).Allows call)
    (ok : Bool) :
    Follows (s.logCall portid call ok) (h.set portid ((h.device portid).after call ok)) := by
  have hpool : (s.logCall portid call ok).pktMbufPool =
      Function.update s.pktMbufPool portid ((h.device portid).after call ok).pool := by
    cases call with
    | mempoolCreate =>
      have hnone : (h.device portid).pool = false := hallow
      cases ok <;> simp [State.logCall, State.setPool, State.log, EthDevice.after, EthDevice.done,
        EthDevice.failed, hnone]
    | _ =>
      have hsame : ∀ x, x = (h.device portid).pool →
          s.pktMbufPool = Function.update s.pktMbufPool portid x := by
        rintro x rfl
        rw [← hs.pool, Function.update_eq_self]
      exact hsame _ (by cases ok <;> rfl)
  refine ⟨?_, ?_, ?_⟩
  · rw [State.logCall_events, run_append, hs.run_events, Option.bind_some, run_singleton,
      Ports.step, if_pos ⟨hlaunched, hallow⟩]
  · intro p
    rw [hpool]
    rcases eq_or_ne p portid with rfl | hne
    · rw [Function.update_self, Ports.set_device_self]
    · rw [Function.update_of_ne hne, Ports.set_device_of_ne h _ hne, hs.pool]
  · intro p hp
    rw [(frame_logCall ..).nbPorts] at hp
    rw [Ports.set_device_of_ne h _ (by omega)]
    exact hs.others p hp

end Follows

/-! ## Configuration -/

section Configure

variable {δ : Type} {s s₀ : State δ} {h : Ports} {portid m : ℕ}

/-- The queues of a port that are set up, for a configuration of the port. -/
structure Partly (c : PortConf) (rx tx : ℕ) (d : EthDevice) : Prop where
  pool : d.pool = true
  configured : d.configured = true
  nbRxq : d.nbRxq = c.nbRxq
  nbTxq : d.nbTxq = c.nbTxq
  rxSetup : d.rxSetup = Finset.range rx
  txSetup : d.txSetup = Finset.range tx

/-- The port is set up as configured. -/
abbrev SetUp (c : PortConf) : EthDevice → Prop := Partly c c.nbRxq c.nbTxq

lemma Partly.ready {c : PortConf} {d : EthDevice} (h : SetUp c d) : d.Ready :=
  ⟨h.configured, by rw [h.rxSetup, h.nbRxq], by rw [h.txSetup, h.nbTxq]⟩

section Rules

variable {nic : Nic} {P Q : State δ → Prop} {E : Failure → State δ → Prop}

lemma errorIf_ends {cond : State δ → Bool} (hfail : ∀ s, P s → cond s = true → E .error s) :
    Ends P (errorIf cond) (fun _ s => P s ∧ cond s = false) E := by
  refine .get_bind_eq fun s hs => .ite ?_ ?_
  · intro hcond
    refine .throw ?_
    rintro _ rfl
    exact hfail _ hs hcond
  · intro hcond
    refine .pure ?_
    rintro _ rfl
    exact ⟨hs, by simpa using hcond⟩

lemma rteVerify_ends {cond : State δ → Bool} (h : ∀ s, P s → cond s = true) :
    Ends P (rteVerify cond) (fun _ => P) E := by
  refine .get_bind fun s hs => .ite ?_ ?_
  · intro hcond
    rw [h s hs] at hcond
    cases hcond
  · exact fun _ => .pure fun _ hs => hs

/-- One that may trip. -/
lemma rteVerify_ends_or {cond : State δ → Bool}
    (h : ∀ s, P s → cond s = false → E .abort s) :
    Ends P (rteVerify cond) (fun _ => P) E := by
  refine .get_bind_eq fun s hs => .ite (fun hcond => .throw ?_) fun _ => .pure ?_
  · rintro _ rfl
    exact h _ hs (by simpa using hcond)
  · rintro _ rfl
    exact hs

/-- Some call of the packet library fails. -/
def NicFails (nic : Nic) : Prop := ∃ events portid call, nic events portid call = false

lemma ethCall_ends {call : EthCall} (hok : ∀ s, P s → Q (s.logCall portid call true))
    (hfail : ∀ s, P s → NicFails nic → E .error (s.logCall portid call false)) :
    Ends P (ethCall nic portid call) (fun _ => Q) E := by
  refine .get_bind_eq fun s hs => ?_
  cases hnic : nic s.events portid call with
  | true => exact .bind (.set (Q := Q) fun _ _ => hok s hs) fun _ => .pure fun _ h => h
  | false =>
    refine .bind (.set (Q := E .error) fun _ _ => hfail s hs ⟨_, _, _, hnic⟩) fun _ => ?_
    exact .throw fun _ h => h

end Rules

/-- In `daqswitch_configure`, entered in state `s₀`, with the first `m` ports set up. -/
structure Configuring (s₀ : State δ) (m : ℕ) (s : State δ) (h : Ports) : Prop
    extends Follows s h where
  frame : Frame s₀ s
  launched : h.launched = false
  stopped : ∀ p, (h.device p).started = false
  ready : ∀ p < m, SetUp (s₀.portConf p) (h.device p)

namespace Configuring

lemma mono (hs : Configuring s₀ m s h) {m' : ℕ} (hm : m' ≤ m) : Configuring s₀ m' s h :=
  { hs with ready := fun p hp => hs.ready p (hp.trans_le hm) }

/-- A call for a port that is not among the first `m`. -/
lemma logCall (hs : Configuring s₀ m s h) (hm : m ≤ portid) (hport : portid < s₀.nbPorts)
    {call : EthCall} (hallow : (h.device portid).Allows call) {ok : Bool}
    (hstopped : ((h.device portid).after call ok).started = false) :
    Configuring s₀ m (s.logCall portid call ok)
      (h.set portid ((h.device portid).after call ok)) where
  toFollows := hs.toFollows.logCall hs.launched (by rwa [hs.frame.nbPorts]) hallow ok
  frame := hs.frame.trans (frame_logCall ..)
  launched := hs.launched
  stopped := forall_update (T := fun _ (d : EthDevice) => d.started = false) hs.stopped hstopped
  ready p hp := by
    rw [Ports.set_device_of_ne h _ (by omega)]
    exact hs.ready p hp

end Configuring

variable (nic : Nic)

/-- What holds when a call for a port fails. -/
def StillConfiguring (s₀ : State δ) (e : Failure) (s : State δ) : Prop :=
  (e = .error ∧ NicFails nic) ∧ ∃ h, Configuring s₀ 0 s h

/-- A call for the next port, from devices with `T` to those with `T'`. -/
lemma ethCall_configuring (hport : portid < s₀.nbPorts) (call : EthCall)
    {T U : EthDevice → Prop}
    (hcall : ∀ d : EthDevice, T d → d.started = false →
      d.Allows call ∧ U (d.done call) ∧ (d.done call).started = false) :
    Ends (fun s => ∃ h, Configuring s₀ portid s h ∧ T (h.device portid))
      (ethCall nic portid call)
      (fun _ s => ∃ h, Configuring s₀ portid s h ∧ U (h.device portid))
      (StillConfiguring nic s₀) := by
  refine ethCall_ends ?_ ?_
  · rintro s ⟨h, hs, hT⟩
    obtain ⟨hallow, hU, hstopped⟩ := hcall _ hT (hs.stopped portid)
    refine ⟨_, hs.logCall le_rfl hport hallow hstopped, ?_⟩
    rwa [Ports.set_device_self]
  · rintro s ⟨h, hs, hT⟩ hnic
    obtain ⟨hallow, -, -⟩ := hcall _ hT (hs.stopped portid)
    have hstopped := (EthDevice.after_false_started _ call).trans (hs.stopped portid)
    exact ⟨⟨rfl, hnic⟩, _, (hs.logCall le_rfl hport hallow hstopped).mono (Nat.zero_le _)⟩

lemma createMempool_ends (hport : portid < s₀.nbPorts) :
    Ends (fun s => ∃ h, Configuring s₀ portid s h) (createMempool nic portid)
      (fun _ s => ∃ h, Configuring s₀ portid s h ∧ (h.device portid).pool = true)
      (StillConfiguring nic s₀) := by
  refine .get_bind_eq fun s hs => .ite ?_ ?_
  · intro hpool
    refine .pure ?_
    rintro _ rfl
    obtain ⟨h, hs⟩ := hs
    exact ⟨h, hs, by rw [← hs.pool, hpool]⟩
  · intro hpool
    have hcall := ethCall_configuring nic hport .mempoolCreate
      (T := fun d => d.pool = false) (U := fun d => d.pool = true)
      fun d hd hstopped => ⟨hd, rfl, hstopped⟩
    refine hcall.conseq ?_ (fun _ _ h => h) fun _ _ h => h
    rintro _ rfl
    obtain ⟨h, hs⟩ := hs
    exact ⟨h, hs, by rw [← hs.pool]; simpa using hpool⟩

lemma portConfigure_ends (hport : portid < s₀.nbPorts) :
    Ends (fun s => ∃ h, Configuring s₀ portid s h) (portConfigure nic portid)
      (fun _ s => ∃ h, Configuring s₀ (portid + 1) s h) (StillConfiguring nic s₀) := by
  refine .bind (rteVerify_ends ?_) fun _ => .bind (createMempool_ends nic hport) fun _ => ?_
  · rintro s ⟨h, hs⟩
    simpa [hs.frame.nbPorts] using hport
  refine .get_bind ?_
  rintro s ⟨h, hs, -⟩
  rw [hs.frame.portConf]
  -- the device, before and after each of the two loops
  refine .bind (ethCall_configuring nic hport _ (T := fun d => d.pool = true)
      (U := Partly (s₀.portConf portid) 0 0) ?_) fun _ =>
    .bind (.forIn_range (I := fun tx s => ∃ h, Configuring s₀ portid s h ∧
      Partly (s₀.portConf portid) 0 tx (h.device portid)) ?_) fun _ =>
    .bind (rteVerify_ends ?_) fun _ =>
    .bind (.forIn_range (I := fun rx s => ∃ h, Configuring s₀ portid s h ∧
      Partly (s₀.portConf portid) rx (s₀.portConf portid).nbTxq (h.device portid)) ?_) fun _ =>
    .pure ?_
  · intro d hpool hstopped
    exact ⟨hstopped, ⟨hpool, rfl, rfl, rfl, rfl, rfl⟩, hstopped⟩
  · intro queueid hqueueid
    refine ethCall_configuring nic hport _ ?_
    rintro d ⟨hpool, hconf, hrx, htx, hrxs, htxs⟩ hstopped
    refine ⟨⟨hstopped, hconf, by rwa [htx]⟩, ⟨hpool, hconf, hrx, htx, hrxs, ?_⟩, hstopped⟩
    rw [Finset.range_add_one, ← htxs]
    rfl
  · rintro s ⟨h, hs, hd⟩
    rw [hs.pool, hd.pool]
  · intro queueid hqueueid
    refine ethCall_configuring nic hport _ ?_
    rintro d ⟨hpool, hconf, hrx, htx, hrxs, htxs⟩ hstopped
    refine ⟨⟨hstopped, hconf, by rwa [hrx], hpool⟩, ⟨hpool, hconf, hrx, htx, ?_, htxs⟩, hstopped⟩
    rw [Finset.range_add_one, ← hrxs]
    rfl
  · rintro s ⟨h, hs, hd⟩
    refine ⟨h, { hs with ready := ?_ }⟩
    intro p hp
    rcases Nat.lt_succ_iff_lt_or_eq.mp hp with hlt | rfl
    · exact hs.ready p hlt
    · exact hd

end Configure

/-! ## Between the calls -/

section Inv

variable {δ : Type} {s s₀ : State δ} {h h₀ : Ports} {portid m : ℕ}

/-- What holds between any two calls. -/
structure Inv (s : State δ) (h : Ports) : Prop extends Follows s h where
  silent : s.initialized = false → s.events = []
  initialized : s.configured = true → s.initialized = true
  configured : s.started = true → s.configured = true
  thread : s.initialized = true → s.dpThread = true
  launched : h.launched = s.started
  ready : s.configured = true → ∀ p < s.nbPorts, SetUp (s.portConf p) (h.device p)
  stopped : s.configured = false → ∀ p, (h.device p).started = false
  running : s.started = true → ∀ p < s.nbPorts, (h.device p).started = true

/-- Before daqswitch is initialized. -/
structure Idle (s : State δ) : Prop where
  initialized : s.initialized = false
  configured : s.configured = false
  started : s.started = false
  pool : ∀ p, s.pktMbufPool p = false
  events : s.events = []

lemma Idle.inv (hs : Idle s) : Inv s .zero where
  run_events := by rw [hs.events, run_nil]
  pool := hs.pool
  others _ _ := rfl
  silent _ := hs.events
  initialized hconf := by rw [hs.configured] at hconf; cases hconf
  configured hstart := by rw [hs.started] at hstart; cases hstart
  thread hinit := by rw [hs.initialized] at hinit; cases hinit
  launched := hs.started.symm
  ready hconf := by rw [hs.configured] at hconf; cases hconf
  stopped _ _ := rfl
  running hstart := by rw [hs.started] at hstart; cases hstart

namespace Inv

lemma not_configured (hs : Inv s h) (hinit : s.initialized = false) : s.configured = false := by
  by_contra hconf
  rw [hs.initialized (by simpa using hconf)] at hinit
  cases hinit

lemma not_started (hs : Inv s h) (hconf : s.configured = false) : s.started = false := by
  by_contra hstart
  rw [hs.configured (by simpa using hstart)] at hconf
  cases hconf

lemma idle (hs : Inv s h) (hinit : s.initialized = false) : Idle s := by
  have hconf := hs.not_configured hinit
  refine ⟨hinit, hconf, hs.not_started hconf, ?_, hs.silent hinit⟩
  have hzero := hs.run_events
  rw [hs.silent hinit, run_nil, Option.some_inj] at hzero
  intro p
  rw [hs.pool, ← hzero]
  rfl

lemma configuring (hs : Inv s h) (hconf : s.configured = false) : Configuring s 0 s h where
  toFollows := hs.toFollows
  frame := .refl s
  launched := hs.launched.trans (hs.not_started hconf)
  stopped := hs.stopped hconf
  ready _ hp := absurd hp (Nat.not_lt_zero _)

/-- The data path's memory is its own. -/
lemma setDp (hs : Inv s h) (dp : δ) : Inv { s with dp := dp } h :=
  { hs with }

end Inv

namespace Configuring

variable (hs : Configuring s₀ m s h) (hinv : Inv s₀ h₀) (hinit : s₀.initialized = true)
  (hconf : s₀.configured = false)

include hs hinv hinit hconf

/-- A failure leaves nothing configured. -/
lemma inv_of_error : Inv s h where
  toFollows := hs.toFollows
  silent hinit' := by
    rw [hs.frame.initialized, hinit] at hinit'
    cases hinit'
  initialized _ := hs.frame.initialized.trans hinit
  configured hstart := by
    rw [hs.frame.started, hinv.not_started hconf] at hstart
    cases hstart
  thread _ := hs.frame.dpThread.trans (hinv.thread hinit)
  launched := by rw [hs.launched, hs.frame.started, hinv.not_started hconf]
  ready hconf' := by
    rw [hs.frame.configured, hconf] at hconf'
    cases hconf'
  stopped _ := hs.stopped
  running hstart := by
    rw [hs.frame.started, hinv.not_started hconf] at hstart
    cases hstart

/-- All ports are set up. -/
lemma inv_of_ok (hm : m = s₀.nbPorts) : Inv { s with configured := true } h :=
  have herr := hs.inv_of_error hinv hinit hconf
  { herr with
    initialized := fun _ => hs.frame.initialized.trans hinit
    configured := fun _ => rfl
    ready := fun _ p hp => by
      show SetUp (s.portConf p) _
      rw [hs.frame.portConf]
      exact hs.ready p (by rw [hm, ← hs.frame.nbPorts]; exact hp)
    stopped := nofun }

end Configuring

section Configure

variable (nic : Nic) (D : Datapath δ)

/-- What is left of a call that is refused or fails. -/
def Kept (s₀ : State δ) (s : State δ) : Prop :=
  (∃ h, Inv s h) ∧ ∃ dp, Frame { s₀ with dp := dp } s

lemma dpConfigure_ends (s₀ : State δ) {Q : State δ → Prop} {E : Failure → State δ → Prop}
    (hok : ∀ dp, (D.configure s₀.nbPorts).run s₀.dp = .ok () dp → Q { s₀ with dp := dp })
    (herr : ∀ e dp, (D.configure s₀.nbPorts).run s₀.dp = .error e dp →
      E e { s₀ with dp := dp }) :
    Ends (· = s₀) (dpConfigure D) (fun _ => Q) E := by
  refine .get_bind_eq ?_
  rintro s rfl
  cases hrun : (D.configure s.nbPorts).run s.dp with
  | ok _ dp => exact .set fun _ _ => hok dp hrun
  | error e dp =>
    exact .bind (.set (Q := E e) fun _ _ => herr e dp hrun) fun _ => .throw fun _ h => h

lemma configure_ends (hinv : Inv s₀ h₀) :
    Ends (· = s₀) (configure nic D)
      (fun _ s => (∃ h, Inv s h) ∧ ∃ dp, (D.configure s₀.nbPorts).run s₀.dp = .ok () dp ∧
        s₀.initialized = true ∧ s₀.configured = false ∧
          Frame { s₀ with configured := true, dp := dp } s)
      (fun e s => Kept s₀ s ∧ (e = .error ∧ (s₀.configured = true ∨ s₀.initialized = false ∨
          NicFails nic) ∨
        ∃ dp, (D.configure s₀.nbPorts).run s₀.dp = .error e dp)) := by
  have hrefused : Kept s₀ s₀ := ⟨⟨h₀, hinv⟩, s₀.dp, .refl s₀⟩
  refine .bind (errorIf_ends ?_) fun _ => .bind (errorIf_ends ?_) fun _ => ?_
  · rintro _ rfl hconf
    exact ⟨hrefused, .inl ⟨rfl, .inl hconf⟩⟩
  · rintro _ ⟨rfl, -⟩ hinit
    exact ⟨hrefused, .inl ⟨rfl, .inr (.inl (by simpa using hinit))⟩⟩
  by_cases hcond : s₀.configured = false ∧ s₀.initialized = true
  · obtain ⟨hconf, hinit⟩ := hcond
    refine .bind ((dpConfigure_ends D s₀
      (Q := fun s => ∃ dp, (D.configure s₀.nbPorts).run s₀.dp = .ok () dp ∧
        s = { s₀ with dp := dp }) (fun dp hdp => ⟨dp, hdp, rfl⟩) ?_).conseq
      (fun s hs => hs.1.1) (fun _ _ h => h) fun _ _ h => h) fun _ => ?_
    · intro e dp hdp
      exact ⟨⟨⟨h₀, hinv.setDp dp⟩, dp, .refl _⟩, .inr ⟨dp, hdp⟩⟩
    · refine .get_bind_eq ?_
      rintro _ ⟨dp, hdp, rfl⟩
      have hinv' := hinv.setDp dp
      refine .bind ((Ends.forIn_range (fun p hp => (portConfigure_ends nic hp).conseq
        (fun _ h => h) (fun _ _ h => h) ?_)).conseq ?_ (fun _ _ h => h) fun _ _ h => h) fun _ =>
        .modify ?_
      · rintro e s ⟨⟨rfl, hnic⟩, h, hs⟩
        exact ⟨⟨⟨h, hs.inv_of_error hinv' hinit hconf⟩, dp, hs.frame⟩,
          .inl ⟨rfl, .inr (.inr hnic)⟩⟩
      · rintro _ rfl
        exact ⟨h₀, hinv'.configuring hconf⟩
      · rintro s ⟨h, hs⟩
        refine ⟨⟨h, hs.inv_of_ok hinv' hinit hconf rfl⟩, dp, hdp, hinit, hconf, ?_⟩
        rw [Frame, hs.frame]
  · rintro s ⟨⟨rfl, hconf⟩, hinit⟩
    exact absurd ⟨hconf, by simpa using hinit⟩ hcond

end Configure

/-! ## Start -/

/-- In `daqswitch_start`, entered in state `s₀`, with the first `m` ports started. -/
structure Starting (s₀ : State δ) (m : ℕ) (s : State δ) (h : Ports) : Prop
    extends Follows s h where
  frame : Frame s₀ s
  launched : h.launched = false
  ready : ∀ p < s₀.nbPorts, SetUp (s₀.portConf p) (h.device p)
  running : ∀ p < m, (h.device p).started = true

/-- The calls of `daqswitch_port_start` set up nothing and stop nothing. -/
structure Keeps (call : EthCall) (ok : Bool) : Prop where
  setUp : ∀ c d, SetUp c d → SetUp c (d.after call ok)
  started : ∀ d : EthDevice, d.started = true → (d.after call ok).started = true

lemma keeps_of_eq {call : EthCall} {ok : Bool} (h : ∀ d : EthDevice, d.after call ok = d) :
    Keeps call ok :=
  ⟨fun c d hd => by rwa [h], fun d hd => by rwa [h]⟩

lemma keeps_devStart : Keeps .devStart true :=
  ⟨fun _ _ hd => { hd with }, fun _ _ => rfl⟩

namespace Starting

lemma logCall (hs : Starting s₀ m s h) (hport : portid < s₀.nbPorts) (call : EthCall) (ok : Bool)
    (hallow : (h.device portid).Allows call) (hkeeps : Keeps call ok) :
    Starting s₀ m (s.logCall portid call ok)
      (h.set portid ((h.device portid).after call ok)) where
  toFollows := hs.toFollows.logCall hs.launched (by rwa [hs.frame.nbPorts]) hallow ok
  frame := hs.frame.trans (frame_logCall ..)
  launched := hs.launched
  ready p hp := by
    rcases eq_or_ne p portid with rfl | hne
    · rw [Ports.set_device_self]
      exact hkeeps.setUp _ _ (hs.ready p hp)
    · rw [Ports.set_device_of_ne h _ hne]
      exact hs.ready p hp
  running p hp := by
    rcases eq_or_ne p portid with rfl | hne
    · rw [Ports.set_device_self]
      exact hkeeps.started _ (hs.running p hp)
    · rw [Ports.set_device_of_ne h _ hne]
      exact hs.running p hp

lemma mono (hs : Starting s₀ m s h) {m' : ℕ} (hm : m' ≤ m) : Starting s₀ m' s h :=
  { hs with running := fun p hp => hs.running p (hp.trans_le hm) }

end Starting

lemma Inv.starting (hs : Inv s h) (hconf : s.configured = true) (hstart : s.started = false) :
    Starting s 0 s h where
  toFollows := hs.toFollows
  frame := .refl s
  launched := hs.launched.trans hstart
  ready := hs.ready hconf
  running _ hp := absurd hp (Nat.not_lt_zero _)

namespace Starting

variable (hs : Starting s₀ m s h) (hinv : Inv s₀ h₀) (hconf : s₀.configured = true)
  (hstart : s₀.started = false)

include hs hinv hconf hstart

lemma inv_of_error : Inv s h where
  toFollows := hs.toFollows
  silent hinit := by
    rw [hs.frame.initialized, hinv.initialized hconf] at hinit
    cases hinit
  initialized _ := hs.frame.initialized.trans (hinv.initialized hconf)
  configured _ := hs.frame.configured.trans hconf
  thread _ := hs.frame.dpThread.trans (hinv.thread (hinv.initialized hconf))
  launched := by rw [hs.launched, hs.frame.started, hstart]
  ready _ p hp := by
    rw [hs.frame.portConf]
    exact hs.ready p (by rwa [← hs.frame.nbPorts])
  stopped hconf' := by
    rw [hs.frame.configured, hconf] at hconf'
    cases hconf'
  running hstart' := by
    rw [hs.frame.started, hstart] at hstart'
    cases hstart'

/-- All ports are started, and the threads are launched. -/
lemma inv_of_ok (hm : m = s₀.nbPorts) (dp : δ) :
    Inv { s with started := true, dp := dp, events := s.events ++ [.launch s.nbPorts] }
      { h with launched := true } :=
  have herr := hs.inv_of_error hinv hconf hstart
  have hall : ∀ p < s.nbPorts, (h.device p).started = true := fun p hp =>
    hs.running p (by rwa [hm, ← hs.frame.nbPorts])
  { run_events := by
      show run Ports.step (s.events ++ [.launch s.nbPorts]) Ports.zero = _
      rw [run_append, hs.run_events, Option.bind_some, run_singleton, Ports.step,
        if_pos ⟨hs.launched, hall⟩]
    pool := hs.pool
    others := hs.others
    silent := fun hinit => by
      change s.initialized = false at hinit
      rw [herr.initialized (hs.frame.configured.trans hconf)] at hinit
      cases hinit
    initialized := herr.initialized
    configured := fun _ => hs.frame.configured.trans hconf
    thread := herr.thread
    launched := rfl
    ready := herr.ready
    stopped := herr.stopped
    running := fun _ => hall }

end Starting

section Start

variable (nic : Nic) (D : Datapath δ)

/-- What holds when a call for a port fails. -/
def StillStarting (s₀ : State δ) (e : Failure) (s : State δ) : Prop :=
  (e = .error ∧ NicFails nic) ∧ ∃ h, Starting s₀ 0 s h

/-- A call for the next port, which starts it or leaves it as it is. -/
lemma ethCall_starting (hport : portid < s₀.nbPorts) (call : EthCall) {T U : EthDevice → Prop}
    (hcall : ∀ d, SetUp (s₀.portConf portid) d → T d → d.Allows call ∧ U (d.done call))
    (hkeeps : ∀ ok, Keeps call ok) :
    Ends (fun s => ∃ h, Starting s₀ portid s h ∧ T (h.device portid)) (ethCall nic portid call)
      (fun _ s => ∃ h, Starting s₀ portid s h ∧ U (h.device portid)) (StillStarting nic s₀) := by
  refine ethCall_ends ?_ ?_
  · rintro s ⟨h, hs, hT⟩
    obtain ⟨hallow, hU⟩ := hcall _ (hs.ready portid hport) hT
    refine ⟨_, hs.logCall hport call true hallow (hkeeps true), ?_⟩
    rwa [Ports.set_device_self]
  · rintro s ⟨h, hs, hT⟩ hnic
    obtain ⟨hallow, -⟩ := hcall _ (hs.ready portid hport) hT
    exact ⟨⟨rfl, hnic⟩, _, (hs.logCall hport call false hallow (hkeeps false)).mono (Nat.zero_le _)⟩

lemma setFdirMasks_ends (hport : portid < s₀.nbPorts) :
    Ends (fun s => ∃ h, Starting s₀ portid s h ∧ (h.device portid).started = true)
      (setFdirMasks nic portid)
      (fun _ s => ∃ h, Starting s₀ portid s h ∧ (h.device portid).started = true)
      (StillStarting nic s₀) := by
  refine .get_bind fun s _ => ?_
  cases (s.portConf portid).fdirMasks with
  | none => exact .pure fun _ hs => hs
  | some masks =>
    exact ethCall_starting nic hport (.fdirSetMasks masks)
      (T := fun d => d.started = true) (U := fun d => d.started = true)
      (fun d _ hd => ⟨hd, hd⟩) fun ok => keeps_of_eq fun d => by cases ok <;> rfl

lemma portStart_ends (hport : portid < s₀.nbPorts) :
    Ends (fun s => ∃ h, Starting s₀ portid s h) (portStart nic portid)
      (fun _ s => ∃ h, Starting s₀ (portid + 1) s h) (StillStarting nic s₀) := by
  refine .bind (rteVerify_ends ?_) fun _ => .bind ((ethCall_starting nic hport _
      (T := fun _ => True) (U := fun d => d.started = true) ?_ ?_).conseq
      (fun s ⟨h, hs⟩ => ⟨h, hs, trivial⟩) (fun _ _ h => h) fun _ _ h => h) fun _ =>
    .bind (.modify (Q := fun s => ∃ h, Starting s₀ portid s h ∧
      (h.device portid).started = true) ?_) fun _ =>
    .bind (setFdirMasks_ends nic hport) fun _ =>
    (ethCall_starting nic hport .flowCtrlSet (T := fun d => d.started = true)
      (U := fun d => d.started = true) (fun d _ hd => ⟨hd, hd⟩) ?_).conseq
      (fun _ h => h) ?_ fun _ _ h => h
  · rintro s ⟨h, hs⟩
    simpa [hs.frame.nbPorts] using hport
  · exact fun d hd _ => ⟨hd.ready, rfl⟩
  · rintro (- | -)
    · exact keeps_of_eq fun _ => rfl
    · exact keeps_devStart
  · rintro s ⟨h, hs, hd⟩
    refine ⟨_, hs.logCall hport .promiscuousEnable true hd
      (keeps_of_eq fun _ => rfl), ?_⟩
    rw [Ports.set_device_self]
    exact hd
  · exact fun ok => keeps_of_eq fun d => by cases ok <;> rfl
  · rintro - s ⟨h, hs, hd⟩
    refine ⟨h, { hs with running := ?_ }⟩
    intro p hp
    rcases Nat.lt_succ_iff_lt_or_eq.mp hp with hlt | rfl
    · exact hs.running p hlt
    · exact hd

lemma start_ends (hinv : Inv s₀ h₀) :
    Ends (· = s₀) (start nic D)
      (fun _ s => (∃ h, Inv s h) ∧ s₀.configured = true ∧
        Frame { s₀ with started := true, dp := D.installDefaultTables s₀.nbPorts s₀.dp } s)
      (fun e s => Kept s₀ s ∧ e = .error ∧
        (s₀.started = true ∨ s₀.configured = false ∨ NicFails nic)) := by
  have hrefused : Kept s₀ s₀ := ⟨⟨h₀, hinv⟩, s₀.dp, .refl s₀⟩
  refine .bind (errorIf_ends ?_) fun _ => .bind (errorIf_ends ?_) fun _ => ?_
  · rintro _ rfl hstart
    exact ⟨hrefused, rfl, .inl hstart⟩
  · rintro _ ⟨rfl, -⟩ hconf
    exact ⟨hrefused, rfl, .inr (.inl (by simpa using hconf))⟩
  by_cases hcond : s₀.started = false ∧ s₀.configured = true
  · obtain ⟨hstart, hconf⟩ := hcond
    refine .get_bind_eq ?_
    rintro s ⟨⟨hs, -⟩, -⟩
    subst s₀
    refine .bind ((Ends.forIn_range (fun p hp => (portStart_ends nic hp).conseq
      (fun _ h => h) (fun _ _ h => h) ?_)).conseq ?_ (fun _ _ h => h) fun _ _ h => h) fun _ =>
      .bind (rteVerify_ends ?_) fun _ =>
      .bind (.modify (Q := fun u => ∃ t h, Starting s s.nbPorts t h ∧
        u = t.log (.launch t.nbPorts)) ?_) fun _ =>
      .bind (.modify (Q := fun u => ∃ t h, Starting s s.nbPorts t h ∧
        u = { t with started := true, events := t.events ++ [.launch t.nbPorts] }) ?_) fun _ =>
      .modify ?_
    · rintro e t ⟨⟨rfl, hnic⟩, h, hs⟩
      exact ⟨⟨⟨h, hs.inv_of_error hinv hconf hstart⟩, s.dp, hs.frame⟩, rfl, .inr (.inr hnic)⟩
    · rintro _ rfl
      exact ⟨h₀, hinv.starting hconf hstart⟩
    · rintro t ⟨h, hs⟩
      exact hs.frame.dpThread.trans (hinv.thread (hinv.initialized hconf))
    · rintro t ⟨h, hs⟩
      exact ⟨t, h, hs, rfl⟩
    · rintro _ ⟨t, h, hs, rfl⟩
      exact ⟨t, h, hs, rfl⟩
    · rintro _ ⟨t, h, hs, rfl⟩
      refine ⟨⟨_, hs.inv_of_ok hinv hconf hstart rfl _⟩, hconf, ?_⟩
      have hdp := hs.frame.dp
      have hnb := hs.frame.nbPorts
      rw [Frame, ← hdp, ← hnb, hs.frame]
  · rintro s ⟨⟨rfl, hstart⟩, hconf⟩
    exact absurd ⟨hstart, by simpa using hconf⟩ hcond

end Start

/-! ## Initialisation -/

section Init

variable (rteMaxEthports : ℕ) (D : Datapath δ)

/-- The configuration after the first `m` ports are initialized. -/
def resetConf (pc : ℕ → PortConf) (m p : ℕ) : PortConf :=
  if p < m then portConfDefault else pc p

/-- `daqswitch_get_nb_ports` after `daqswitch_init`. -/
def nbPortsOf (devCount : ℕ) : ℕ := min (devCount % 2 ^ 8) rteMaxEthports

lemma portInit_ends (hidle : Idle s₀) {E : Failure → State δ → Prop}
    (hport : portid < s₀.nbPorts) :
    Ends (· = { s₀ with portConf := resetConf s₀.portConf portid }) (portInit portid)
      (fun _ s => s = { s₀ with portConf := resetConf s₀.portConf (portid + 1) }) E := by
  refine .bind (rteVerify_ends ?_) fun _ => .bind (.modify (Q := fun s =>
    s = { s₀ with portConf := resetConf s₀.portConf (portid + 1) }) ?_) fun _ => .modify ?_
  · rintro _ rfl
    simpa using hport
  · rintro _ rfl
    have hconf : Function.update (resetConf s₀.portConf portid) portid portConfDefault =
        resetConf s₀.portConf (portid + 1) := by
      ext1 p
      rw [Function.update_apply]
      simp only [resetConf]
      split_ifs <;> first | rfl | omega
    rw [State.setConf, ← hconf]
  · rintro _ rfl
    have hpool : Function.update s₀.pktMbufPool portid false = s₀.pktMbufPool := by
      rw [← hidle.pool portid, Function.update_eq_self]
    rw [State.setPool, hpool]

lemma dpInit_ends (s₀ : State δ) {Q : State δ → Prop} {E : Failure → State δ → Prop}
    (hok : ∀ pc dp, (D.init s₀.nbPorts).run (s₀.portConf, s₀.dp) = .ok () (pc, dp) →
      Q { s₀ with portConf := pc, dp := dp, dpThread := true })
    (herr : ∀ e pc dp, (D.init s₀.nbPorts).run (s₀.portConf, s₀.dp) = .error e (pc, dp) →
      E e { s₀ with portConf := pc, dp := dp }) :
    Ends (· = s₀) (dpInit D) (fun _ => Q) E := by
  refine .get_bind_eq ?_
  rintro s rfl
  cases hrun : (D.init s.nbPorts).run (s.portConf, s.dp) with
  | ok _ x => exact .set fun _ _ => hok x.1 x.2 hrun
  | error e x =>
    exact .bind (.set (Q := E e) fun _ _ => herr e x.1 x.2 hrun) fun _ => .throw fun _ h => h

/-- Initialized for the first time, with what the data path has set. -/
def Initialized (s₀ : State δ) (devCount : ℕ) (s : State δ) : Prop :=
  ∃ pc dp, (D.init (nbPortsOf rteMaxEthports devCount)).run
      (resetConf s₀.portConf (nbPortsOf rteMaxEthports devCount), s₀.dp) = .ok () (pc, dp) ∧
    s = { s₀ with
      nbPorts := nbPortsOf rteMaxEthports devCount, portConf := pc, dp := dp, dpThread := true,
      initialized := true }

lemma init_ends (hinv : Inv s₀ h₀) (devCount : ℕ) (rings : Bool) :
    Ends (· = s₀) (init rteMaxEthports D devCount rings)
      (fun _ s => (∃ h, Inv s h) ∧ s₀.initialized = false ∧
        Initialized rteMaxEthports D s₀ devCount s)
      (fun e s => (∃ h, Inv s h) ∧ (s₀.initialized = true → s = s₀) ∧
        (s₀.initialized = true ∨ e = .abort ∧ rings = false ∨
          ∃ x, (D.init (nbPortsOf rteMaxEthports devCount)).run
            (resetConf s₀.portConf (nbPortsOf rteMaxEthports devCount), s₀.dp) =
              .error e x)) := by
  refine .bind (errorIf_ends ?_) fun _ => ?_
  · rintro _ rfl hinit
    exact ⟨⟨h₀, hinv⟩, fun _ => rfl, .inl hinit⟩
  by_cases hinit : s₀.initialized = false
  · have hidle := hinv.idle hinit
    have hnot {P : Prop} : s₀.initialized = true → P := fun h => by rw [hinit] at h; cases h
    let s₁ : State δ := { s₀ with nbPorts := nbPortsOf rteMaxEthports devCount }
    have hidle₁ : Idle s₁ := { hidle with }
    refine .bind (.modify (Q := (· = s₁)) ?_) fun _ => .get_bind_eq ?_
    · rintro _ ⟨rfl, -⟩
      rfl
    rintro _ rfl
    refine .bind ((Ends.forIn_range (I := fun m s => s = { s₁ with
      portConf := resetConf s₁.portConf m }) fun p hp => portInit_ends hidle₁ hp).conseq ?_
        (fun _ _ h => h) fun _ _ h => h) fun _ =>
      .bind (dpInit_ends D { s₁ with portConf := resetConf s₁.portConf s₁.nbPorts }
        (Q := fun s => ∃ pc dp, (D.init s₁.nbPorts).run (resetConf s₁.portConf s₁.nbPorts, s₁.dp) =
          .ok () (pc, dp) ∧ s = { s₁ with portConf := pc, dp := dp, dpThread := true })
        (fun pc dp hrun => ⟨pc, dp, hrun, rfl⟩) ?_) fun _ =>
      .bind (rteVerify_ends_or ?_) fun _ => .modify ?_
    · rintro _ rfl
      rfl
    · intro e pc dp hrun
      exact ⟨⟨.zero, Idle.inv { hidle₁ with }⟩, hnot, .inr (.inr ⟨_, hrun⟩)⟩
    · rintro _ ⟨pc, dp, -, rfl⟩ hrings
      exact ⟨⟨.zero, Idle.inv { hidle₁ with }⟩, hnot, .inr (.inl ⟨rfl, hrings⟩)⟩
    · rintro _ ⟨pc, dp, hrun, rfl⟩
      refine ⟨⟨.zero, ?_⟩, hinit, pc, dp, hrun, rfl⟩
      have hidle₂ : Inv { s₁ with portConf := pc, dp := dp, dpThread := true } .zero :=
        Idle.inv { hidle₁ with }
      exact { hidle₂ with silent := nofun, initialized := fun _ => rfl, thread := fun _ => rfl }
  · rintro _ ⟨rfl, hinit'⟩
    exact absurd hinit' hinit

lemma portSet_ends (hinv : Inv s₀ h₀) (setting : Setting) :
    Ends (· = s₀) (portSet portid setting)
      (fun _ s => (∃ h, Inv s h) ∧ s₀.initialized = false)
      (fun _ s => (∃ h, Inv s h) ∧ s = s₀) := by
  refine .bind (errorIf_ends ?_) fun _ => .bind (rteVerify_ends_or ?_) fun _ => .modify ?_
  · rintro _ rfl -
    exact ⟨⟨h₀, hinv⟩, rfl⟩
  · rintro _ ⟨rfl, -⟩ -
    exact ⟨⟨h₀, hinv⟩, rfl⟩
  · rintro s ⟨rfl, hinit⟩
    exact ⟨⟨.zero, Idle.inv { hinv.idle hinit with }⟩, hinit⟩

end Init

/-! ## Any calls -/

section Serve

variable (rteMaxEthports : ℕ) (nic : Nic) (D : Datapath δ)

/-- Once daqswitch is initialized, the configuration of the ports stays. -/
def Frozen (s t : State δ) : Prop :=
  s.initialized = true → t.initialized = true ∧ t.nbPorts = s.nbPorts ∧ t.portConf = s.portConf

lemma Frozen.refl (s : State δ) : Frozen s s := fun hinit => ⟨hinit, rfl, rfl⟩

lemma Frozen.trans {t u : State δ} (h : Frozen s t) (h' : Frozen t u) : Frozen s u := by
  intro hinit
  obtain ⟨hinit', hnb, hpc⟩ := h hinit
  obtain ⟨hinit'', hnb', hpc'⟩ := h' hinit'
  exact ⟨hinit'', hnb'.trans hnb, hpc'.trans hpc⟩

/-- The data path's memory and the flags are not part of the configuration. -/
lemma frozen_of_frame {t u : State δ} (hu : Frame u t) (hinit : u.initialized = s.initialized)
    (hnb : u.nbPorts = s.nbPorts) (hpc : u.portConf = s.portConf) : Frozen s t :=
  fun h => ⟨hu.initialized.trans (hinit.trans h), hu.nbPorts.trans hnb, hu.portConf.trans hpc⟩

lemma Kept.frozen {t : State δ} (h : Kept s t) : Frozen s t := by
  obtain ⟨-, dp, hframe⟩ := h
  exact frozen_of_frame hframe rfl rfl rfl

lemma frozen_of_not {t : State δ} (h : s.initialized = false) : Frozen s t := by
  intro hinit
  rw [h] at hinit
  cases hinit

/-- Each of the functions, whether it ends well or not. -/
lemma exec_ends (hinv : Inv s₀ h₀) (op : Op) :
    Ends (· = s₀) (op.exec rteMaxEthports nic D)
      (fun _ s => (∃ h, Inv s h) ∧ Frozen s₀ s) (fun _ s => (∃ h, Inv s h) ∧ Frozen s₀ s) := by
  cases op with
  | init devCount rings =>
    refine (init_ends rteMaxEthports D hinv devCount rings).conseq (fun _ h => h) ?_ ?_
    · rintro - s ⟨hs, hinit, -⟩
      exact ⟨hs, frozen_of_not hinit⟩
    · rintro - s ⟨hs, hsame, -⟩
      exact ⟨hs, fun hinit => hsame hinit ▸ Frozen.refl s₀ hinit⟩
  | configure =>
    refine (configure_ends nic D hinv).conseq (fun _ h => h) ?_ ?_
    · rintro - s ⟨hs, dp, -, -, -, hframe⟩
      exact ⟨hs, frozen_of_frame hframe rfl rfl rfl⟩
    · rintro - s ⟨hs, -⟩
      exact ⟨hs.1, hs.frozen⟩
  | start =>
    refine (start_ends nic D hinv).conseq (fun _ h => h) ?_ ?_
    · rintro - s ⟨hs, -, hframe⟩
      exact ⟨hs, frozen_of_frame hframe rfl rfl rfl⟩
    · rintro - s ⟨hs, -⟩
      exact ⟨hs.1, hs.frozen⟩
  | portSet portid setting =>
    refine (portSet_ends hinv setting).conseq (fun _ h => h) ?_ ?_
    · rintro - s ⟨hs, hinit⟩
      exact ⟨hs, frozen_of_not hinit⟩
    · rintro - s ⟨hs, rfl⟩
      exact ⟨hs, .refl s⟩

/-- What any calls keep. -/
def Safe (s₀ s : State δ) : Prop := (∃ h, Inv s h) ∧ Frozen s₀ s

lemma attempt_ends (op : Op) :
    Ends (Safe s₀) (op.attempt rteMaxEthports nic D) (fun _ => Safe s₀) (fun _ => Safe s₀) := by
  refine .tryCatch (F := fun _ => Safe s₀) (.of_eq ?_) ?_
  · rintro s ⟨⟨h, hs⟩, hfrozen⟩
    exact (exec_ends rteMaxEthports nic D hs op).conseq (fun _ h => h)
      (fun _ _ ht => ⟨ht.1, hfrozen.trans ht.2⟩) fun _ _ ht => ⟨ht.1, hfrozen.trans ht.2⟩
  · rintro (- | -)
    · exact .pure fun _ h => h
    · exact .throw fun _ h => h

lemma serve_ends (ops : List Op) :
    Ends (Safe s₀) (serve rteMaxEthports nic D ops) (fun _ => Safe s₀) (fun _ => Safe s₀) :=
  .bind (.forIn_list fun op _ => attempt_ends rteMaxEthports nic D op) fun _ => .pure fun _ h => h

lemma idle_zero (pc : ℕ → PortConf) (dp : δ) : Idle (State.zero pc dp) :=
  ⟨rfl, rfl, rfl, fun _ => rfl, rfl⟩

end Serve

end Inv

/-- The state after any calls. -/
def reached {δ : Type} (rteMaxEthports : ℕ) (nic : Nic) (D : Datapath δ) (pc : ℕ → PortConf)
    (dp : δ) (ops : List Op) : State δ :=
  final (serve rteMaxEthports nic D ops) (.zero pc dp)

/-- **Life cycle.**  Whatever is called in whatever order, and whichever calls of the packet library
and of the data path fail, the ports have been used as they may be: when daqswitch is configured,
all queues of all ports are set up, and when it has started, all ports are.  From the
initialization on, the configuration of the ports does not change.  No `RTE_VERIFY` of
`daqswitch_start` trips, and none of `daqswitch_configure` but those of `dp_configure`. -/
theorem reached_inv {δ : Type} (rteMaxEthports : ℕ) (nic : Nic) (D : Datapath δ)
    (pc : ℕ → PortConf) (dp : δ) (ops : List Op) :
    (∃ h, Inv (reached rteMaxEthports nic D pc dp ops) h) ∧
      (∀ more, Frozen (reached rteMaxEthports nic D pc dp ops)
        (final (serve rteMaxEthports nic D more) (reached rteMaxEthports nic D pc dp ops))) ∧
      (∀ t, (start nic D).run (reached rteMaxEthports nic D pc dp ops) ≠ .error .abort t) ∧
      ∀ t, (configure nic D).run (reached rteMaxEthports nic D pc dp ops) = .error .abort t →
        ∃ dp', (D.configure (reached rteMaxEthports nic D pc dp ops).nbPorts).run
          (reached rteMaxEthports nic D pc dp ops).dp = .error .abort dp' := by
  have hzero : Safe (State.zero pc dp) (State.zero pc dp) :=
    ⟨⟨_, (idle_zero pc dp).inv⟩, .refl _⟩
  obtain ⟨⟨h, hinv⟩, -⟩ := (serve_ends rteMaxEthports nic D ops).final hzero
  rw [← reached] at hinv
  refine ⟨⟨h, hinv⟩, ?_, ?_, ?_⟩
  · intro more
    exact ((serve_ends rteMaxEthports nic D more).final ⟨⟨h, hinv⟩, .refl _⟩).2
  · intro t ht
    obtain ⟨-, habort, -⟩ := (start_ends nic D hinv).error rfl ht
    cases habort
  · intro t ht
    obtain ⟨-, ⟨habort, -⟩ | hdp⟩ := (configure_ends nic D hinv).error rfl ht
    · cases habort
    · exact hdp

end DaqSwitch.Daqswitch
