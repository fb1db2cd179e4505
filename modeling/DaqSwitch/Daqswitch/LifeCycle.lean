import DaqSwitch.Daqswitch.EthDevice
import DaqSwitch.Lib.Attempt

/-!
# The life cycle of the switch

`daqswitch_init`, `daqswitch_configure` and `daqswitch_start` of `daqswitch.c`, the functions of
`daqswitch_port.c` that they call for each port, and the setters of `daqswitch_port.h`.  Each of
them may fail at any call to the packet library, and may be tried again.
-/

namespace DaqSwitch.Daqswitch

open Lib.Machine Lib.Attempt
open VoqHwq (PortConf FdirMasks)

/-! ## State -/

/-- An error is returned; a tripped `RTE_VERIFY` ends the program. -/
inductive Failure
  | error
  | abort
deriving DecidableEq, Repr

/-- A function that returns a status, and leaves what it has changed when it fails. -/
abbrev Attempt (σ : Type) := EStateM Failure σ

/-- What `struct daqswitch` and the `port_conf` of the ports hold, with the memory `dp` of the data
path and the events so far. -/
structure State (δ : Type) where
  initialized : Bool
  configured : Bool
  started : Bool
  nbPorts : ℕ
  dpThread : Bool
  portConf : ℕ → PortConf
  /-- Whether the `pkt_mbuf_pool` of a port is set. -/
  pktMbufPool : ℕ → Bool
  dp : δ
  events : List Event

/-- The packet library: whether a call for a port succeeds, after the events so far. -/
abbrev Nic := List Event → ℕ → EthCall → Bool

/-- The hooks of a data path, given the number of ports. -/
structure Datapath (δ : Type) where
  /-- `dp_init`, which also sets the configuration of the ports. -/
  init : ℕ → Attempt ((ℕ → PortConf) × δ) Unit
  /-- `dp_configure`. -/
  configure : ℕ → Attempt δ Unit
  /-- `dp_install_default_tables`. -/
  installDefaultTables : ℕ → δ → δ

section Functions

variable {δ : Type} (rteMaxEthports : ℕ) (nic : Nic) (D : Datapath δ)

/-- `port_conf_default`. -/
def portConfDefault : PortConf where
  nbRxq := 1
  nbTxq := 1
  nbRxd := 512
  nbTxd := 512
  fdirMasks := none

namespace State

def log (e : Event) (s : State δ) : State δ := { s with events := s.events ++ [e] }

def setPool (portid : ℕ) (pool : Bool) (s : State δ) : State δ :=
  { s with pktMbufPool := Function.update s.pktMbufPool portid pool }

/-- A call for a port; `pkt_mbuf_pool` is the result of the call that creates the mempool. -/
def logCall (portid : ℕ) (call : EthCall) (ok : Bool) (s : State δ) : State δ :=
  match call with
  | .mempoolCreate => (s.log (.eth portid call ok)).setPool portid ok
  | _ => s.log (.eth portid call ok)

def setConf (portid : ℕ) (f : PortConf → PortConf) (s : State δ) : State δ :=
  { s with portConf := Function.update s.portConf portid (f (s.portConf portid)) }

end State

def errorIf (cond : State δ → Bool) : Attempt (State δ) Unit := do
  if cond (← get) then throw .error

def rteVerify (cond : State δ → Bool) : Attempt (State δ) Unit := do
  if !cond (← get) then throw .abort

/-- A call of the packet library for a port. -/
def ethCall (portid : ℕ) (call : EthCall) : Attempt (State δ) Unit := do
  let s ← get
  set (s.logCall portid call (nic s.events portid call))
  if !nic s.events portid call then throw .error

/-! ## The ports -/

def portInit (portid : ℕ) : Attempt (State δ) Unit := do
  rteVerify fun s => portid < s.nbPorts
  modify (.setConf portid fun _ => portConfDefault)
  modify (.setPool portid false)

/-- The mempool of a port, if it does not exist. -/
def createMempool (portid : ℕ) : Attempt (State δ) Unit := do
  let s ← get
  if s.pktMbufPool portid then return
  ethCall nic portid .mempoolCreate

def portConfigure (portid : ℕ) : Attempt (State δ) Unit := do
  rteVerify fun s => portid < s.nbPorts
  createMempool nic portid
  let s ← get
  ethCall nic portid (.devConfigure (s.portConf portid).nbRxq (s.portConf portid).nbTxq)
  for queueid in List.range (s.portConf portid).nbTxq do
    ethCall nic portid (.txQueueSetup queueid (s.portConf portid).nbTxd)
  rteVerify fun s => s.pktMbufPool portid
  for queueid in List.range (s.portConf portid).nbRxq do
    ethCall nic portid (.rxQueueSetup queueid (s.portConf portid).nbRxd)

/-- The flow director masks of a port, if it is enabled. -/
def setFdirMasks (portid : ℕ) : Attempt (State δ) Unit := do
  let s ← get
  match (s.portConf portid).fdirMasks with
  | some masks => ethCall nic portid (.fdirSetMasks masks)
  | none => return

def portStart (portid : ℕ) : Attempt (State δ) Unit := do
  rteVerify fun s => portid < s.nbPorts
  ethCall nic portid .devStart
  -- the result of this call is void
  modify (.log (.eth portid .promiscuousEnable true))
  setFdirMasks nic portid
  ethCall nic portid .flowCtrlSet

/-- What the setters of `daqswitch_port.h` write. -/
inductive Setting
  | nbRxq (n : BitVec 16)
  | nbTxq (n : BitVec 16)
  | nbRxd (n : BitVec 16)
  | nbTxd (n : BitVec 16)
  | fdirForwarding (masks : FdirMasks)
deriving DecidableEq, Repr

def Setting.write : Setting → PortConf → PortConf
  | .nbRxq n, c => { c with nbRxq := n.toNat }
  | .nbTxq n, c => { c with nbTxq := n.toNat }
  | .nbRxd n, c => { c with nbRxd := n.toNat }
  | .nbTxd n, c => { c with nbTxd := n.toNat }
  | .fdirForwarding masks, c => { c with fdirMasks := some masks }

/-- The setters, which are refused when daqswitch is initialized. -/
def portSet (portid : ℕ) (setting : Setting) : Attempt (State δ) Unit := do
  errorIf fun s => s.initialized
  rteVerify fun s => portid < s.nbPorts
  modify (.setConf portid setting.write)

def setNbRxq (portid : ℕ) (nbRxq : BitVec 16) : Attempt (State δ) Unit :=
  portSet portid (.nbRxq nbRxq)

def setNbTxq (portid : ℕ) (nbTxq : BitVec 16) : Attempt (State δ) Unit :=
  portSet portid (.nbTxq nbTxq)

def setNbRxd (portid : ℕ) (nbRxd : BitVec 16) : Attempt (State δ) Unit :=
  portSet portid (.nbRxd nbRxd)

def setNbTxd (portid : ℕ) (nbTxd : BitVec 16) : Attempt (State δ) Unit :=
  portSet portid (.nbTxd nbTxd)

def setFdirForwarding (portid : ℕ) (masks : FdirMasks) : Attempt (State δ) Unit :=
  portSet portid (.fdirForwarding masks)

/-! ## The switch -/

/-- The call of `dp_init`, which sets the data path thread when it succeeds. -/
def dpInit : Attempt (State δ) Unit := do
  let s ← get
  match (D.init s.nbPorts).run (s.portConf, s.dp) with
  | .ok _ (portConf, dp) => set { s with portConf, dp, dpThread := true }
  | .error e (portConf, dp) =>
    set { s with portConf, dp }
    throw e

def dpConfigure : Attempt (State δ) Unit := do
  let s ← get
  match (D.configure s.nbPorts).run s.dp with
  | .ok _ dp => set { s with dp }
  | .error e dp =>
    set { s with dp }
    throw e

/-- `devCount` is the result of `rte_eth_dev_count`, and `rings` says whether the message rings can
be created. -/
def init (devCount : ℕ) (rings : Bool) : Attempt (State δ) Unit := do
  errorIf fun s => s.initialized
  modify fun s => { s with nbPorts := min (devCount % 2 ^ 8) rteMaxEthports }
  let s ← get
  for portid in List.range s.nbPorts do
    portInit portid
  dpInit D
  rteVerify fun _ => rings
  modify fun s => { s with initialized := true }

def configure : Attempt (State δ) Unit := do
  errorIf fun s => s.configured
  errorIf fun s => !s.initialized
  dpConfigure D
  let s ← get
  for portid in List.range s.nbPorts do
    portConfigure nic portid
  modify fun s => { s with configured := true }

/-- `wait_all_links_up` only reads the ports; see `waitAllLinksUp`. -/
def start : Attempt (State δ) Unit := do
  errorIf fun s => s.started
  errorIf fun s => !s.configured
  let s ← get
  for portid in List.range s.nbPorts do
    portStart nic portid
  rteVerify fun s => s.dpThread
  modify fun s => s.log (.launch s.nbPorts)
  modify fun s => { s with started := true }
  modify fun s => { s with dp := D.installDefaultTables s.nbPorts s.dp }

/-! ## Runs -/

/-- The functions that may be called; the last one stands for the setters. -/
inductive Op
  | init (devCount : ℕ) (rings : Bool)
  | configure
  | start
  | portSet (portid : ℕ) (setting : Setting)

def Op.exec : Op → Attempt (State δ) Unit
  | .init devCount rings => Daqswitch.init rteMaxEthports D devCount rings
  | .configure => Daqswitch.configure nic D
  | .start => Daqswitch.start nic D
  | .portSet portid setting => Daqswitch.portSet portid setting

/-- A call whose error is passed over; an abort ends the program. -/
def Op.attempt (op : Op) : Attempt (State δ) Unit :=
  tryCatch (op.exec rteMaxEthports nic D) fun
    | .error => return
    | .abort => throw .abort

/-- Any calls one after the other. -/
def serve (ops : List Op) : Attempt (State δ) Unit := do
  for op in ops do
    op.attempt rteMaxEthports nic D

/-- `main`, up to the command line: the first error ends the program. -/
def bringUp (devCount : ℕ) (rings : Bool) : Attempt (State δ) Unit := do
  init rteMaxEthports D devCount rings
  configure nic D
  start nic D

/-- The static storage. -/
def State.zero (pc : ℕ → PortConf) (dp : δ) : State δ :=
  ⟨false, false, false, 0, false, pc, fun _ => false, dp, []⟩

end Functions

/-! ## The links -/

section Links

/-- `MAX_CHECK_TIME`. -/
def maxCheckTime : ℕ := 90

variable (nbPorts : ℕ) (link : ℕ → ℕ → Bool)

def allPortsUp (count : ℕ) : Bool := (List.range nbPorts).all (link count)

def linkStatus (count : ℕ) : List Bool := (List.range nbPorts).map (link count)

/-- The loop of `wait_all_links_up`, with the rounds that are left, when `link count` gives the
links that are up in a round: the number of delays, and the links that are printed. -/
def waitLoop : ℕ → ℕ → Bool → ℕ × Option (List Bool)
  | 0, _, _ => (0, none)
  | _ + 1, count, true => (0, some (linkStatus nbPorts link count))
  | rounds + 1, count, false =>
    let up := allPortsUp nbPorts link count
    let rest := waitLoop rounds (count + 1) (up || count == maxCheckTime - 1)
    (rest.1 + if up then 0 else 1, rest.2)

def waitAllLinksUp : ℕ × Option (List Bool) := waitLoop nbPorts link (maxCheckTime + 1) 0 false

/-- In round `count`, when no round before had all links up. -/
lemma waitLoop_spec (nbPorts : ℕ) (link : ℕ → ℕ → Bool) {rounds count : ℕ}
    (h : rounds + count = maxCheckTime + 1) (hcount : count < maxCheckTime) :
    ∃ k ≤ maxCheckTime, count ≤ k ∧
      (∀ j < k, count ≤ j → allPortsUp nbPorts link j = false) ∧
      (k < maxCheckTime → allPortsUp nbPorts link k = true) ∧
      waitLoop nbPorts link rounds count false =
        (k - count, some (linkStatus nbPorts link (min (k + 1) maxCheckTime))) := by
  induction rounds generalizing count with
  | zero => omega
  | succ rounds ih =>
    obtain ⟨rounds, rfl⟩ : ∃ r, rounds = r + 1 := ⟨rounds - 1, by omega⟩
    rw [waitLoop]
    cases hup : allPortsUp nbPorts link count with
    | true =>
      refine ⟨count, hcount.le, le_rfl, fun j hj hj' => by omega, fun _ => hup, ?_⟩
      simp [waitLoop, Nat.min_eq_left (show count + 1 ≤ maxCheckTime from hcount)]
    | false =>
      rcases Nat.eq_or_lt_of_le (show count + 1 ≤ maxCheckTime from hcount) with hlast | hnext
      · -- the time is over
        refine ⟨maxCheckTime, le_rfl, by omega, ?_, fun hlt => absurd hlt (lt_irrefl _), ?_⟩
        · intro j hj hj'
          obtain rfl : j = count := by omega
          exact hup
        · simp [waitLoop, ← hlast]
      · obtain ⟨k, hk, hle, hdown, hkup, hloop⟩ := ih (by omega) hnext
        refine ⟨k, hk, by omega, ?_, hkup, ?_⟩
        · intro j hj hj'
          rcases Nat.eq_or_lt_of_le hj' with rfl | hlt
          · exact hup
          · exact hdown j hj hlt
        · have hflag : (count == maxCheckTime - 1) = false := by
            rw [beq_eq_false_iff_ne]
            omega
          simp only [hflag, Bool.or_false, hloop]
          exact Prod.ext (show k - (count + 1) + 1 = k - count by omega) rfl

/-- **The wait for the links.**  The delays are as many as there were rounds before the first one in
which all links were up, but at most `maxCheckTime`; then the links are printed, as they are in the
next round, or in the last one when the time is over. -/
theorem waitAllLinksUp_spec (nbPorts : ℕ) (link : ℕ → ℕ → Bool) :
    ∃ k ≤ maxCheckTime, (∀ j < k, ∃ portid < nbPorts, link j portid = false) ∧
      (k < maxCheckTime → ∀ portid < nbPorts, link k portid = true) ∧
      waitAllLinksUp nbPorts link =
        (k, some ((List.range nbPorts).map (link (min (k + 1) maxCheckTime)))) := by
  obtain ⟨k, hk, -, hdown, hup, hloop⟩ := waitLoop_spec nbPorts link
    (show maxCheckTime + 1 + 0 = maxCheckTime + 1 from rfl) (by decide)
  refine ⟨k, hk, ?_, ?_, hloop⟩
  · intro j hj
    have hj' := hdown j hj (Nat.zero_le j)
    simpa [allPortsUp] using hj'
  · intro hlt
    simpa [allPortsUp] using hup hlt

end Links

end DaqSwitch.Daqswitch
