import DaqSwitch.Lib.Machine
import DaqSwitch.VoqHwq.Init

/-!
# The use of the ports

What the packet library lets a program do with its ports, as a machine over the calls: a port is
configured while it is stopped, a queue is set up within the numbers it was configured with, and a
port is started once all of its queues are set up.  When the data path threads have been launched,
the ports belong to them.
-/

namespace DaqSwitch.Daqswitch

open Lib.Machine
open VoqHwq (FdirMasks)

/-- The calls for one port. -/
inductive EthCall
  | mempoolCreate
  | devConfigure (nbRxq nbTxq : ℕ)
  | txQueueSetup (queueid nbTxd : ℕ)
  | rxQueueSetup (queueid nbRxd : ℕ)
  | devStart
  | promiscuousEnable
  | fdirSetMasks (masks : FdirMasks)
  | flowCtrlSet
deriving DecidableEq, Repr

/-- What the program does with the ports. -/
inductive Event
  | eth (portid : ℕ) (call : EthCall) (ok : Bool)
  /-- `rte_eal_mp_remote_launch`; the threads use the ports below `nbPorts`. -/
  | launch (nbPorts : ℕ)
deriving DecidableEq, Repr

/-- A port with its mempool.  The numbers of queues are those of the last `devConfigure` that
succeeded, if none has failed since. -/
structure EthDevice where
  pool : Bool
  configured : Bool
  nbRxq : ℕ
  nbTxq : ℕ
  rxSetup : Finset ℕ
  txSetup : Finset ℕ
  started : Bool

namespace EthDevice

def zero : EthDevice := ⟨false, false, 0, 0, ∅, ∅, false⟩

/-- All queues are set up, and no others. -/
def Ready (d : EthDevice) : Prop :=
  d.configured = true ∧ d.rxSetup = Finset.range d.nbRxq ∧ d.txSetup = Finset.range d.nbTxq

/-- The calls that may be made. -/
def Allows (d : EthDevice) : EthCall → Prop
  | .mempoolCreate => d.pool = false
  | .devConfigure _ _ => d.started = false
  | .txQueueSetup queueid _ => d.started = false ∧ d.configured = true ∧ queueid < d.nbTxq
  | .rxQueueSetup queueid _ =>
    d.started = false ∧ d.configured = true ∧ queueid < d.nbRxq ∧ d.pool = true
  | .devStart => d.Ready
  | .promiscuousEnable => d.started = true
  | .fdirSetMasks _ => d.started = true
  | .flowCtrlSet => d.started = true

instance (d : EthDevice) : Decidable d.Ready :=
  inferInstanceAs (Decidable (_ ∧ _ ∧ _))

instance (d : EthDevice) : ∀ call, Decidable (d.Allows call)
  | .mempoolCreate => inferInstanceAs (Decidable (_ = _))
  | .devConfigure _ _ => inferInstanceAs (Decidable (_ = _))
  | .txQueueSetup _ _ => inferInstanceAs (Decidable (_ ∧ _ ∧ _))
  | .rxQueueSetup _ _ => inferInstanceAs (Decidable (_ ∧ _ ∧ _ ∧ _))
  | .devStart => inferInstanceAs (Decidable d.Ready)
  | .promiscuousEnable => inferInstanceAs (Decidable (_ = _))
  | .fdirSetMasks _ => inferInstanceAs (Decidable (_ = _))
  | .flowCtrlSet => inferInstanceAs (Decidable (_ = _))

/-- What a call does when it succeeds. -/
def done (d : EthDevice) : EthCall → EthDevice
  | .mempoolCreate => { d with pool := true }
  | .devConfigure nbRxq nbTxq =>
    { d with configured := true, nbRxq, nbTxq, rxSetup := ∅, txSetup := ∅ }
  | .txQueueSetup queueid _ => { d with txSetup := insert queueid d.txSetup }
  | .rxQueueSetup queueid _ => { d with rxSetup := insert queueid d.rxSetup }
  | .devStart => { d with started := true }
  | _ => d

/-- What a call does when it fails: the last configuration is lost, nothing else. -/
def failed (d : EthDevice) : EthCall → EthDevice
  | .devConfigure _ _ => { d with configured := false }
  | _ => d

def after (d : EthDevice) (call : EthCall) (ok : Bool) : EthDevice :=
  if ok then d.done call else d.failed call

lemma after_false_started (d : EthDevice) (call : EthCall) :
    (d.after call false).started = d.started := by
  cases call <;> rfl

end EthDevice

/-- The ports, and whether the data path threads run. -/
structure Ports where
  device : ℕ → EthDevice
  launched : Bool

namespace Ports

def zero : Ports := ⟨fun _ => .zero, false⟩

def set (h : Ports) (portid : ℕ) (d : EthDevice) : Ports :=
  { h with device := Function.update h.device portid d }

@[simp] lemma set_launched (h : Ports) (portid : ℕ) (d : EthDevice) :
    (h.set portid d).launched = h.launched := rfl

@[simp] lemma set_device_self (h : Ports) (portid : ℕ) (d : EthDevice) :
    (h.set portid d).device portid = d := Function.update_self ..

lemma set_device_of_ne (h : Ports) {portid p : ℕ} (d : EthDevice) (hp : p ≠ portid) :
    (h.set portid d).device p = h.device p := Function.update_of_ne hp ..

def step : Event → Ports → Option Ports
  | .eth portid call ok, h =>
    if h.launched = false ∧ (h.device portid).Allows call then
      some (h.set portid ((h.device portid).after call ok))
    else none
  | .launch nbPorts, h =>
    if h.launched = false ∧ ∀ portid < nbPorts, (h.device portid).started = true then
      some { h with launched := true }
    else none

end Ports

end DaqSwitch.Daqswitch
