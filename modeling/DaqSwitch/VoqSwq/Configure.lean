import DaqSwitch.VoqHwq.Mapping
import DaqSwitch.VoqSwq.DefaultPipeline
import DaqSwitch.VoqSwq.Ownership

/-!
# Configuring the software-queue data path

`dp_init` of `dp_voq_swq.c` also asks for the queues of the ports, and `dp_configure` goes through
the lcores: there is one default lcore, which builds the default pipeline.
-/

namespace DaqSwitch.VoqSwq

open Lib.Machine
open VoqHwq (Daqswitch)

def dpPortTxqMax : ℕ := 3

/-- The loop over the ports of `dp_init`. -/
def initPort (nbPorts portid : ℕ) (d : Daqswitch) : Option Daqswitch := do
  let d ← d.portSetNbRxd portid 4096
  let d ← d.portSetNbTxd portid 4096
  let d ← d.portSetNbRxq portid (nbPorts + 1)
  let d ← d.portSetNbTxq portid dpPortTxqMax
  d.portSetFdirForwarding portid ⟨0xffffffff, false⟩

/-- The loop over the lcores of `dp_configure`; there is nothing to do for data lcores. -/
def configureLcore (lib : PipelineLibrary) (P : Platform) (dp : DpParams) (l : ℕ)
    (s : DefaultPipeline) : Option DefaultPipeline :=
  match (dp.lcores l).type with
  | .unused => some s
  | .default => s.dpConfigureLcoreDefault lib P.nbPorts (P.lcoreSocket (dp.lcores l).id)
  | .dataRx => some s
  | .dataTx => some s

def dpConfigure (lib : PipelineLibrary) (P : Platform) (dp : DpParams) :
    DefaultPipeline → Option DefaultPipeline :=
  run (configureLcore lib P dp) (List.range dp.nbLcores)

/-! ## The queues of the ports -/

section Ports

variable {nbPorts portid : ℕ} {d d' : Daqswitch}

lemma initPort_eq_some (h : initPort nbPorts portid d = some d') :
    (d'.portConf portid).nbRxq = nbPorts + 1 ∧ (d'.portConf portid).nbTxq = dpPortTxqMax ∧
      ∀ p ≠ portid, d'.portConf p = d.portConf p := by
  simp only [initPort, Option.bind_eq_bind, Option.bind_eq_some_iff] at h
  obtain ⟨d₁, h₁, d₂, h₂, d₃, h₃, d₄, h₄, h₅⟩ := h
  have hset₁ := Daqswitch.set_eq_some h₁
  have hset₂ := Daqswitch.set_eq_some h₂
  have hset₃ := Daqswitch.set_eq_some h₃
  have hset₄ := Daqswitch.set_eq_some h₄
  have hset₅ := Daqswitch.set_eq_some h₅
  refine ⟨?_, ?_, ?_⟩
  · rw [hset₅.1, hset₄.1, hset₃.1]
  · rw [hset₅.1, hset₄.1]
  · intro p hp
    rw [hset₅.2 p hp, hset₄.2 p hp, hset₃.2 p hp, hset₂.2 p hp, hset₁.2 p hp]

/-- Every port gets a default queue and an rx queue for each output port, and a tx queue for the
default pipeline and for each kind of flow. -/
lemma queues_of_initPort (h : run (initPort nbPorts) (List.range nbPorts) d = some d') :
    ∀ p < nbPorts,
      (d'.portConf p).nbRxq = nbPorts + 1 ∧ (d'.portConf p).nbTxq = dpPortTxqMax := by
  refine run_range (I := fun m (d : Daqswitch) => ∀ p < m,
    (d.portConf p).nbRxq = nbPorts + 1 ∧ (d.portConf p).nbTxq = dpPortTxqMax) ?_ h
    fun _ hp => absurd hp (Nat.not_lt_zero _)
  intro portid _ s t hstep hs p hp
  obtain ⟨hrxq, htxq, hother⟩ := initPort_eq_some hstep
  rcases Nat.lt_succ_iff_lt_or_eq.mp hp with hlt | rfl
  · rw [hother p hlt.ne]
    exact hs p hlt
  · exact ⟨hrxq, htxq⟩

end Ports

/-! ## The default lcore -/

section Lcores

variable {lib : PipelineLibrary} {P : Platform} {dp : DpParams} {s t : DefaultPipeline}

/-- The types that the lcores have after `dp_init`. -/
lemma type_of_dpInit (h : dpInit P = some dp) :
    0 < dp.nbLcores ∧ ∀ l < dp.nbLcores, (dp.lcores l).type = typeAt l := by
  obtain ⟨dp₀, h₀, h⟩ := Option.bind_eq_some_iff.mp h
  rw [initRings, Option.ite_none_right_eq_some, Option.some_inj] at h₀
  obtain ⟨-, rfl⟩ := h₀
  obtain ⟨dp₁, h₁, h⟩ := Option.bind_eq_some_iff.mp h
  obtain ⟨hT, -⟩ := (typeLcores_spec P _).2 dp₁ h₁
  simp only [initLcoresDataRx, initLcoresDataTx, Option.bind_eq_some_iff,
    Option.ite_none_right_eq_some] at h
  obtain ⟨dp₂, ⟨-, h₂⟩, h₃⟩ := h
  have hsame₂ := (hT.dataRx_spec.2 dp₂ h₂).1
  have hsame₃ := ((hT.dataTx_spec h₂).2 dp h₃).1
  have hnb : dp.nbLcores = dp₁.nbLcores := hsame₃.nbLcores.trans hsame₂.nbLcores
  rw [hnb]
  refine ⟨hT.nbLcores_pos, ?_⟩
  intro l hl
  rw [hsame₃.type, hsame₂.type, hT.type l hl]

lemma typeAt_succ (l : ℕ) : typeAt (l + 1) = .dataRx ∨ typeAt (l + 1) = .dataTx := by
  rw [typeAt, if_neg (Nat.succ_ne_zero l)]
  split
  · exact Or.inl rfl
  · exact Or.inr rfl

/-- `dp_configure` builds the default pipeline once, on the first lcore. -/
lemma dpConfigure_eq_some (hdp : dpInit P = some dp) (h : dpConfigure lib P dp s = some t) :
    s.dpConfigureLcoreDefault lib P.nbPorts (P.lcoreSocket (dp.lcores dpLcoreIdDefault).id) =
      some t := by
  obtain ⟨hpos, htype⟩ := type_of_dpInit hdp
  obtain ⟨m, hm⟩ := Nat.exists_eq_add_of_lt hpos
  rw [dpConfigure, hm, Nat.zero_add, List.range_succ_eq_map] at h
  obtain ⟨u, hfirst, hrest⟩ := run_cons_eq_some.mp h
  -- the other lcores are data lcores
  have hsame : t = u := by
    refine run_invariant (I := fun v => v = u) ?_ hrest rfl
    intro l hl v w hstep hv
    obtain ⟨k, hk, rfl⟩ := List.mem_map.mp hl
    have hlt : k < m := List.mem_range.mp hk
    rw [configureLcore, htype (k + 1) (by omega)] at hstep
    rcases typeAt_succ k with hrx | htx
    · rw [hrx, Option.some_inj] at hstep
      exact hstep.symm.trans hv
    · rw [htx, Option.some_inj] at hstep
      exact hstep.symm.trans hv
  rw [configureLcore, htype 0 hpos] at hfirst
  rw [hsame]
  exact hfirst

end Lcores

end DaqSwitch.VoqSwq
