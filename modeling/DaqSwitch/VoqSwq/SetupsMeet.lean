import DaqSwitch.VoqSwq.HandlerSpec

/-!
# Conditions on the set-ups of a run

Some properties of the default lcore hold in a run only when every path set-up finds the
state in a certain condition.  `SetupsMeet` says that all set-ups of a run meet a
condition, and `Exact` that a condition is the exact one for a property; the run rule is
`Exact.run_iff`.
-/

namespace DaqSwitch.VoqSwq

open Lib Lib.Machine

/-! ## Runs whose set-ups meet a condition -/

/-- The set-ups that the handling of a packet attempts meet a condition on the path and on
the state before it. -/
def PktMeets (C : OneShl) (nic : FdirNic) (K : Path → DefState → Prop) (pkt : HitPkt)
    (b : DefState × RteFdirFilter) : Prop :=
  detects pkt b.2 = true → K (rosToDcm pkt) b.1 ∧
    ∀ m, setupPath C nic (rosToDcm pkt) pkt b.1 = some (some m) → K (dcmToRos pkt) m

/-- The set-ups that a call of the handler attempts meet a condition. -/
def BurstMeets (C : OneShl) (nic : FdirNic) (K : Path → DefState → Prop) (burst : PktBurst)
    (s : DefState) : Prop :=
  Throughout (handlePkt C nic) (PktMeets C nic K) burst.masked (s, RteFdirFilter.zero)

/-- Every set-up that the handler attempts in a run over bursts meets a condition on the
path and on the state before it. -/
def SetupsMeet (C : OneShl) (nic : FdirNic) (K : Path → DefState → Prop) :
    List PktBurst → DefState → Prop :=
  Throughout (tableActionHandlerHit C nic) (BurstMeets C nic K)

/-! ## Exact conditions -/

/-- A condition `K` on the set-ups is exact for a property `J` of the state: a set-up that
meets `K` keeps `J`, and one that leads to `J` started in `J` and met `K`.  `I` is an
invariant that may be used. -/
structure Exact (C : OneShl) (Q : HitPkt → Prop) (I : (ℕ → FlowRegistry) → DefState → Prop)
    (J : DefState → Prop) (K : Path → DefState → Prop) : Prop where
  inv : ∀ path pkt s t R R' slot, PathOf Q path pkt →
    SetupStep C path pkt s t R R' slot → I R s → I R' t
  keep : ∀ path pkt s t R R' slot, PathOf Q path pkt →
    SetupStep C path pkt s t R R' slot → I R s → Tables s.dp.flows R → J s → K path s → J t
  need : ∀ path pkt s t R R' slot, PathOf Q path pkt →
    SetupStep C path pkt s t R R' slot → I R s → Tables s.dp.flows R → J t → J s ∧ K path s
  full : ∀ path pkt s R, PathOf Q path pkt → I R s → Tables s.dp.flows R →
    (R path.outPort).indexOf path.key = none →
    (R path.outPort).entries.length = dpPortMaxDataFlows → J s → K path s

section Exact

variable {C : OneShl} {nic : FdirNic} {Q : HitPkt → Prop}
  {I : (ℕ → FlowRegistry) → DefState → Prop} {R₀ : ℕ → FlowRegistry} {J : DefState → Prop}
  {K : Path → DefState → Prop} (hE : Exact C Q I J K)

include hE

lemma Exact.setup {path : Path} {pkt : HitPkt} {s t : DefState} (hpath : PathOf Q path pkt)
    (h : setupPath C nic path pkt s = some (some t)) (hs : Along I R₀ s) :
    J t ↔ J s ∧ K path s := by
  obtain ⟨R, hR, -, hIs⟩ := hs
  obtain ⟨R', slot, hstep⟩ := setupPath_step hR h
  exact ⟨hE.need path pkt s t R R' slot hpath hstep hIs hR,
    fun ⟨hJ, hK⟩ => hE.keep path pkt s t R R' slot hpath hstep hIs hR hJ hK⟩

lemma Exact.setup_full {path : Path} {pkt : HitPkt} {s : DefState} (hpath : PathOf Q path pkt)
    (h : setupPath C nic path pkt s = some none) (hs : Along I R₀ s) (hJ : J s) : K path s := by
  obtain ⟨R, hR, -, hIs⟩ := hs
  obtain ⟨hnone, hlen⟩ := setupPath_full hR h
  exact hE.full path pkt s R hpath hIs hR hnone hlen hJ

lemma Exact.handlePkt_iff {pkt : HitPkt} {b b' : DefState × RteFdirFilter} (hpkt : Q pkt)
    (h : handlePkt C nic pkt b = some b') (hs : Along I R₀ b.1) :
    J b'.1 ↔ J b.1 ∧ PktMeets C nic K pkt b := by
  have hros : PathOf Q (rosToDcm pkt) pkt := ⟨hpkt, Or.inl rfl⟩
  have hdcm : PathOf Q (dcmToRos pkt) pkt := ⟨hpkt, Or.inr rfl⟩
  cases handlePkt_step h with
  | skip hdet ht => simp [PktMeets, hdet, ht]
  | full hdet ht h₁ =>
    -- the one attempted set-up fails, and changes nothing
    rw [ht]
    refine ⟨fun hJ => ⟨hJ, fun _ => ⟨hE.setup_full hros h₁ hs hJ, ?_⟩⟩, And.left⟩
    intro m hm
    rw [h₁] at hm
    cases hm
  | half hdet h₁ h₂ =>
    -- the second attempt fails in the state that the first has left
    have hiff := hE.setup hros h₁ hs
    constructor
    · intro hJ
      refine ⟨(hiff.mp hJ).1, fun _ => ⟨(hiff.mp hJ).2, ?_⟩⟩
      intro m hm
      rw [h₁, Option.some_inj, Option.some_inj] at hm
      subst hm
      exact hE.setup_full hdcm h₂ (hs.setup hE.inv hros h₁) hJ
    · rintro ⟨hJ, hK⟩
      exact hiff.mpr ⟨hJ, (hK hdet).1⟩
  | both hdet m h₁ h₂ =>
    have hiff := hE.setup hros h₁ hs
    have hiff' := hE.setup hdcm h₂ (hs.setup hE.inv hros h₁)
    constructor
    · intro hJ
      obtain ⟨hJm, hKm⟩ := hiff'.mp hJ
      refine ⟨(hiff.mp hJm).1, fun _ => ⟨(hiff.mp hJm).2, ?_⟩⟩
      intro m' hm'
      rw [h₁, Option.some_inj, Option.some_inj] at hm'
      exact hm' ▸ hKm
    · rintro ⟨hJ, hK⟩
      exact hiff'.mpr ⟨hiff.mpr ⟨hJ, (hK hdet).1⟩, (hK hdet).2 m h₁⟩

lemma Exact.burst_iff {burst : PktBurst} {s t : DefState} (hQ : ∀ pkt ∈ burst.masked, Q pkt)
    (h : tableActionHandlerHit C nic burst s = some t) (hs : Along I R₀ s) :
    J t ↔ J s ∧ BurstMeets C nic K burst s := by
  obtain ⟨b', hb', rfl⟩ := Option.map_eq_some_iff.mp h
  exact run_iff_throughout (I := fun b => Along I R₀ b.1) (J := fun b => J b.1)
    (fun pkt hpkt _ _ hstep hs => hs.handlePkt hE.inv (hQ pkt hpkt) hstep)
    (fun pkt hpkt _ _ hstep hs hJ hK => (hE.handlePkt_iff (hQ pkt hpkt) hstep hs).mpr ⟨hJ, hK⟩)
    (fun pkt hpkt _ _ hstep hs => (hE.handlePkt_iff (hQ pkt hpkt) hstep hs).mp) hb' hs

/-- The run rule for exact conditions. -/
lemma Exact.run_iff {bursts : List PktBurst} (hQ : ∀ b ∈ bursts, ∀ pkt ∈ b.masked, Q pkt)
    {s t : DefState} (h : run (tableActionHandlerHit C nic) bursts s = some t)
    (hs : Along I R₀ s) : J t ↔ J s ∧ SetupsMeet C nic K bursts s :=
  run_iff_throughout
    (fun b hb _ _ hst hs => hs.burst hE.inv (hQ b hb) hst)
    (fun b hb _ _ hst hs hJ hK => (hE.burst_iff (hQ b hb) hst hs).mpr ⟨hJ, hK⟩)
    (fun b hb _ _ hst hs => (hE.burst_iff (hQ b hb) hst hs).mp) h hs

end Exact

end DaqSwitch.VoqSwq
