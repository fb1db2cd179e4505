import Mathlib

/-!
# The list of IPv4 flows

`daqswitch_ipv4_flow_add` of `daqswitch_flow.c` writes a new flow into a fixed array and then asks
the data plane for it.  The row is not taken back when the data plane refuses, and nothing compares
the count with the size of the array.  So the list shows what the data plane forwards only as long
as every flow is accepted and the array has room.
-/

namespace DaqSwitch.Daqswitch

def ipv4MaxFlows : ℕ := 1024

/-- `struct daqswitch_ipv4_flow`. -/
structure Ipv4Flow where
  ip : BitVec 32
  depth : BitVec 8
  ifOut : BitVec 8
deriving DecidableEq, Repr

/-- The data plane's `dp_ipv4_flow_add`: its answer to a flow after the flows it was asked for. -/
abbrev DpHook := List Ipv4Flow → Ipv4Flow → ℤ

/-- What the function reads of `struct daqswitch`. -/
structure Config where
  started : Bool
  dpIpv4FlowAdd : Option DpHook

/-- `ipv4_flow_array`, `ipv4_nb_flows`, and the record of the indices written, of the flows that the
data plane was asked for and of those that it accepted.  The memory goes on after the array. -/
structure FlowState where
  array : ℕ → Ipv4Flow
  nbFlows : BitVec 32
  written : List ℕ
  asked : List Ipv4Flow
  accepted : List Ipv4Flow

namespace FlowState

/-- Static storage. -/
def init : FlowState := ⟨fun _ => ⟨0, 0, 0⟩, 0, [], [], []⟩

/-- `ipv4_flow_array_add_row`. -/
def addRow (f : Ipv4Flow) (s : FlowState) : ℤ × FlowState :=
  (0, { s with
    array := Function.update s.array s.nbFlows.toNat f
    nbFlows := s.nbFlows + 1
    written := s.written ++ [s.nbFlows.toNat] })

/-- `dp_ipv4_flow_add`. -/
def dpIpv4FlowAdd (c : Config) (f : Ipv4Flow) (s : FlowState) : ℤ × FlowState :=
  if c.started then
    match c.dpIpv4FlowAdd with
    | some hook =>
      let ret := hook s.asked f
      (ret, { s with
        asked := s.asked ++ [f]
        accepted := if ret < 0 then s.accepted else s.accepted ++ [f] })
    | none => (0, s)
  else (0, s)

/-- `daqswitch_ipv4_flow_add`. -/
def ipv4FlowAdd (c : Config) (f : Ipv4Flow) (s : FlowState) : ℤ × FlowState :=
  if !c.started then (-1, s)
  else
    let (ret, s) := s.addRow f
    if ret < 0 then (ret, s) else s.dpIpv4FlowAdd c f

/-- The flows that `daqswitch_ipv4_flow_array_dump` shows. -/
def listed (s : FlowState) : List Ipv4Flow := (List.range s.nbFlows.toNat).map s.array

/-! ## The list as a mirror -/

/-- The count and the writes are within the array, and the list shows what was accepted. -/
structure Mirrors (s : FlowState) : Prop where
  nbFlows : s.nbFlows.toNat ≤ ipv4MaxFlows
  written : ∀ i ∈ s.written, i < ipv4MaxFlows
  listed : s.listed = s.accepted

/-- Every state of a run mirrors the data plane, and a call that fails changes nothing. -/
def MirrorsThroughout (c : Config) : List Ipv4Flow → FlowState → Prop
  | [], s => s.Mirrors
  | f :: fs, s => s.Mirrors ∧
      ((s.ipv4FlowAdd c f).1 < 0 →
        (s.ipv4FlowAdd c f).2.array = s.array ∧ (s.ipv4FlowAdd c f).2.nbFlows = s.nbFlows) ∧
      MirrorsThroughout c fs (s.ipv4FlowAdd c f).2

/-- The data plane accepts the flows, one after the other. -/
def AcceptsAll (hook : DpHook) : List Ipv4Flow → List Ipv4Flow → Prop
  | _, [] => True
  | asked, f :: fs => 0 ≤ hook asked f ∧ AcceptsAll hook (asked ++ [f]) fs

lemma MirrorsThroughout.mirrors {c : Config} {fs : List Ipv4Flow} {s : FlowState}
    (h : MirrorsThroughout c fs s) : s.Mirrors := by
  cases fs with
  | nil => exact h
  | cons f fs => exact h.1

variable {hook : DpHook} {f : Ipv4Flow} {s : FlowState}

/-- The effect of a call in the started state. -/
lemma ipv4FlowAdd_started (hook : DpHook) (f : Ipv4Flow) (s : FlowState) :
    s.ipv4FlowAdd ⟨true, some hook⟩ f =
      (hook s.asked f,
        { array := Function.update s.array s.nbFlows.toNat f
          nbFlows := s.nbFlows + 1
          written := s.written ++ [s.nbFlows.toNat]
          asked := s.asked ++ [f]
          accepted := if hook s.asked f < 0 then s.accepted else s.accepted ++ [f] }) := rfl

/-- One more row is listed. -/
lemma listed_update (hlt : s.nbFlows.toNat + 1 < 2 ^ 32) :
    (s.ipv4FlowAdd ⟨true, some hook⟩ f).2.listed = s.listed ++ [f] := by
  have hnb : (s.nbFlows + 1).toNat = s.nbFlows.toNat + 1 := by
    rw [BitVec.toNat_add]
    exact Nat.mod_eq_of_lt hlt
  have hold : (List.range s.nbFlows.toNat).map (Function.update s.array s.nbFlows.toNat f) =
      (List.range s.nbFlows.toNat).map s.array := by
    refine List.map_congr_left ?_
    intro i hi
    rw [Function.update_of_ne (List.mem_range.mp hi).ne]
  rw [ipv4FlowAdd_started, listed]
  simp only [hnb, List.range_succ, List.map_append, hold]
  simp [listed]

/-- The count goes up by one. -/
lemma toNat_nbFlows_ipv4FlowAdd (hook : DpHook) (f : Ipv4Flow)
    (hlt : s.nbFlows.toNat + 1 < 2 ^ 32) :
    (s.ipv4FlowAdd ⟨true, some hook⟩ f).2.nbFlows.toNat = s.nbFlows.toNat + 1 := by
  rw [ipv4FlowAdd_started, BitVec.toNat_add]
  exact Nat.mod_eq_of_lt hlt

lemma Mirrors.lt (h : s.Mirrors) : s.nbFlows.toNat + 1 < 2 ^ 32 := by
  have hbound := h.nbFlows
  rw [ipv4MaxFlows] at hbound
  omega

/-- One call is as it should be if and only if the hook takes the flow and the array has room. -/
lemma Mirrors.ipv4FlowAdd_iff (h : s.Mirrors) (hook : DpHook) (f : Ipv4Flow) :
    ((s.ipv4FlowAdd ⟨true, some hook⟩ f).1 < 0 →
        (s.ipv4FlowAdd ⟨true, some hook⟩ f).2.array = s.array ∧
          (s.ipv4FlowAdd ⟨true, some hook⟩ f).2.nbFlows = s.nbFlows) ∧
      (s.ipv4FlowAdd ⟨true, some hook⟩ f).2.Mirrors ↔
    0 ≤ hook s.asked f ∧ s.nbFlows.toNat + 1 ≤ ipv4MaxFlows := by
  have hnb := toNat_nbFlows_ipv4FlowAdd hook f h.lt
  constructor
  · rintro ⟨hkept, hmirrors⟩
    refine ⟨?_, hnb ▸ hmirrors.nbFlows⟩
    by_contra hneg
    have hsame := congrArg BitVec.toNat (hkept (not_le.mp hneg)).2
    rw [hnb] at hsame
    omega
  · rintro ⟨hret, hroom⟩
    refine ⟨fun hneg => absurd hret (not_le.mpr hneg), hnb.trans_le hroom, ?_, ?_⟩
    · intro i hi
      rw [ipv4FlowAdd_started] at hi
      rcases List.mem_append.mp hi with hi | hi
      · exact h.written i hi
      · obtain rfl := List.mem_singleton.mp hi
        omega
    · rw [listed_update h.lt, h.listed, ipv4FlowAdd_started, if_neg (not_lt.mpr hret)]

/-- A run of calls is as it should be if and only if the hook takes every flow and the array has
room for all. -/
lemma Mirrors.throughout_iff (h : s.Mirrors) (hook : DpHook) (fs : List Ipv4Flow) :
    MirrorsThroughout ⟨true, some hook⟩ fs s ↔
      s.nbFlows.toNat + fs.length ≤ ipv4MaxFlows ∧ AcceptsAll hook s.asked fs := by
  induction fs generalizing s with
  | nil => exact iff_of_true h ⟨h.nbFlows, trivial⟩
  | cons f fs ih =>
    have hstep := h.ipv4FlowAdd_iff hook f
    have hnb := toNat_nbFlows_ipv4FlowAdd hook f h.lt
    have hasked : (s.ipv4FlowAdd ⟨true, some hook⟩ f).2.asked = s.asked ++ [f] := rfl
    constructor
    · rintro ⟨-, hkept, hrest⟩
      obtain ⟨hret, hroom⟩ := hstep.mp ⟨hkept, hrest.mirrors⟩
      obtain ⟨hlength, haccepts⟩ := (ih hrest.mirrors).mp hrest
      rw [hnb] at hlength
      rw [hasked] at haccepts
      exact ⟨by rw [List.length_cons]; omega, hret, haccepts⟩
    · rintro ⟨hlength, hret, haccepts⟩
      rw [List.length_cons] at hlength
      obtain ⟨hkept, hmirrors⟩ := hstep.mpr ⟨hret, by omega⟩
      exact ⟨h, hkept, (ih hmirrors).mpr ⟨by omega, by rwa [hasked]⟩⟩

/-- For every sequence of calls in the started state and whatever the data plane answers: the list
mirrors the data plane in every state of the run, and every call that fails leaves it as it was, if
and only if there are at most `IPV4_MAX_FLOWS` calls and the data plane accepts all of them. -/
theorem mirrorsThroughout_iff (hook : DpHook) (fs : List Ipv4Flow) :
    MirrorsThroughout ⟨true, some hook⟩ fs init ↔
      fs.length ≤ ipv4MaxFlows ∧ AcceptsAll hook [] fs := by
  have hinit : init.Mirrors := ⟨by decide, by simp [init], rfl⟩
  have hiff := hinit.throughout_iff hook fs
  rwa [show init.nbFlows.toNat = 0 from rfl, Nat.zero_add] at hiff

/-- A flow that the data plane refuses is listed. -/
theorem not_mirrorsThroughout :
    ¬ MirrorsThroughout ⟨true, some fun _ _ => -1⟩ [⟨0x0a000001, 32, 2⟩] init := by
  rintro ⟨-, hkept, -⟩
  exact absurd (hkept (by decide)).2 (by decide)

end FlowState

end DaqSwitch.Daqswitch
