import DaqSwitch.VoqHwq.LcoreParams

/-!
# The sockets of the ports and of their lcores

The search of `configure_lcore_params` takes the next worker on the socket of the port, until
it comes round to the lcore of the port before.  From then on the sockets no longer count:
`numa_ok` stays `false` for the ports behind as well, which take the workers one after
another.  So all ports get lcores on their sockets if and only if this order happens to lead
each of these ports to its socket.
-/

namespace DaqSwitch.VoqHwq

open Lib.Machine Lib.CyclicScan

namespace Platform

variable (P : Platform)

/-! ## Locality -/

/-- The workers on the socket of a port. -/
def isLocal (portid lcoreid : ℕ) : Bool :=
  P.isWorker lcoreid && P.portSocket portid == P.lcoreSocket lcoreid

def HasLocal (portid : ℕ) : Prop :=
  ∃ lcoreid < (P.rteMaxLcore : ℕ), P.isLocal portid lcoreid = true

/-- In a list of ports with their lcores, each port that has workers on its socket got one of
them. -/
def AllLocal (entries : List (ℕ × ℕ)) : Prop :=
  ∀ x ∈ entries, P.HasLocal x.1 → P.lcoreSocket x.2 = P.portSocket x.1

/-! ## The lcores in turn -/

/-- The lcore of a port when each port takes the next worker of its own socket. -/
def localTurn : ℕ → Option ℕ
  | 0 => scan P.rteMaxLcore (P.rteMaxLcore - 1) (P.isLocal 0)
  | portid + 1 => (localTurn portid).bind fun prev =>
    scan P.rteMaxLcore prev (P.isLocal (portid + 1))

/-- The socket of a port has no worker, or just one, which the port before has taken, and
there are other workers. -/
def ComesRound (portid : ℕ) : Prop :=
  ¬ P.HasLocal portid ∨
    0 < portid ∧ P.portSocket (portid - 1) = P.portSocket portid ∧
      (∃ only < (P.rteMaxLcore : ℕ), P.isLocal portid only = true ∧
        ∀ lcoreid < (P.rteMaxLcore : ℕ), P.isLocal portid lcoreid = true → lcoreid = only) ∧
      ∃ other < (P.rteMaxLcore : ℕ), P.isWorker other = true ∧ P.isLocal portid other = false

/-- The first port for which the search comes round. -/
def FirstRound (portid : ℕ) : Prop :=
  P.ComesRound portid ∧ ∀ p < portid, ¬ P.ComesRound p

/-- The lcore at which the search for a port comes round. -/
def roundLcore : ℕ → Option ℕ
  | 0 => P.rteGetNextLcore (P.rteMaxLcore - 1)
  | portid + 1 => P.localTurn portid

/-- The worker `k` places after the one at which the search for a port comes round. -/
def turnAfter (portid k : ℕ) : Option ℕ :=
  (fun l => l.bind P.rteGetNextLcore)^[k] (P.roundLcore portid)

/-- Behind the first port for which the search comes round, the turn of the workers leads each
port that has workers on its socket to one of them. -/
def TurnsMeet : Prop :=
  ∀ first, P.FirstRound first → ∀ portid < (P.nbPorts : ℕ), first < portid → P.HasLocal portid →
    ∃ l ∈ P.turnAfter first (portid - first), P.lcoreSocket l = P.portSocket portid

/-! ## One search -/

section Search

variable {P} {i lcoreid portid prevLcoreid fuel : ℕ} {numaOk : Bool} {found : ℕ × Bool}
  {s t : Assignment}

lemma isLocal_iff : P.isLocal portid lcoreid = true ↔
    P.isWorker lcoreid = true ∧ P.portSocket portid = P.lcoreSocket lcoreid := by
  rw [isLocal, Bool.and_eq_true, beq_iff_eq]

lemma enabled_of_isWorker (h : P.isWorker lcoreid = true) : P.enabled lcoreid = true :=
  ((Bool.and_eq_true _ _).mp h).1

/-- A search stops at once at a worker on the socket. -/
lemma findLcore_of_isLocal (hlocal : P.isLocal portid lcoreid = true)
    (h : P.findLcore portid prevLcoreid fuel lcoreid numaOk = some found) :
    found = (lcoreid, numaOk) := by
  obtain ⟨hworker, hsocket⟩ := isLocal_iff.mp hlocal
  cases fuel with
  | zero => cases h
  | succ fuel =>
    rw [findLcore, if_pos (by simp [enabled_of_isWorker hworker, hsocket])] at h
    exact (Option.some_inj.mp h).symm

/-- Without `numa_ok` it stops at any worker. -/
lemma findLcore_of_not_numaOk (hworker : P.isWorker lcoreid = true)
    (h : P.findLcore portid prevLcoreid fuel lcoreid false = some found) :
    found = (lcoreid, false) := by
  cases fuel with
  | zero => cases h
  | succ fuel =>
    rw [findLcore, if_pos (by simp [enabled_of_isWorker hworker])] at h
    exact (Option.some_inj.mp h).symm

/-- Where a search can stop: at a worker on the socket, or at the lcore of the port before. -/
def stops (P : Platform) (portid prevLcoreid lcoreid : ℕ) : Bool :=
  P.isLocal portid lcoreid || lcoreid == prevLcoreid

lemma isWorker_of_stops (hprev : P.isWorker prevLcoreid = true) (x : ℕ)
    (h : P.stops portid prevLcoreid x = true) : P.isWorker x = true := by
  rcases (Bool.or_eq_true _ _).mp h with h | h
  · exact (isLocal_iff.mp h).1
  · rwa [beq_iff_eq.mp h]

/-- From a worker on another socket on, a search stops as soon as it can.  It keeps `numa_ok`
unless it came round. -/
lemma findLcore_eq_some (hprev : P.isWorker prevLcoreid = true)
    (hworker : P.isWorker lcoreid = true) (hlocal : P.isLocal portid lcoreid = false)
    (h : P.findLcore portid prevLcoreid fuel lcoreid true = some found) :
    scan P.rteMaxLcore lcoreid (P.stops portid prevLcoreid) = some found.1 ∧
      (found.2 = true ↔ found.1 ≠ prevLcoreid) := by
  induction fuel generalizing lcoreid with
  | zero => cases h
  | succ fuel ih =>
    have hskip : ¬ (P.enabled lcoreid &&
        (P.portSocket portid == P.lcoreSocket lcoreid || !true)) = true := by
      rw [isLocal, hworker, Bool.true_and] at hlocal
      simp [hlocal]
    rw [findLcore, if_neg hskip] at h
    obtain ⟨next, hnext, h⟩ := Option.bind_eq_some_iff.mp h
    have hworker' := (rteGetNextLcore_eq_some hnext).2
    by_cases hback : next = prevLcoreid
    · -- it came round
      subst hback
      rw [if_pos rfl] at h
      obtain rfl := findLcore_of_not_numaOk hworker' h
      exact ⟨scan_of_imp hnext (isWorker_of_stops hprev) (by simp [stops]), by simp⟩
    · rw [if_neg hback] at h
      cases hnextLocal : P.isLocal portid next with
      | true =>
        obtain rfl := findLcore_of_isLocal hnextLocal h
        exact ⟨scan_of_imp hnext (isWorker_of_stops hprev) (by simp [stops, hnextLocal]),
          by simpa using hback⟩
      | false =>
        have hstops : P.stops portid prevLcoreid next = false := by
          simpa [stops, hnextLocal] using hback
        rw [← scan_skip hnext (isWorker_of_stops hprev) hstops]
        exact ih hworker' hnextLocal h

/-- The search begins at the worker after the lcore of the port before, or, for the first
port, at this lcore.  When the socket has a worker other than this lcore, it takes the next
one. -/
lemma findLcore_of_other (hprev : prevLcoreid < P.rteMaxLcore ∧ P.isWorker prevLcoreid = true)
    (hstart : lcoreid = prevLcoreid ∨ P.rteGetNextLcore prevLcoreid = some lcoreid)
    (hworker : P.isWorker lcoreid = true) (hlocal : P.isLocal portid lcoreid = false)
    (h : P.findLcore portid prevLcoreid fuel lcoreid true = some found)
    {x : ℕ} (hx : x < P.rteMaxLcore) (hxlocal : P.isLocal portid x = true)
    (hne : x ≠ prevLcoreid) :
    scan P.rteMaxLcore prevLcoreid (P.isLocal portid) = some found.1 ∧ found.2 = true := by
  obtain ⟨hscan, hnuma⟩ := findLcore_eq_some hprev.2 hworker hlocal h
  have hfrom : scan P.rteMaxLcore prevLcoreid (P.stops portid prevLcoreid) = some found.1 := by
    rcases eq_or_ne lcoreid prevLcoreid with rfl | hlcoreid
    · exact hscan
    · have hstops : P.stops portid prevLcoreid lcoreid = false := by
        simpa [stops, hlocal] using hlcoreid
      rw [← scan_skip (hstart.resolve_left hlcoreid) (isWorker_of_stops hprev.2) hstops]
      exact hscan
  have hfound : scan P.rteMaxLcore prevLcoreid (P.isLocal portid) = some found.1 := by
    rw [← scan_or_start hprev.1 hx hxlocal]
    exact hfrom
  exact ⟨hfound, hnuma.mpr (scan_ne_start hx hxlocal hne hfound)⟩

/-- Otherwise it comes round. -/
lemma findLcore_of_no_other (hprev : P.isWorker prevLcoreid = true)
    (hworker : P.isWorker lcoreid = true) (hlocal : P.isLocal portid lcoreid = false)
    (h : P.findLcore portid prevLcoreid fuel lcoreid true = some found)
    (hno : ∀ x < (P.rteMaxLcore : ℕ), P.isLocal portid x = true → x = prevLcoreid) :
    found = (prevLcoreid, false) := by
  obtain ⟨hscan, hnuma⟩ := findLcore_eq_some hprev hworker hlocal h
  obtain ⟨hlt, hstops⟩ := scan_some hscan
  have hback : found.1 = prevLcoreid :=
    ((Bool.or_eq_true _ _).mp hstops).elim (hno _ hlt) beq_iff_eq.mp
  refine Prod.ext hback ?_
  rw [← Bool.not_eq_true, hnuma, not_not]
  exact hback

end Search

/-! ## The ports in turn -/

/-- The lcore of a port, before and behind the first port for which the search comes round. -/
structure IsTurn (portid l : ℕ) : Prop where
  localTurn : (∀ p ≤ portid, ¬ P.ComesRound p) → P.localTurn portid = some l
  turnAfter : ∀ first ≤ portid, P.FirstRound first → P.turnAfter first (portid - first) = some l

/-- The state after the ports below `m`. -/
structure InTurn (m : ℕ) (s : Assignment) : Prop extends Workers P s where
  numaOk : s.numaOk = true ↔ ∀ p < m, ¬ P.ComesRound p
  start : m = 0 → s.lcoreid = s.prevLcoreid ∧
    P.rteGetNextLcore (P.rteMaxLcore - 1) = some s.lcoreid
  turn : ∀ p, m = p + 1 → P.IsTurn p s.prevLcoreid ∧
    P.rteGetNextLcore s.prevLcoreid = some s.lcoreid

section Turns

variable {P} {m portid fuel l : ℕ} {found : ℕ × Bool} {s t : Assignment}

lemma localTurn_isLocal (h : P.localTurn portid = some l) :
    l < P.rteMaxLcore ∧ P.isLocal portid l = true := by
  cases portid with
  | zero => exact scan_some h
  | succ portid =>
    obtain ⟨prev, -, h⟩ := Option.bind_eq_some_iff.mp h
    exact scan_some h

/-- No port up to `m` has come round, so its lcore is the next one on its socket. -/
lemma isTurn_of_localTurn (hbelow : ∀ p < m, ¬ P.ComesRound p) (hm : ¬ P.ComesRound m)
    (h : P.localTurn m = some l) : P.IsTurn m l := by
  refine ⟨fun _ => h, ?_⟩
  intro first hle hfirst
  rcases Nat.lt_or_eq_of_le hle with hlt | rfl
  · exact absurd hfirst.1 (hbelow first hlt)
  · exact absurd hfirst.1 hm

/-- The search for `m` is the first to come round. -/
lemma isTurn_of_roundLcore (hbelow : ∀ p < m, ¬ P.ComesRound p) (hm : P.ComesRound m)
    (h : P.roundLcore m = some l) : P.IsTurn m l := by
  refine ⟨fun hno => absurd hm (hno m le_rfl), ?_⟩
  intro first hle hfirst
  rcases Nat.lt_or_eq_of_le hle with hlt | rfl
  · exact absurd hfirst.1 (hbelow first hlt)
  · rw [Nat.sub_self]
    exact h

/-- As long as no search came round, the lcore of the port before is on the socket of that
port. -/
lemma InTurn.prev_isLocal (hs : P.InTurn (portid + 1) s)
    (hbelow : ∀ p < portid + 1, ¬ P.ComesRound p) :
    P.localTurn portid = some s.prevLcoreid ∧ P.isLocal portid s.prevLcoreid = true := by
  have hprev := (hs.turn portid rfl).1.localTurn fun p hp => hbelow p (Nat.lt_succ_of_le hp)
  exact ⟨hprev, (localTurn_isLocal hprev).2⟩

/-- If the search comes round although the socket has workers, the only one of them is the
lcore of the port before. -/
lemma InTurn.eq_prev_of_comesRound (hs : P.InTurn m s) (hbelow : ∀ p < m, ¬ P.ComesRound p)
    (hm : P.ComesRound m) {x : ℕ} (hx : x < P.rteMaxLcore) (hxlocal : P.isLocal m x = true) :
    x = s.prevLcoreid ∧ ∃ other < (P.rteMaxLcore : ℕ), P.isWorker other = true ∧
      other ≠ s.prevLcoreid ∧ ∃ p, m = p + 1 := by
  rcases hm with hno | ⟨hpos, hsocket, ⟨only, -, -, honly⟩, other, hother, hworker, hnot⟩
  · exact absurd ⟨x, hx, hxlocal⟩ hno
  · obtain ⟨p, rfl⟩ : ∃ p, m = p + 1 := ⟨m - 1, by omega⟩
    have hprev : P.isLocal (p + 1) s.prevLcoreid = true := by
      obtain ⟨hworker, heq⟩ := isLocal_iff.mp (hs.prev_isLocal hbelow).2
      exact isLocal_iff.mpr ⟨hworker, hsocket.symm.trans heq⟩
    refine ⟨(honly x hx hxlocal).trans (honly _ hs.prevLcoreid.1 hprev).symm, other, hother,
      hworker, ?_, p, rfl⟩
    rintro rfl
    rw [hprev] at hnot
    cases hnot

/-- A socket without workers other than the lcore of the port before makes the search come
round. -/
lemma InTurn.comesRound_of_no_other (hs : P.InTurn m s) (hbelow : ∀ p < m, ¬ P.ComesRound p)
    (hlocal : P.isLocal m s.lcoreid = false)
    (hno : ∀ x < (P.rteMaxLcore : ℕ), P.isLocal m x = true → x = s.prevLcoreid) :
    P.ComesRound m := by
  by_cases hhas : P.HasLocal m
  · obtain ⟨x, hx, hxlocal⟩ := hhas
    obtain rfl := hno x hx hxlocal
    cases m with
    | zero =>
      rw [(hs.start rfl).1, hxlocal] at hlocal
      cases hlocal
    | succ p =>
      have hsocket : P.portSocket p = P.portSocket (p + 1) :=
        (isLocal_iff.mp (hs.prev_isLocal hbelow).2).2.trans (isLocal_iff.mp hxlocal).2.symm
      exact .inr ⟨p.succ_pos, hsocket, ⟨_, hx, hxlocal, hno⟩, _, hs.lcoreid.1, hs.lcoreid.2, hlocal⟩
  · exact .inl hhas

lemma InTurn.begins (hs : P.InTurn m s) :
    s.lcoreid = s.prevLcoreid ∨ P.rteGetNextLcore s.prevLcoreid = some s.lcoreid := by
  cases m with
  | zero => exact .inl (hs.start rfl).1
  | succ p => exact .inr (hs.turn p rfl).2

/-- **One port, in turn.**  As long as no search came round, the search for the next port gives
it the next worker on its socket, or comes round. -/
lemma InTurn.findLcore (hs : P.InTurn m s) (hbelow : ∀ p < m, ¬ P.ComesRound p)
    (h : P.findLcore m s.prevLcoreid fuel s.lcoreid true = some found) :
    P.IsTurn m found.1 ∧ (found.2 = true ↔ ¬ P.ComesRound m) := by
  cases hlocal : P.isLocal m s.lcoreid with
  | true =>
    obtain rfl := findLcore_of_isLocal hlocal h
    have hm : ¬ P.ComesRound m := by
      intro hm
      obtain ⟨heq, other, hother, hworker, hne, p, rfl⟩ :=
        hs.eq_prev_of_comesRound hbelow hm hs.lcoreid.1 hlocal
      -- the other worker would come next
      exact scan_ne_start hother hworker hne (hs.turn p rfl).2 heq
    refine ⟨isTurn_of_localTurn hbelow hm ?_, by simpa using hm⟩
    cases m with
    | zero => exact scan_of_imp (hs.start rfl).2 (fun x hx => (isLocal_iff.mp hx).1) hlocal
    | succ p =>
      rw [localTurn, (hs.prev_isLocal hbelow).1, Option.bind_some]
      exact scan_of_imp (hs.turn p rfl).2 (fun x hx => (isLocal_iff.mp hx).1) hlocal
  | false =>
    by_cases hother : ∃ x < (P.rteMaxLcore : ℕ), P.isLocal m x = true ∧ x ≠ s.prevLcoreid
    · obtain ⟨x, hx, hxlocal, hne⟩ := hother
      have hm : ¬ P.ComesRound m := fun hm =>
        hne (hs.eq_prev_of_comesRound hbelow hm hx hxlocal).1
      obtain ⟨hscan, hnuma⟩ :=
        findLcore_of_other hs.prevLcoreid hs.begins hs.lcoreid.2 hlocal h hx hxlocal hne
      refine ⟨isTurn_of_localTurn hbelow hm ?_, iff_of_true hnuma hm⟩
      cases m with
      | zero =>
        obtain ⟨hprev, hfirst⟩ := hs.start rfl
        rw [localTurn, ← scan_skip hfirst (fun x hx => (isLocal_iff.mp hx).1) hlocal, hprev]
        exact hscan
      | succ p =>
        rw [localTurn, (hs.prev_isLocal hbelow).1, Option.bind_some]
        exact hscan
    · push Not at hother
      obtain rfl := findLcore_of_no_other hs.prevLcoreid.2 hs.lcoreid.2 hlocal h hother
      have hm := hs.comesRound_of_no_other hbelow hlocal hother
      refine ⟨isTurn_of_roundLcore hbelow hm ?_, by simpa using hm⟩
      cases m with
      | zero =>
        obtain ⟨hprev, hfirst⟩ := hs.start rfl
        exact hprev ▸ hfirst
      | succ p => exact (hs.prev_isLocal hbelow).1

lemma turnAfter_succ {first k : ℕ} (h : P.turnAfter first k = some l) :
    P.turnAfter first (k + 1) = P.rteGetNextLcore l := by
  rw [turnAfter, Function.iterate_succ_apply']
  exact congrArg (·.bind P.rteGetNextLcore) h

/-- Once a search came round, the lcore is the next worker. -/
lemma InTurn.isTurn_lcoreid (hs : P.InTurn m s) {p : ℕ} (hp : p < m) (hround : P.ComesRound p) :
    P.IsTurn m s.lcoreid := by
  refine ⟨fun hno => absurd hround (hno p hp.le), ?_⟩
  intro first hle hfirst
  have hfirstp : first ≤ p := by
    by_contra hlt
    exact hfirst.2 p (by omega) hround
  obtain ⟨k, rfl⟩ : ∃ k, m = k + 1 := ⟨m - 1, by omega⟩
  obtain ⟨hturn, hnext⟩ := hs.turn k rfl
  rw [Nat.sub_add_comm (by omega), turnAfter_succ (hturn.turnAfter first (by omega) hfirst), hnext]

/-- The step lemma: turn `m` is taken, and the record goes up to turn `m + 1`. -/
lemma InTurn.assignLcore (hs : P.InTurn m s) (h : P.assignLcore m s = some t) :
    P.InTurn (m + 1) t ∧ P.IsTurn m t.prevLcoreid := by
  have hworkers := (assignLcore_eq_some hs.toWorkers h).1
  obtain ⟨found, hfound, h⟩ := Option.bind_eq_some_iff.mp h
  obtain ⟨next, hnext, rfl⟩ := Option.map_eq_some_iff.mp h
  have hturn : P.IsTurn m found.1 ∧ (found.2 = true ↔ ∀ p < m + 1, ¬ P.ComesRound p) := by
    cases hok : s.numaOk with
    | true =>
      have hbelow := hs.numaOk.mp hok
      rw [hok] at hfound
      obtain ⟨hturn, hnuma⟩ := hs.findLcore hbelow hfound
      rw [hnuma, Nat.forall_lt_succ_right]
      exact ⟨hturn, (and_iff_right hbelow).symm⟩
    | false =>
      obtain ⟨p, hp, hround⟩ : ∃ p < m, P.ComesRound p := by
        have := hs.numaOk.not.mp (by simp [hok])
        push Not at this
        exact this
      rw [hok] at hfound
      obtain rfl := findLcore_of_not_numaOk hs.lcoreid.2 hfound
      refine ⟨hs.isTurn_lcoreid hp hround, iff_of_false nofun ?_⟩
      exact fun hno => hno p (by omega) hround
  refine ⟨⟨hworkers, hturn.2, nofun, ?_⟩, hturn.1⟩
  rintro p ⟨⟩
  exact ⟨hturn.1, hnext⟩

/-- The run lemma: every port gets the lcore whose turn it is. -/
theorem configureLcoreParams_isTurn {params : List LcoreParams}
    (h : P.configureLcoreParams = some params) :
    ∀ lp ∈ params, P.IsTurn lp.portId lp.lcoreId := by
  obtain ⟨first, hfirst, h⟩ := Option.bind_eq_some_iff.mp h
  obtain ⟨t, hrun, rfl⟩ := Option.map_eq_some_iff.mp h
  have hworker := rteGetNextLcore_eq_some hfirst
  have hinit : P.InTurn 0 ⟨first, first, true, []⟩ :=
    ⟨⟨hworker, hworker⟩, by simp, fun _ => ⟨rfl, hfirst⟩, nofun⟩
  refine (run_range (I := fun m s => P.InTurn m s ∧
    ∀ lp ∈ s.lcoreParams, P.IsTurn lp.portId lp.lcoreId) ?_ hrun ⟨hinit, by simp⟩).2
  rintro m - s t hstep ⟨hs, hparams⟩
  obtain ⟨ht, hturn⟩ := hs.assignLcore hstep
  refine ⟨ht, ?_⟩
  rw [(assignLcore_eq_some hs.toWorkers hstep).2]
  intro lp hlp
  rcases List.mem_append.mp hlp with hlp | hlp
  · exact hparams lp hlp
  · obtain rfl := List.mem_singleton.mp hlp
    exact hturn

/-! ## All ports -/

/-- For the lcores in turn, all ports have local lcores if and only if the turns behind the
first search that comes round meet the sockets. -/
theorem allLocal_iff {entries : List (ℕ × ℕ)}
    (hports : entries.map Prod.fst = List.range P.nbPorts)
    (hturn : ∀ x ∈ entries, P.IsTurn x.1 x.2) : P.AllLocal entries ↔ P.TurnsMeet := by
  constructor
  · intro hlocal first hfirst portid hlt hbehind hhas
    obtain ⟨x, hx, rfl⟩ : ∃ x ∈ entries, x.1 = portid := by
      rw [← List.mem_map, hports, List.mem_range]
      exact hlt
    exact ⟨x.2, (hturn x hx).turnAfter first hbehind.le hfirst, hlocal x hx hhas⟩
  · intro hmeet x hx hhas
    have hlt : x.1 < (P.nbPorts : ℕ) := by
      rw [← List.mem_range, ← hports]
      exact List.mem_map_of_mem hx
    by_cases hround : ∃ p ≤ x.1, P.ComesRound p
    · obtain ⟨first, hle, hfirst⟩ : ∃ first ≤ x.1, P.FirstRound first := by
        obtain ⟨p, hp, hround⟩ := hround
        have hex : ∃ p, P.ComesRound p := ⟨p, hround⟩
        classical
        exact ⟨Nat.find hex, (Nat.find_min' hex hround).trans hp, Nat.find_spec hex,
          fun q hq => Nat.find_min hex hq⟩
      have hx2 := (hturn x hx).turnAfter first hle hfirst
      rcases Nat.lt_or_eq_of_le hle with hbehind | rfl
      · obtain ⟨l, hl, hsocket⟩ := hmeet first hfirst x.1 hlt hbehind hhas
        rw [Option.mem_def, hx2, Option.some_inj] at hl
        rw [hl, hsocket]
      · -- it came round to the lcore of the port before, which is on the same socket
        obtain hno | ⟨hpos, hsocket, -⟩ := hfirst.1
        · exact absurd hhas hno
        · obtain ⟨k, hk⟩ : ∃ k, x.1 = k + 1 := ⟨x.1 - 1, by omega⟩
          rw [Nat.sub_self, turnAfter, Function.iterate_zero, id, hk, roundLcore] at hx2
          rw [← hsocket, hk, Nat.add_sub_cancel]
          exact (isLocal_iff.mp (localTurn_isLocal hx2).2).2.symm
    · push Not at hround
      exact (isLocal_iff.mp (localTurn_isLocal ((hturn x hx).localTurn hround)).2).2.symm

end Turns

end Platform

end DaqSwitch.VoqHwq
