import DaqSwitch.Odl.ConnSearch
import DaqSwitch.Odl.RingPorts

/-!
# Which connections a Dcm gets

The scan gives a process the lines whose process id begins with the digits of its own, and
the address of the last such line; when there is none, the address of the process before it.
So the Dcms of a scan are right exactly when no line that counts is found for another process
too, and every address that is used is the one of the process's lines.
-/

namespace DaqSwitch.Odl.Ss

open Lib Lib.Text Lib.KeyedTable Lib.Pattern

/-! ## Reading a match -/

lemma readIpv4_text (ip : Ipv4) : readIpv4 ip.text = some ip := by
  have hdot (n : ℕ) (s : Str) : readNat (str n ++ '.' :: s) = some (n, '.' :: s) :=
    readNat_str_append n (takeWhile_isDigit_cons rfl s)
  have hstrip (s : Str) : stripPrefix ['.'] ('.' :: s) = some s := stripPrefix_append ['.'] s
  simp only [readIpv4, Ipv4.text, hdot, hstrip, parseNat_str, Option.bind_eq_bind,
    Option.bind_some]
  rfl

lemma Conn.read_groups (x : Conn) : x.groups.read = some (x.localIp, x.inflow) := by
  simp only [MatchObject.read, groups, readIpv4_text, parseNat_str, Option.bind_eq_bind,
    Option.bind_some]
  rfl

lemma Ipv4.text_injective : Function.Injective Ipv4.text := fun ip ip' h => by
  have hread := congrArg readIpv4 h
  rw [readIpv4_text, readIpv4_text] at hread
  exact Option.some_inj.mp hread

lemma mapM_map_some {α β γ : Type*} {f : α → Option β} {g : γ → α} {k : γ → β}
    (h : ∀ x, f (g x) = some (k x)) (xs : List γ) : (xs.map g).mapM f = some (xs.map k) := by
  induction xs with
  | nil => rfl
  | cons x xs ih =>
    rw [List.map_cons, List.mapM_cons, h, ih]
    rfl

/-! ## Processes -/

/-- A host with the connections that `ss` lists there. -/
structure ListedHost where
  hostname : Str
  node : Str
  listing : Listing
  ps : Option (List ℕ)

def ListedHost.toHost (h : ListedHost) : Host := ⟨h.hostname, h.node, h.listing.text, h.ps⟩

/-- A Dcm process of a host, with its number there. -/
structure Process where
  host : ListedHost
  pid : ℕ
  ndcm : ℕ

/-- The processes in the order of the scan. -/
def processes (hosts : List ListedHost) : List Process :=
  hosts.flatMap fun h => ((h.ps.getD []).zipIdx 1).map fun pn => ⟨h, pn.1, pn.2⟩

namespace Process

/-- The key of its Dcm in the result. -/
def key (t : Process) : Str := t.host.hostname ++ '-' :: str t.ndcm

/-- The lines that it owns. -/
def own (t : Process) : List Conn := t.host.listing.conns.filter fun x => decide (x.pid = t.pid)

/-- Those among them that count. -/
def counted (ignoreIp : Option Str) (t : Process) : List Conn :=
  t.own.filter fun x => decide (ignoreIp ≠ some x.peerIp.text)

/-- Those that the scan finds for it. -/
def found (ignoreIp : Option Str) (t : Process) : List Conn :=
  (t.host.listing.conns.filter fun x => decide (str t.pid <+: str x.pid)).filter fun x =>
    decide (ignoreIp ≠ some x.peerIp.text)

/-- The scan of one process. -/
def scan (ignoreIp : Option Str) (s : Scan) (t : Process) : Option Scan :=
  scanPid ignoreIp t.host.toHost s (t.pid, t.ndcm)

end Process

/-- The address of the last line. -/
def lastIp (conns : List Conn) : Option Ipv4 := conns.getLast?.map Conn.localIp

lemma lastIp_append (xs ys : List Conn) : lastIp (xs ++ ys) = (lastIp ys).or (lastIp xs) := by
  rw [lastIp, List.getLast?_append, lastIp, lastIp]
  cases ys.getLast? <;> rfl

/-- The Dcm that is made for a process from the lines found for it and the address. -/
def Process.dcm (t : Process) (id : ℕ) (dip : Ipv4) (conns : List Conn) : Dcm :=
  ⟨id, t.host.node, dip, conns.map Conn.inflow, t.pid⟩

lemma Process.scanFlows_eq (ignoreIp : Option Str) (t : Process) :
    scanFlows ignoreIp (strip t.host.toHost.ss) t.pid =
      some ((t.found ignoreIp).map fun x => (x.localIp, x.inflow)) := by
  rw [scanFlows, ListedHost.toHost, finditer_listing, List.filter_map]
  exact mapM_map_some Conn.read_groups _

/-- What the scan of a process does. -/
lemma Process.scan_eq (ignoreIp : Option Str) (s : Scan) (t : Process) :
    t.scan ignoreIp s = ((lastIp (t.found ignoreIp)).or s.dip).map fun dip =>
      ⟨some dip, s.i + 1,
        put Prod.fst (t.key, t.dcm (s.i + 1) dip (t.found ignoreIp)) s.dcms⟩ := by
  have hlast : ((t.found ignoreIp).map fun x => (x.localIp, x.inflow)).getLast?.map Prod.fst =
      lastIp (t.found ignoreIp) := by
    rw [List.getLast?_map, Option.map_map]
    rfl
  have hflows : ((t.found ignoreIp).map fun x => (x.localIp, x.inflow)).map Prod.snd =
      (t.found ignoreIp).map Conn.inflow := by
    rw [List.map_map]
    rfl
  rw [scan, scanPid]
  simp only [scanFlows_eq, Option.bind_eq_bind, Option.bind_some, hlast, hflows]
  cases (lastIp (t.found ignoreIp)).or s.dip <;> rfl

/-! ## The whole scan -/

/-- The variables before the first process. -/
def Scan.init : Scan := ⟨none, 0, []⟩

lemma foldlM_scanHost (ignoreIp : Option Str) (hosts : List ListedHost) (s : Scan) :
    (hosts.map ListedHost.toHost).foldlM (scanHost ignoreIp) s =
      (processes hosts).foldlM (Process.scan ignoreIp) s := by
  induction hosts generalizing s with
  | nil => rfl
  | cons h hosts ih =>
    have hhost : scanHost ignoreIp s h.toHost =
        (((h.ps.getD []).zipIdx 1).map fun pn => (⟨h, pn.1, pn.2⟩ : Process)).foldlM
          (Process.scan ignoreIp) s := by
      rw [List.foldlM_map]
      rfl
    rw [List.map_cons, List.foldlM_cons, hhost, processes, List.flatMap_cons, List.foldlM_append]
    exact bind_congr ih

lemma scanDcms_eq (ignoreIp : Option Str) (hosts : List ListedHost) :
    scanDcms ignoreIp (hosts.map ListedHost.toHost) =
      ((processes hosts).foldlM (Process.scan ignoreIp) Scan.init).map Scan.dcms := by
  rw [scanDcms, foldlM_scanHost]
  rfl

/-- The keys of the result are distinct when the hosts are. -/
lemma nodup_keys {hosts : List ListedHost} (h : (hosts.map ListedHost.hostname).Nodup) :
    ((processes hosts).map Process.key).Nodup := by
  have hmem {t : Process} {hosts : List ListedHost} (ht : t ∈ processes hosts) :
        t.host ∈ hosts := by
    obtain ⟨h, hh, ht⟩ := List.mem_flatMap.mp ht
    obtain ⟨pn, -, rfl⟩ := List.mem_map.mp ht
    exact hh
  induction hosts with
  | nil => exact List.nodup_nil
  | cons h₀ hosts ih =>
    rw [List.map_cons, List.nodup_cons] at h
    rw [processes, List.flatMap_cons, List.map_append, List.nodup_append]
    refine ⟨?_, ih h.2, ?_⟩
    · -- on one host the processes have different numbers
      have hkeys : (((h₀.ps.getD []).zipIdx 1).map
            fun pn => (⟨h₀, pn.1, pn.2⟩ : Process)).map Process.key =
          (((h₀.ps.getD []).zipIdx 1).map Prod.snd).map
            fun n => h₀.hostname ++ '-' :: str n := by
        rw [List.map_map, List.map_map]
        rfl
      rw [hkeys, List.zipIdx_map_snd]
      exact (List.nodup_range' 1).map fun m n hmn => ((append_cons_str_inj rfl).mp hmn).2
    · rintro k hk _ hk' rfl
      obtain ⟨t, ht, rfl⟩ := List.mem_map.mp hk
      obtain ⟨u, hu, hkey⟩ := List.mem_map.mp hk'
      obtain ⟨pn, -, rfl⟩ := List.mem_map.mp ht
      have hname := ((append_cons_str_inj rfl).mp hkey).1
      exact h.1 (List.mem_map.mpr ⟨u.host, hmem hu, hname⟩)

/-- The state after some processes: each has its Dcm, with the address of the last line found
so far. -/
structure Scanned (ignoreIp : Option Str) (ts : List Process) (s : Scan) : Prop where
  dip : s.dip = lastIp (ts.flatMap (Process.found ignoreIp))
  i : s.i = ts.length
  keys : s.dcms.map Prod.fst = ts.map Process.key
  dcms : ∀ pre t post, ts = pre ++ t :: post → ∃ dip,
    lastIp ((pre ++ [t]).flatMap (Process.found ignoreIp)) = some dip ∧
      (t.key, t.dcm (pre.length + 1) dip (t.found ignoreIp)) ∈ s.dcms

lemma scanned_nil (ignoreIp : Option Str) : Scanned ignoreIp [] Scan.init where
  dip := rfl
  i := rfl
  keys := rfl
  dcms pre t post h := by simp at h

section Run

variable {ignoreIp : Option Str} {ts : List Process} {s : Scan} {t : Process}

lemma flatMap_concat (f : Process → List Conn) (ts : List Process) (t : Process) :
    (ts ++ [t]).flatMap f = ts.flatMap f ++ f t := by
  rw [List.flatMap_append, List.flatMap_singleton]

lemma foldlM_concat (ts : List Process) (t : Process) (s : Scan) :
    (ts ++ [t]).foldlM (Process.scan ignoreIp) s =
      (ts.foldlM (Process.scan ignoreIp) s).bind fun s => t.scan ignoreIp s := by
  rw [List.foldlM_append]
  refine bind_congr ?_
  intro s
  rw [List.foldlM_cons]
  exact bind_pure _

/-- The scan of one more process. -/
lemma Scanned.concat (h : Scanned ignoreIp ts s) (hkey : t.key ∉ ts.map Process.key) {s' : Scan}
    (hst : t.scan ignoreIp s = some s') : Scanned ignoreIp (ts ++ [t]) s' := by
  rw [Process.scan_eq] at hst
  obtain ⟨dip, hdip, rfl⟩ := Option.map_eq_some_iff.mp hst
  have hlast : lastIp ((ts ++ [t]).flatMap (Process.found ignoreIp)) = some dip := by
    rw [flatMap_concat, lastIp_append, ← h.dip, hdip]
  have hput : put Prod.fst (t.key, t.dcm (s.i + 1) dip (t.found ignoreIp)) s.dcms =
      s.dcms ++ [(t.key, t.dcm (s.i + 1) dip (t.found ignoreIp))] := by
    rw [put, List.filter_eq_self.mpr]
    intro e he
    refine decide_eq_true fun heq => hkey ?_
    rw [← h.keys, show t.key = e.1 from heq.symm]
    exact List.mem_map_of_mem he
  refine ⟨hlast.symm, ?_, ?_, ?_⟩
  · rw [List.length_append, List.length_singleton, h.i]
  · rw [hput, List.map_append, h.keys, List.map_append]
    rfl
  · intro pre u post hsplit
    rw [hput]
    rcases List.eq_nil_or_concat post with rfl | ⟨post, u', rfl⟩
    · -- the process is the last one
      obtain ⟨rfl, hu⟩ := List.append_inj' hsplit rfl
      obtain rfl : t = u := by simpa using hu
      refine ⟨dip, hlast, List.mem_append_right _ ?_⟩
      rw [h.i]
      exact List.mem_singleton_self _
    · rw [List.concat_eq_append, ← List.cons_append, ← List.append_assoc] at hsplit
      obtain ⟨hts, -⟩ := List.append_inj' hsplit rfl
      obtain ⟨dip', hdip', hmem⟩ := h.dcms pre u post hts
      exact ⟨dip', hdip', List.mem_append_left _ hmem⟩

/-- A scan that raises no exception. -/
lemma scanned_of_foldlM (hnodup : (ts.map Process.key).Nodup)
    (h : ts.foldlM (Process.scan ignoreIp) Scan.init = some s) : Scanned ignoreIp ts s := by
  induction ts using List.reverseRecOn generalizing s with
  | nil =>
    obtain rfl : Scan.init = s := by simpa using h
    exact scanned_nil ignoreIp
  | append_singleton ts t ih =>
    rw [List.map_append, List.nodup_append] at hnodup
    obtain ⟨hts, -, hdisj⟩ := hnodup
    rw [foldlM_concat] at h
    obtain ⟨s₁, h₁, h₂⟩ := Option.bind_eq_some_iff.mp h
    refine (ih hts h₁).concat ?_ h₂
    intro hmem
    exact hdisj _ hmem _ (List.mem_singleton_self _) rfl

/-- The scan raises no exception when there is always an address. -/
lemma exists_foldlM (h : ∀ pre t post, ts = pre ++ t :: post →
      lastIp ((pre ++ [t]).flatMap (Process.found ignoreIp)) ≠ none)
    (hnodup : (ts.map Process.key).Nodup) :
    ∃ s, ts.foldlM (Process.scan ignoreIp) Scan.init = some s := by
  induction ts using List.reverseRecOn with
  | nil => exact ⟨Scan.init, rfl⟩
  | append_singleton ts t ih =>
    have hts : (ts.map Process.key).Nodup := by
      rw [List.map_append, List.nodup_append] at hnodup
      exact hnodup.1
    obtain ⟨s, hs⟩ := ih (fun pre u post hsplit => h pre u (post ++ [t]) (by simp [hsplit])) hts
    have hlast := h ts t [] rfl
    rw [flatMap_concat, lastIp_append, ← (scanned_of_foldlM hts hs).dip] at hlast
    obtain ⟨dip, hdip⟩ := Option.ne_none_iff_exists'.mp hlast
    rw [foldlM_concat, hs, Option.bind_some, Process.scan_eq, hdip]
    exact ⟨_, rfl⟩

end Run

/-! ## The scan of the connections

`Ss.scanDcms` is `scan_dcms` as the source has it, on the texts that `ss` prints.  `Odl.scanDcms`
is an abstraction of it, with the matches in place of the texts.  On the hosts of a listing the two
are the same. -/

section Refinement

variable {hosts : List ListedHost} (ignoreIp : Option Ipv4)

/-- What the pattern finds at a line. -/
def Conn.found (x : Conn) : Odl.Conn :=
  ⟨x.localIp, some x.localPort, x.peerIp, some x.peerPort⟩

/-- The hosts with the matches. -/
def ssh (hosts : List ListedHost) : Ssh where
  dcmPids hostname := (hosts.find? (·.hostname == hostname)).bind ListedHost.ps
  conns hostname p := match hosts.find? (·.hostname == hostname) with
    | none => []
    | some h => (h.listing.conns.filter fun x => decide (str p <+: str x.pid)).map Conn.found

def Scan.toState (s : Scan) : ScanState := ⟨s.i, s.dip, s.dcms⟩

lemma ignoreIp_map_text (ip : Ipv4) :
    ignoreIp.map Ipv4.text ≠ some ip.text ↔ ignoreIp ≠ some ip := by
  refine not_congr ⟨?_, fun h => by rw [h]; rfl⟩
  intro h
  obtain ⟨ip', rfl, htext⟩ := Option.map_eq_some_iff.mp h
  rw [Ipv4.text_injective htext]

/-- The loop over the connections. -/
lemma run_scanConn (xs : List Conn) (b : Option Ipv4 × List Inflow) :
    Machine.run (scanConn ignoreIp) (xs.map Conn.found) b =
      some ((lastIp (xs.filter fun x => decide (ignoreIp ≠ some x.peerIp))).or b.1,
        b.2 ++ (xs.filter fun x => decide (ignoreIp ≠ some x.peerIp)).map Conn.inflow) := by
  induction xs generalizing b with
  | nil => simp [lastIp]
  | cons x xs ih =>
    rw [List.map_cons, Machine.run_cons]
    by_cases hignore : ignoreIp = some x.peerIp
    · have hstep : scanConn ignoreIp x.found b = some b := if_pos hignore
      rw [hstep, Option.bind_some, ih, List.filter_cons_of_neg (by simp [hignore])]
    · have hstep : scanConn ignoreIp x.found b = some (some x.localIp, b.2 ++ [x.inflow]) :=
        if_neg hignore
      have hkept := List.filter_cons_of_pos (p := fun x : Conn => decide (ignoreIp ≠ some x.peerIp))
        (a := x) (l := xs) (by simp [hignore])
      have hlast := lastIp_append [x] (xs.filter fun x => decide (ignoreIp ≠ some x.peerIp))
      rw [List.singleton_append] at hlast
      rw [hstep, Option.bind_some, ih, hkept, hlast, Option.or_assoc, List.append_assoc]
      rfl

/-- The scan of one process. -/
lemma map_toState_scan (t : Process)
    (ht : hosts.find? (·.hostname == t.host.hostname) = some t.host) (s : Scan) :
    (t.scan (ignoreIp.map Ipv4.text) s).map Scan.toState =
      Odl.scanPid (ssh hosts) ignoreIp t.host.hostname t.host.node (t.pid, t.ndcm) s.toState := by
  have hconns : (ssh hosts).conns t.host.hostname t.pid =
      (t.host.listing.conns.filter fun x => decide (str t.pid <+: str x.pid)).map Conn.found := by
    simp only [ssh, ht]
  have hfound : (t.host.listing.conns.filter fun x => decide (str t.pid <+: str x.pid)).filter
      (fun x => decide (ignoreIp ≠ some x.peerIp)) = t.found (ignoreIp.map Ipv4.text) :=
    List.filter_congr fun x _ => decide_eq_decide.mpr (ignoreIp_map_text ignoreIp x.peerIp).symm
  rw [Process.scan_eq, Odl.scanPid, hconns, run_scanConn, hfound]
  simp only [Scan.toState, Option.bind_eq_bind, Option.bind_some]
  cases (lastIp (t.found (ignoreIp.map Ipv4.text))).or s.dip <;> rfl

/-- **Refinement.**  On the texts of a listing, `scan_dcms` returns what it returns on the matches
that the pattern finds in them. -/
theorem scanDcms_eq_scanDcms (hnames : (hosts.map ListedHost.hostname).Nodup) :
    scanDcms (ignoreIp.map Ipv4.text) (hosts.map ListedHost.toHost) =
      Odl.scanDcms (ssh hosts) ignoreIp (hosts.map fun h => (h.hostname, h.node)) := by
  have hfind : ∀ h ∈ hosts, hosts.find? (·.hostname == h.hostname) = some h := by
    intro h hh
    cases hfound : hosts.find? (·.hostname == h.hostname) with
    | none => simpa using List.find?_eq_none.mp hfound h hh
    | some h' =>
      have hname := List.find?_some hfound
      rw [beq_iff_eq] at hname
      rw [List.inj_on_of_nodup_map hnames (List.mem_of_find?_eq_some hfound) hh hname]
  have hhost : ∀ h ∈ hosts, ∀ s : Scan,
      (scanHost (ignoreIp.map Ipv4.text) s h.toHost).map Scan.toState =
        Odl.scanHost (ssh hosts) ignoreIp (h.hostname, h.node) s.toState := by
    intro h hh s
    have hpids : (ssh hosts).dcmPids h.hostname = h.ps := by
      simp only [ssh, hfind h hh, Option.bind_some]
    rw [scanHost, Odl.scanHost, hpids, ListedHost.toHost]
    cases h.ps with
    | none => rfl
    | some ps =>
      have hloop : ((ps.zipIdx 1).foldlM
            (scanPid (ignoreIp.map Ipv4.text) ⟨h.hostname, h.node, h.listing.text, h.ps⟩) s).map
            Scan.toState =
          Machine.run (Odl.scanPid (ssh hosts) ignoreIp h.hostname h.node)
            ((ps.zipIdx 1).map id) s.toState :=
        Machine.map_foldlM
          (fun pn _ s => map_toState_scan ignoreIp ⟨h, pn.1, pn.2⟩ (hfind h hh) s) s
      rw [List.map_id] at hloop
      exact hloop
  have hloop := congrArg (Option.map ScanState.dcms) (Machine.map_foldlM hhost Scan.init)
  rw [Option.map_map] at hloop
  rw [scanDcms, Odl.scanDcms, List.foldlM_map]
  exact hloop

end Refinement

/-! ## When the Dcms are right -/

/-- The Dcm of a process has the flows of the lines that the process owns and that count, and
the local address of the process's lines. -/
structure Attributed (ignoreIp : Option Str) (t : Process) (d : Dcm) : Prop where
  pid : d.pid = t.pid
  inflows : d.inflows = (t.counted ignoreIp).map Conn.inflow
  own : t.own ≠ []
  dip : ∀ x ∈ t.own, x.localIp = d.dip

/-- The scan returns the right Dcm for every process. -/
def Attributes (ignoreIp : Option Str) (hosts : List ListedHost) : Prop :=
  ∃ dcms, scanDcms ignoreIp (hosts.map ListedHost.toHost) = some dcms ∧
    ∀ t ∈ processes hosts, ∃ d, dcms.lookup t.key = some d ∧ Attributed ignoreIp t d

/-- As `Attributed`, for any address of the Dcm of a process without lines. -/
structure OwnFlows (ignoreIp : Option Str) (t : Process) (d : Dcm) : Prop where
  pid : d.pid = t.pid
  inflows : d.inflows = (t.counted ignoreIp).map Conn.inflow
  dip : ∀ x ∈ t.own, x.localIp = d.dip

/-- The scan returns a Dcm with its own flows for every process. -/
def GivesOwnFlows (ignoreIp : Option Str) (hosts : List ListedHost) : Prop :=
  ∃ dcms, scanDcms ignoreIp (hosts.map ListedHost.toHost) = some dcms ∧
    ∀ t ∈ processes hosts, ∃ d, dcms.lookup t.key = some d ∧ OwnFlows ignoreIp t d

lemma attributed_iff {ignoreIp : Option Str} {t : Process} {d : Dcm} :
    Attributed ignoreIp t d ↔ t.own ≠ [] ∧ OwnFlows ignoreIp t d :=
  ⟨fun ⟨hpid, hinflows, hown, hdip⟩ => ⟨hown, hpid, hinflows, hdip⟩,
    fun ⟨hown, hpid, hinflows, hdip⟩ => ⟨hpid, hinflows, hown, hdip⟩⟩

lemma attributes_iff_and {ignoreIp : Option Str} {hosts : List ListedHost} :
    Attributes ignoreIp hosts ↔
      (∀ t ∈ processes hosts, t.own ≠ []) ∧ GivesOwnFlows ignoreIp hosts := by
  simp only [Attributes, GivesOwnFlows, attributed_iff]
  constructor
  · rintro ⟨dcms, hscan, hall⟩
    refine ⟨fun t ht => ?_, dcms, hscan, fun t ht => ?_⟩
    · obtain ⟨d, -, hown, -⟩ := hall t ht
      exact hown
    · obtain ⟨d, hd, -, hflows⟩ := hall t ht
      exact ⟨d, hd, hflows⟩
  · rintro ⟨hown, dcms, hscan, hall⟩
    refine ⟨dcms, hscan, fun t ht => ?_⟩
    obtain ⟨d, hd, hflows⟩ := hall t ht
    exact ⟨d, hd, hown t ht, hflows⟩

/-- What a process needs, after the processes `pre`: no line that counts is owned by a process
with a longer id that begins with the same digits, and the last line so far that counts has
the local address of its lines. -/
structure Separate (ignoreIp : Option Str) (pre : List Process) (t : Process) : Prop where
  digits : ∀ x ∈ t.host.listing.conns, ignoreIp ≠ some x.peerIp.text →
    str t.pid <+: str x.pid → x.pid = t.pid
  own : t.own ≠ []
  address : ∀ x ∈ t.own,
    lastIp ((pre ++ [t]).flatMap (Process.counted ignoreIp)) = some x.localIp

/-- The same without lines of its own: some line so far counts, so that there is an address. -/
structure Apart (ignoreIp : Option Str) (pre : List Process) (t : Process) : Prop where
  digits : ∀ x ∈ t.host.listing.conns, ignoreIp ≠ some x.peerIp.text →
    str t.pid <+: str x.pid → x.pid = t.pid
  some_address : lastIp ((pre ++ [t]).flatMap (Process.counted ignoreIp)) ≠ none
  address : ∀ x ∈ t.own,
    lastIp ((pre ++ [t]).flatMap (Process.counted ignoreIp)) = some x.localIp

lemma separate_iff {ignoreIp : Option Str} {pre : List Process} {t : Process} :
    Separate ignoreIp pre t ↔ t.own ≠ [] ∧ Apart ignoreIp pre t := by
  constructor
  · rintro ⟨hdigits, hown, haddress⟩
    obtain ⟨x, hx⟩ := List.exists_mem_of_ne_nil _ hown
    exact ⟨hown, hdigits, haddress x hx ▸ Option.some_ne_none _, haddress⟩
  · rintro ⟨hown, hdigits, -, haddress⟩
    exact ⟨hdigits, hown, haddress⟩

namespace Process

variable {ignoreIp : Option Str} {t : Process}

/-- The lines that count are among those found. -/
lemma counted_eq_filter (ignoreIp : Option Str) (t : Process) :
    t.counted ignoreIp = (t.found ignoreIp).filter fun x => decide (x.pid = t.pid) := by
  rw [counted, found, own, List.filter_filter, List.filter_filter, List.filter_filter]
  refine List.filter_congr ?_
  intro x _
  by_cases hpid : x.pid = t.pid
  · simp [hpid]
  · simp [hpid]

lemma mem_found {x : Conn} : x ∈ t.found ignoreIp ↔
    x ∈ t.host.listing.conns ∧ str t.pid <+: str x.pid ∧ ignoreIp ≠ some x.peerIp.text := by
  simp only [found, List.mem_filter, decide_eq_true_eq, and_assoc]

/-- No others are found when the digits tell the processes apart. -/
lemma found_eq_counted (h : ∀ x ∈ t.host.listing.conns, ignoreIp ≠ some x.peerIp.text →
    str t.pid <+: str x.pid → x.pid = t.pid) : t.found ignoreIp = t.counted ignoreIp := by
  rw [counted_eq_filter, List.filter_eq_self.mpr]
  intro x hx
  obtain ⟨hmem, hdigits, hignore⟩ := mem_found.mp hx
  exact decide_eq_true (h x hmem hignore hdigits)

/-- Another line that is found is one flow too many. -/
lemma digits_of_inflows_eq
    (h : (t.found ignoreIp).map Conn.inflow = (t.counted ignoreIp).map Conn.inflow) :
    ∀ x ∈ t.host.listing.conns, ignoreIp ≠ some x.peerIp.text →
      str t.pid <+: str x.pid → x.pid = t.pid := by
  intro x hx hignore hdigits
  have hlen := congrArg List.length h
  rw [List.length_map, List.length_map, counted_eq_filter] at hlen
  have hall := List.length_filter_eq_length_iff.mp hlen.symm
  exact of_decide_eq_true (hall x (mem_found.mpr ⟨hx, hdigits, hignore⟩))

end Process

section Exactness

variable {ignoreIp : Option Str} {hosts : List ListedHost} {ts : List Process} {s : Scan}

/-- The Dcm that the result holds for a process. -/
lemma Scanned.lookup (h : Scanned ignoreIp ts s) (hnodup : (ts.map Process.key).Nodup)
    {pre post : List Process} {t : Process} (hts : ts = pre ++ t :: post) : ∃ dip,
    lastIp ((pre ++ [t]).flatMap (Process.found ignoreIp)) = some dip ∧
      s.dcms.lookup t.key = some (t.dcm (pre.length + 1) dip (t.found ignoreIp)) := by
  obtain ⟨dip, hdip, hmem⟩ := h.dcms pre t post hts
  exact ⟨dip, hdip, lookup_eq_some_of_mem (by rwa [h.keys]) hmem⟩

/-- When the digits tell all processes apart, the lines found are the lines that count. -/
lemma flatMap_found_eq (h : ∀ t ∈ ts, t.found ignoreIp = t.counted ignoreIp) :
    ts.flatMap (Process.found ignoreIp) = ts.flatMap (Process.counted ignoreIp) :=
  List.flatMap_congr h

lemma mem_of_mem_pre {pre post : List Process} {t u : Process} (hts : ts = pre ++ t :: post)
    (hu : u ∈ pre ++ [t]) : u ∈ ts := by
  rw [hts, List.append_cons]
  exact List.mem_append_left post hu

lemma apart_of_givesOwnFlows (hnames : (hosts.map ListedHost.hostname).Nodup)
    (h : GivesOwnFlows ignoreIp hosts) {pre post : List Process} {t : Process}
    (hts : processes hosts = pre ++ t :: post) : Apart ignoreIp pre t := by
  obtain ⟨dcms, hscan, hall⟩ := h
  rw [scanDcms_eq] at hscan
  obtain ⟨s, hs, rfl⟩ := Option.map_eq_some_iff.mp hscan
  have hkeys := nodup_keys hnames
  have hscanned := scanned_of_foldlM hkeys hs
  -- the Dcm of a process is the one that was made for it
  have hdcm : ∀ {pre t post}, processes hosts = pre ++ t :: post → ∃ dip,
      lastIp ((pre ++ [t]).flatMap (Process.found ignoreIp)) = some dip ∧
        OwnFlows ignoreIp t (t.dcm (pre.length + 1) dip (t.found ignoreIp)) := by
    intro pre t post hts
    obtain ⟨dip, hdip, hlookup⟩ := hscanned.lookup hkeys hts
    obtain ⟨d, hd, hflows⟩ := hall t (hts ▸ by simp)
    rw [hlookup, Option.some_inj] at hd
    exact ⟨dip, hdip, hd ▸ hflows⟩
  have hdigits : ∀ u ∈ processes hosts, ∀ x ∈ u.host.listing.conns,
      ignoreIp ≠ some x.peerIp.text → str u.pid <+: str x.pid → x.pid = u.pid := by
    intro u hu
    obtain ⟨pre, post, hsplit⟩ := List.append_of_mem hu
    obtain ⟨_, _, hflows⟩ := hdcm hsplit
    exact Process.digits_of_inflows_eq hflows.inflows
  obtain ⟨dip, hdip, hflows⟩ := hdcm hts
  rw [flatMap_found_eq fun u hu =>
    Process.found_eq_counted (hdigits u (mem_of_mem_pre hts hu))] at hdip
  refine ⟨hdigits t (hts ▸ by simp), hdip ▸ Option.some_ne_none _, ?_⟩
  intro x hx
  rw [hdip]
  exact congrArg some (hflows.dip x hx).symm

lemma givesOwnFlows_of_apart (hnames : (hosts.map ListedHost.hostname).Nodup)
    (h : ∀ pre t post, processes hosts = pre ++ t :: post → Apart ignoreIp pre t) :
    GivesOwnFlows ignoreIp hosts := by
  have hfound : ∀ u ∈ processes hosts, u.found ignoreIp = u.counted ignoreIp := by
    intro u hu
    obtain ⟨pre, post, hsplit⟩ := List.append_of_mem hu
    exact Process.found_eq_counted (h pre u post hsplit).digits
  have heq : ∀ {pre t post}, processes hosts = pre ++ t :: post →
      (pre ++ [t]).flatMap (Process.found ignoreIp) =
        (pre ++ [t]).flatMap (Process.counted ignoreIp) := fun hts =>
    flatMap_found_eq fun u hu => hfound u (mem_of_mem_pre hts hu)
  have hkeys := nodup_keys hnames
  have htotal : ∀ pre t post, processes hosts = pre ++ t :: post →
      lastIp ((pre ++ [t]).flatMap (Process.found ignoreIp)) ≠ none := by
    intro pre t post hts
    rw [heq hts]
    exact (h pre t post hts).some_address
  obtain ⟨s, hs⟩ := exists_foldlM htotal hkeys
  refine ⟨s.dcms, by rw [scanDcms_eq, hs]; rfl, ?_⟩
  intro t ht
  obtain ⟨pre, post, hts⟩ := List.append_of_mem ht
  obtain ⟨dip, hdip, hlookup⟩ := (scanned_of_foldlM hkeys hs).lookup hkeys hts
  refine ⟨_, hlookup, rfl, ?_, ?_⟩
  · exact congrArg (List.map Conn.inflow) (hfound t ht)
  · intro x hx
    rw [heq hts, (h pre t post hts).address x hx, Option.some_inj] at hdip
    exact hdip

/-- When a process without lines only needs a Dcm without flows, the scan is right exactly when no
line that counts belongs to a process with a longer id that begins with the same digits, some line
so far counts whenever a Dcm is made, and the address of the last one is the local address of the
lines of the process. -/
theorem givesOwnFlows_iff (hnames : (hosts.map ListedHost.hostname).Nodup) :
    GivesOwnFlows ignoreIp hosts ↔
      ∀ pre t post, processes hosts = pre ++ t :: post → Apart ignoreIp pre t :=
  ⟨fun h _ _ _ hts => apart_of_givesOwnFlows hnames h hts, givesOwnFlows_of_apart hnames⟩

/-- **Attribution of connections.**  On distinct hosts, the scan returns the right Dcm for every
process exactly when no line that counts belongs to a process with a longer id that begins
with the same digits, every process has lines, and the address that is in use when its Dcm is
made is the local address of its lines. -/
theorem attributes_iff (hnames : (hosts.map ListedHost.hostname).Nodup) :
    Attributes ignoreIp hosts ↔
      ∀ pre t post, processes hosts = pre ++ t :: post → Separate ignoreIp pre t := by
  simp only [attributes_iff_and, givesOwnFlows_iff hnames, separate_iff]
  constructor
  · rintro ⟨hown, hall⟩ pre t post hts
    exact ⟨hown t (hts ▸ by simp), hall pre t post hts⟩
  · intro h
    refine ⟨fun t ht => ?_, fun pre t post hts => (h pre t post hts).2⟩
    obtain ⟨pre, post, hts⟩ := List.append_of_mem ht
    exact (h pre t post hts).1

end Exactness

/-- A connection on the address 10.0.0.1. -/
def connOf (pid localPort : ℕ) : Conn :=
  ⟨0, 0, ⟨10, 0, 0, 1⟩, localPort, ⟨10, 0, 0, 2⟩, 22345, pid, 7, fun _ => 1⟩

/-- A host with a connection for each of two processes. -/
def twoDcms (p q : ℕ) : ListedHost where
  hostname := "pc-1".toList
  node := "pod-1-a".toList
  listing := ⟨"State".toList, [connOf p 5000, connOf q 5001], by simp, by simp [isSpace], by simp⟩
  ps := some [p, q]

theorem attributes_iff_twoDcms : Attributes none [twoDcms 100 200] ↔
    ∀ pre t post, processes [twoDcms 100 200] = pre ++ t :: post → Separate none pre t :=
  attributes_iff (List.nodup_singleton _)

/-- The Dcm with the process id 12 gets the connection of the process 123. -/
theorem not_attributes : ¬ Attributes none [twoDcms 12 123] := by
  rintro ⟨dcms, hscan, hall⟩
  obtain ⟨d, hd, hattr⟩ := hall ⟨twoDcms 12 123, 12, 1⟩ List.mem_cons_self
  have hfound : (scanDcms none [(twoDcms 12 123).toHost]).map (fun dcms =>
      (dcms.lookup (Process.key ⟨twoDcms 12 123, 12, 1⟩)).map fun d => d.inflows.length) =
      some (some 2) := by decide +kernel
  have hcounted : (Process.counted none ⟨twoDcms 12 123, 12, 1⟩).length = 1 := by decide +kernel
  have hlen := congrArg List.length hattr.inflows
  rw [List.length_map, hcounted] at hlen
  rw [show scanDcms none [(twoDcms 12 123).toHost] = some dcms from hscan, Option.map_some, hd,
    Option.map_some, hlen] at hfound
  cases hfound

end DaqSwitch.Odl.Ss
