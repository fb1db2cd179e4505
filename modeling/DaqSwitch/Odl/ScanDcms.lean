import DaqSwitch.Lib.Pattern
import DaqSwitch.Odl.Dcm

/-!
# Attribution of connections

`scan_dcms` of `odl_utils/of.py` lists the TCP connections of each host with `ss` and its Dcm
processes with `ps`, and searches the listing for each process with a regular expression that
ends in the digits of the process id.  Longer ids that begin with these digits are found as
well, and the address of a Dcm is a variable that keeps its value when nothing is found.
-/

namespace DaqSwitch.Odl

open Lib Lib.Text Lib.KeyedTable Lib.Pattern

/-- An address as `ss` prints it. -/
def Ipv4.text (ip : Ipv4) : Str :=
  str ip.a ++ '.' :: (str ip.b ++ '.' :: (str ip.c ++ '.' :: str ip.d))

namespace Ss

/-! ## The regular expression -/

/-- `\s`. -/
def isSpace (c : Char) : Bool := c.isWhitespace || c.toNat == 11 || c.toNat == 12

/-- `\S`. -/
def nonSpace (c : Char) : Bool := !isSpace c

/-- `.`. -/
def notNewline (c : Char) : Bool := c != '\n'

/-- `\S+\s+`. -/
def field : List Item := plus nonSpace ++ plus isSpace

/-- `\d+\.\d+\.\d+\.\d+`. -/
def ippat : List Item :=
  plus Char.isDigit ++ lit ['.'] ++ plus Char.isDigit ++ lit ['.'] ++ plus Char.isDigit ++
    lit ['.'] ++ plus Char.isDigit

/-- `"dcm_main",` and the id of a process. -/
def needle (p : ℕ) : Str := "\"dcm_main\",".toList ++ str p

/-- The pattern from the peer address on. -/
def peerPattern (p : ℕ) : List Item :=
  ippat ++ (lit [':'] ++ (.star Char.isDigit :: .star notNewline :: (lit (needle p) ++
    [.star notNewline])))

/-- The pattern from the local address on. -/
def localPattern (p : ℕ) : List Item :=
  ippat ++ (lit [':'] ++ (.star Char.isDigit :: .star isSpace :: peerPattern p))

/-- The pattern to get the TCP flows of a particular Dcm process. -/
def pattern (p : ℕ) : List Item := field ++ (field ++ (field ++ localPattern p))

/-- The groups of a match. -/
structure MatchObject where
  group1 : Str
  group2 : Str
  group3 : Str
  group4 : Str

/-- The groups are the two addresses, eleven items each, and the two ports. -/
def MatchObject.ofParts (parts : List Str) : MatchObject where
  group1 := ((parts.drop 12).take 11).flatten
  group2 := ((parts.drop 24).take 1).flatten
  group3 := ((parts.drop 26).take 11).flatten
  group4 := ((parts.drop 38).take 1).flatten

/-! ## The scan -/

/-- `strip`. -/
def strip (s : Str) : Str := ((s.dropWhile isSpace).reverse.dropWhile isSpace).reverse

/-- The address that a text is. -/
def readIpv4 (s : Str) : Option Ipv4 := do
  let (a, s) ← readNat s
  let (b, s) ← readNat (← stripPrefix ['.'] s)
  let (c, s) ← readNat (← stripPrefix ['.'] s)
  let d ← parseNat (← stripPrefix ['.'] s)
  return ⟨a, b, c, d⟩

/-- What the loop takes from a match: the local address and the incoming flow.  `int` of an
empty text is an exception. -/
def MatchObject.read (m : MatchObject) : Option (Ipv4 × Inflow) := do
  let dip ← readIpv4 m.group1
  let dport ← parseNat m.group2
  let sip ← readIpv4 m.group3
  let sport ← parseNat m.group4
  return (dip, ⟨dport, sip, sport⟩)

/-- The flows that are found for a process. -/
def scanFlows (ignoreIp : Option Str) (tcpFlows : Str) (p : ℕ) : Option (List (Ipv4 × Inflow)) :=
  (((finditer (pattern p) tcpFlows).map MatchObject.ofParts).filter fun m =>
    decide (ignoreIp ≠ some m.group3)).mapM MatchObject.read

/-- A host of `hosts_list` with the outputs of `ss` and `ps` there; `ps` fails when there is no
Dcm process. -/
structure Host where
  hostname : Str
  node : Str
  ss : Str
  ps : Option (List ℕ)

/-- The variables of the scan; `dip` has no value at first. -/
structure Scan where
  dip : Option Ipv4
  i : ℕ
  dcms : List (Str × Dcm)

/-- The body of the loop over the processes of a host, with their numbers.  Reading `dip`
without a value is an exception. -/
def scanPid (ignoreIp : Option Str) (h : Host) (s : Scan) (pn : ℕ × ℕ) : Option Scan := do
  let flows ← scanFlows ignoreIp (strip h.ss) pn.1
  let dip ← (flows.getLast?.map Prod.fst).or s.dip
  let dcm : Dcm := ⟨s.i + 1, h.node, dip, flows.map Prod.snd, pn.1⟩
  return ⟨some dip, s.i + 1, put Prod.fst (h.hostname ++ '-' :: str pn.2, dcm) s.dcms⟩

/-- The body of the loop over the hosts. -/
def scanHost (ignoreIp : Option Str) (s : Scan) (h : Host) : Option Scan :=
  ((h.ps.getD []).zipIdx 1).foldlM (scanPid ignoreIp h) s

/-- `scan_dcms`, on the texts that the commands print. -/
def scanDcms (ignoreIp : Option Str) (hosts : List Host) : Option (List (Str × Dcm)) :=
  (hosts.foldlM (scanHost ignoreIp) ⟨none, 0, []⟩).map Scan.dcms

/-! ## Listings -/

/-- The gap between two columns. -/
def blanks (n : ℕ) : Str := List.replicate (n + 1) ' '

/-- An established connection of a Dcm process. -/
structure Conn where
  recvQ : ℕ
  sendQ : ℕ
  localIp : Ipv4
  localPort : ℕ
  peerIp : Ipv4
  peerPort : ℕ
  pid : ℕ
  fd : ℕ
  gap : ℕ → ℕ

namespace Conn

def users (x : Conn) : Str :=
  "users:((\"dcm_main\",".toList ++ (str x.pid ++ ',' :: (str x.fd ++ "))".toList))

/-- An address with a port. -/
def endpoint (ip : Ipv4) (port : ℕ) : Str := ip.text ++ ':' :: str port

/-- The line of a connection. -/
def text (x : Conn) : Str :=
  "ESTAB".toList ++ (blanks (x.gap 0) ++ (str x.recvQ ++ (blanks (x.gap 1) ++ (str x.sendQ ++
    (blanks (x.gap 2) ++ (endpoint x.localIp x.localPort ++ (blanks (x.gap 3) ++
      (endpoint x.peerIp x.peerPort ++ (blanks (x.gap 4) ++ x.users)))))))))

/-- The flow into the process. -/
def inflow (x : Conn) : Inflow := ⟨x.localPort, x.peerIp, x.peerPort⟩

end Conn

/-- The lines after the header. -/
def linesText (conns : List Conn) : Str := conns.flatMap fun x => '\n' :: x.text

/-- A listing of `ss`: a header without digits and a line for each connection. -/
structure Listing where
  header : Str
  conns : List Conn
  header_ne : header ≠ []
  header_start : header.takeWhile isSpace = []
  header_digits : ∀ c ∈ header, c.isDigit = false

/-- The output of `ss`. -/
def Listing.text (L : Listing) : Str := L.header ++ (linesText L.conns ++ ['\n'])

end Ss

end DaqSwitch.Odl
