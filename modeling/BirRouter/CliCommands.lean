import BirRouter.ArpSync
import BirRouter.Dns
import BirRouter.Lib.FirstMatch
import BirRouter.Lib.Trace

/-!
# Commands (`cli_parser.y`)

The parser keeps the arguments of a command in records that all commands share, and runs the command
when its line is complete.  The macros `SETC_…` fill the records; what a macro does not set is left
from an earlier command.

* `executeCommand` — one line: `clear_command`, the action of its rule, `run_command`;
* `lastAddedMac` — what earlier commands leave in the record of the ARP commands;
* `ipArpDel_iff` — `ip arp del` compares the MAC too, which it does not set, so that it works only on
  the entry that was added last.
-/

set_option autoImplicit false

namespace BirRouter

open ByteLayout Trace

/-! ## Records -/

/-- The functions without arguments; the others do not touch the ARP cache. -/
inductive CliFunc0
  | manipIpArpPurgeAll
  | manipIpArpPurgeDyn
  | manipIpArpPurgeSta
  | other
  deriving DecidableEq, Repr

/-- The functions that take a record; the others do not touch the ARP cache. -/
inductive CliFunc1
  | manipIpArpAdd
  | manipIpArpDel
  | other
  deriving DecidableEq, Repr

/-- What `data` points to. -/
inductive GrossRecord
  | garp
  | gintf
  | grt
  | gip
  | giip
  | gopt
  | gdns
  deriving DecidableEq, Repr

/-- `gross_object_t` -/
structure GrossObject where
  func_do0 : Option CliFunc0
  func_do1 : Option CliFunc1
  data : Option GrossRecord
  deriving DecidableEq, Repr

/-- `gross_arp_t` -/
structure GrossArp where
  ip : AddrIp
  mac : AddrMac
  deriving DecidableEq, Repr

/-- `gross_intf_t` -/
structure GrossIntf where
  intf_name : List Byte
  ip : AddrIp
  subnet_mask : AddrIp

/-- `gross_route_t` -/
structure GrossRoute where
  dest : AddrIp
  gw : AddrIp
  mask : AddrIp
  intf_name : List Byte

/-- `gross_ip_int_t` -/
structure GrossIpInt where
  ip : AddrIp
  count : BitVec 32

/-- The variables of the parser. -/
structure GrossState where
  gobj : GrossObject
  garp : GrossArp
  gintf : GrossIntf
  grt : GrossRoute
  gip : AddrIp
  giip : GrossIpInt
  gopt : Bool
  gdns : GrossDns

/-- All of them are static, so they start as zero. -/
def GrossState.init : GrossState where
  gobj := ⟨none, none, none⟩
  garp := ⟨0, AddrMac.zero⟩
  gintf := ⟨[], 0, 0⟩
  grt := ⟨0, 0, 0, []⟩
  gip := 0
  giip := ⟨0, 0⟩
  gopt := false
  gdns := ⟨0, [], 0, 0⟩

def clearCommand (g : GrossState) : GrossState := { g with gobj := ⟨none, none, none⟩ }

def setcFunc0 (func : CliFunc0) (g : GrossState) : GrossState :=
  { g with gobj := ⟨some func, none, none⟩ }

/-- `SETC_FUNC1`, and the assignment to `gobj.data` that follows it everywhere. -/
def setcFunc1 (func : CliFunc1) (data : GrossRecord) (g : GrossState) : GrossState :=
  { g with gobj := ⟨none, some func, some data⟩ }

def setcArpIp (func : CliFunc1) (xip : AddrIp) (g : GrossState) : GrossState :=
  { setcFunc1 func .garp g with garp := { g.garp with ip := xip } }

def setcArp (func : CliFunc1) (ip : AddrIp) (xmac : AddrMac) (g : GrossState) : GrossState :=
  let g := setcArpIp func ip g
  { g with garp := { g.garp with mac := xmac } }

def setcIntf (func : CliFunc1) (name : List Byte) (g : GrossState) : GrossState :=
  { setcFunc1 func .gintf g with gintf := { g.gintf with intf_name := name } }

def setcIntfSet (func : CliFunc1) (name : List Byte) (xip sm : AddrIp) (g : GrossState) :
    GrossState :=
  let g := setcIntf func name g
  { g with gintf := { g.gintf with ip := xip, subnet_mask := sm } }

def setcRt (func : CliFunc1) (xdest xmask : AddrIp) (g : GrossState) : GrossState :=
  { setcFunc1 func .grt g with grt := { g.grt with dest := xdest, mask := xmask } }

def setcRtAdd (func : CliFunc1) (dest xgw mask : AddrIp) (intf : List Byte) (g : GrossState) :
    GrossState :=
  let g := setcRt func dest mask g
  { g with grt := { g.grt with gw := xgw, intf_name := intf } }

def setcIp (func : CliFunc1) (xip : AddrIp) (g : GrossState) : GrossState :=
  { setcFunc1 func .gip g with gip := xip }

def setcIpInt (func : CliFunc1) (xip : AddrIp) (xn : BitVec 32) (g : GrossState) : GrossState :=
  { setcFunc1 func .giip g with giip := ⟨xip, xn⟩ }

def setcOpt (func : CliFunc1) (g : GrossState) : GrossState := setcFunc1 func .gopt g

def setcDns (func : CliFunc1) (data : GrossDns) (g : GrossState) : GrossState :=
  { setcFunc1 func .gdns g with gdns := data }

/-! ## Commands -/

/-- A line, by the rule that it is complete with.  A line without a command, one that asks for help
and one with an error fill no record, except that `set` and `unset` keep what they say at once: the
parser looks at the end of the line before it reduces by a rule with a record. -/
inductive CliCommand
  | none
  | func0 (func : CliFunc0)
  | ipArpAdd (ip : AddrIp) (mac : AddrMac)
  | ipArpDel (ip : AddrIp)
  | ipIntfSet (name : List Byte) (ip subnet_mask : AddrIp)
  | ipIntfUp (name : List Byte)
  | ipIntfDown (name : List Byte)
  | ipRouteAdd (dest gw mask : AddrIp) (intf : List Byte)
  | ipRouteDel (dest mask : AddrIp)
  | dnsAdd (data : GrossDns)
  | dnsDel (data : GrossDns)
  | ping (ip : AddrIp)
  | pingFlood (ip : AddrIp) (count : BitVec 32)
  | traceroute (ip : AddrIp)
  | option (on verbose : Bool)

/-- The action of the rule. -/
def CliCommand.action : CliCommand → GrossState → GrossState
  | .none => id
  | .func0 func => setcFunc0 func
  | .ipArpAdd ip mac => setcArp .manipIpArpAdd ip mac
  | .ipArpDel ip => setcArpIp .manipIpArpDel ip
  | .ipIntfSet name ip subnet_mask => setcIntfSet .other name ip subnet_mask
  | .ipIntfUp name => setcIntf .other name
  | .ipIntfDown name => setcIntf .other name
  | .ipRouteAdd dest gw mask intf => setcRtAdd .other dest gw mask intf
  | .ipRouteDel dest mask => setcRt .other dest mask
  | .dnsAdd data => setcDns .other data
  | .dnsDel data => setcDns .other data
  | .ping ip => setcIp .other ip
  | .pingFlood ip count => setcIpInt .other ip count
  | .traceroute ip => setcIp .other ip
  | .option on verbose => fun g =>
    let g := { g with gopt := on }
    if verbose then setcOpt .other g else g

def CliFunc0.run (s : ArpState) : CliFunc0 → ArpState
  | .manipIpArpPurgeAll => arpClearAll s
  | .manipIpArpPurgeDyn => arpClearDynamic s
  | .manipIpArpPurgeSta => arpClearStatic s
  | .other => s

/-- `now` is the time that `arp_putincache` reads. -/
def CliFunc1.run (now : Int) (g : GrossState) (s : ArpState) : CliFunc1 → ArpState
  | .manipIpArpAdd => arpPutincache s g.garp.ip g.garp.mac (-1) now
  | .manipIpArpDel => arpRemoveIpMac s g.garp.ip g.garp.mac
  | .other => s

/-- `run_command`, as far as it is about the ARP cache; an error is the message it dies with. -/
def runCommand (now : Int) (g : GrossState) (s : ArpState) :
    Except String (GrossState × ArpState) :=
  match g.gobj.func_do0 with
  | some func =>
    if g.gobj.data ≠ none then .error "Error: func_do0 and data set"
    else if g.gobj.func_do1 ≠ none then .error "Error: func_do1 set at same time as func_do0"
    else .ok (clearCommand g, func.run s)
  | none =>
    match g.gobj.func_do1 with
    | some func =>
      if g.gobj.data = none then .error "Error: func_do1 set but data is NULL"
      else .ok (clearCommand g, func.run now g s)
    | none => .ok (clearCommand g, s)

/-- The rule `Start` -/
def executeCommand (now : Int) (c : CliCommand) (g : GrossState) (s : ArpState) :
    Except String (GrossState × ArpState) :=
  runCommand now (c.action (clearCommand g)) s

/-- A command of any client; the cache it works on is any, as packets change it too. -/
inductive CommandStep : GrossState → CliCommand → GrossState → Prop
  | execute {now : Int} {c : CliCommand} {g g' : GrossState} {s s' : ArpState}
      (h : executeCommand now c g s = .ok (g', s')) : CommandStep g c g'

/-! ## What commands leave behind -/

/-- No command ends the process. -/
theorem executeCommand_ok (now : Int) (c : CliCommand) (g : GrossState) (s : ArpState) :
    ∃ s', executeCommand now c g s = .ok (clearCommand (c.action (clearCommand g)), s') := by
  cases c with
  | option on verbose => cases verbose <;> exact ⟨_, rfl⟩
  | _ => exact ⟨_, rfl⟩

def CliCommand.addedMac : CliCommand → Option AddrMac
  | .ipArpAdd _ mac => some mac
  | _ => Option.none

/-- The MAC of the last `ip arp add`, or zero. -/
def lastAddedMac (history : List CliCommand) : AddrMac :=
  (history.filterMap CliCommand.addedMac).getLast?.getD AddrMac.zero

theorem lastAddedMac_concat (history : List CliCommand) (c : CliCommand) :
    lastAddedMac (history ++ [c]) = c.addedMac.getD (lastAddedMac history) := by
  rw [lastAddedMac, List.filterMap_append]
  cases hc : c.addedMac with
  | none => simp [hc, lastAddedMac]
  | some mac => simp [hc]

theorem action_mac (c : CliCommand) (g : GrossState) :
    (c.action g).garp.mac = c.addedMac.getD g.garp.mac := by
  cases c with
  | option on verbose => cases verbose <;> rfl
  | _ => rfl

theorem garp_mac_run {history : List CliCommand} {g : GrossState}
    (h : Exec CommandStep GrossState.init history g) : g.garp.mac = lastAddedMac history := by
  refine h.invariant_trace (I := fun history g => g.garp.mac = lastAddedMac history) rfl ?_
  rintro history g c g' hg ⟨hstep⟩
  rename_i now s s'
  obtain ⟨t, heq⟩ := executeCommand_ok now c g s
  cases heq.symm.trans hstep
  rw [lastAddedMac_concat, ← hg]
  exact action_mac c (clearCommand g)

/-! ## Deleting -/

theorem arpRemoveIpMac_cache (s : ArpState) (ip : AddrIp) (mac : AddrMac) :
    (arpRemoveIpMac s ip mac).arp_cache =
      s.arp_cache.eraseP fun entry => entry.ip = ip ∧ entry.mac = mac := by
  rw [List.eraseP_eq_eraseIdx, arpRemoveIpMac, arpPosition]
  cases hid : s.arp_cache.findIdx? fun entry => entry.ip = ip ∧ entry.mac = mac with
  | none => rfl
  | some id =>
    have hlt := (List.findIdx?_eq_some_iff_getElem.1 hid).1
    rw [Option.bind_some, List.getElem?_eq_getElem hlt]
    rfl

/-- After any commands and on any cache, `ip arp del X` leaves exactly the entries with other
addresses, if and only if at most one entry has the address and its MAC is the one of the last
`ip arp add`. -/
theorem ipArpDel_iff {history : List CliCommand} {g : GrossState}
    (h : Exec CommandStep GrossState.init history g) (now : Int) (s : ArpState) (X : AddrIp) :
    ∃ g' s', executeCommand now (.ipArpDel X) g s = .ok (g', s') ∧
      (s'.arp_cache = s.arp_cache.filter (fun entry => entry.ip ≠ X) ↔
        s.arp_cache.countP (fun entry => entry.ip = X) ≤ 1 ∧
          ∀ entry ∈ s.arp_cache, entry.ip = X → entry.mac = lastAddedMac history) := by
  refine ⟨_, arpRemoveIpMac s X g.garp.mac, rfl, ?_⟩
  have hiff := FirstMatch.eraseP_eq_filter_iff
    (p := fun entry : ArpCacheEntry => entry.ip = X ∧ entry.mac = g.garp.mac)
    (q := fun entry => entry.ip = X) (fun entry hp => by simp_all) s.arp_cache
  have hsame : (∀ entry ∈ s.arp_cache, entry.ip = X → entry.ip = X ∧ entry.mac = g.garp.mac) ↔
      ∀ entry ∈ s.arp_cache, entry.ip = X → entry.mac = g.garp.mac :=
    forall₂_congr fun entry _ => ⟨fun h hx => (h hx).2, fun h hx => ⟨hx, h hx⟩⟩
  rw [arpRemoveIpMac_cache, ← garp_mac_run h, ← hsame]
  simpa using hiff

/-- Added and deleted at once. -/
theorem ipArpDel_added :
    let entry : ArpCacheEntry := ⟨ipConvert 10 0 0 2, ⟨2, 0, 0, 0, 0, 1⟩, -1⟩
    ∃ g g' s', Exec CommandStep GrossState.init [.ipArpAdd entry.ip entry.mac] g ∧
      executeCommand 100 (.ipArpDel entry.ip) g { emptyArp with arp_cache := [entry] } = .ok (g', s') ∧
      s'.arp_cache = [] := by
  intro entry
  have hstep : CommandStep GrossState.init (.ipArpAdd entry.ip entry.mac) _ :=
    .execute (show executeCommand 100 _ _ emptyArp = .ok _ from rfl)
  have hrun : Exec CommandStep GrossState.init [.ipArpAdd entry.ip entry.mac] _ := .snoc .nil hstep
  obtain ⟨g', s', heq, hiff⟩ :=
    ipArpDel_iff hrun 100 { emptyArp with arp_cache := [entry] } entry.ip
  exact ⟨_, g', s', hrun, heq, hiff.2 (by decide)⟩

/-- The first command after the start compares with the MAC zero, and deletes nothing. -/
theorem ipArpDel_first_command :
    let entry : ArpCacheEntry := ⟨ipConvert 10 0 0 2, ⟨2, 0, 0, 0, 0, 1⟩, -1⟩
    Exec CommandStep GrossState.init [] GrossState.init ∧ ∃ g' s',
      executeCommand 100 (.ipArpDel entry.ip) GrossState.init
        { emptyArp with arp_cache := [entry] } = .ok (g', s') ∧ s'.arp_cache = [entry] := by
  intro entry
  exact ⟨.nil, _, _, rfl, by decide⟩

end BirRouter
