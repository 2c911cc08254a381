import Mathlib.Data.Finset.Basic
import Tun2Proxy.Go.IP
import Tun2Proxy.Lib.Calls

open tun2proxy.go tun2proxy.machine tun2proxy.machine.Machine

namespace tun2proxy.socketbase

/-- `syscall.Errno`. -/
abbrev Errno := Nat

def EBADF : Errno := 9

def EINVAL : Errno := 22

/-- `net.IP`. -/
abbrev IP := List UInt8

/-- `syscall.Sockaddr`, as far as it is used. -/
inductive Sockaddr where
  | inet4 (port : Int) (addr : List UInt8)
  | inet6 (port : Int) (addr : List UInt8)
  deriving DecidableEq, Repr

inductive Family where
  | inet
  | inet6
  deriving DecidableEq, Repr

inductive SockType where
  | stream
  | dgram
  deriving DecidableEq, Repr

/-- The options that are set, both to 128. -/
inductive SockOpt where
  | tos
  | tclass
  deriving DecidableEq, Repr

/-- The errors that dialling returns. -/
inductive DialError where
  | errno (e : Errno)
  | text (msg : String)
  -- `fmt.Errorf` with `%w`
  | wrapped (msg : String) (e : Errno)
  deriving DecidableEq, Repr

/-- `netAddrToSockaddr`. -/
def netAddrToSockaddr (ip : IP) (port : Int) : Except DialError Sockaddr :=
  match to4 ip with
  | some addr => .ok (.inet4 port addr)
  | none =>
    match to16 ip with
    | some addr => .ok (.inet6 port addr)
    | none => .error (.text "convert net address error")

/-- `socketFamily`. -/
def socketFamily (ip : IP) : Family := if (to4 ip).isSome then .inet else .inet6

/-- The calls that dialling makes. `setup` is what `net.FileConn` does with the
    descriptor it has made with `dup`. -/
inductive SysCall where
  | socket (family : Family) (type : SockType)
  | protect (fd : Nat)
  | setsockoptInt (fd : Nat) (opt : SockOpt) (value : Int)
  | connect (fd : Nat) (sa : Sockaddr)
  | newFile (fd : Nat)
  | dup (fd : Nat)
  | setup (fd : Nat)
  | close (fd : Nat)

/-- Their results; `none` is a nil error, and `newFile` tells whether there is a file. -/
def SysCall.Ans : SysCall → Type
  | .socket _ _ | .dup _ => Except Errno Nat
  | .protect _ => Int
  | .setsockoptInt _ _ _ | .connect _ _ | .setup _ | .close _ => Option Errno
  | .newFile _ => Bool

/-- A connection is known by its descriptor. -/
abbrev Dialing := Prog SysCall SysCall.Ans

def syscall.socket (family : Family) (type : SockType) : Dialing (Except Errno Nat) :=
  Prog.perform (SysCall.socket family type)

def syscall.setsockoptInt (fd : Nat) (opt : SockOpt) (value : Int) : Dialing (Option Errno) :=
  Prog.perform (SysCall.setsockoptInt fd opt value)

def syscall.connect (fd : Nat) (sa : Sockaddr) : Dialing (Option Errno) :=
  Prog.perform (SysCall.connect fd sa)

def syscall.dup (fd : Nat) : Dialing (Except Errno Nat) := Prog.perform (SysCall.dup fd)

def syscall.close (fd : Nat) : Dialing (Option Errno) := Prog.perform (SysCall.close fd)

def mobile.protect (fd : Nat) : Dialing Int := Prog.perform (SysCall.protect fd)

def os.newFile (fd : Nat) : Dialing Bool := Prog.perform (SysCall.newFile fd)

def net.setup (fd : Nat) : Dialing (Option Errno) := Prog.perform (SysCall.setup fd)

/-- `net.FileConn`. -/
def net.fileConn (fd : Nat) : Dialing (Except Errno Nat) := do
  match ← syscall.dup fd with
  | .error e => return .error e
  | .ok conn =>
    match ← net.setup conn with
    | some e =>
      let _ ← syscall.close conn
      return .error e
    | none => return .ok conn

/-- `fdToConn`. -/
def fdToConn (fd : Nat) : Dialing (Except DialError Nat) := do
  match ← os.newFile fd with
  | false => return .error (.text s!"os.NewFile returned nil for fd {fd}")
  | true =>
    -- `file.Close`
    Prog.deferred (syscall.close fd) do
      match ← net.fileConn fd with
      | .error e => return .error (.wrapped "net.FileConn error: %w" e)
      | .ok conn => return .ok conn

/-- `UdpDail` from `defer syscall.Close(fd)` on. -/
def udpDailFd (sa : Sockaddr) (fd : Nat) : Dialing (Except DialError Nat) := do
  let ret ← mobile.protect fd
  if ret ≠ 0 then return .error (.errno EINVAL)
  else
    match ← syscall.connect fd sa with
    | some e => return .error (.errno e)
    | none => fdToConn fd

/-- `UdpDail` with a protector. -/
def udpDail (ip : IP) (port : Int) : Dialing (Except DialError Nat) :=
  match netAddrToSockaddr ip port with
  | .error e => return .error e
  | .ok sa => do
    match ← syscall.socket (socketFamily ip) .dgram with
    | .error e => return .error (.errno e)
    | .ok fd => Prog.deferred (syscall.close fd) (udpDailFd sa fd)

/-- `dialProtectedTCP` once the socket is protected. -/
def connectTCP (family : Family) (sa : Sockaddr) (fd : Nat) : Dialing (Except DialError Nat) := do
  match ← syscall.setsockoptInt fd (if family = .inet6 then .tclass else .tos) 128 with
  | some e => return .error (.errno e)
  | none =>
    match ← syscall.connect fd sa with
    | some e => return .error (.errno e)
    | none => fdToConn fd

/-- `dialProtectedTCP` from `defer syscall.Close(fd)` on. -/
def dialProtectedTCPFd (p : Bool) (family : Family) (sa : Sockaddr) (fd : Nat) :
    Dialing (Except DialError Nat) := do
  if p then
    let ret ← mobile.protect fd
    if ret ≠ 0 then return .error (.text s!"protect socket failed with code {ret}")
    else connectTCP family sa fd
  else connectTCP family sa fd

/-- `dialProtectedTCP` on POSIX systems; `p` tells whether the protector is not nil. -/
def dialProtectedTCP (ip : IP) (port : Int) (p : Bool) : Dialing (Except DialError Nat) :=
  match netAddrToSockaddr ip port with
  | .error e => return .error e
  | .ok sa => do
    match ← syscall.socket (socketFamily ip) .stream with
    | .error e => return .error (.errno e)
    | .ok fd => Prog.deferred (syscall.close fd) (dialProtectedTCPFd p (socketFamily ip) sa fd)

/-! ### The process's descriptors -/

/-- Who opened a descriptor: `syscall.Socket` in the call at hand, its `net.FileConn`, or
    someone else. -/
inductive Opener where
  | socket
  | conn
  | other
  deriving DecidableEq, Repr

/-- The descriptor table. `closes` and `sockets` are about the call at hand: what the
    numbers that it closed denoted at that moment, and how many sockets it got. -/
structure Descriptors where
  table : Nat → Option Opener
  closes : List (Option Opener)
  sockets : Nat

namespace Descriptors

def openAt (d : Descriptors) (n : Nat) (opener : Opener) : Descriptors :=
  { d with table := Function.update d.table n (some opener) }

/-- `close` of a number by the call at hand, whatever it denotes. -/
def close (d : Descriptors) (n : Nat) : Descriptors :=
  { d with table := Function.update d.table n none, closes := d.closes ++ [d.table n] }

end Descriptors

/-- How the calls turn out; `none` is success. -/
structure Outcomes where
  socket : Option Errno
  protect : Int
  setsockopt : Option Errno
  connect : Option Errno
  newFile : Bool
  dup : Option Errno
  setup : Option Errno
  deriving DecidableEq

/-- The kernel answers a call. It chooses any number that is free. -/
def Outcomes.answer (o : Outcomes) (d : Descriptors) :
    (call : SysCall) → Nat → Option (call.Ans × Descriptors)
  | .socket _ _, n =>
    match o.socket with
    | some e => some (.error e, d)
    | none =>
      if d.table n = none then some (.ok n, { d.openAt n .socket with sockets := d.sockets + 1 })
      else none
  | .protect _, _ => some (o.protect, d)
  | .setsockoptInt _ _ _, _ => some (o.setsockopt, d)
  | .connect _ _, _ => some (o.connect, d)
  | .newFile _, _ => some (o.newFile, d)
  | .dup fd, n =>
    match o.dup with
    | some e => some (.error e, d)
    | none =>
      if d.table fd = none then some (.error EBADF, d)
      else if d.table n = none then some (.ok n, d.openAt n .conn)
      else none
  | .setup _, _ => some (o.setup, d)
  | .close fd, _ => some (if d.table fd = none then some EBADF else none, d.close fd)

/-- What other threads do: they open a free number, or close one of theirs. -/
inductive OtherAct where
  | opens (n : Nat)
  | closes (n : Nat)
  deriving DecidableEq, Repr

def Descriptors.others (d : Descriptors) : OtherAct → Option Descriptors
  | .opens n => if d.table n = none then some (d.openAt n .other) else none
  | .closes n =>
    if d.table n = some .other then some { d with table := Function.update d.table n none } else none

/-- The process in which `inUse` are open at first. -/
def process (o : Outcomes) (inUse : Finset Nat) :
    System SysCall SysCall.Ans Descriptors Nat OtherAct where
  init := ⟨fun n => if n ∈ inUse then some .other else none, [], 0⟩
  answer := o.answer
  others := Descriptors.others

end tun2proxy.socketbase
