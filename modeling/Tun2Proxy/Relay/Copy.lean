import Tun2Proxy.Lib.Machine

open tun2proxy.machine tun2proxy.machine.Machine

namespace tun2proxy.relay

/-- The two connections of a relay: the one from the TUN side (`src` of `pipe`, `conn` of
    `HandleTCP`), and the one to the proxy (`dst`, `proxyConn`). -/
inductive Side where
  | tun
  | proxy
  deriving DecidableEq, Repr

def Side.other : Side → Side
  | .tun => .proxy
  | .proxy => .tun

/-- The relays: `tcpHandler.pipe` of the lwIP stack, and the goroutine of
    `DefaultProxy.HandleTCP` of the gVisor stack. -/
inductive Relay where
  | pipe
  | handleTCP
  deriving DecidableEq, Repr

namespace Relay

/-- The sides that the two goroutines copy from, in the order in which they are started. -/
def starts : Relay → List Side
  -- `io.Copy(dst, src)`, `io.Copy(src, dst)`
  | .pipe => [.tun, .proxy]
  -- `copySource2Destination(conn, proxyConn)`, `copySource2Destination(proxyConn, conn)`
  | .handleTCP => [.proxy, .tun]

/-- The deferred `Close`s, in the order in which they run. -/
def closes : Relay → List Side
  | .pipe => [.tun, .proxy]
  | .handleTCP => [.proxy, .tun]

end Relay

/-- `timeout`, in nanoseconds. -/
def timeout : Nat := 30 * 1000000000

/-- The buffer of `io.Copy`. -/
def copyBufSize : Nat := 32 * 1024

/-- The errors of `Read`, as far as they matter. -/
inductive ReadError where
  | eof
  | timeout
  | failed
  deriving DecidableEq, Repr

/-- The errors of `Write`. -/
inductive WriteError where
  | timeout
  | failed
  deriving DecidableEq, Repr

/-- How `io.Copy` ends. -/
inductive CopyEnd where
  -- a nil error
  | eof
  | readFailed
  | writeFailed
  | shortWrite
  deriving DecidableEq, Repr

/-- Where a copy goroutine stands. -/
inductive CopyAt where
  -- not started
  | absent
  -- before `s.SetReadDeadline`, and before `d.SetWriteDeadline`
  | setRead
  | setWrite
  -- inside `Read`, and inside `Write` with what `Read` has returned
  | read
  | write (data : List UInt8) (err : Option ReadError)
  -- before and after `Done`
  | ended (e : CopyEnd)
  | done (e : CopyEnd)
  deriving DecidableEq, Repr

/-- Where the goroutine of the relay stands. -/
inductive RelayAt where
  -- with copies to start
  | start (rest : List Side)
  -- with `Close`s to run
  | close (rest : List Side)
  deriving DecidableEq, Repr

/-- One of the connections. `received` and `written` are what the relay has got from `Read`
    and brought to `Write`; `shut` tells whether it has called `CloseWrite` or `Close`. -/
structure Conn where
  readDeadline : Option Nat
  writeDeadline : Option Nat
  received : List UInt8
  written : List UInt8
  shut : Bool
  deriving DecidableEq, Repr

/-- A relay. `copies` has the goroutine that copies from a side to the other. -/
structure RelayState where
  now : Nat
  conns : Side → Conn
  copies : Side → CopyAt
  main : RelayAt
  -- the counter of `wg`
  wg : Nat

/-- The atomic sections, with the answers of the network and of the clock. -/
inductive RelayAct where
  -- time passes
  | pass (n : Nat)
  -- the next copy is started
  | start
  -- the next section of a copy up to the first `Read`
  | prepare (x : Side)
  -- `Read` returns
  | read (x : Side) (data : List UInt8) (err : Option ReadError)
  -- `Write` returns
  | write (x : Side) (n : Nat) (err : Option WriteError)
  | done (x : Side)
  -- `wg.Wait` returns
  | wait
  -- the next deferred `Close`
  | close
  deriving DecidableEq, Repr

/-- A deadline is in the past. -/
def expired (deadline : Option Nat) (now : Nat) : Prop := ∃ t ∈ deadline, t ≤ now

instance (deadline : Option Nat) (now : Nat) : Decidable (expired deadline now) :=
  inferInstanceAs (Decidable (∃ t ∈ deadline, t ≤ now))

/-- How `io.Copy` goes on after `Read`: it writes what it has got, then looks at the error. -/
def afterRead (data : List UInt8) (err : Option ReadError) : CopyAt :=
  if data = [] then
    match err with
    | none => .read
    | some .eof => .ended .eof
    | some _ => .ended .readFailed
  else .write data err

/-- How `io.Copy` goes on after `Write`. -/
def afterWrite (data : List UInt8) (err : Option ReadError) (n : Nat) (werr : Option WriteError) :
    CopyAt :=
  if werr ≠ none then .ended .writeFailed
  else if n ≠ data.length then .ended .shortWrite
  else afterRead [] err

namespace RelayState

def setCopy (s : RelayState) (x : Side) (place : CopyAt) : RelayState :=
  { s with copies := Function.update s.copies x place }

def modConn (s : RelayState) (x : Side) (f : Conn → Conn) : RelayState :=
  { s with conns := Function.update s.conns x (f (s.conns x)) }

/-- The sections of a copy before its first `Read`. `copySource2Destination(s, d)` calls
    `io.Copy(s, d)`, so it copies from `d`, and gives `s` a deadline for reading and `d`
    one for writing. -/
def prepare (s : RelayState) (x : Side) : Option RelayState :=
  match s.copies x with
  | .setRead =>
    some ((s.modConn x.other fun conn => { conn with readDeadline := some (s.now + timeout) }).setCopy
      x .setWrite)
  | .setWrite =>
    some ((s.modConn x fun conn => { conn with writeDeadline := some (s.now + timeout) }).setCopy x
      .read)
  | _ => none

/-- `Read` fails with a timeout once the deadline is over, and not before. -/
def read (s : RelayState) (x : Side) (data : List UInt8) (err : Option ReadError) :
    Option RelayState :=
  if s.copies x = .read ∧ data.length ≤ copyBufSize ∧
      (if expired (s.conns x).readDeadline s.now then data = [] ∧ err = some .timeout
        else err ≠ some .timeout) then
    some ((s.modConn x fun conn => { conn with received := conn.received ++ data }).setCopy x
      (afterRead data err))
  else none

/-- The same for `Write`. -/
def write (s : RelayState) (x : Side) (n : Nat) (werr : Option WriteError) : Option RelayState :=
  match s.copies x with
  | .write data err =>
    if n ≤ data.length ∧
        (if expired (s.conns x.other).writeDeadline s.now then werr = some .timeout
          else werr ≠ some .timeout) then
      some ((s.modConn x.other fun conn => { conn with written := conn.written ++ data.take n }).setCopy
        x (afterWrite data err n werr))
    else none
  | _ => none

/-- One atomic section. -/
def step (r : Relay) (s : RelayState) : RelayAct → Option RelayState
  | .pass n => some { s with now := s.now + n }
  | .start =>
    match s.main with
    | .start (x :: rest) =>
      some { s.setCopy x (if r = .handleTCP then .setRead else .read) with main := .start rest }
    | _ => none
  | .prepare x => s.prepare x
  | .read x data err => s.read x data err
  | .write x n werr => s.write x n werr
  | .done x =>
    match s.copies x with
    | .ended e => some { s.setCopy x (.done e) with wg := s.wg - 1 }
    | _ => none
  | .wait => if s.main = .start [] ∧ s.wg = 0 then some { s with main := .close r.closes } else none
  | .close =>
    match s.main with
    | .close (x :: rest) =>
      some { s.modConn x fun conn => { conn with shut := true } with main := .close rest }
    | _ => none

def init (r : Relay) : RelayState :=
  { now := 0
    conns := fun _ => ⟨none, none, [], [], false⟩
    copies := fun _ => .absent
    main := .start r.starts
    wg := 2 }

end RelayState

/-- The machine of a relay: any interleaving of its goroutines. -/
def relayMachine (r : Relay) : Machine RelayState RelayAct := ⟨RelayState.init r, RelayState.step r⟩

end tun2proxy.relay
