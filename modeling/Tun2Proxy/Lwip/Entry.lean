import Tun2Proxy.Lib.Mutex

open tun2proxy.machine

namespace tun2proxy.core.lwip

/-- The lwIP functions that the Go code calls after `NewLWIPStack`. -/
inductive LwipFn where
  | input
  | sysCheckTimeouts
  | sysRestartTimeouts
  | tcpArg
  | tcpRecv
  | tcpSent
  | tcpErr
  | tcpPoll
  | tcpAccept
  | tcpRecved
  | tcpWrite
  | tcpOutput
  | tcpShutdown
  | tcpAbort
  | tcpClose
  | tcpProcessRefusedData
  | udpRecv
  | udpRemove
  | udpSendto
  | pbufAlloc
  | pbufAllocReference
  | pbufTake
  | pbufCopyPartial
  | pbufFree
  deriving DecidableEq

/-- A call into lwIP, and whether it stands in `udpConn.WriteFrom`. -/
structure LwipCall where
  fn : LwipFn
  inWriteFrom : Bool
  deriving DecidableEq

/-- The goroutines that get to lwIP or are created there. A `handler` is any goroutine of
    a TCP handler that has the connection. -/
inductive Goroutine where
  | write
  | checkTimeouts
  | restartTimeouts
  | close
  | tcpConnect
  | handler
  | udpConnect
  | fetchSocksData
  | destoryWithTimeout
  deriving DecidableEq

/-- Code, as far as it locks `lwipMutex`, calls lwIP and starts goroutines. The branches it
    takes are open; what the locks of the connections exclude is not excluded here. -/
abbrev GoCode : Type := Code LwipCall Goroutine

/-- The code runs or is left out. -/
def maybe (c : GoCode) : GoCode := .choice .skip c

/-- `output`, which lwIP runs for every packet that it sends. -/
def output : GoCode := maybe (.call ⟨.pbufCopyPartial, false⟩ .skip)

/-- `tcpErrFn`: `Err` releases the connection without lwIP. -/
def tcpErrFn : GoCode := .skip

/-- A call to a function that sends and aborts at most. -/
def call (fn : LwipFn) : GoCode := .call ⟨fn, false⟩ (Code.oneOf [tcpErrFn, output])

namespace udpConn

/-- `udpConn.WriteFrom`, where it does not lock `lwipMutex`. -/
def writeFrom : GoCode :=
  maybe <| Code.block <| [.pbufAllocReference, .udpSendto, .pbufFree].map fun fn =>
    .call ⟨fn, true⟩ output

end udpConn

/-- `udpHandler.ReceiveTo`; a cached DNS answer is written back. -/
def udpHandlerReceiveTo : GoCode := maybe udpConn.writeFrom

/-- `udpConn.ReceiveTo`; an early packet is queued. -/
def udpConn.receiveTo : GoCode := maybe udpHandlerReceiveTo

def newUDPConn : GoCode := .create .udpConnect

def udpRecvFn : GoCode := Code.block
  [maybe (.create .destoryWithTimeout),
    maybe (Code.block [maybe newUDPConn, maybe (call .pbufCopyPartial), udpConn.receiveTo]),
    maybe (call .pbufFree)]

namespace tcpConn

def closeInternal : GoCode := Code.block <|
  [.tcpArg, .tcpRecv, .tcpSent, .tcpErr, .tcpPoll, .tcpClose].map call

def abortInternal : GoCode := call .tcpAbort

/-- `tcpConn.checkState`, which is also `Sent`, `Poll` and `LocalClosed`. -/
def checkState : GoCode := Code.oneOf [closeInternal, abortInternal]

def receive : GoCode := Code.block [maybe abortInternal, maybe (call .tcpRecved)]

def writeInternal : GoCode := Code.block [call .tcpWrite, maybe (call .tcpOutput)]

def write : GoCode := .loop (Code.block [.lock, maybe writeInternal, .unlock])

def closeWrite : GoCode := maybe (Code.block [.lock, call .tcpShutdown, .unlock])

def close : GoCode := maybe closeWrite

def abort : GoCode := Code.block [.lock, checkState, .unlock]

/-- What a TCP handler does with its connection. -/
def handlerCalls : GoCode :=
  .loop (Code.oneOf [write, closeWrite, close, abort, .create .handler])

end tcpConn

def newTCPConn : GoCode := Code.block
  [call .tcpArg, call .tcpRecv, call .tcpSent, call .tcpErr, call .tcpPoll, .create .tcpConnect]

def tcpAcceptFn : GoCode := maybe newTCPConn

def tcpRecvFn : GoCode := maybe <| Code.block
  [Code.oneOf [call .tcpAbort, tcpConn.checkState, Code.block [maybe (call .pbufCopyPartial),
      tcpConn.receive, maybe (Code.block [call .tcpRecved, call .tcpShutdown])]],
    maybe (call .pbufFree)]

def tcpSentFn : GoCode := .choice tcpConn.checkState (call .tcpAbort)

def tcpPollFn : GoCode := .choice tcpConn.checkState (call .tcpAbort)

/-- Every callback that the stack registers with lwIP. -/
def callbacks : GoCode := Code.oneOf
  [tcpAcceptFn, tcpRecvFn, tcpSentFn, tcpErrFn, tcpPollFn, udpRecvFn, output]

/-- `input`, the body of `lwipStack.Write` once the context is not done. -/
def input : GoCode := maybe <| Code.block
  [.lock, .choice (call .pbufAllocReference) (Code.block [call .pbufAlloc, call .pbufTake]),
    .call ⟨.input, false⟩ callbacks, maybe (call .pbufFree), .unlock]

/-- The code of every goroutine, as far as it locks, creates goroutines or calls lwIP. -/
def body : Goroutine → GoCode
  | .write => input
  | .checkTimeouts => .loop <| Code.block
    [.lock, .call ⟨.sysCheckTimeouts, false⟩ callbacks, .unlock]
  | .restartTimeouts => Code.block [.lock, call .sysRestartTimeouts, .unlock]
  | .close => maybe <| Code.block
    [.loop tcpConn.abort, .lock, call .tcpAccept, call .udpRecv, call .tcpClose, call .udpRemove,
      .unlock]
  | .tcpConnect => Code.block
    [tcpConn.handlerCalls,
      .choice tcpConn.abort <| maybe <| Code.block
        [.lock, maybe (.call ⟨.tcpProcessRefusedData, false⟩ callbacks), .unlock]]
  | .handler => tcpConn.handlerCalls
  -- `Connect` starts the reader; after it the queued packets are sent.
  | .udpConnect => Code.block [maybe (.create .fetchSocksData), .loop udpHandlerReceiveTo]
  | .fetchSocksData => udpConn.writeFrom
  -- `onAction` closes connections without lwIP.
  | .destoryWithTimeout => .skip

/-- The goroutines that run without being created by one of the others: the calls to the
    stack, and the one that `NewLWIPStack` leaves behind. -/
def entry : Goroutine → Bool
  | .write | .checkTimeouts | .restartTimeouts | .close => true
  | _ => false

/-- The stack after `NewLWIPStack`. -/
def lwipMachine : Machine (Threads LwipCall Goroutine) (ThreadAct Goroutine) :=
  ⟨Threads.init, Threads.step entry body⟩

/-- `WriteFrom` gets to lwIP only in a callback of lwIP. -/
def WriteFromInCallback (s : Threads LwipCall Goroutine) (a : ThreadAct Goroutine) : Prop :=
  Threads.Guarded LwipCall.inWriteFrom s a

instance (s : Threads LwipCall Goroutine) (a : ThreadAct Goroutine) :
    Decidable (WriteFromInCallback s a) :=
  inferInstanceAs (Decidable (Threads.Guarded LwipCall.inWriteFrom s a))

/-- Every goroutine takes and gives back the mutex around its calls, those of `WriteFrom`
    aside. -/
theorem body_check (k : Goroutine) :
    (body k).check LwipCall.inWriteFrom false = some false := by
  cases k <;> decide

/-- As long as `WriteFrom` gets to lwIP only in callbacks, every call into lwIP is made by
    the goroutine that holds `lwipMutex`, and no two goroutines are inside lwIP. -/
theorem lwip_entered_by_one {s : Threads LwipCall Goroutine}
    (hreach : lwipMachine.Reach WriteFromInCallback s) :
    (∀ t branch f, WriteFromInCallback s (.next t branch) → s.calling t = some f →
      s.owner = some t) ∧
    (∀ t, Threads.inside (s.frames t) = true → s.owner = some t) ∧
    ∀ t t', Threads.inside (s.frames t) = true → Threads.inside (s.frames t') = true → t = t' := by
  have hinv := Threads.typed_of_reach body_check hreach
  refine ⟨?_, fun t => Threads.owner_of_inside hinv, ?_⟩
  · intro t branch f hguarded hcalling
    exact Threads.owner_of_calling hinv hcalling (hguarded f hcalling)
  · intro t t' hinside hinside'
    have howner := Threads.owner_of_inside hinv hinside
    rw [Threads.owner_of_inside hinv hinside'] at howner
    exact (Option.some.inj howner).symm

/-- A DNS answer from the cache is inside `udp_sendto`, in the callback of the packet that
    asks. -/
theorem lwip_entered_by_one_dns_answer : ∃ s, lwipMachine.Reach WriteFromInCallback s ∧
    Threads.inside (s.frames 0) = true ∧ s.owner = some 0 ∧
    ∀ t, Threads.inside (s.frames t) = true → t = 0 := by
  obtain ⟨s, hreach, hinside⟩ := Machine.exists_reach_of_run lwipMachine WriteFromInCallback
    (.start 0 .write :: Threads.steps 0
      [false, true, true, true, true, true, false, true, true, true, true, false, false, false,
        false, false, true, true, true, true, true, false, true, true, true, true, true, true,
        true, false, false, false, true, true, false, true, true, true])
    (fun s => Threads.inside (s.frames 0) = true) (by decide +kernel)
  obtain ⟨_, howner, hone⟩ := lwip_entered_by_one hreach
  exact ⟨s, hreach, hinside, howner 0 hinside, fun t ht => hone t 0 ht hinside⟩

/-- The goroutine that fetches the proxy's answer enters `udp_sendto` while the packet that
    created the connection is inside `input`. -/
theorem lwip_entered_by_two : ∃ s, lwipMachine.Reach Machine.any s ∧
    Threads.inside (s.frames 0) = true ∧ Threads.inside (s.frames 2) = true ∧
    s.owner ≠ some 2 :=
  Machine.exists_reach_of_run lwipMachine Machine.any
    (.start 0 .write :: Threads.steps 0
      [false, true, true, true, true, true, false, true, true, true, true, false, false, false,
        false, false, true, true, false, true, true, false, true, false, true, true, true, true,
        true, true, true, true, true]
      ++ .start 1 .udpConnect :: Threads.steps 1
        [true, false, true, true, true, true, true, false, true]
      ++ .start 2 .fetchSocksData :: Threads.steps 2 [false, true, true, false, true, true, true])
    (fun s => Threads.inside (s.frames 0) = true ∧ Threads.inside (s.frames 2) = true ∧
      s.owner ≠ some 2) (by decide +kernel)

end tun2proxy.core.lwip
