import Tun2Proxy.Go.Slice
import Tun2Proxy.Lwip.Pbuf
import Tun2Proxy.Tcp.Step
import Tun2Proxy.UdpConn.Step

open tun2proxy.go tun2proxy.machine tun2proxy.machine.Machine tun2proxy.memory
open tun2proxy.udppackage

namespace tun2proxy.core

/-- `BufSize`. -/
def bufSize : Nat := 2 * 1024

/-- The byte slices that were made so far, by number, and those of them that are in `pool`. -/
structure BufferPool where
  bufs : Nat → List UInt8
  made : Nat
  pool : List Nat

namespace BufferPool

/-- `make([]byte, size)`. -/
def make (m : BufferPool) (size : Nat) : BufferPool × Nat :=
  ({ m with bufs := Function.update m.bufs m.made (List.replicate size 0), made := m.made + 1 },
    m.made)

/-- `pool.Get()`: any of the slices in the pool, or what `New` makes. -/
def get (m : BufferPool) (choice : Option Nat) : BufferPool × Nat :=
  match choice with
  | some b => if b ∈ m.pool then ({ m with pool := m.pool.erase b }, b) else m.make bufSize
  | none => m.make bufSize

/-- `NewBytes`. -/
def newBytes (m : BufferPool) (size : Nat) (choice : Option Nat) : BufferPool × Nat :=
  if size ≤ bufSize then m.get choice else m.make size

/-- `FreeBytes`. -/
def freeBytes (m : BufferPool) (b : Nat) : BufferPool :=
  if bufSize ≤ (m.bufs b).length then { m with pool := b :: m.pool } else m

/-- The content of a slice changes. -/
def fill (m : BufferPool) (b : Nat) (data : List UInt8) : BufferPool :=
  { m with bufs := Function.update m.bufs b data }

/-- After `init`. -/
def init : BufferPool := ⟨fun _ => [], 0, []⟩

end BufferPool

/-- What happens to the pool. -/
inductive PoolAct where
  | newBytes (size : Nat) (choice : Option Nat)
  -- of a slice that `NewBytes` has returned, once or more often
  | freeBytes (b : Nat)
  -- somebody writes into such a slice
  | fill (b : Nat) (data : List UInt8)
  -- the garbage collector empties the pool
  | collect

def BufferPool.step (m : BufferPool) : PoolAct → Option BufferPool
  | .newBytes size choice => some (m.newBytes size choice).1
  | .freeBytes b => if b < m.made then some (m.freeBytes b) else none
  | .fill b data =>
    if b < m.made ∧ data.length = (m.bufs b).length then some (m.fill b data) else none
  | .collect => some { m with pool := [] }

def poolMachine : Machine BufferPool PoolAct := ⟨BufferPool.init, BufferPool.step⟩

namespace BufferPool

/-- The choice between the payload of the first pbuf and a copy of the chain, as `output`,
    `tcpRecvFn` and `udpRecvFn` make it: the slice that is copied to, if any, and the bytes
    of `buf[:totlen]`. -/
def passOn (m : BufferPool) (p : PbufChain) (choice : Option Nat) :
    Outcome (BufferPool × Option Nat × List UInt8) :=
  let totlen := p.first.tot_len.toNat
  if p.first.tot_len = p.first.len then .ret (m, none, p.first.payload.take totlen)
  else
    let (m, b) := m.newBytes totlen choice
    -- `&buf[0]`
    if m.bufs b = [] then .panic
    else
      match pbuf_copy_partial (m.bufs b) p.first.tot_len 0 0 p.segs with
      | some buf => .ret (m.fill b buf, some b, buf.take totlen)
      | none => .panic

/-- `output`, with what it calls `OutputFn` with. -/
def output (m : BufferPool) (p : PbufChain) (choice : Option Nat) :
    Outcome (BufferPool × List UInt8) := do
  let (m, b, buf) ← m.passOn p choice
  return (match b with
    | some b => m.freeBytes b
    | none => m, buf)

end BufferPool

/-- `tcpRecvFn` for a chain, up to the call of `Receive` with the bytes of `buf[:totlen]`. The
    slice they stand in is freed when the callback returns. -/
def Stack.tcpRecvChain (s : Stack) (m : BufferPool) (tpcb : ConnId) (p : PbufChain)
    (owner : Option Tid) (choice : Option Nat) : Outcome (Stack × BufferPool × Option Nat) :=
  match s.lookup tpcb with
  | none => .ret (s.unknownConn (.recv tpcb (some p.contents) owner) tpcb (some p.contents) owner, m, none)
  | some found => do
    let (m, b, buf) ← m.passOn p choice
    if h : buf.length < UInt16.size then
      return (s.setHolder (.task ⟨.recv tpcb (some ⟨buf, h⟩) owner, found, .receiveCheck⟩),
        m, b)
    else .panic

/-- The end of `udpRecvFn` for a chain: the call of `ReceiveTo` on the connection it has
    found or made. -/
def UdpStack.udpRecvChain (s : UdpStack) (m : BufferPool) (t : Tid) (c : UdpNo) (p : PbufChain)
    (addr : UDPAddr) (choice : Option Nat) : Outcome (UdpStack × BufferPool × Option Nat) := do
  let (m, b, buf) ← m.passOn p choice
  return (s.receiveTo t c (some buf) addr, m, b)

/-- Every slice in the pool is a buffer, whatever else was made. -/
def PoolInv (m : BufferPool) : Prop := ∀ b ∈ m.pool, b < m.made ∧ bufSize ≤ (m.bufs b).length

namespace PoolInv

theorem make {m : BufferPool} (hinv : PoolInv m) (size : Nat) : PoolInv (m.make size).1 := by
  intro b hb
  obtain ⟨hlt, hlen⟩ := hinv b hb
  refine ⟨Nat.lt_succ_of_lt hlt, ?_⟩
  simp only [BufferPool.make]
  rwa [Function.update_of_ne (Nat.ne_of_lt hlt)]

theorem newBytes {m : BufferPool} (hinv : PoolInv m) (size : Nat) (choice : Option Nat) :
    PoolInv (m.newBytes size choice).1 := by
  unfold BufferPool.newBytes BufferPool.get
  split
  · split
    · split
      · exact fun b hb => hinv b (List.mem_of_mem_erase hb)
      · exact hinv.make _
    · exact hinv.make _
  · exact hinv.make _

theorem step {m m' : BufferPool} {a : PoolAct} (hinv : PoolInv m) (hstep : m.step a = some m') :
    PoolInv m' := by
  cases a with
  | newBytes size choice =>
    cases hstep
    exact hinv.newBytes size choice
  | freeBytes b =>
    obtain ⟨hlt, heq⟩ := Option.ite_none_right_eq_some.mp hstep
    cases heq
    unfold BufferPool.freeBytes
    split
    · rename_i hlen
      intro b' hb'
      obtain rfl | hold := List.mem_cons.mp hb'
      · exact ⟨hlt, hlen⟩
      · exact hinv b' hold
    · exact hinv
  | fill b data =>
    obtain ⟨⟨-, hlen⟩, heq⟩ := Option.ite_none_right_eq_some.mp hstep
    cases heq
    intro b' hb'
    obtain ⟨hlt, hold⟩ := hinv b' hb'
    refine ⟨hlt, ?_⟩
    simp only [BufferPool.fill, Function.update_apply]
    split
    · rename_i heq
      rw [hlen, ← heq]
      exact hold
    · exact hold
  | collect =>
    cases hstep
    intro b hb
    cases hb

end PoolInv

private theorem reach_poolInv {m : BufferPool} (h : Reach poolMachine any m) : PoolInv m := by
  refine Reach.invariant ?_ (fun _ _ _ _ hinv _ hstep => hinv.step hstep) h
  intro b hb
  cases hb

/-- What `NewBytes` returns is long enough. -/
theorem BufferPool.le_newBytes {m : BufferPool} (hinv : PoolInv m) (size : Nat)
    (choice : Option Nat) :
    size ≤ ((m.newBytes size choice).1.bufs (m.newBytes size choice).2).length := by
  have hmake (n : Nat) : ((m.make n).1.bufs (m.make n).2).length = n := by
    simp [make]
  unfold newBytes get
  split
  · rename_i hsmall
    split
    · split
      · rename_i b hb
        exact Nat.le_trans hsmall (hinv b hb).2
      · rw [hmake]
        exact hsmall
    · rw [hmake]
      exact hsmall
  · rw [hmake]

/-- Either way the whole chain is passed on. -/
theorem BufferPool.passOn_eq {m : BufferPool} (hinv : PoolInv m) (p : PbufChain)
    (choice : Option Nat) : ∃ m' b, m.passOn p choice = .ret (m', b, p.bytes) := by
  have htot := p.tot_len_eq
  unfold passOn
  by_cases hsingle : p.first.tot_len = p.first.len
  · -- the pbufs behind the first one are empty
    have hbytes : p.bytes = p.first.payload := by
      have hlen : p.first.payload.length = p.bytes.length := by
        rw [← htot, hsingle, PbufSeg.toNat_len]
      have hpre : p.first.payload <+: p.bytes := List.prefix_append _ _
      exact (hpre.eq_of_length hlen).symm
    refine ⟨m, none, ?_⟩
    rw [if_pos hsingle, htot, hbytes, List.take_length]
  · have hroom := m.le_newBytes hinv p.first.tot_len.toNat choice
    have hpos : p.first.tot_len.toNat ≠ 0 := by
      intro hzero
      have hempty : p.first.payload.length = 0 := by
        have hsum : p.bytes.length = p.first.payload.length + (chainBytes p.next).length :=
          List.length_append
        omega
      refine hsingle (UInt16.toNat_inj.mp ?_)
      rw [hzero, PbufSeg.toNat_len, hempty]
    rw [if_neg hsingle]
    generalize m.newBytes p.first.tot_len.toNat choice = r at hroom ⊢
    obtain ⟨m₁, b⟩ := r
    have hne : m₁.bufs b ≠ [] := by
      intro hnil
      rw [hnil] at hroom
      exact hpos (Nat.le_zero.mp hroom)
    have hcopy := pbuf_copy_partial_eq p.segs (m₁.bufs b) 0 htot
      (by simpa using hroom) (by simpa using p.first.tot_len.toNat_lt)
    have hfits := copyAt_of_le (m₁.bufs b) 0 (chainBytes p.segs)
      (by rw [← PbufChain.bytes, ← htot, Nat.zero_add]; exact hroom)
    have htake := take_of_copyAt_zero hfits
    simp only [hne, if_false, hcopy, UInt16.toNat_zero, hfits]
    rw [htot]
    exact ⟨_, _, congrArg Outcome.ret (Prod.ext rfl (Prod.ext rfl htake))⟩

/-- In every state of the pool that calls of `NewBytes` and `FreeBytes` can lead to, and for
    every chain: `output`, `tcpRecvFn` and `udpRecvFn` pass on the payloads of the chain, and
    the slice that `NewBytes` returns for them is long enough. -/
theorem passes_on_chain {m : BufferPool} (h : Reach poolMachine any m) (p : PbufChain)
    (choice : Option Nat) :
    (∃ m', m.output p choice = .ret (m', p.bytes)) ∧
    (∀ (s : Stack) (tpcb : ConnId) (owner : Option Tid), ∃ m' b,
      s.tcpRecvChain m tpcb p owner choice =
        .ret (s.tcpRecvFn tpcb (some p.contents) owner, m', b)) ∧
    (∀ (s : UdpStack) (t : Tid) (c : UdpNo) (addr : UDPAddr), ∃ m' b,
      s.udpRecvChain m t c p addr choice = .ret (s.receiveTo t c (some p.bytes) addr, m', b)) ∧
    p.first.tot_len.toNat ≤
      ((m.newBytes p.first.tot_len.toNat choice).1.bufs
        (m.newBytes p.first.tot_len.toNat choice).2).length := by
  have hinv := reach_poolInv h
  obtain ⟨m', b, hpass⟩ := m.passOn_eq hinv p choice
  refine ⟨?_, ?_, ?_, m.le_newBytes hinv _ choice⟩
  · exact ⟨_, by rw [BufferPool.output, hpass, Outcome.ret_bind]; rfl⟩
  · intro s tpcb owner
    unfold Stack.tcpRecvChain Stack.tcpRecvFn
    cases s.lookup tpcb with
    | none => exact ⟨_, _, rfl⟩
    | some found =>
      have hlen : p.bytes.length < UInt16.size := p.contents.len_lt
      refine ⟨m', b, ?_⟩
      simp only [hpass, Outcome.ret_bind, hlen, dif_pos, Outcome.pure_eq]
      rfl
  · intro s t c addr
    exact ⟨m', b, by rw [UdpStack.udpRecvChain, hpass, Outcome.ret_bind]; rfl⟩

/-- A chain whose first pbuf is empty. -/
def emptyFirst : PbufChain where
  first := ⟨[], 3, by decide⟩
  next := [⟨[1, 2], 3, by decide⟩, ⟨[3], 1, by decide⟩]
  rule := ⟨rfl, rfl, rfl, trivial⟩

/-- A slice longer than a buffer was made and is now in the pool. -/
def withLonger : BufferPool := (BufferPool.init.newBytes 3000 none).1.freeBytes 0

theorem passes_on_chain_longer : Reach poolMachine any withLonger ∧
    ∃ m', withLonger.output emptyFirst (some 0) = .ret (m', [1, 2, 3]) := by
  have hmade : Reach poolMachine any (BufferPool.init.newBytes 3000 none).1 :=
    Reach.init.step (a := .newBytes 3000 none) trivial rfl
  have hlt : 0 < (BufferPool.init.newBytes 3000 none).1.made := Nat.zero_lt_one
  have hreach : Reach poolMachine any withLonger := by
    refine hmade.step (a := .freeBytes 0) trivial ?_
    simp only [poolMachine, BufferPool.step, hlt, if_true]
    rfl
  exact ⟨hreach, (passes_on_chain hreach emptyFirst (some 0)).1⟩

end tun2proxy.core
