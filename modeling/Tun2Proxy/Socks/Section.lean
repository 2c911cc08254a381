import Tun2Proxy.Socks.Stack

open tun2proxy.core tun2proxy.dns tun2proxy.go tun2proxy.machine tun2proxy.machine.Machine
open tun2proxy.udppackage

namespace tun2proxy.socks

/-- The sections of `ReceiveTo` and `Close` that only move on. -/
inductive ReceiveMove (env : Env) (s : SocksStack) (g : Caller) (c : UdpNo) (pkt : UdpPacket) :
    SocksAct → HandlerAt → HandlerAt → Prop where
  | found {k : SockNo} (hfound : s.udpSocks c = some k) :
      ReceiveMove env s g c pkt (.lookup g) .entry (.found k)
  | absent (hnone : s.udpSocks c = none) :
      ReceiveMove env s g c pkt (.lookup g) .entry (.close .canNotFindRemoteAddress)
  | noDns {k : SockNo} {now : Nat} : ReceiveMove env s g c pkt (.query g now) (.found k) (.forward k)
  | packEmpty {p : Nat} {t : Tid} :
      ReceiveMove env s g c pkt (.pack g t) (.answer p) (.ret none)
  | replied {t : Tid} {call : Nat} :
      ReceiveMove env s g c pkt (.replied g) (.replying t call) (.ret none)
  | replyFailed {t : Tid} {call : Nat} :
      ReceiveMove env s g c pkt (.replied g) (.replying t call) (.close .writeRemoteFailed)
  | packFailed {k : SockNo} {nilErr : Bool} :
      ReceiveMove env s g c pkt (.forward g nilErr) (.forward k) (.close .packUdpDataFailed)
  | writeFailed {k : SockNo} {nilErr : Bool} :
      ReceiveMove env s g c pkt (.forward g nilErr) (.forward k) (.close .writeToProxyFailed)
  | close {t : Tid} {e : HandlerError} :
      ReceiveMove env s g c pkt (.close g t) (.close e) (.closing t e)
  | ret {e : Option HandlerError} : ReceiveMove env s g c pkt (.ret g) (.ret e) .entry

/-- The sections of `fetchSocksData` that only move on. -/
inductive FetchMove (k : SockNo) : SocksAct → Fetcher → Fetcher → Prop where
  | failed {buf : List UInt8} {data : Option (List UInt8)} :
      FetchMove k (.read k buf data) .reading .ended
  | unpacked {buf raw payload : List UInt8} {data : Option (List UInt8)} :
      FetchMove k (.read k buf data) .reading (.unpacked raw payload)
  | empty {raw : List UInt8} {t : Tid} : FetchMove k (.write k t) (.unpacked raw []) (.written raw)
  | written {raw : List UInt8} {t : Tid} {call : Nat} :
      FetchMove k (.wrote k) (.writing raw t call) (.written raw)
  | refused {raw : List UInt8} {t : Tid} {call : Nat} :
      FetchMove k (.wrote k) (.writing raw t call) .ended
  | noDns {raw : List UInt8} {now : Nat} : FetchMove k (.cache k now) (.written raw) .ended

/-- Everything an act can do in the handler, with the guards it has passed. -/
inductive HandlerSection (env : Env) (s : SocksStack) : SocksAct → SocksStack → Prop where
  | udp {a : UdpAct} (houtside : byHandler a = false) : HandlerSection env s (.udp a) s
  | dialFailed {c : UdpNo} (hentry : s.calls (.connector c) = .entry) :
      HandlerSection env s (.dial c false) s
  | dial {c : UdpNo} (hc : c < s.udp.created) (hat : s.udp.connectors c = .connecting)
      (hentry : s.calls (.connector c) = .entry) :
      HandlerSection env s (.dial c true)
        ((s.dialSocket c).setCall (.connector c) (.dialled s.dialled))
  | time {c : UdpNo} {k : SockNo} (hat : s.calls (.connector c) = .dialled k) :
      HandlerSection env s (.time c)
        ((s.setTime k (some timeoutSecond)).setCall (.connector c) (.timed k))
  | store {c : UdpNo} {k : SockNo} (hat : s.calls (.connector c) = .timed k) :
      HandlerSection env s (.store c)
        ({ s.dropSocket c with udpSocks := Function.update s.udpSocks c (some k) }.setCall
          (.connector c) (.stored k))
  | fetch {c : UdpNo} {k : SockNo} (hat : s.calls (.connector c) = .stored k) :
      HandlerSection env s (.fetch c) ((s.setFetcher k .reading).setCall (.connector c) .entry)
  | move {act : SocksAct} {g : Caller} {c : UdpNo} {pkt : UdpPacket} {place : HandlerAt}
      (hrecv : s.receiving g = some (c, pkt))
      (hmove : ReceiveMove env s g c pkt act (s.calls g) place) :
      HandlerSection env s act (s.setCall g place)
  | hit {g : Caller} {now : Nat} {c : UdpNo} {pkt : UdpPacket} {k : SockNo} {p : Nat}
      {dnsCache : SharedCache} (hrecv : s.receiving g = some (c, pkt)) (hat : s.calls g = .found k)
      (hquery : s.dnsCache.query env.lib now pkt.data.content = (some p, dnsCache)) :
      HandlerSection env s (.query g now)
        ({ s with dnsCache }.setCall g (.answer p))
  | miss {g : Caller} {now : Nat} {c : UdpNo} {pkt : UdpPacket} {k : SockNo}
      {dnsCache : SharedCache} (hrecv : s.receiving g = some (c, pkt)) (hat : s.calls g = .found k)
      (hquery : s.dnsCache.query env.lib now pkt.data.content = (none, dnsCache)) :
      HandlerSection env s (.query g now) ({ s with dnsCache }.setCall g (.forward k))
  | pack {g : Caller} {t : Tid} {c : UdpNo} {pkt : UdpPacket} {p : Nat}
      (hrecv : s.receiving g = some (c, pkt)) (hat : s.calls g = .answer p)
      (hresp : env.lib.packBuffer (s.dnsCache.cells p).msg ≠ []) :
      HandlerSection env s (.pack g t)
        ((s.logWrite c (env.lib.packBuffer (s.dnsCache.cells p).msg) pkt.addr
          (.answer pkt (s.dnsCache.cells p).msg)).setCall g (.replying t (s.udp.conns c).calls))
  | send {g : Caller} {nilErr : Bool} {c : UdpNo} {pkt : UdpPacket} {k : SockNo} {full : List UInt8}
      (hrecv : s.receiving g = some (c, pkt)) (hat : s.calls g = .forward k)
      (hpack : packUDPData (some pkt.addr) (some (env.localAddr (s.udp.conns c).connId)) pkt.data =
        .ok full) :
      HandlerSection env s (.forward g nilErr) ((s.send k full).setCall g (.ret none))
  | closed {g : Caller} {c : UdpNo} {pkt : UdpPacket} {t : Tid} {e : HandlerError}
      (hrecv : s.receiving g = some (c, pkt)) (hat : s.calls g = .closing t e) :
      HandlerSection env s (.closed g) ((s.dropSocket c).setCall g (.ret (some e)))
  | fetchMove {act : SocksAct} {k : SockNo} {f : Fetcher} (hmove : FetchMove k act (s.fetchers k) f) :
      HandlerSection env s act (s.setFetcher k f)
  | write {k : SockNo} {t : Tid} {raw payload : List UInt8} (hat : s.fetchers k = .unpacked raw payload)
      (hpayload : payload ≠ []) :
      HandlerSection env s (.write k t)
        ((s.logWrite (s.sockets k).conn payload (s.target k) (.response k raw)).setFetcher k
          (.writing raw t (s.udp.conns (s.sockets k).conn).calls))
  | cache {k : SockNo} {now : Nat} {raw : List UInt8} (hat : s.fetchers k = .written raw) :
      HandlerSection env s (.cache k now)
        ({ s with dnsCache := s.dnsCache.store env.lib now raw }.setFetcher k .ended)
  | tick {order : List SockNo} (hperm : order.Perm s.timedSockets) :
      HandlerSection env s (.tick order) (s.tick order)

namespace SocksStack

variable {env : Env} {s s' next : SocksStack}

private theorem connectStep_section {act : SocksAct} (hstep : s.connectStep act = some next) :
    HandlerSection env s act next := by
  cases act with
  | dial c nilErr =>
    simp only [connectStep, Option.ite_none_right_eq_some] at hstep
    obtain ⟨⟨hc, hat, hentry⟩, hstep⟩ := hstep
    cases nilErr with
    | false =>
      cases hstep
      exact .dialFailed hentry
    | true =>
      cases hstep
      exact .dial hc hat hentry
  | time c =>
    simp only [connectStep] at hstep
    split at hstep
    · cases hstep
      exact .time ‹_›
    · cases hstep
  | store c =>
    simp only [connectStep] at hstep
    split at hstep
    · cases hstep
      exact .store ‹_›
    · cases hstep
  | fetch c =>
    simp only [connectStep] at hstep
    split at hstep
    · cases hstep
      exact .fetch ‹_›
    · cases hstep
  | _ => cases hstep

private theorem query_section {g : Caller} {c : UdpNo} {pkt : UdpPacket} {now : Nat}
    (hrecv : s.receiving g = some (c, pkt))
    (hstep : s.receiveStep env g c pkt (.query g now) = some next) :
    HandlerSection env s (.query g now) next := by
  simp only [receiveStep] at hstep
  split at hstep
  · rename_i k hat
    split at hstep
    · split at hstep
      · cases hstep
        exact .hit hrecv hat ‹_›
      · cases hstep
        exact .miss hrecv hat ‹_›
    · cases hstep
      exact .move hrecv (hat ▸ .noDns)
  · cases hstep

private theorem forward_section {g : Caller} {c : UdpNo} {pkt : UdpPacket} {nilErr : Bool}
    (hrecv : s.receiving g = some (c, pkt))
    (hstep : s.receiveStep env g c pkt (.forward g nilErr) = some next) :
    HandlerSection env s (.forward g nilErr) next := by
  simp only [receiveStep] at hstep
  split at hstep
  · rename_i k hat
    split at hstep
    · cases hstep
      exact .move hrecv (hat ▸ .packFailed)
    · rename_i full hpack
      split at hstep
      · cases hstep
        exact .send hrecv hat hpack
      · cases hstep
        exact .move hrecv (hat ▸ .writeFailed)
  · cases hstep

/-- The caller of a section of `ReceiveTo` or `Close`. -/
def callerOf : SocksAct → Option Caller
  | .lookup g | .query g _ | .pack g _ | .replied g | .forward g _ | .ret g | .close g _ | .closed g =>
    some g
  | _ => none

private theorem receiveStep_section {act : SocksAct} {g : Caller} {c : UdpNo} {pkt : UdpPacket}
    (hcaller : callerOf act = some g) (hrecv : s.receiving g = some (c, pkt))
    (hstep : s.receiveStep env g c pkt act = some next) : HandlerSection env s act next := by
  cases act with
  | lookup g' =>
    cases hcaller
    simp only [receiveStep] at hstep
    split at hstep
    · rename_i hat hfound
      cases hstep
      exact .move hrecv (hat ▸ .found hfound)
    · rename_i hat hnone
      cases hstep
      exact .move hrecv (hat ▸ .absent hnone)
    · cases hstep
  | query g' now =>
    cases hcaller
    exact query_section hrecv hstep
  | pack g' t =>
    cases hcaller
    simp only [receiveStep] at hstep
    split at hstep
    · rename_i p hat
      split at hstep
      · cases hstep
        exact .move hrecv (hat ▸ .packEmpty)
      · cases hstep
        exact .pack hrecv hat ‹_›
    · cases hstep
  | replied g' =>
    cases hcaller
    simp only [receiveStep] at hstep
    split at hstep
    · rename_i t call hat
      split at hstep
      · cases hstep
        exact .move hrecv (hat ▸ .replied)
      · cases hstep
        exact .move hrecv (hat ▸ .replyFailed)
      · cases hstep
    · cases hstep
  | forward g' nilErr =>
    cases hcaller
    exact forward_section hrecv hstep
  | close g' t =>
    cases hcaller
    simp only [receiveStep] at hstep
    split at hstep
    · rename_i e hat
      cases hstep
      exact .move hrecv (hat ▸ .close)
    · cases hstep
  | closed g' =>
    cases hcaller
    simp only [receiveStep] at hstep
    split at hstep
    · rename_i t e hat
      obtain ⟨_, hnext⟩ := Option.ite_none_right_eq_some.mp hstep
      cases hnext
      exact .closed hrecv hat
    · cases hstep
  | ret g' =>
    cases hcaller
    simp only [receiveStep] at hstep
    split at hstep
    · rename_i e hat
      cases hstep
      exact .move hrecv (hat ▸ .ret)
    · cases hstep
  | _ => cases hcaller

private theorem fetchStep_section {act : SocksAct} (hstep : s.fetchStep env act = some next) :
    HandlerSection env s act next := by
  cases act with
  | read k buf data =>
    simp only [fetchStep, Option.ite_none_right_eq_some] at hstep
    obtain ⟨⟨hat, _⟩, hstep⟩ := hstep
    cases data with
    | none =>
      cases hstep
      exact .fetchMove (hat ▸ .failed)
    | some data =>
      simp only [Option.ite_none_left_eq_some] at hstep
      obtain ⟨_, hstep⟩ := hstep
      split at hstep
      · cases hstep
      · cases hstep
        exact .fetchMove (hat ▸ .failed)
      · cases hstep
        exact .fetchMove (hat ▸ .unpacked)
  | write k t =>
    simp only [fetchStep] at hstep
    split at hstep
    · rename_i raw payload hat
      split at hstep
      · rename_i hempty
        cases hstep
        subst hempty
        exact .fetchMove (hat ▸ .empty)
      · cases hstep
        exact .write hat ‹_›
    · cases hstep
  | wrote k =>
    simp only [fetchStep] at hstep
    split at hstep
    · rename_i raw t call hat
      split at hstep
      · cases hstep
        exact .fetchMove (hat ▸ .written)
      · cases hstep
        exact .fetchMove (hat ▸ .refused)
      · cases hstep
    · cases hstep
  | cache k now =>
    simp only [fetchStep] at hstep
    split at hstep
    · rename_i raw hat
      split at hstep
      · cases hstep
        exact .cache hat
      · cases hstep
        exact .fetchMove (hat ▸ .noDns)
    · cases hstep
  | _ => cases hstep

private theorem handle_section {act : SocksAct} (hstep : s.handle env act = some next) :
    HandlerSection env s act next := by
  cases act with
  | udp a =>
    simp only [handle, Option.ite_none_left_eq_some, Option.some.injEq, Bool.not_eq_true] at hstep
    obtain ⟨houtside, rfl⟩ := hstep
    exact .udp houtside
  | dial c nilErr | time c | store c | fetch c => exact connectStep_section hstep
  | lookup g | query g now | pack g t | replied g | forward g nilErr | ret g | close g t | closed g =>
    obtain ⟨⟨c, pkt⟩, hrecv, hstep⟩ := Option.bind_eq_some_iff.mp hstep
    exact receiveStep_section rfl hrecv hstep
  | read k buf data | write k t | wrote k | cache k now => exact fetchStep_section hstep
  | tick order =>
    simp only [handle, Option.ite_none_right_eq_some, Option.some.injEq] at hstep
    obtain ⟨hperm, rfl⟩ := hstep
    exact .tick hperm

/-- A step is a section of the handler, with or without one of the connections' code. -/
theorem step_section {act : SocksAct} (hstep : s.step env act = some s') :
    ∃ next, HandlerSection env s act next ∧
      (s.udpAct env act = none ∧ s' = next ∨
        ∃ a udp, s.udpAct env act = some a ∧ udpMachine.step s.udp a = some udp ∧
          s' = { next with
            udp, remoteAddr := s.createAddr a, toTun := s.toTun ++ s.sends a }) := by
  obtain ⟨next, hnext, hstep⟩ := Option.bind_eq_some_iff.mp hstep
  refine ⟨next, handle_section hnext, ?_⟩
  cases hact : s.udpAct env act with
  | none =>
    simp only [hact, Option.some.injEq] at hstep
    exact .inl ⟨rfl, hstep.symm⟩
  | some a =>
    simp only [hact, Option.map_eq_some_iff] at hstep
    obtain ⟨udp, hudp, rfl⟩ := hstep
    exact .inr ⟨a, udp, rfl, hudp, rfl⟩

end SocksStack

/-- The sections of the handler leave the connections and the TUN side alone. -/
theorem HandlerSection.frame {env : Env} {s next : SocksStack} {act : SocksAct}
    (h : HandlerSection env s act next) :
    next.udp = s.udp ∧ next.remoteAddr = s.remoteAddr ∧ next.toTun = s.toTun := by
  cases h <;> exact ⟨rfl, rfl, rfl⟩

/-- The connections run as they do without the handler. -/
theorem reach_udp {env : Env} {ok : SocksStack → SocksAct → Prop} {s : SocksStack}
    (h : Reach (socksMachine env) ok s) : Reach udpMachine any s.udp := by
  refine h.invariant (P := fun s => Reach udpMachine any s.udp) .init ?_
  intro s act s' _ hreach _ hstep
  obtain ⟨next, hsec, ⟨_, rfl⟩ | ⟨a, udp, _, hudp, rfl⟩⟩ := SocksStack.step_section hstep
  · exact hsec.frame.1 ▸ hreach
  · exact hreach.step trivial hudp

end tun2proxy.socks
