import Mathlib.Data.Fintype.EquivFin
import Tun2Proxy.Socketbase.Dial

open tun2proxy.go tun2proxy.machine tun2proxy.machine.Machine

namespace tun2proxy.socketbase

/-- The functions that dial with a protected socket. -/
inductive Dialer where
  | udp
  | tcp (p : Bool)
  deriving DecidableEq, Repr

def Dialer.dial (f : Dialer) (ip : IP) (port : Int) : Dialing (Except DialError Nat) :=
  match f with
  | .udp => udpDail ip port
  | .tcp p => dialProtectedTCP ip port p

def Dialer.type : Dialer → SockType
  | .udp => .dgram
  | .tcp _ => .stream

/-- What they do with their socket. -/
def Dialer.dialFd (f : Dialer) (ip : IP) (sa : Sockaddr) (fd : Nat) :
    Dialing (Except DialError Nat) :=
  match f with
  | .udp => udpDailFd sa fd
  | .tcp p => dialProtectedTCPFd p (socketFamily ip) sa fd

/-- Both get a socket and defer its close. -/
theorem Dialer.dial_eq (f : Dialer) (ip : IP) (port : Int) :
    f.dial ip port =
      match netAddrToSockaddr ip port with
      | .error e => .ret (.error e)
      | .ok sa => (syscall.socket (socketFamily ip) f.type).bind fun
        | .error e => .ret (.error (.errno e))
        | .ok fd => Prog.deferred (syscall.close fd) (f.dialFd ip sa fd) := by
  cases f <;> rfl

/-- Whatever other threads do, the call closes no number of theirs, its socket at most
    once, and exactly once when it has returned. -/
def ClosesOnce (q : Dialing (Except DialError Nat)) (o : Outcomes) (inUse : Finset Nat) : Prop :=
  ∀ x, Reach (q.interleaved (process o inUse)) any x →
    some .other ∉ x.2.closes ∧ x.2.closes.count (some .socket) ≤ 1 ∧
    ∀ r, x.1 = .ret r → x.2.closes.count (some .socket) = x.2.sockets

/-- All calls up to and including `os.NewFile` succeed. -/
structure GetsFile (f : Dialer) (ip : IP) (o : Outcomes) : Prop where
  address : to16 ip ≠ none
  socket : o.socket = none
  protect : f ≠ .tcp false → o.protect = 0
  setsockopt : f ≠ .udp → o.setsockopt = none
  connect : o.connect = none
  newFile : o.newFile = true

private theorem exists_sockaddr_iff {ip : IP} {port : Int} :
    (∃ sa, netAddrToSockaddr ip port = .ok sa) ↔ to16 ip ≠ none := by
  unfold netAddrToSockaddr to4 to16
  split_ifs <;> simp_all

/-! ### What other threads cannot do -/

/-- Other threads leave the socket alone. -/
structure Untouched (d d' : Descriptors) : Prop where
  closes : d'.closes = d.closes
  sockets : d'.sockets = d.sockets
  table : ∀ n, d.table n = some .socket → d'.table n = some .socket

private theorem untouched_rely (o : Outcomes) (inUse : Finset Nat) :
    Prog.Rely (process o inUse) Untouched where
  refl d := ⟨rfl, rfl, fun _ h => h⟩
  trans h h' := ⟨h'.closes.trans h.closes, h'.sockets.trans h.sockets,
    fun n hn => h'.table n (h.table n hn)⟩
  others {d d' act} h := by
    cases act with
    | opens m =>
      obtain ⟨hfree, heq⟩ := Option.ite_none_right_eq_some.mp h
      cases heq
      refine ⟨rfl, rfl, fun n hn => ?_⟩
      have hne : n ≠ m := by
        rintro rfl
        rw [hfree] at hn
        cases hn
      simpa [Descriptors.openAt, hne] using hn
    | closes m =>
      obtain ⟨htheirs, heq⟩ := Option.ite_none_right_eq_some.mp h
      cases heq
      refine ⟨rfl, rfl, fun n hn => ?_⟩
      have hne : n ≠ m := by
        rintro rfl
        rw [htheirs] at hn
        cases hn
      simpa [hne] using hn

/-- Nothing was closed, or only the socket. -/
def Clean (d : Descriptors) : Prop := d.closes = [] ∨ d.closes = [some .socket]

/-- The socket has number `fd` and was not closed. -/
structure HasSocket (fd : Nat) (d : Descriptors) : Prop where
  closes : d.closes = []
  sockets : d.sockets = 1
  table : d.table fd = some .socket

/-- What the call has done when it returns. -/
def Closed (d : Descriptors) : Prop :=
  d.closes = [] ∧ d.sockets = 0 ∨ d.closes = [some .socket] ∧ d.sockets = 1

theorem HasSocket.stable {fd : Nat} {d d' : Descriptors} (hd : Untouched d d') (h : HasSocket fd d) :
    HasSocket fd d' :=
  ⟨hd.closes.trans h.closes, hd.sockets.trans h.sockets, hd.table fd h.table⟩

theorem HasSocket.clean {fd : Nat} {d : Descriptors} (h : HasSocket fd d) : Clean d := .inl h.closes

theorem Closed.stable {d d' : Descriptors} (hd : Untouched d d') (h : Closed d) : Closed d' := by
  unfold Closed
  rw [hd.closes, hd.sockets]
  exact h

theorem Closed.clean {d : Descriptors} (h : Closed d) : Clean d := h.imp And.left And.left

section

variable {o : Outcomes} {inUse : Finset Nat} {A : Type} {post : A → Descriptors → Prop}
  {d : Descriptors} {fd : Nat}

/-- A call that leaves the table alone. -/
theorem holds_same {call : SysCall} {ans : call.Ans} {k : call.Ans → Dialing A}
    (hans : ∀ d n, o.answer d call n = some (ans, d))
    (hk : ∀ d, HasSocket fd d → (k ans).Holds (process o inUse) Untouched Clean post d)
    (hd : HasSocket fd d) : (Prog.call call k).Holds (process o inUse) Untouched Clean post d := by
  refine Prog.holds_call HasSocket.stable HasSocket.clean ?_ hd
  intro d' hd' n ans' d'' h
  cases (hans d' n).symm.trans h
  exact hk d' hd'

private theorem holds_return {a : A} (hd : HasSocket fd d) :
    (Prog.ret a : Dialing A).Holds (process o inUse) Untouched Clean (fun _ => HasSocket fd) d :=
  Prog.holds_ret HasSocket.stable HasSocket.clean (fun h => h) hd

private theorem fdToConn_holds (hnil : o.newFile = false) (hd : HasSocket fd d) :
    (fdToConn fd).Holds (process o inUse) Untouched Clean (fun _ => HasSocket fd) d := by
  refine holds_same (fun _ _ => rfl) (fun d hd => ?_) hd
  rw [hnil]
  exact holds_return hd

private theorem connect_holds {sa : Sockaddr} (hfail : o.connect = none → o.newFile = false)
    (hd : HasSocket fd d) :
    ((syscall.connect fd sa).bind fun
      | some e => .ret (.error (.errno e))
      | none => fdToConn fd).Holds (process o inUse) Untouched Clean (fun _ => HasSocket fd) d := by
  refine holds_same (fun _ _ => rfl) (fun d hd => ?_) hd
  cases hconnect : o.connect with
  | none => exact fdToConn_holds (hfail hconnect) hd
  | some e => exact holds_return hd

private theorem udpDailFd_holds {sa : Sockaddr}
    (hfail : o.protect = 0 → o.connect = none → o.newFile = false) (hd : HasSocket fd d) :
    (udpDailFd sa fd).Holds (process o inUse) Untouched Clean (fun _ => HasSocket fd) d := by
  refine holds_same (fun _ _ => rfl) (fun d hd => ?_) hd
  dsimp only [Prog.bind]
  split
  · exact holds_return hd
  · rename_i hzero
    exact connect_holds (hfail (not_not.mp hzero)) hd

private theorem connectTCP_holds {family : Family} {sa : Sockaddr}
    (hfail : o.setsockopt = none → o.connect = none → o.newFile = false) (hd : HasSocket fd d) :
    (connectTCP family sa fd).Holds (process o inUse) Untouched Clean (fun _ => HasSocket fd) d := by
  refine holds_same (fun _ _ => rfl) (fun d hd => ?_) hd
  cases hset : o.setsockopt with
  | none => exact connect_holds (hfail hset) hd
  | some e => exact holds_return hd

private theorem dialProtectedTCPFd_holds {p : Bool} {family : Family} {sa : Sockaddr}
    (hfail : (p = true → o.protect = 0) → o.setsockopt = none → o.connect = none →
      o.newFile = false) (hd : HasSocket fd d) :
    (dialProtectedTCPFd p family sa fd).Holds (process o inUse) Untouched Clean
      (fun _ => HasSocket fd) d := by
  cases p with
  | false => exact connectTCP_holds (hfail nofun) hd
  | true =>
    refine holds_same (fun _ _ => rfl) (fun d hd => ?_) hd
    dsimp only [Prog.bind]
    split
    · exact holds_return hd
    · rename_i hzero
      exact connectTCP_holds (hfail fun _ => not_not.mp hzero) hd

private theorem dialFd_holds {f : Dialer} {ip : IP} {sa : Sockaddr} (haddr : to16 ip ≠ none)
    (hsocket : o.socket = none) (hfail : ¬GetsFile f ip o) (hd : HasSocket fd d) :
    (f.dialFd ip sa fd).Holds (process o inUse) Untouched Clean (fun _ => HasSocket fd) d := by
  have hnil : (f ≠ .tcp false → o.protect = 0) → (f ≠ .udp → o.setsockopt = none) →
      o.connect = none → o.newFile = false := by
    intro hprotect hset hconnect
    exact Bool.eq_false_iff.mpr fun hfile =>
      hfail ⟨haddr, hsocket, hprotect, hset, hconnect, hfile⟩
  cases f with
  | udp => exact udpDailFd_holds (fun hprotect => hnil (fun _ => hprotect) (absurd rfl)) hd
  | tcp p =>
    refine dialProtectedTCPFd_holds (fun hprotect hset => hnil (fun hp => hprotect ?_) fun _ => hset) hd
    cases p with
    | false => exact absurd rfl hp
    | true => rfl

/-- The deferred close is the only one. -/
theorem deferred_holds {body : Dialing A}
    (hbody : body.Holds (process o inUse) Untouched Clean (fun _ => HasSocket fd) d) :
    (Prog.deferred (syscall.close fd) body).Holds (process o inUse) Untouched Clean
      (fun _ => Closed) d := by
  refine Prog.Holds.bind (untouched_rely o inUse) (hbody.mono fun a d hd => ?_)
  refine Prog.holds_call HasSocket.stable HasSocket.clean (fun d hd n ans d' hans => ?_) hd
  cases hans
  refine Prog.holds_ret Closed.stable Closed.clean (fun h => h) (.inr ⟨?_, hd.sockets⟩)
  simp [Descriptors.close, hd.closes, hd.table]

private theorem dial_holds {f : Dialer} {ip : IP} {port : Int} (hfail : ¬GetsFile f ip o) :
    (f.dial ip port).Holds (process o inUse) Untouched Clean (fun _ => Closed)
      (process o inUse).init := by
  have hinit : ∀ {d : Descriptors}, d.closes = [] ∧ d.sockets = 0 → Closed d := .inl
  have hstable : ∀ {d d' : Descriptors}, Untouched d d' → d.closes = [] ∧ d.sockets = 0 →
      d'.closes = [] ∧ d'.sockets = 0 :=
    fun hd h => ⟨hd.closes.trans h.1, hd.sockets.trans h.2⟩
  cases hsa : netAddrToSockaddr ip port with
  | error e =>
    simp only [f.dial_eq, hsa]
    exact Prog.holds_ret Closed.stable Closed.clean (fun h => h) (hinit ⟨rfl, rfl⟩)
  | ok sa =>
    simp only [f.dial_eq, hsa]
    refine Prog.holds_call hstable (fun h => (hinit h).clean) (fun d hd n ans d' hans => ?_)
      ⟨rfl, rfl⟩
    cases hsocket : o.socket with
    | some e =>
      simp only [process, Outcomes.answer, hsocket] at hans
      cases hans
      exact Prog.holds_ret Closed.stable Closed.clean (fun h => h) (hinit hd)
    | none =>
      simp only [process, Outcomes.answer, hsocket, Option.ite_none_right_eq_some] at hans
      obtain ⟨_, heq⟩ := hans
      cases heq
      refine deferred_holds (dialFd_holds (exists_sockaddr_iff.mp ⟨sa, hsa⟩) hsocket hfail ?_)
      exact ⟨hd.1, by simp [hd.2], by simp [Descriptors.openAt]⟩

theorem Closed.count {d : Descriptors} (h : Closed d) :
    d.closes.count (some .socket) = d.sockets := by
  obtain ⟨hcloses, hsockets⟩ | ⟨hcloses, hsockets⟩ := h <;> rw [hcloses, hsockets] <;> rfl

theorem Clean.once {d : Descriptors} (h : Clean d) :
    some .other ∉ d.closes ∧ d.closes.count (some .socket) ≤ 1 := by
  obtain hnil | hone := h
  · simp [hnil]
  · simp [hone]

private theorem closesOnce_of_not_getsFile {f : Dialer} {ip : IP} (port : Int) (inUse : Finset Nat)
    (hfail : ¬GetsFile f ip o) : ClosesOnce (f.dial ip port) o inUse := by
  intro x hreach
  have hrely := untouched_rely o inUse
  obtain ⟨hclean, hpost⟩ := ((dial_holds hfail).reach hrely hreach).inv_post hrely
  obtain ⟨hforeign, honce⟩ := hclean.once
  exact ⟨hforeign, honce, fun r hr => (hpost r hr).count⟩

/-! ### The second close -/

variable {m : Nat}

/-- `net.FileConn` returns, whatever its calls answer. -/
theorem fileConn_exec (hfd : d.table fd ≠ none) (hfree : d.table m = none) :
    ∃ r d', (net.fileConn fd).Exec (process o inUse) d r d' := by
  cases hdup : o.dup with
  | some e =>
    have hans : (process o inUse).answer d (.dup fd) m = some (.error e, d) := by
      simp only [process, Outcomes.answer, hdup]
    exact ⟨_, _, .call hans .ret⟩
  | none =>
    have hans : (process o inUse).answer d (.dup fd) m = some (.ok m, d.openAt m .conn) := by
      simp only [process, Outcomes.answer, hdup, hfd, hfree, if_true, if_false]
    have hsetup : ∀ d, (process o inUse).answer d (.setup m) 0 = some (o.setup, d) := fun _ => rfl
    cases hfail : o.setup with
    | some e =>
      rw [hfail] at hsetup
      refine ⟨.error e, (d.openAt m .conn).close m, .call hans ?_⟩
      refine .call (hsetup _) ?_
      refine .call (b := 0) rfl ?_
      exact .ret
    | none =>
      rw [hfail] at hsetup
      refine ⟨.ok m, d.openAt m .conn, .call hans ?_⟩
      refine .call (hsetup _) ?_
      exact .ret

private theorem deferred_exec {body : Dialing A} {r : A} {d' : Descriptors}
    (hbody : body.Exec (process o inUse) d r d') :
    (Prog.deferred (syscall.close fd) body).Exec (process o inUse) d r (d'.close fd) := by
  refine .bind hbody ?_
  refine .call (b := 0) rfl ?_
  exact .ret

/-- `fdToConn` leaves the number of the socket free. -/
theorem fdToConn_exec (hfile : o.newFile = true) (hfd : d.table fd ≠ none)
    (hfree : d.table m = none) :
    ∃ r d', (fdToConn fd).Exec (process o inUse) d r d' ∧ d'.table fd = none := by
  obtain ⟨conn, d', hconn⟩ := @fileConn_exec o inUse d fd m hfd hfree
  have hclosed : (d'.close fd).table fd = none := by simp [Descriptors.close]
  cases conn with
  | error e =>
    refine ⟨.error (.wrapped "net.FileConn error: %w" e), d'.close fd, ?_, hclosed⟩
    refine .call (b := 0) rfl ?_
    rw [hfile]
    exact deferred_exec (.bind hconn .ret)
  | ok fd' =>
    refine ⟨.ok fd', d'.close fd, ?_, hclosed⟩
    refine .call (b := 0) rfl ?_
    rw [hfile]
    exact deferred_exec (.bind hconn .ret)

private theorem connect_exec {sa : Sockaddr} (hconnect : o.connect = none) (hfile : o.newFile = true)
    (hfd : d.table fd ≠ none) (hfree : d.table m = none) :
    ∃ r d', ((syscall.connect fd sa).bind fun
      | some e => .ret (.error (.errno e))
      | none => fdToConn fd).Exec (process o inUse) d r d' ∧ d'.table fd = none := by
  obtain ⟨r, d', hexec, hnone⟩ := @fdToConn_exec o inUse d fd m hfile hfd hfree
  refine ⟨r, d', ?_, hnone⟩
  refine .call (b := 0) rfl ?_
  rw [hconnect]
  exact hexec

private theorem connectTCP_exec {family : Family} {sa : Sockaddr} (hset : o.setsockopt = none)
    (hconnect : o.connect = none) (hfile : o.newFile = true) (hfd : d.table fd ≠ none)
    (hfree : d.table m = none) :
    ∃ r d', (connectTCP family sa fd).Exec (process o inUse) d r d' ∧ d'.table fd = none := by
  obtain ⟨r, d', hexec, hnone⟩ := @connect_exec o inUse d fd m sa hconnect hfile hfd hfree
  refine ⟨r, d', ?_, hnone⟩
  refine .call (b := 0) rfl ?_
  rw [hset]
  exact hexec

private theorem dialFd_exec {f : Dialer} {ip : IP} {sa : Sockaddr} (hgets : GetsFile f ip o)
    (hfd : d.table fd ≠ none) (hfree : d.table m = none) :
    ∃ r d', (f.dialFd ip sa fd).Exec (process o inUse) d r d' ∧ d'.table fd = none := by
  cases f with
  | udp =>
    obtain ⟨r, d', hexec, hnone⟩ := @connect_exec o inUse d fd m sa hgets.connect hgets.newFile hfd
      hfree
    refine ⟨r, d', ?_, hnone⟩
    refine .call (b := 0) rfl ?_
    rw [hgets.protect nofun]
    exact hexec
  | tcp p =>
    obtain ⟨r, d', hexec, hnone⟩ := @connectTCP_exec o inUse d fd m (socketFamily ip) sa
      (hgets.setsockopt nofun) hgets.connect hgets.newFile hfd hfree
    refine ⟨r, d', ?_, hnone⟩
    cases p with
    | false => exact hexec
    | true =>
      refine .call (b := 0) rfl ?_
      rw [hgets.protect nofun]
      exact hexec

/-- Someone opens the number after `file.Close`, and the deferred close hits it. -/
theorem not_closesOnce_of_getsFile {f : Dialer} {ip : IP} (port : Int) (inUse : Finset Nat)
    (hgets : GetsFile f ip o) : ¬ClosesOnce (f.dial ip port) o inUse := by
  intro hcloses
  obtain ⟨sa, hsa⟩ := (@exists_sockaddr_iff ip port).mpr hgets.address
  obtain ⟨n, hn⟩ := Infinite.exists_notMem_finset inUse
  obtain ⟨m, hm⟩ := Infinite.exists_notMem_finset (insert n inUse)
  rw [Finset.mem_insert, not_or] at hm
  obtain ⟨d, hsocket, hopen, hfree⟩ : ∃ d, (process o inUse).answer (process o inUse).init
      (.socket (socketFamily ip) f.type) n = some (.ok n, d) ∧ d.table n ≠ none ∧
      d.table m = none := by
    refine ⟨{ (process o inUse).init.openAt n .socket with sockets := 1 }, ?_, ?_, ?_⟩
    · simp [process, Outcomes.answer, hgets.socket, hn]
    · simp [Descriptors.openAt]
    · simp [Descriptors.openAt, process, hm]
  have hstart : Reach ((f.dial ip port).interleaved (process o inUse)) any
      (Prog.deferred (syscall.close n) (f.dialFd ip sa n), d) := by
    simp only [f.dial_eq, hsa]
    exact Prog.reach_call .init hsocket
  obtain ⟨r, d', hexec, hnone⟩ := @dialFd_exec o inUse d n m f ip sa hgets hopen hfree
  have hbody := hexec.reach hstart
  have hreused : (process o inUse).others d' (.opens n) = some (d'.openAt n .other) := if_pos hnone
  have hreused := Prog.reach_others hbody hreused
  have hagain := Prog.reach_call (c := 0) hreused rfl
  refine (hcloses _ hagain).1 ?_
  simp [Descriptors.close, Descriptors.openAt]

end

/-- The socket is closed exactly once, and nothing else is closed, unless the calls up to
    `os.NewFile` succeed. Other threads may open and close descriptors between any two calls. -/
theorem closesOnce_iff (f : Dialer) (ip : IP) (port : Int) (o : Outcomes) (inUse : Finset Nat) :
    ClosesOnce (f.dial ip port) o inUse ↔ ¬GetsFile f ip o :=
  ⟨fun hcloses hgets => not_closesOnce_of_getsFile port inUse hgets hcloses,
    closesOnce_of_not_getsFile port inUse⟩

/-- All calls succeed. -/
def succeeding : Outcomes := ⟨none, 0, none, none, true, none, none⟩

/-- `UdpDail` to 9.9.9.9:53 gets descriptor 3 and closes it. Another thread opens 3, and
    `UdpDail` closes that. -/
theorem closes_foreign_descriptor : ¬ClosesOnce (udpDail [9, 9, 9, 9] 53) succeeding {0, 1, 2} := by
  intro hcloses
  obtain ⟨x, hreach, hforeign⟩ := exists_reach_of_run
    ((udpDail [9, 9, 9, 9] 53).interleaved (process succeeding {0, 1, 2})) any
    [.inl 3, .inl 0, .inl 0, .inl 0, .inl 4, .inl 0, .inl 0, .inr (.opens 3), .inl 0]
    (fun x => some .other ∈ x.2.closes) (by decide)
  exact (hcloses x hreach).1 hforeign

end tun2proxy.socketbase
