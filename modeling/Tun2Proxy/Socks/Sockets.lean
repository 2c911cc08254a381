import Tun2Proxy.Socks.Section

open tun2proxy.core tun2proxy.dns tun2proxy.go tun2proxy.machine tun2proxy.machine.Machine
open tun2proxy.udppackage

namespace tun2proxy.socks

/-- The socket that `Connect` has dialled, until it returns. -/
def HandlerAt.socket : HandlerAt → Option SockNo
  | .dialled k | .timed k | .stored k => some k
  | _ => none

namespace SocksStack

section
variable (s : SocksStack) (c : UdpNo) (k k' : SockNo) (order : List SockNo)

@[simp] theorem closeSocket_conn : ((s.closeSocket k).sockets k').conn = (s.sockets k').conn := by
  simp only [closeSocket, modSocket, Function.update_apply]
  split <;> simp_all

@[simp] theorem dropSocket_conn : ((s.dropSocket c).sockets k).conn = (s.sockets k).conn := by
  unfold dropSocket
  cases s.udpSocks c with
  | none => rfl
  | some k' => exact s.closeSocket_conn k' k

@[simp] theorem send_conn (full : List UInt8) :
    ((s.send k full).sockets k').conn = (s.sockets k').conn := by
  simp only [send, modSocket, Function.update_apply]
  split <;> simp_all

end

end SocksStack

/-! ### The sockets and their maps -/

/-- Every socket is in `connectionTimeMap`, with the time it was inserted with, from the
    moment `Connect` gets there; and `udpSocks` has sockets of the right connection. -/
structure SocketInv (s : SocksStack) : Prop where
  times : ∀ k t, s.connectionTimeMap k = some t → k < s.dialled ∧ t = timeoutSecond
  timed : ∀ k < s.dialled, s.connectionTimeMap k = some timeoutSecond ∨
    s.calls (.connector (s.sockets k).conn) = .dialled k
  udpSocks : ∀ c k, s.udpSocks c = some k → k < s.dialled ∧ (s.sockets k).conn = c
  calls : ∀ c k, (s.calls (.connector c)).socket = some k → k < s.dialled ∧ (s.sockets k).conn = c

namespace SocketInv

variable {env : Env} {s next : SocksStack} {act : SocksAct}

theorem init (env : Env) : SocketInv (SocksStack.init env) where
  times k t h := by cases h
  timed k h := absurd h (Nat.not_lt_zero k)
  udpSocks c k h := by cases h
  calls c k h := by cases h

/-- No entry is at its last tick. -/
theorem tickEntry_eq (hinv : SocketInv s) (k : SockNo) :
    SocksStack.tickEntry (s.connectionTimeMap, s.sockets) k = (s.connectionTimeMap, s.sockets) := by
  cases ht : s.connectionTimeMap k with
  | none => simp [SocksStack.tickEntry, ht]
  | some t =>
    obtain ⟨_, rfl⟩ := hinv.times k t ht
    have hlast : timeoutSecond - 1 ≠ 0 := by decide
    simp [SocksStack.tickEntry, ht, hlast]

/-- The timer does nothing. -/
theorem tick_eq (hinv : SocketInv s) (order : List SockNo) : s.tick order = s := by
  have hfold : order.foldl SocksStack.tickEntry (s.connectionTimeMap, s.sockets) =
      (s.connectionTimeMap, s.sockets) := by
    induction order with
    | nil => rfl
    | cons k order ih => rw [List.foldl_cons, hinv.tickEntry_eq k, ih]
  simp only [SocksStack.tick, hfold]

/-- A call moves on. It leaves `.dialled` when the time is in the map, and gets only a socket
    of its own. -/
theorem setCall (hinv : SocketInv s) {g : Caller} {place : HandlerAt}
    (hbefore : ∀ k, s.calls g = .dialled k → s.connectionTimeMap k = some timeoutSecond)
    (hafter : ∀ c k, g = .connector c → place.socket = some k →
      k < s.dialled ∧ (s.sockets k).conn = c) : SocketInv (s.setCall g place) where
  times := hinv.times
  timed k hk := by
    obtain htime | hat := hinv.timed k hk
    · exact .inl htime
    · by_cases hg : .connector (s.sockets k).conn = g
      · exact .inl (hbefore k (hg ▸ hat))
      · exact .inr ((Function.update_of_ne hg _ _).trans hat)
  udpSocks := hinv.udpSocks
  calls c k hk := by
    change (Function.update s.calls g place _).socket = _ at hk
    rw [Function.update_apply] at hk
    split at hk
    · rename_i hg
      exact hafter c k hg.symm hk
    · exact hinv.calls c k hk

/-- A call moves on that is not in `Connect`. -/
theorem setCall_outside (hinv : SocketInv s) {g : Caller} {place : HandlerAt}
    (hbefore : (s.calls g).socket = none) (hafter : place.socket = none) :
    SocketInv (s.setCall g place) := by
  refine hinv.setCall (fun k hat => ?_) fun c k _ hk => ?_
  · rw [hat] at hbefore
    cases hbefore
  · rw [hafter] at hk
    cases hk

/-- Sockets may be closed, used, and removed from `udpSocks`. -/
theorem of_conn (hinv : SocketInv s) (hdialled : next.dialled = s.dialled)
    (htimes : next.connectionTimeMap = s.connectionTimeMap) (hcalls : next.calls = s.calls)
    (hconn : ∀ k, (next.sockets k).conn = (s.sockets k).conn)
    (hsocks : ∀ c k, next.udpSocks c = some k → s.udpSocks c = some k) : SocketInv next where
  times := by
    rw [htimes, hdialled]
    exact hinv.times
  timed := by
    simp only [htimes, hdialled, hcalls, hconn]
    exact hinv.timed
  udpSocks c k hk := by
    rw [hdialled, hconn]
    exact hinv.udpSocks c k (hsocks c k hk)
  calls := by
    simp only [hdialled, hcalls, hconn]
    exact hinv.calls

theorem dropSocket (hinv : SocketInv s) (c : UdpNo) : SocketInv (s.dropSocket c) := by
  refine hinv.of_conn rfl rfl rfl (s.dropSocket_conn c) fun c' k hk => ?_
  change Function.update s.udpSocks c none c' = _ at hk
  rw [Function.update_apply] at hk
  split at hk
  · cases hk
  · exact hk

theorem dial (hinv : SocketInv s) {c : UdpNo} (hentry : s.calls (.connector c) = .entry) :
    SocketInv ((s.dialSocket c).setCall (.connector c) (.dialled s.dialled)) where
  times k t ht := ⟨Nat.lt_succ_of_lt (hinv.times k t ht).1, (hinv.times k t ht).2⟩
  timed k hk := by
    simp only [SocksStack.setCall, SocksStack.dialSocket, Function.update_apply]
    by_cases hnew : k = s.dialled
    · simp [hnew]
    · have hold : k < s.dialled := Nat.lt_of_le_of_ne (Nat.le_of_lt_succ hk) hnew
      rw [if_neg hnew]
      refine (hinv.timed k hold).imp id fun hat => ?_
      rw [if_neg, hat]
      intro heq
      rw [heq, hentry] at hat
      cases hat
  udpSocks c' k hk := by
    obtain ⟨hlt, hconn⟩ := hinv.udpSocks c' k hk
    refine ⟨Nat.lt_succ_of_lt hlt, ?_⟩
    simp only [SocksStack.setCall, SocksStack.dialSocket, Function.update_apply,
      Nat.ne_of_lt hlt, if_false, hconn]
  calls c' k hk := by
    simp only [SocksStack.setCall, SocksStack.dialSocket, Function.update_apply] at hk ⊢
    split at hk
    · rename_i heq
      cases heq
      cases hk
      simp
    · obtain ⟨hlt, hconn⟩ := hinv.calls c' k hk
      rw [if_neg (Nat.ne_of_lt hlt)]
      exact ⟨Nat.lt_succ_of_lt hlt, hconn⟩

theorem setTime (hinv : SocketInv s) {k : SockNo} (hk : k < s.dialled) :
    SocketInv (s.setTime k (some timeoutSecond)) where
  times k' t ht := by
    simp only [SocksStack.setTime, Function.update_apply] at ht
    split at ht
    · rename_i heq
      cases ht
      exact ⟨heq ▸ hk, rfl⟩
    · exact hinv.times k' t ht
  timed k' hk' := by
    by_cases heq : k' = k
    · exact .inl (by simp [SocksStack.setTime, heq])
    · exact (hinv.timed k' hk').imp (Function.update_of_ne heq _ _).trans id
  udpSocks := hinv.udpSocks
  calls := hinv.calls

theorem time (hinv : SocketInv s) {c : UdpNo} {k : SockNo}
    (hat : s.calls (.connector c) = .dialled k) :
    SocketInv ((s.setTime k (some timeoutSecond)).setCall (.connector c) (.timed k)) := by
  have hk := hinv.calls c k (congrArg _ hat)
  refine (hinv.setTime hk.1).setCall (fun k' hat' => ?_) fun c' k' hg hplace => ?_
  · cases hat.symm.trans hat'
    simp [SocksStack.setTime]
  · cases hg
    cases hplace
    exact hk

private theorem storeSocket (hinv : SocketInv s) {c : UdpNo} {k : SockNo}
    (hk : k < s.dialled ∧ (s.sockets k).conn = c) :
    SocketInv { s.dropSocket c with udpSocks := Function.update s.udpSocks c (some k) } where
  times := hinv.times
  timed := (hinv.dropSocket c).timed
  udpSocks c' k' hk' := by
    change Function.update s.udpSocks c (some k) c' = some k' at hk'
    change k' < s.dialled ∧ ((s.dropSocket c).sockets k').conn = c'
    rw [SocksStack.dropSocket_conn]
    rw [Function.update_apply] at hk'
    split at hk'
    · rename_i heq
      cases hk'
      exact heq ▸ hk
    · exact hinv.udpSocks c' k' hk'
  calls := (hinv.dropSocket c).calls

theorem store (hinv : SocketInv s) {c : UdpNo} {k : SockNo}
    (hat : s.calls (.connector c) = .timed k) :
    SocketInv ({ s.dropSocket c with udpSocks := Function.update s.udpSocks c (some k) }.setCall
      (.connector c) (.stored k)) := by
  have hk := hinv.calls c k (congrArg _ hat)
  refine (hinv.storeSocket hk).setCall (fun k' hat' => ?_) fun c' k' hg hplace => ?_
  · cases hat.symm.trans hat'
  · cases hg
    cases hplace
    exact ⟨hk.1, (s.dropSocket_conn c k).trans hk.2⟩

theorem fetch (hinv : SocketInv s) {c : UdpNo} {k : SockNo}
    (hat : s.calls (.connector c) = .stored k) :
    SocketInv ((s.setFetcher k .reading).setCall (.connector c) .entry) := by
  have hset : SocketInv (s.setFetcher k .reading) :=
    hinv.of_conn rfl rfl rfl (fun _ => rfl) fun _ _ => id
  refine hset.setCall (fun k' hat' => ?_) fun c' k' _ hplace => ?_
  · cases hat.symm.trans hat'
  · cases hplace

theorem step (hinv : SocketInv s) (hsec : HandlerSection env s act next) : SocketInv next := by
  cases hsec with
  | udp _ | dialFailed _ => exact hinv
  | dial _ _ hentry => exact hinv.dial hentry
  | time hat => exact hinv.time hat
  | store hat => exact hinv.store hat
  | fetch hat => exact hinv.fetch hat
  | move _ hmove =>
    generalize hplace : s.calls _ = before at hmove
    have hbefore : before.socket = none := by cases hmove <;> rfl
    refine hinv.setCall_outside (hplace ▸ hbefore) ?_
    cases hmove <;> rfl
  | hit _ hat _ | miss _ hat _ | pack _ hat _ =>
    apply SocketInv.setCall_outside
    · exact hinv.of_conn rfl rfl rfl (fun _ => rfl) fun _ _ => id
    · exact congrArg HandlerAt.socket hat
    · rfl
  | @send _ _ _ _ k full _ hat _ =>
    apply SocketInv.setCall_outside
    · exact hinv.of_conn rfl rfl rfl (s.send_conn k · full) fun _ _ => id
    · exact congrArg HandlerAt.socket hat
    · rfl
  | closed _ hat => exact (hinv.dropSocket _).setCall_outside (congrArg _ hat) rfl
  | fetchMove _ | write _ _ | cache _ => exact ⟨hinv.times, hinv.timed, hinv.udpSocks, hinv.calls⟩
  | tick _ =>
    rw [hinv.tick_eq]
    exact hinv

end SocketInv

/-- The connections' code does not touch what the invariant is about. -/
theorem SocketInv.machine_step {env : Env} {s s' : SocksStack} {act : SocksAct} (hinv : SocketInv s)
    (hstep : s.step env act = some s') : SocketInv s' := by
  obtain ⟨next, hsec, ⟨_, rfl⟩ | ⟨a, udp, _, _, rfl⟩⟩ := SocksStack.step_section hstep
  · exact hinv.step hsec
  · exact (hinv.step hsec).of_conn rfl rfl rfl (fun _ => rfl) fun _ _ => id

theorem reach_socketInv {env : Env} {ok : SocksStack → SocksAct → Prop} {s : SocksStack}
    (h : Reach (socksMachine env) ok s) : SocketInv s := by
  refine h.invariant (.init env) ?_
  intro s act s' _ hinv _ hstep
  exact hinv.machine_step hstep

/-! ### Where `Connect` runs -/

theorem UdpSection_connecting {u u' : UdpStack} {a : UdpAct} (hsec : UdpSection u a u') {c : UdpNo}
    (hat : u.connectors c = .connecting) :
    u'.connectors c = .connecting ∨ ∃ nilErr, a = .connect c nilErr := by
  have hstep := hsec.connectors c
  rw [hat] at hstep
  generalize u'.connectors c = g at hstep
  cases hstep with
  | same | new _ _ => exact .inl rfl
  | succeed hact | fail hact => exact .inr ⟨_, hact⟩

/-- A call of `Connect` runs inside the goroutine of `newUDPConn`. -/
def InConnect (s : SocksStack) : Prop :=
  ∀ c k, (s.calls (.connector c)).socket = some k → s.udp.connectors c = .connecting

theorem InConnect.section {env : Env} {s next : SocksStack} {act : SocksAct} (hinv : InConnect s)
    (hsec : HandlerSection env s act next) {c : UdpNo} {k : SockNo}
    (hk : (next.calls (.connector c)).socket = some k) : s.udp.connectors c = .connecting := by
  have hset : ∀ {g : Caller} {place : HandlerAt},
      (Function.update s.calls g place (.connector c)).socket = some k →
      (∀ c', g = .connector c' → place.socket = some k → s.udp.connectors c' = .connecting) →
      s.udp.connectors c = .connecting := by
    intro g place hupdate hown
    rw [Function.update_apply] at hupdate
    split at hupdate
    · rename_i heq
      exact hown c heq.symm hupdate
    · exact hinv c k hupdate
  cases hsec with
  | udp _ | dialFailed _ | fetchMove _ | write _ _ | cache _ | tick _ => exact hinv c k hk
  | dial _ hat _ =>
    refine hset hk fun c' heq _ => ?_
    cases heq
    exact hat
  | time hat | store hat =>
    refine hset hk fun c' heq _ => ?_
    cases heq
    exact hinv _ _ (congrArg _ hat)
  | fetch _ | hit _ _ _ | miss _ _ _ | pack _ _ _ | send _ _ _ | closed _ _ =>
    exact hset hk fun _ _ hplace => by cases hplace
  | move _ hmove =>
    refine hset hk fun _ _ hplace => ?_
    generalize s.calls _ = before at hmove
    cases hmove <;> cases hplace

private theorem udpAct_connect {env : Env} {s : SocksStack} {act : SocksAct} {c : UdpNo} {nilErr : Bool}
    (h : s.udpAct env act = some (.connect c nilErr)) :
    act = .udp (.connect c nilErr) ∨ act = .dial c false ∨ act = .fetch c := by
  cases act with
  | udp a =>
    cases h
    exact .inl rfl
  | dial c' nilErr' =>
    cases nilErr' with
    | false =>
      cases h
      exact .inr (.inl rfl)
    | true => cases h
  | fetch c' =>
    cases h
    exact .inr (.inr rfl)
  | pack g t | write k t =>
    simp only [SocksStack.udpAct] at h
    split at h <;> cases h
  | close g t =>
    simp only [SocksStack.udpAct, Option.map_eq_some_iff] at h
    obtain ⟨_, _, heq⟩ := h
    cases heq
  | ret g =>
    simp only [SocksStack.udpAct] at h
    split at h
    · cases g <;> cases h
    · cases h
  | _ => cases h

/-- When `newUDPConn` gets the result, `Connect` is over. -/
theorem HandlerSection.connect {env : Env} {s next : SocksStack} {act : SocksAct}
    (hsec : HandlerSection env s act next) {c : UdpNo} {nilErr : Bool}
    (hact : s.udpAct env act = some (.connect c nilErr)) :
    (next.calls (.connector c)).socket = none := by
  obtain rfl | rfl | rfl := udpAct_connect hact
  · cases hsec with
    | udp houtside => cases houtside
    | move _ hmove => cases hmove
    | fetchMove hmove => cases hmove
  · cases hsec with
    | dialFailed hentry => exact congrArg HandlerAt.socket hentry
    | move _ hmove => cases hmove
    | fetchMove hmove => cases hmove
  · cases hsec with
    | fetch _ => simp [SocksStack.setCall, HandlerAt.socket]
    | move _ hmove => cases hmove
    | fetchMove hmove => cases hmove

private theorem reach_inConnect {env : Env} {ok : SocksStack → SocksAct → Prop} {s : SocksStack}
    (h : Reach (socksMachine env) ok s) : InConnect s := by
  refine h.invariant (P := InConnect) (fun c k hk => by cases hk) ?_
  intro s act s' _ hinv _ hstep c k hk
  obtain ⟨next, hsec, ⟨_, rfl⟩ | ⟨a, udp, hact, hudp, rfl⟩⟩ := SocksStack.step_section hstep
  · rw [hsec.frame.1]
    exact hinv.section hsec hk
  · have hat := hinv.section hsec hk
    obtain hstay | ⟨nilErr, rfl⟩ := UdpSection_connecting (UdpStack.step_section hudp) hat
    · exact hstay
    · rw [hsec.connect hact] at hk
      cases hk

/-! ### Release -/

/-- No call of the handler for `c` is in progress. -/
structure NoHandlerCall (s : SocksStack) (c : UdpNo) : Prop where
  connect : s.udp.connectors c ≠ .connecting
  drain : ∀ pkt, s.udp.connectors c ≠ .handle pkt
  receiveTo : ∀ t pkt, s.udp.procs t ≠ .handle c pkt

/-- Nothing is left of the sockets that were dialled for `c`. -/
structure Released (s : SocksStack) (c : UdpNo) : Prop where
  closed : ∀ k < s.dialled, (s.sockets k).conn = c → (s.sockets k).closed
  udpSocks : s.udpSocks c = none
  connectionTimeMap : ∀ k < s.dialled, (s.sockets k).conn = c → s.connectionTimeMap k = none

/-- After its `Connect`, a socket is in `connectionTimeMap` for good. -/
theorem connectionTimeMap_of_idle {env : Env} {ok : SocksStack → SocksAct → Prop} {s : SocksStack}
    (hreach : Reach (socksMachine env) ok s) {k : SockNo} (hk : k < s.dialled)
    (hover : s.udp.connectors (s.sockets k).conn ≠ .connecting) :
    s.connectionTimeMap k = some timeoutSecond := by
  obtain htimed | hat := (reach_socketInv hreach).timed k hk
  · exact htimed
  · exact absurd (reach_inConnect hreach _ k (congrArg _ hat)) hover

/-- A closed connection has left no socket behind exactly when none was dialled for it, however
    it was closed. -/
theorem sockets_released_iff {env : Env} {s : SocksStack} {c : UdpNo}
    (hreach : Reach (socksMachine env) any s) (_hclosed : (s.udp.conns c).state = .udpClosed)
    (hidle : NoHandlerCall s c) :
    Released s c ↔ ∀ k < s.dialled, (s.sockets k).conn ≠ c := by
  constructor
  · intro hreleased k hk hconn
    have htimed := connectionTimeMap_of_idle hreach hk (hconn ▸ hidle.connect)
    rw [hreleased.connectionTimeMap k hk hconn] at htimed
    cases htimed
  · intro hnone
    refine ⟨fun k hk hconn => absurd hconn (hnone k hk), ?_,
      fun k hk hconn => absurd hconn (hnone k hk)⟩
    cases hsock : s.udpSocks c with
    | none => rfl
    | some k =>
      obtain ⟨hk, hconn⟩ := (reach_socketInv hreach).udpSocks c k hsock
      exact absurd hconn (hnone k hk)

/-- Nothing is run by a goroutine other than the first, apart from those of the
    connections and the handler. -/
def OnFirst (env : Env) (s : SocksStack) (act : SocksAct) : Prop :=
  ∀ a ∈ s.udpAct env act, a.starts = none ∨ a.starts = some 0

instance (env : Env) (s : SocksStack) (act : SocksAct) : Decidable (OnFirst env s act) :=
  inferInstanceAs (Decidable (∀ a ∈ s.udpAct env act, a.starts = none ∨ a.starts = some 0))

theorem onFirst_idle {env : Env} {s : SocksStack} (h : Reach (socksMachine env) (OnFirst env) s) :
    ∀ t, t ≠ 0 → s.udp.procs t = .idle := by
  refine h.invariant (P := fun s => ∀ t, t ≠ 0 → s.udp.procs t = .idle) (fun _ _ => rfl) ?_
  intro s act s' _ hinv hok hstep t ht
  obtain ⟨next, hsec, ⟨_, rfl⟩ | ⟨a, udp, hact, hudp, rfl⟩⟩ := SocksStack.step_section hstep
  · rw [hsec.frame.1]
    exact hinv t ht
  · refine (UdpStack.step_section hudp).idle (hinv t ht) fun hstarts => ?_
    have hfirst := hok a hact
    rw [hstarts] at hfirst
    obtain hnone | hzero := hfirst
    · cases hnone
    · exact ht (Option.some.inj hzero)

/-- A client at 10.0.0.2:5000, and no DNS. -/
def plainEnv : Env := ⟨UdpAssoc.noDns, fun _ => ⟨[10, 0, 0, 2], 5000, ""⟩, newSharedCache⟩

/-- The client sends a datagram to 8.8.8.8:9, and `Connect` is called. -/
def firstPacket : List SocksAct :=
  [.udp (.recvFn 0 (some ⟨"10.0.0.2:5000"⟩) (some [1]) ⟨[8, 8, 8, 8], 9, ""⟩), .udp (.run 0),
    .udp (.create 0 true), .udp (.run 0), .udp (.run 0), .udp (.run 0)]

/-- `Connect` succeeds, and the datagram is forwarded. -/
def forwarding : List SocksAct :=
  [.dial 0 true, .time 0, .store 0, .fetch 0, .udp (.connector 0), .udp (.connector 0),
    .lookup (.connector 0), .query (.connector 0) 0, .forward (.connector 0) true,
    .ret (.connector 0), .udp (.connector 0), .udp (.connector 0)]

/-- `lwipStack.Close` closes the connection. -/
def closingDirectly : List SocksAct := [.udp (.call 0 (.close 0)), .udp (.run 0), .udp (.run 0)]

private theorem noHandlerCall_of_ended {env : Env} {s : SocksStack} {c : UdpNo}
    (hreach : Reach (socksMachine env) (OnFirst env) s) (hended : (s.udp.connectors c).ended)
    (hidle : s.udp.procs 0 = .idle) : NoHandlerCall s c := by
  refine ⟨fun hat => ?_, fun pkt hat => ?_, fun t pkt hat => ?_⟩
  · rw [hat] at hended
    cases hended
  · rw [hat] at hended
    cases hended
  · by_cases ht : t = 0
    · rw [ht, hidle] at hat
      cases hat
    · rw [onFirst_idle hreach t ht] at hat
      cases hat

theorem released_dial_failed : ∃ s, Reach (socksMachine plainEnv) any s ∧
    (s.udp.conns 0).state = .udpClosed ∧ Released s 0 := by
  obtain ⟨s, hreach, hclosed, hended, hidle, hnone⟩ := exists_reach_of_run (socksMachine plainEnv)
    (OnFirst plainEnv) (firstPacket ++ [.dial 0 false, .udp (.connector 0), .udp (.connector 0)])
    (fun s => (s.udp.conns 0).state = .udpClosed ∧ (s.udp.connectors 0).ended ∧
      s.udp.procs 0 = .idle ∧ s.dialled = 0) (by decide)
  have hcalls := noHandlerCall_of_ended hreach hended hidle
  have hreach : Reach (socksMachine plainEnv) any s := hreach.mono fun _ _ _ => trivial
  exact ⟨s, hreach, hclosed, (sockets_released_iff hreach hclosed hcalls).mpr fun k hk => by omega⟩

/-- `lwipStack.Close` closes a connection, and its socket stays open and in both maps. -/
theorem socket_outlives_connection : ∃ s, Reach (socksMachine plainEnv) any s ∧
    (s.udp.conns 0).state = .udpClosed ∧ NoHandlerCall s 0 ∧ (s.sockets 0).conn = 0 ∧
    (s.sockets 0).closed = false ∧ s.udpSocks 0 = some 0 ∧ s.connectionTimeMap 0 ≠ none ∧
    ¬Released s 0 := by
  obtain ⟨s, hreach, hclosed, hended, hidle, hconn, hopen, hsocks, htime⟩ :=
    exists_reach_of_run (socksMachine plainEnv) (OnFirst plainEnv)
      (firstPacket ++ forwarding ++ closingDirectly)
      (fun s => (s.udp.conns 0).state = .udpClosed ∧ (s.udp.connectors 0).ended ∧
        s.udp.procs 0 = .idle ∧ (s.sockets 0).conn = 0 ∧ (s.sockets 0).closed = false ∧
        s.udpSocks 0 = some 0 ∧ s.connectionTimeMap 0 ≠ none) (by decide)
  refine ⟨s, hreach.mono fun _ _ _ => trivial, hclosed, noHandlerCall_of_ended hreach hended hidle,
    hconn, hopen, hsocks, htime, fun hreleased => ?_⟩
  rw [hreleased.udpSocks] at hsocks
  cases hsocks

/-! ### The timer -/

theorem SocketInv.entry_step {env : Env} {s next : SocksStack} {act : SocksAct} (hinv : SocketInv s)
    (hsec : HandlerSection env s act next) {k : SockNo} (hk : s.connectionTimeMap k ≠ none) :
    next.connectionTimeMap k ≠ none := by
  cases hsec with
  | time _ =>
    simp only [SocksStack.setCall, SocksStack.setTime, Function.update_apply]
    split
    · exact nofun
    · exact hk
  | tick _ =>
    rw [hinv.tick_eq]
    exact hk
  | _ => exact hk

/-- What a tick owes every entry. -/
def CountsDown (s s' : SocksStack) : Prop :=
  ∀ k t, s.connectionTimeMap k = some t →
    if t - 1 = 0 then s'.connectionTimeMap k = none ∧ (s'.sockets k).closed
    else s'.connectionTimeMap k = some (t - 1)

def SocksAct.isTick : SocksAct → Bool
  | .tick _ => true
  | _ => false

/-- A socket that has just been inserted is closed and removed by the tick with number
    `timeoutSecond`, and not before. -/
def ExpiresOnTime (env : Env) (s : SocksStack) (k : SockNo) : Prop :=
  ∀ schedule s', (socksMachine env).run any s schedule = some s' →
    (s'.connectionTimeMap k = none ↔
      timeoutSecond.toInt.toNat ≤ schedule.countP SocksAct.isTick) ∧
    (timeoutSecond.toInt.toNat ≤ schedule.countP SocksAct.isTick → (s'.sockets k).closed)

private theorem step_tick {env : Env} {s : SocksStack} (hinv : SocketInv s) :
    (socksMachine env).step s (.tick s.timedSockets) = some s := by
  simp [socksMachine, SocksStack.step, SocksStack.handle, SocksStack.udpAct, hinv.tick_eq]

private theorem run_ticks {env : Env} {s : SocksStack} (hinv : SocketInv s) (n : Nat) :
    (socksMachine env).run any s (List.replicate n (.tick s.timedSockets)) = some s := by
  induction n with
  | zero => rfl
  | succ n ih => rw [List.replicate_succ, run_cons trivial (step_tick hinv), ih]

private theorem not_expiresOnTime {env : Env} {s : SocksStack} (hinv : SocketInv s) {k : SockNo}
    (hk : s.connectionTimeMap k ≠ none) : ¬ExpiresOnTime env s k := by
  intro hexpires
  have hticks := (hexpires _ _ (run_ticks hinv timeoutSecond.toInt.toNat)).1
  refine hk (hticks.mpr (Nat.le_of_eq ?_))
  rw [List.countP_replicate]
  exact (if_pos rfl).symm

/-- No socket is ever counted down: a tick changes nothing, and every entry keeps the time
    it was inserted with. -/
theorem never_counted_down {env : Env} {s : SocksStack} {k : SockNo}
    (hreach : Reach (socksMachine env) any s) (hk : s.connectionTimeMap k ≠ none) :
    ¬ExpiresOnTime env s k ∧
    (∀ order s', (socksMachine env).step s (.tick order) = some s' → s' = s ∧ ¬CountsDown s s') ∧
    ∀ schedule s', (socksMachine env).run any s schedule = some s' →
      s'.connectionTimeMap k = some timeoutSecond := by
  have hinv := reach_socketInv hreach
  have hvalue : ∀ {s' : SocksStack}, SocketInv s' → s'.connectionTimeMap k ≠ none →
      s'.connectionTimeMap k = some timeoutSecond := by
    intro s' hinv' hk'
    obtain ⟨t, ht⟩ := Option.ne_none_iff_exists'.mp hk'
    rw [ht, (hinv'.times k t ht).2]
  refine ⟨not_expiresOnTime hinv hk, fun order s' hstep => ?_, fun schedule s' hrun => ?_⟩
  · obtain ⟨next, hsec, ⟨_, rfl⟩ | ⟨a, udp, hact, _⟩⟩ := SocksStack.step_section hstep
    · cases hsec with
      | tick _ =>
        rw [hinv.tick_eq]
        refine ⟨rfl, fun hcounts => ?_⟩
        have hcount := hcounts k timeoutSecond (hvalue hinv hk)
        have hlast : timeoutSecond - 1 ≠ 0 := by decide
        rw [if_neg hlast, hvalue hinv hk] at hcount
        revert hcount
        decide
      | move _ hmove => cases hmove
      | fetchMove hmove => cases hmove
    · cases hact
  · have hkept : SocketInv s' ∧ s'.connectionTimeMap k ≠ none :=
      run_invariant (P := fun s => SocketInv s ∧ s.connectionTimeMap k ≠ none)
        (fun s act s' hboth _ hstep => by
          refine ⟨hboth.1.machine_step hstep, ?_⟩
          obtain ⟨next, hsec, ⟨_, rfl⟩ | ⟨a, udp, _, _, rfl⟩⟩ := SocksStack.step_section hstep
          · exact hboth.1.entry_step hsec hboth.2
          · exact hboth.1.entry_step hsec hboth.2)
        hrun ⟨hinv, hk⟩
    exact hvalue hkept.1 hkept.2

private theorem timed_reach : ∃ s, Reach (socksMachine plainEnv) any s ∧ s.connectionTimeMap 0 ≠ none :=
  exists_reach_of_run (socksMachine plainEnv) any (firstPacket ++ forwarding)
    (fun s => s.connectionTimeMap 0 ≠ none) (by decide)

theorem never_counted_down_first : ∃ s, s.connectionTimeMap 0 ≠ none ∧
    ¬ExpiresOnTime plainEnv s 0 := by
  obtain ⟨s, hreach, hk⟩ := timed_reach
  exact ⟨s, hk, (never_counted_down hreach hk).1⟩

/-- After 21600 ticks the socket of the first connection is where it was. -/
theorem socket_not_expired : ∃ s, Reach (socksMachine plainEnv) any s ∧
    s.connectionTimeMap 0 ≠ none ∧
    (socksMachine plainEnv).run any s (List.replicate 21600 (.tick s.timedSockets)) = some s ∧
    ¬ExpiresOnTime plainEnv s 0 := by
  obtain ⟨s, hreach, hk⟩ := timed_reach
  have hinv := reach_socketInv hreach
  exact ⟨s, hreach, hk, run_ticks hinv 21600, not_expiresOnTime hinv hk⟩

end tun2proxy.socks
