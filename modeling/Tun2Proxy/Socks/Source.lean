import Tun2Proxy.Socks.Writes

open tun2proxy.core tun2proxy.dns tun2proxy.go tun2proxy.machine tun2proxy.machine.Machine
open tun2proxy.udppackage

namespace tun2proxy.socks

/-! ### The address of a response -/

private theorem HandlerSection.dialled_le {env : Env} {s next : SocksStack} {act : SocksAct}
    (hsec : HandlerSection env s act next) : s.dialled ≤ next.dialled := by
  cases hsec with
  | dial _ _ _ => exact Nat.le_succ _
  | _ => exact Nat.le_refl _

/-- A socket stays with its connection. -/
theorem HandlerSection.conn {env : Env} {s next : SocksStack} {act : SocksAct}
    (hsec : HandlerSection env s act next) (hinv : SocketInv s) {k : SockNo} (hk : k < s.dialled) :
    (next.sockets k).conn = (s.sockets k).conn := by
  cases hsec with
  | dial _ _ _ =>
    simp only [SocksStack.setCall, SocksStack.dialSocket, Function.update_apply, Nat.ne_of_lt hk,
      if_false]
  | store _ | closed _ _ => exact s.dropSocket_conn _ k
  | send _ _ _ => exact s.send_conn _ k _
  | tick _ => rw [hinv.tick_eq]
  | _ => rfl

private theorem createAddr_of_lt (s : SocksStack) (a : UdpAct) {c : UdpNo} (hc : c < s.udp.created) :
    s.createAddr a c = s.remoteAddr c := by
  cases a with
  | create t registered =>
    cases registered with
    | false => rfl
    | true =>
      cases hproc : s.udp.procs t with
      | create _ _ _ =>
        simp only [SocksStack.createAddr, hproc]
        exact Function.update_of_ne (Nat.ne_of_lt hc) _ _
      | _ => simp only [SocksStack.createAddr, hproc]
  | _ => rfl

/-- Responses are written with the address that the connection was made for. -/
structure SourceInv (s : SocksStack) : Prop where
  sockets : ∀ k < s.dialled, (s.sockets k).conn < s.udp.created
  fetchers : ∀ k, s.fetchers k ≠ .absent → k < s.dialled
  responses : ∀ h ∈ s.writes, ∀ k raw, h.origin = .response k raw →
    k < s.dialled ∧ h.conn = (s.sockets k).conn ∧ h.addr = s.remoteAddr h.conn

namespace SourceInv

variable {env : Env} {s next : SocksStack} {act : SocksAct}

theorem init (env : Env) : SourceInv (SocksStack.init env) where
  sockets k hk := absurd hk (Nat.not_lt_zero k)
  fetchers k hk := absurd rfl hk
  responses h hh := by cases hh

theorem sockets_step (hinv : SourceInv s) (hsock : SocketInv s) (hsec : HandlerSection env s act next)
    (k : SockNo) (hk : k < next.dialled) : (next.sockets k).conn < s.udp.created := by
  by_cases hold : k < s.dialled
  · rw [hsec.conn hsock hold]
    exact hinv.sockets k hold
  · cases hsec with
    | dial hc _ _ =>
      obtain rfl : k = s.dialled :=
        Nat.le_antisymm (Nat.le_of_lt_succ hk) (Nat.le_of_not_lt hold)
      simpa [SocksStack.setCall, SocksStack.dialSocket] using hc
    | _ => exact absurd hk hold

private theorem fetchers_step (hinv : SourceInv s) (hsock : SocketInv s)
    (hsec : HandlerSection env s act next) (k : SockNo) (hk : next.fetchers k ≠ .absent) :
    k < s.dialled := by
  have hset : ∀ {k' : SockNo} {f : Fetcher}, Function.update s.fetchers k' f k ≠ .absent →
      (k' = k → k < s.dialled) → k < s.dialled := by
    intro k' f hupdate hown
    rw [Function.update_apply] at hupdate
    split at hupdate
    · rename_i heq
      exact hown heq.symm
    · exact hinv.fetchers k hupdate
  cases hsec with
  | fetch hat =>
    refine hset hk fun heq => ?_
    exact heq ▸ (hsock.calls _ _ (congrArg _ hat)).1
  | fetchMove hmove =>
    refine hset hk fun heq => hinv.fetchers k fun habsent => ?_
    subst heq
    rw [habsent] at hmove
    cases hmove
  | write hat _ | cache hat =>
    refine hset hk fun heq => hinv.fetchers k fun habsent => ?_
    subst heq
    rw [habsent] at hat
    cases hat
  | _ => exact hinv.fetchers k hk

private theorem responses_step (hinv : SourceInv s)
    (hsec : HandlerSection env s act next) (h : HandlerWrite) (hh : h ∈ next.writes) (k : SockNo)
    (raw : List UInt8) (horigin : h.origin = .response k raw) :
    k < s.dialled ∧ h.conn = (s.sockets k).conn ∧ h.addr = s.remoteAddr h.conn := by
  cases hsec with
  | pack _ _ _ =>
    obtain hold | hnew := List.mem_append.mp hh
    · exact hinv.responses h hold k raw horigin
    · cases List.mem_singleton.mp hnew
      cases horigin
  | @write k' t raw' payload hat _ =>
    obtain hold | hnew := List.mem_append.mp hh
    · exact hinv.responses h hold k raw horigin
    · cases List.mem_singleton.mp hnew
      cases horigin
      exact ⟨hinv.fetchers k (by rw [hat]; exact nofun), rfl, rfl⟩
  | _ => exact hinv.responses h hh k raw horigin

/-- Afterwards in all fields that the handler changes. -/
theorem section_step (hinv : SourceInv s) (hsock : SocketInv s)
    (hsec : HandlerSection env s act next) : SourceInv next := by
  have hle := hsec.dialled_le
  obtain ⟨hu, haddr, _⟩ := hsec.frame
  refine ⟨fun k hk => ?_, fun k hk => ?_, fun h hh k raw horigin => ?_⟩
  · rw [hu]
    exact hinv.sockets_step hsock hsec k hk
  · exact Nat.lt_of_lt_of_le (hinv.fetchers_step hsock hsec k hk) hle
  · obtain ⟨hk, hconn, haddr'⟩ := hinv.responses_step hsec h hh k raw horigin
    rw [haddr, hsec.conn hsock hk]
    exact ⟨Nat.lt_of_lt_of_le hk hle, hconn, haddr'⟩

end SourceInv

private theorem reach_sourceInv {env : Env} {ok : SocksStack → SocksAct → Prop} {s : SocksStack}
    (h : Reach (socksMachine env) ok s) : SourceInv s := by
  refine h.invariant (.init env) ?_
  intro s act s' hreach hinv _ hstep
  obtain ⟨next, hsec, hafter⟩ := SocksStack.step_section hstep
  have hnext := hinv.section_step (reach_socketInv hreach) hsec
  obtain ⟨_, rfl⟩ | ⟨a, u, _, hudp, rfl⟩ := hafter
  · exact hnext
  · obtain ⟨hu, haddr, _⟩ := hsec.frame
    have hle := (UdpStack.step_section hudp).created_le
    have hsockets : ∀ k < next.dialled, (next.sockets k).conn < s.udp.created := hu ▸ hnext.sockets
    refine ⟨fun k hk => Nat.lt_of_lt_of_le (hsockets k hk) hle, hnext.fetchers, ?_⟩
    intro h hh k raw horigin
    obtain ⟨hk, hconn, haddr'⟩ := hnext.responses h hh k raw horigin
    refine ⟨hk, hconn, ?_⟩
    rw [haddr', haddr]
    exact (createAddr_of_lt s a (hconn ▸ hsockets k hk)).symm

/-- The datagram `raw` from the proxy answers the client's `pkt`: this was sent on the
    socket, and `raw` repeats its header. -/
structure AnswersRequest (env : Env) (s : SocksStack) (k : SockNo) (raw : List UInt8)
    (pkt : UdpPacket) : Prop where
  invoked : pkt ∈ (s.udp.conns (s.sockets k).conn).invoked
  sent : ∃ full ∈ (s.sockets k).sent, packUDPData (some pkt.addr)
    (some (env.localAddr (s.udp.conns (s.sockets k).conn).connId)) pkt.data = .ok full
  header : packAddr pkt.addr ++
    packAddr (env.localAddr (s.udp.conns (s.sockets k).conn).connId) <+: raw

instance (env : Env) (s : SocksStack) (k : SockNo) (raw : List UInt8) (pkt : UdpPacket) :
    Decidable (AnswersRequest env s k raw pkt) :=
  decidable_of_iff (_ ∧ _ ∧ _) ⟨fun h => ⟨h.1, h.2.1, h.2.2⟩, fun h => ⟨h.1, h.2, h.3⟩⟩

/-- The response to a datagram has its destination as source exactly when the connection was
    made for that destination. The responses may come in any order, and datagrams to other
    destinations in between. -/
theorem source_eq_iff {env : Env} {s : SocksStack} {w : TunWrite} {k : SockNo} {raw : List UInt8}
    {pkt : UdpPacket} (hreach : Reach (socksMachine env) any s) (hw : WrittenFor s w (.response k raw))
    (_hanswers : AnswersRequest env s k raw pkt) :
    w.addr = pkt.addr ↔ s.remoteAddr (s.sockets k).conn = pkt.addr := by
  obtain ⟨hsent, h, hh, hconn, hcall, horigin⟩ := hw
  obtain ⟨_, haddr⟩ := (reach_writeInv hreach).sent w hsent h hh hconn hcall
  obtain ⟨_, hsock, hremote⟩ := (reach_sourceInv hreach).responses h hh k raw horigin
  rw [← haddr, hremote, hsock]

private theorem step_read {env : Env} {s : SocksStack} {k : SockNo} {data : List UInt8}
    (hat : s.fetchers k = .reading) (hopen : (s.sockets k).closed = false)
    (hform : WellFormed data) (hlen : data.length ≤ bufSize) :
    (socksMachine env).step s (.read k (.replicate bufSize 0) (some data)) =
      some (s.setFetcher k (.unpacked data (fieldsOf data).payload)) := by
  have hunpack : unpackUDPData (readDatagram (.replicate bufSize 0) bufSize data) =
      .ret (.ok (fieldsOf data)) := unpack_readDatagram_fits hform (Nat.le_trans hform hlen)
  have hbytes : (readDatagram (.replicate bufSize 0) bufSize data).bytes = data := by
    rw [bytes_readDatagram, List.take_of_length_le hlen]
  simp only [socksMachine, SocksStack.step, SocksStack.handle, SocksStack.fetchStep, hat, hopen,
    List.length_replicate, hunpack, hbytes, SocksStack.udpAct]
  rfl

/-- A state after a schedule, one datagram from the proxy, and another schedule. -/
theorem exists_reach_read (env : Env) (before after : List SocksAct) (k : SockNo)
    (data : List UInt8) (P : SocksStack → Prop) [∀ s, Decidable (P s)]
    (hform : WellFormed data) (hlen : data.length ≤ bufSize)
    (hrun : ((socksMachine env).run any (.init env) before).any (fun s =>
      decide (s.fetchers k = .reading ∧ (s.sockets k).closed = false) &&
        ((socksMachine env).run any (s.setFetcher k (.unpacked data (fieldsOf data).payload))
          after).any fun s => decide (P s)) = true) :
    ∃ s, Reach (socksMachine env) any s ∧ P s := by
  obtain ⟨mid, hmid, hrest⟩ := (Option.any_eq_true _ _).mp hrun
  rw [Bool.and_eq_true, decide_eq_true_eq] at hrest
  obtain ⟨⟨hat, hopen⟩, hrest⟩ := hrest
  obtain ⟨s, hs, hP⟩ := (Option.any_eq_true _ _).mp hrest
  have hreach := (Reach.init.run hmid).step (trivial : any _ _) (step_read hat hopen hform hlen)
  exact ⟨s, hreach.run hs, of_decide_eq_true hP⟩

/-- The datagram of `firstPacket`. -/
def toFirst : UdpPacket := ⟨0, some [1], ⟨[8, 8, 8, 8], 9, ""⟩⟩

/-- The same client sends a datagram to 9.9.9.9:9. -/
def toSecond : UdpPacket := ⟨1, some [2], ⟨[9, 9, 9, 9], 9, ""⟩⟩

/-- It is forwarded on the same connection. -/
def forwardSecond : List SocksAct :=
  [.udp (.recvFn 0 (some ⟨"10.0.0.2:5000"⟩) toSecond.data toSecond.addr), .udp (.run 0),
    .udp (.run 0), .udp (.run 0), .udp (.run 0), .lookup (.proc 0), .query (.proc 0) 0,
    .forward (.proc 0) true, .ret (.proc 0)]

/-- A response of one byte with the header of the request for `pkt`. -/
def responseTo (pkt : UdpPacket) : List UInt8 :=
  packAddr pkt.addr ++ packAddr (plainEnv.localAddr ⟨""⟩) ++ packLen 1 ++ [7]

/-- `fetchSocksData` writes it to the TUN side. -/
def relaying : List SocksAct := [.write 0 1, .udp (.run 1), .udp (.sendto 1 true)]

theorem source_of_first : ∃ s w, Reach (socksMachine plainEnv) any s ∧
    WrittenFor s w (.response 0 (responseTo toFirst)) ∧
    AnswersRequest plainEnv s 0 (responseTo toFirst) toFirst ∧ w.addr = toFirst.addr := by
  obtain ⟨s, hreach, hw, hanswers, hremote⟩ := exists_reach_read plainEnv (firstPacket ++ forwarding)
    relaying 0 (responseTo toFirst) (fun s => WrittenFor s ⟨0, 1, [7], toFirst.addr⟩
      (.response 0 (responseTo toFirst)) ∧ AnswersRequest plainEnv s 0 (responseTo toFirst) toFirst ∧
      s.remoteAddr (s.sockets 0).conn = toFirst.addr) (by decide) (by decide) (by decide)
  exact ⟨s, _, hreach, hw, hanswers, (source_eq_iff hreach hw hanswers).mpr hremote⟩

/-- The answer from 9.9.9.9 reaches the client as one from 8.8.8.8. -/
theorem wrong_source : ∃ s w, Reach (socksMachine plainEnv) any s ∧
    WrittenFor s w (.response 0 (responseTo toSecond)) ∧
    AnswersRequest plainEnv s 0 (responseTo toSecond) toSecond ∧ w.addr = toFirst.addr ∧
    w.addr ≠ toSecond.addr := by
  obtain ⟨s, hreach, hw, hanswers⟩ := exists_reach_read plainEnv
    (firstPacket ++ forwarding ++ forwardSecond) relaying 0 (responseTo toSecond)
    (fun s => WrittenFor s ⟨0, 2, [7], toFirst.addr⟩ (.response 0 (responseTo toSecond)) ∧
      AnswersRequest plainEnv s 0 (responseTo toSecond) toSecond) (by decide) (by decide) (by decide)
  exact ⟨s, _, hreach, hw, hanswers, rfl, by decide⟩

end tun2proxy.socks
