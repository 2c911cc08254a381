import Tun2Proxy.Dns.Answer
import Tun2Proxy.Socks.Writes

open tun2proxy.core tun2proxy.dns tun2proxy.go tun2proxy.machine tun2proxy.machine.Machine
open tun2proxy.udppackage

namespace tun2proxy.socks

/-! ### The packet of a call -/

theorem connectors_of_le {ok : UdpStack → UdpAct → Prop} {u : UdpStack} (h : Reach udpMachine ok u) :
    ∀ c, u.created ≤ c → u.connectors c = .failed := by
  refine h.invariant (P := fun u => ∀ c, u.created ≤ c → u.connectors c = .failed)
    (fun _ _ => rfl) ?_
  intro u a u' _ hinv _ hstep c hc
  have hsec := UdpStack.step_section hstep
  have hmove := hsec.connectors c
  rw [hinv c (Nat.le_trans hsec.created_le hc)] at hmove
  generalize u'.connectors c = g at hmove
  cases hmove with
  | same => rfl
  | new hnew hafter =>
    rw [hafter, hnew] at hc
    exact absurd hc (Nat.not_succ_le_self _)

private theorem receiving_connector {s : SocksStack} {c : UdpNo} {x : UdpNo × UdpPacket} :
    s.receiving (.connector c) = some x ↔ s.udp.connectors c = .handle x.2 ∧ x.1 = c := by
  obtain ⟨c', pkt⟩ := x
  cases hat : s.udp.connectors c <;> simp [SocksStack.receiving, hat, and_comm, eq_comm]

private theorem receiving_proc {s : SocksStack} {t : Tid} {x : UdpNo × UdpPacket} :
    s.receiving (.proc t) = some x ↔ s.udp.procs t = .handle x.1 x.2 := by
  obtain ⟨c, pkt⟩ := x
  cases hat : s.udp.procs t <;> simp [SocksStack.receiving, hat]

private theorem receiving_of_udp {s s' : SocksStack} (hu : s'.udp = s.udp) (g : Caller) :
    s'.receiving g = s.receiving g := by
  cases g <;> simp only [SocksStack.receiving, hu]

/-- Until it returns, a call of `ReceiveTo` keeps its packet. -/
theorem receiving_step {s s' : SocksStack} {a : UdpAct} (hreach : Reach udpMachine any s.udp)
    (hsec : UdpSection s.udp a s'.udp) {g : Caller} {x : UdpNo × UdpPacket}
    (hrecv : s.receiving g = some x) :
    s'.receiving g = some x ∨ ∃ nilErr, a = g.returns nilErr := by
  cases g with
  | connector c =>
    obtain ⟨hat, hx⟩ := receiving_connector.mp hrecv
    have hmove := hsec.connectors c
    rw [hat] at hmove
    generalize hafter : s'.udp.connectors c = after at hmove
    cases hmove with
    | same => exact .inl (receiving_connector.mpr ⟨hafter, hx⟩)
    | new hnew _ =>
      rw [connectors_of_le hreach c (Nat.le_of_eq hnew.symm)] at hat
      cases hat
    | handled hact | stop hact _ => exact .inr ⟨_, hact⟩
  | proc t =>
    have hat := receiving_proc.mp hrecv
    obtain hsame | hown := hsec.procs t
    · exact .inl (receiving_proc.mpr (hsame.trans hat))
    · rw [hat] at hown
      generalize s'.udp.procs t = after at hown
      cases hown with
      | move hmove => cases hmove
      | queue hstart | receive hstart _ => cases hstart
      | refuse hrefused _ => cases hrefused
      | handled hact _ => exact .inr ⟨_, hact⟩

private theorem Caller.returns_inj {g g' : Caller} {nilErr nilErr' : Bool}
    (h : g.returns nilErr = g'.returns nilErr') : g = g' := by
  cases g <;> cases g' <;> cases h <;> rfl

theorem byHandler_returns (g : Caller) (nilErr : Bool) : byHandler (g.returns nilErr) = true := by
  cases g <;> rfl

/-- When its caller gets the result, a call is over. -/
theorem HandlerSection.returns {env : Env} {s next : SocksStack} {act : SocksAct}
    (hsec : HandlerSection env s act next) {g : Caller} {nilErr : Bool}
    (hact : s.udpAct env act = some (g.returns nilErr)) : next.calls g = .entry := by
  cases act with
  | udp a =>
    cases hact
    cases hsec with
    | udp houtside =>
      rw [byHandler_returns] at houtside
      cases houtside
    | move _ hmove => cases hmove
    | fetchMove hmove => cases hmove
  | ret g' =>
    cases hsec with
    | move hrecv hmove =>
      generalize hcall : s.calls _ = before at hmove
      cases hmove
      simp only [SocksStack.udpAct, hcall, Option.some.injEq] at hact
      cases Caller.returns_inj hact
      simp [SocksStack.setCall]
    | fetchMove hmove => cases hmove
  | dial c nilErr' => cases nilErr' <;> cases g <;> cases hact
  | pack g' t | write k t =>
    simp only [SocksStack.udpAct] at hact
    split at hact <;> cases g <;> cases hact
  | close g' t =>
    simp only [SocksStack.udpAct, Option.map_eq_some_iff] at hact
    obtain ⟨_, _, heq⟩ := hact
    cases g <;> cases heq
  | _ => cases g <;> cases hact

/-! ### The entries of the cache -/

/-- The message that a call has for a request. -/
def SocksStack.request (env : Env) (s : SocksStack) (g : Caller) : Option Msg :=
  (s.receiving g).bind fun (_, pkt) => env.lib.unpack pkt.data.content

/-- The entries that exist are not written to. -/
structure Kept (c c' : SharedCache) : Prop where
  next_le : c.next ≤ c'.next
  cells : ∀ p < c.next, c'.cells p = c.cells p

theorem Kept.refl (c : SharedCache) : Kept c c := ⟨Nat.le_refl _, fun _ _ => rfl⟩

theorem Kept.query {lib : Library} {now : Nat} {c c' : SharedCache} {payload : List UInt8}
    (h : c.query lib now payload = (none, c')) : Kept c c' := by
  have hspec := SharedCache.query_spec lib now c payload
  rw [h] at hspec
  cases hspec with
  | miss => exact .refl c
  | expired => exact ⟨Nat.le_refl _, fun _ _ => rfl⟩

theorem Kept.store (lib : Library) (now : Nat) (c : SharedCache) (payload : List UInt8) :
    Kept c (c.store lib now payload) := by
  obtain heq | ⟨key, entry, heq⟩ := SharedCache.store_spec lib now c payload
  · rw [heq]
    exact .refl c
  · rw [heq]
    exact ⟨Nat.le_succ _, fun p hp => Boxed.cells_insert hp⟩

private theorem answer_of_setCall {s : SocksStack} {g g' : Caller} {place : HandlerAt} {p : Nat}
    (hplace : place ≠ .answer p) (h : (s.setCall g place).calls g' = .answer p) :
    s.calls g' = .answer p := by
  simp only [SocksStack.setCall, Function.update_apply] at h
  split at h
  · exact absurd h hplace
  · exact h

/-- Only a hit of `Query` writes to an entry, and only then a call gets one. -/
theorem HandlerSection.entries {env : Env} {s next : SocksStack} {act : SocksAct}
    (hsec : HandlerSection env s act next) :
    (Kept s.dnsCache next.dnsCache ∧ ∀ g p, next.calls g = .answer p → s.calls g = .answer p) ∨
      ∃ g now request question p, act = .query g now ∧ s.request env g = some request ∧
        request.Question.head? = some question ∧ s.dnsCache.keys (cacheKey question) = some p ∧
        ¬(s.dnsCache.cells p).exp < now ∧ next.dnsCache = s.dnsCache.setId p request.Id ∧
        next.calls = Function.update s.calls g (.answer p) := by
  cases hsec with
  | @hit g now c pkt k p dnsCache hrecv _ hquery =>
    have hspec := SharedCache.query_spec env.lib now s.dnsCache pkt.data.content
    rw [hquery] at hspec
    cases hspec with
    | @hit request question _ hunpack hquestion hp hfresh =>
      refine .inr ⟨g, now, request, question, p, rfl, ?_, hquestion, hp, hfresh, rfl, rfl⟩
      simpa [SocksStack.request, hrecv] using hunpack
  | miss _ _ hquery => exact .inl ⟨.query hquery, fun _ _ => answer_of_setCall nofun⟩
  | cache _ => exact .inl ⟨.store _ _ _ _, fun _ _ h => h⟩
  | move _ hmove =>
    refine .inl ⟨.refl _, fun _ _ => answer_of_setCall ?_⟩
    generalize s.calls _ = before at hmove
    cases hmove <;> exact nofun
  | dial _ _ _ | time _ | store _ | fetch _ | pack _ _ _ | send _ _ _ | closed _ _ =>
    exact .inl ⟨.refl _, fun _ _ => answer_of_setCall nofun⟩
  | _ => exact .inl ⟨.refl _, fun _ _ h => h⟩

/-- What is logged as an answer was packed for the packet of the call. -/
theorem HandlerSection.answers {env : Env} {s next : SocksStack} {act : SocksAct}
    (hsec : HandlerSection env s act next) {h : HandlerWrite} (hh : h ∈ next.writes)
    {pkt : UdpPacket} {packed : Msg} (horigin : h.origin = .answer pkt packed) :
    h ∈ s.writes ∨ ∃ g p, s.calls g = .answer p ∧
      s.request env g = env.lib.unpack pkt.data.content ∧ packed = (s.dnsCache.cells p).msg ∧
      h.data = env.lib.packBuffer packed := by
  cases hsec with
  | @pack g t c pkt' p hrecv hat _ =>
    obtain hold | hnew := List.mem_append.mp hh
    · exact .inl hold
    · cases List.mem_singleton.mp hnew
      cases horigin
      exact .inr ⟨g, p, hat, by rw [SocksStack.request, hrecv, Option.bind_some], rfl, rfl⟩
  | write _ _ =>
    obtain hold | hnew := List.mem_append.mp hh
    · exact .inl hold
    · cases List.mem_singleton.mp hnew
      cases horigin
  | _ => exact .inl hh

/-! ### The Id of an answer -/

/-- The message that was packed for `pkt` has the Id of the request in `pkt`. -/
def OwnId (lib : Library) (pkt : UdpPacket) (packed : Msg) : Prop :=
  ∃ request, lib.unpack pkt.data.content = some request ∧ packed.Id = request.Id

/-- A query that finds an entry which another call has got from the cache, and has not
    packed yet, has the same Id as the query of that call. -/
def SameIdWhileShared (env : Env) (s : SocksStack) (act : SocksAct) : Prop :=
  ∀ g now, act = .query g now → ∀ request ∈ s.request env g, ∀ question ∈ request.Question.head?,
    ∀ p ∈ s.dnsCache.keys (cacheKey question), ¬(s.dnsCache.cells p).exp < now →
      ∀ g', g' ≠ g → s.calls g' = .answer p → ∀ other ∈ s.request env g', other.Id = request.Id

/-- A call that has got an entry finds its own Id there. -/
structure IdInv (env : Env) (s : SocksStack) : Prop where
  entries : ∀ g p, s.calls g = .answer p → p < s.dnsCache.next ∧
    ∃ request, s.request env g = some request ∧ (s.dnsCache.cells p).msg.Id = request.Id
  answers : ∀ h ∈ s.writes, ∀ pkt packed, h.origin = .answer pkt packed →
    h.data = env.lib.packBuffer packed ∧ OwnId env.lib pkt packed

namespace IdInv

variable {env : Env} {s next : SocksStack} {act : SocksAct}

theorem init (env : Env) : IdInv env (SocksStack.init env) where
  entries g p h := by cases h
  answers h hh := by cases hh

/-- The message of entry `p` after `entry.msg.Id = id`. -/
theorem id_setId (c : SharedCache) (p q : Nat) (id : UInt16) :
    ((c.setId p id).cells q).msg.Id = if q = p then id else (c.cells q).msg.Id := by
  simp only [SharedCache.setId, Boxed.modify, Function.update_apply]
  split <;> rfl

private theorem entries_step (hinv : IdInv env s) (hok : SameIdWhileShared env s act)
    (hsec : HandlerSection env s act next) (g : Caller) (p : Nat) (hat : next.calls g = .answer p) :
    p < next.dnsCache.next ∧ ∃ request, s.request env g = some request ∧
      (next.dnsCache.cells p).msg.Id = request.Id := by
  obtain ⟨hkept, hold⟩ | ⟨g', now, request, question, p', hact, hrequest, hquestion, hp, hfresh,
    hcache, hcalls⟩ := hsec.entries
  · obtain ⟨hlt, request, hrequest, hid⟩ := hinv.entries g p (hold g p hat)
    refine ⟨Nat.lt_of_lt_of_le hlt hkept.next_le, request, hrequest, ?_⟩
    rw [hkept.cells p hlt, hid]
  · rw [hcalls, Function.update_apply] at hat
    rw [hcache, id_setId]
    split at hat
    · rename_i heq
      cases hat
      exact ⟨s.dnsCache.keys_lt hp, request, heq ▸ hrequest, if_pos rfl⟩
    · rename_i hne
      obtain ⟨hlt, other, hother, hid⟩ := hinv.entries g p hat
      refine ⟨hlt, other, hother, ?_⟩
      split
      · rename_i heq
        exact (hok g' now hact request hrequest question hquestion p' hp hfresh g hne (heq ▸ hat)
          other hother).symm
      · exact hid

theorem answers_step (hinv : IdInv env s) (hsec : HandlerSection env s act next) (h : HandlerWrite)
    (hh : h ∈ next.writes) (pkt : UdpPacket) (packed : Msg) (horigin : h.origin = .answer pkt packed) :
    h.data = env.lib.packBuffer packed ∧ OwnId env.lib pkt packed := by
  obtain hold | ⟨g, p, hat, hunpack, rfl, hdata⟩ := hsec.answers hh horigin
  · exact hinv.answers h hold pkt packed horigin
  · obtain ⟨_, request, hrequest, hid⟩ := hinv.entries g p hat
    exact ⟨hdata, request, hunpack ▸ hrequest, hid⟩

end IdInv

private theorem reach_idInv {env : Env} {s : SocksStack}
    (h : Reach (socksMachine env) (SameIdWhileShared env) s) : IdInv env s := by
  refine h.invariant (.init env) ?_
  intro s act s' hreach hinv hok hstep
  obtain ⟨next, hsec, hafter⟩ := SocksStack.step_section hstep
  have hentries := hinv.entries_step hok hsec
  have hanswers := hinv.answers_step hsec
  obtain ⟨_, rfl⟩ | ⟨a, u, hact, hudp, rfl⟩ := hafter
  · refine ⟨fun g p hat => ?_, hanswers⟩
    obtain ⟨hlt, request, hrequest, hid⟩ := hentries g p hat
    refine ⟨hlt, request, ?_, hid⟩
    rw [SocksStack.request, receiving_of_udp hsec.frame.1]
    exact hrequest
  · refine ⟨fun g p hat => ?_, hanswers⟩
    obtain ⟨hlt, request, hrequest, hid⟩ := hentries g p hat
    refine ⟨hlt, request, ?_, hid⟩
    obtain ⟨x, hrecv, hunpack⟩ := Option.bind_eq_some_iff.mp hrequest
    obtain hsame | ⟨nilErr, rfl⟩ := @receiving_step s
      { next with udp := u, remoteAddr := s.createAddr a, toTun := s.toTun ++ s.sends a } a
      (reach_udp hreach) (UdpStack.step_section hudp) g x hrecv
    · exact Option.bind_eq_some_iff.mpr ⟨x, hsame, hunpack⟩
    · rw [hsec.returns hact] at hat
      cases hat

/-- As long as calls share an entry only with the same Id, every reply has the Id of the request
    in the packet it answers. Any number of calls run at once. -/
theorem reply_own_id {env : Env} {s : SocksStack} {w : TunWrite} {pkt : UdpPacket} {packed : Msg}
    (hreach : Reach (socksMachine env) (SameIdWhileShared env) s)
    (hw : WrittenFor s w (.answer pkt packed)) :
    w.data = env.lib.packBuffer packed ∧ OwnId env.lib pkt packed := by
  obtain ⟨hsent, h, hh, hconn, hcall, horigin⟩ := hw
  obtain ⟨hdata, hid⟩ := (reach_idInv hreach).answers h hh pkt packed horigin
  rw [← ((reach_writeInv hreach).sent w hsent h hh hconn hcall).1]
  exact ⟨hdata, hid⟩

def HandlerAt.isAnswer : HandlerAt → Bool
  | .answer _ => true
  | _ => false

/-- Who asks the cache in a step. -/
def SocksAct.asker : SocksAct → Option Caller
  | .query g _ => some g
  | _ => none

/-- Only `gs` ask the cache, each when no answer waits to be packed. -/
def OneByOne (gs : List Caller) (s : SocksStack) (act : SocksAct) : Prop :=
  ∀ g ∈ act.asker, g ∈ gs ∧ ∀ g' ∈ gs, (s.calls g').isAnswer = false

instance (gs : List Caller) (s : SocksStack) (act : SocksAct) : Decidable (OneByOne gs s act) :=
  inferInstanceAs (Decidable (∀ g ∈ act.asker, _))

/-- Who has an entry has asked for it. -/
theorem answer_mem {env : Env} {gs : List Caller} {s : SocksStack}
    (h : Reach (socksMachine env) (OneByOne gs) s) : ∀ g p, s.calls g = .answer p → g ∈ gs := by
  refine h.invariant (P := fun s => ∀ g p, s.calls g = .answer p → g ∈ gs)
    (fun _ _ h => by cases h) ?_
  intro s act s' _ hinv hok hstep g p hat
  obtain ⟨next, hsec, hafter⟩ := SocksStack.step_section hstep
  have hnext : next.calls g = .answer p := by
    obtain ⟨_, rfl⟩ | ⟨_, _, _, _, rfl⟩ := hafter <;> exact hat
  obtain ⟨_, hold⟩ | ⟨g', now, _, _, _, rfl, _, _, _, _, _, hcalls⟩ := hsec.entries
  · exact hinv g p (hold g p hnext)
  · rw [hcalls, Function.update_apply] at hnext
    split at hnext
    · rename_i heq
      exact heq ▸ (hok _ rfl).1
    · exact hinv g p hnext

/-- Nothing is shared then. -/
theorem reach_oneByOne {env : Env} {gs : List Caller} {s : SocksStack}
    (h : Reach (socksMachine env) (OneByOne gs) s) :
    Reach (socksMachine env) (SameIdWhileShared env) s := by
  induction h with
  | init => exact .init
  | @step s act _ hreach hok hstep ih =>
    refine ih.step ?_ hstep
    rintro g now rfl _ _ _ _ p _ _ g' _ hat
    have hfree := (hok _ rfl).2 g' (answer_mem hreach g' p hat)
    rw [hat] at hfree
    cases hfree

/-- Two clients, and a cache with the TXT record of `v.`. -/
def txtEnv : Env where
  lib := txtLib
  localAddr id :=
    if id.src = "10.0.0.2:5000" then ⟨[10, 0, 0, 2], 5000, ""⟩ else ⟨[10, 0, 0, 3], 5000, ""⟩
  dnsCache := newSharedCache.store txtLib 0 (0 :: 1 :: (txtResponse 1).1)

/-- A query for that record as the first packet of a connection. -/
def txtPacket (id : UInt8) : UdpPacket :=
  ⟨0, some (0 :: id :: (txtQuery 1).1), ⟨[8, 8, 8, 8], 53, ""⟩⟩

/-- Connection `c` is made for a client that asks for it, and its goroutine calls
    `ReceiveTo`. -/
def asking (c : UdpNo) (client : String) (id : UInt8) : List SocksAct :=
  [.udp (.recvFn 0 (some ⟨client⟩) (txtPacket id).data (txtPacket id).addr), .udp (.run 0),
    .udp (.create 0 true), .udp (.run 0), .udp (.run 0), .udp (.run 0), .dial c true, .time c,
    .store c, .fetch c, .udp (.connector c), .udp (.connector c), .lookup (.connector c)]

/-- The call for connection `c` writes its answer, as goroutine `t`. -/
def answering (c : UdpNo) (t : Tid) : List SocksAct :=
  [.pack (.connector c) t, .udp (.run t), .udp (.sendto t true)]

/-- The second client asks when the first has got its answer. -/
theorem reply_own_id_txt : ∃ s first second,
    (WrittenFor s ⟨0, 1, 0 :: 5 :: (txtResponse 1).1, ⟨[8, 8, 8, 8], 53, ""⟩⟩
        (.answer (txtPacket 5) first) ∧ OwnId txtLib (txtPacket 5) first) ∧
      WrittenFor s ⟨1, 1, 0 :: 6 :: (txtResponse 1).1, ⟨[8, 8, 8, 8], 53, ""⟩⟩
        (.answer (txtPacket 6) second) ∧ OwnId txtLib (txtPacket 6) second := by
  obtain ⟨s, hreach, hfirst, hsecond⟩ := exists_reach_of_run (socksMachine txtEnv)
    (OneByOne [.connector 0, .connector 1])
    (asking 0 "10.0.0.2:5000" 5 ++ asking 1 "10.0.0.3:5000" 6 ++
      .query (.connector 0) 0 :: answering 0 1 ++ .query (.connector 1) 0 :: answering 1 2)
    (fun s => WrittenFor s ⟨0, 1, 0 :: 5 :: (txtResponse 1).1, ⟨[8, 8, 8, 8], 53, ""⟩⟩
        (.answer (txtPacket 5) { (txtResponse 1).2 with Id := 5 }) ∧
      WrittenFor s ⟨1, 1, 0 :: 6 :: (txtResponse 1).1, ⟨[8, 8, 8, 8], 53, ""⟩⟩
        (.answer (txtPacket 6) { (txtResponse 1).2 with Id := 6 })) (by decide)
  have hreach := reach_oneByOne hreach
  exact ⟨s, _, _, ⟨hfirst, (reply_own_id hreach hfirst).2⟩, hsecond, (reply_own_id hreach hsecond).2⟩

/-- The client that asked with Id 5 gets the answer with Id 6, the Id of the other client. -/
theorem reply_with_other_id : ∃ s w packed, Reach (socksMachine txtEnv) any s ∧
    WrittenFor s w (.answer (txtPacket 5) packed) ∧ w.data.take 2 = [0, 6] ∧
    w.data = txtLib.packBuffer packed ∧ ¬OwnId txtLib (txtPacket 5) packed := by
  obtain ⟨s, hreach, hw⟩ := exists_reach_of_run (socksMachine txtEnv) any
    (asking 0 "10.0.0.2:5000" 5 ++ asking 1 "10.0.0.3:5000" 6 ++
      [.query (.connector 0) 0, .query (.connector 1) 0] ++ answering 0 1)
    (fun s => WrittenFor s ⟨0, 1, 0 :: 6 :: (txtResponse 1).1, ⟨[8, 8, 8, 8], 53, ""⟩⟩
      (.answer (txtPacket 5) { (txtResponse 1).2 with Id := 6 })) (by decide)
  refine ⟨s, _, _, hreach, hw, rfl, by decide, ?_⟩
  rintro ⟨request, hunpack, hid⟩
  have hfive : txtLib.unpack (txtPacket 5).data.content = some { (txtQuery 1).2 with Id := 5 } := by
    decide
  cases hfive.symm.trans hunpack
  revert hid
  decide

end tun2proxy.socks
