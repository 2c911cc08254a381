import Tun2Proxy.Socks.Sockets

open tun2proxy.core tun2proxy.dns tun2proxy.go tun2proxy.machine tun2proxy.machine.Machine
open tun2proxy.udppackage

namespace tun2proxy.socks

/-! ### One call of `WriteFrom` -/

/-- What a goroutine inside `WriteFrom` is about to send. -/
def writing : UdpProc → Option TunWrite
  | .writeCheck c call data addr | .send c call data addr => some ⟨c, call, data, addr⟩
  | _ => none

theorem callOn_of_writing {p : UdpProc} {w : TunWrite} (h : writing p = some w) :
    p.callOn w.conn = some w.call := by
  cases p <;> cases h <;> exact if_pos rfl

private theorem writing_step {u u' : UdpStack} {a : UdpAct} (hsec : UdpSection u a u') {t : Tid}
    {w : TunWrite} (h : writing (u'.procs t) = some w) :
    writing (u.procs t) = some w ∨
      a = .call t (.writeFrom w.conn w.data w.addr) ∧ w.call = (u.conns w.conn).calls := by
  obtain hsame | hown := hsec.procs t
  · exact .inl (hsame ▸ h)
  generalize u.procs t = p at hown
  generalize u'.procs t = p' at hown h
  cases hown with
  | writeFrom hact _ _ =>
    cases h
    exact .inr ⟨hact, rfl⟩
  | move hmove =>
    cases hmove with
    | writeCheck _ => exact .inl h
    | _ => cases h
  | _ => cases h

theorem step_writeFrom {u u' : UdpStack} {t : Tid} {c : UdpNo} {data : List UInt8} {addr : UDPAddr}
    (hdata : data ≠ []) (hstep : udpMachine.step u (.call t (.writeFrom c data addr)) = some u') :
    c < u.created ∧
      u' = (u.modConn c UdpConn.called).setProc t (.writeCheck c (u.conns c).calls data addr) := by
  simp only [udpMachine, UdpStack.step, Option.ite_none_right_eq_some, UdpCall.conn, hdata,
    if_false, Option.some.injEq] at hstep
  exact ⟨hstep.1.2, hstep.2.symm⟩

/-- A call that was made stays made. -/
theorem called_step {u u' : UdpStack} {a : UdpAct} (hsec : UdpSection u a u') {c : UdpNo} {n : Nat}
    (h : c < u.created ∧ n < (u.conns c).calls) : c < u'.created ∧ n < (u'.conns c).calls := by
  obtain ⟨hc, hn⟩ := h
  refine ⟨Nat.lt_of_lt_of_le hc hsec.created_le, ?_⟩
  obtain heq | ⟨heq, _⟩ := (hsec.conns c).calls hc <;> omega

/-- What is sent belongs to a goroutine at `udp_sendto`. -/
theorem sends_eq {s : SocksStack} {a : UdpAct} {w : TunWrite} (hw : w ∈ s.sends a) :
    ∃ t, writing (s.udp.procs t) = some w := by
  cases a with
  | sendto t nilErr =>
    cases nilErr with
    | false => cases hw
    | true =>
      simp only [SocksStack.sends] at hw
      split at hw
      · rename_i hproc
        cases List.mem_singleton.mp hw
        exact ⟨t, by rw [hproc]; rfl⟩
      · cases hw
  | _ => cases hw

/-- The log grows with the calls of `WriteFrom` that the handler makes. -/
theorem HandlerSection.writes {env : Env} {s next : SocksStack} {act : SocksAct}
    (hsec : HandlerSection env s act next) :
    next.writes = s.writes ∨ ∃ t h, next.writes = s.writes ++ [h] ∧
      h.call = (s.udp.conns h.conn).calls ∧ h.data ≠ [] ∧
      s.udpAct env act = some (.call t (.writeFrom h.conn h.data h.addr)) := by
  cases hsec with
  | @pack g t c pkt p hrecv hat hresp =>
    exact .inr ⟨t, _, rfl, rfl, hresp, by simp only [SocksStack.udpAct, hrecv, hat]⟩
  | @write k t raw payload hat hpayload =>
    exact .inr ⟨t, _, rfl, rfl, hpayload, by simp only [SocksStack.udpAct, hat]⟩
  | _ => exact .inl rfl

/-! ### What reaches the TUN side -/

/-- If the two have the same call, they have the same data and address. -/
def HandlerWrite.Agrees (h : HandlerWrite) (w : TunWrite) : Prop :=
  h.conn = w.conn → h.call = w.call → h.data = w.data ∧ h.addr = w.addr

/-- What was sent, or will be, is what the handler called `WriteFrom` with. -/
structure WriteInv (s : SocksStack) : Prop where
  logged : ∀ h ∈ s.writes, h.conn < s.udp.created ∧ h.call < (s.udp.conns h.conn).calls
  running : ∀ t w, writing (s.udp.procs t) = some w → ∀ h ∈ s.writes, h.Agrees w
  made : ∀ w ∈ s.toTun, w.conn < s.udp.created ∧ w.call < (s.udp.conns w.conn).calls
  sent : ∀ w ∈ s.toTun, ∀ h ∈ s.writes, h.Agrees w

namespace WriteInv

variable {s : SocksStack}

theorem init (env : Env) : WriteInv (SocksStack.init env) where
  logged h hh := by cases hh
  running t w hw := by cases hw
  made w hw := by cases hw
  sent w hw := by cases hw

theorem of_eq (hinv : WriteInv s) {s' : SocksStack} (hu : s'.udp = s.udp)
    (hwrites : s'.writes = s.writes) (htun : s'.toTun = s.toTun) : WriteInv s' := by
  obtain ⟨hlogged, hrunning, hmade, hsent⟩ := hinv
  rw [← hu, ← hwrites] at hlogged hrunning
  rw [← hu, ← htun] at hmade
  rw [← htun, ← hwrites] at hsent
  exact ⟨hlogged, hrunning, hmade, hsent⟩

/-- A goroutine inside `WriteFrom` has a call that was counted. -/
theorem running_lt {u : UdpStack} (hreach : Reach udpMachine any u) {t : Tid} {w : TunWrite}
    (hw : writing (u.procs t) = some w) :
    w.conn < u.created ∧ w.call < (u.conns w.conn).calls := by
  have hcall := callOn_of_writing hw
  have hc := (reach_udpBounds hreach).procs t w.conn (UdpProc.conn_of_callOn hcall)
  exact ⟨hc, (reach_callInv hreach w.conn hc).procs t w.call hcall⟩

/-- A call that begins now is none of those in the log. -/
theorem agrees_new (hinv : WriteInv s) {h : HandlerWrite} (hh : h ∈ s.writes) {w : TunWrite}
    (hnew : w.call = (s.udp.conns w.conn).calls) : h.Agrees w := by
  intro hconn hcall
  have hlt := (hinv.logged h hh).2
  rw [hcall, hnew, hconn] at hlt
  exact absurd hlt (Nat.lt_irrefl _)

/-- A section of the connections' code that the handler does not call. -/
theorem udp (hinv : WriteInv s) (hreach : Reach udpMachine any s.udp) {a : UdpAct} {u : UdpStack}
    (hudp : udpMachine.step s.udp a = some u) {s' : SocksStack} (hu : s'.udp = u)
    (hwrites : s'.writes = s.writes) (htun : s'.toTun = s.toTun ++ s.sends a) : WriteInv s' := by
  subst hu
  have hsec := UdpStack.step_section hudp
  refine ⟨fun h hh => ?_, fun t w hw h hh => ?_, fun w hw => ?_, fun w hw h hh => ?_⟩
  · exact called_step hsec (hinv.logged h (hwrites ▸ hh))
  · rw [hwrites] at hh
    obtain hold | ⟨_, hnew⟩ := writing_step hsec hw
    · exact hinv.running t w hold h hh
    · exact hinv.agrees_new hh hnew
  · rw [htun] at hw
    obtain hold | hnew := List.mem_append.mp hw
    · exact called_step hsec (hinv.made w hold)
    · obtain ⟨t, ht⟩ := sends_eq hnew
      exact called_step hsec (running_lt hreach ht)
  · rw [hwrites] at hh
    rw [htun] at hw
    obtain hold | hnew := List.mem_append.mp hw
    · exact hinv.sent w hold h hh
    · obtain ⟨t, ht⟩ := sends_eq hnew
      exact hinv.running t w ht h hh

/-- The handler calls `WriteFrom`. -/
theorem call (hinv : WriteInv s) (hreach : Reach udpMachine any s.udp) {t : Tid} {h : HandlerWrite}
    (hcall : h.call = (s.udp.conns h.conn).calls) (hdata : h.data ≠ []) {u : UdpStack}
    (hudp : udpMachine.step s.udp (.call t (.writeFrom h.conn h.data h.addr)) = some u)
    {s' : SocksStack} (hu : s'.udp = u) (hwrites : s'.writes = s.writes ++ [h])
    (htun : s'.toTun = s.toTun) : WriteInv s' := by
  subst hu
  have hsec : UdpSection s.udp (.call t (.writeFrom h.conn h.data h.addr)) s'.udp :=
    UdpStack.step_section hudp
  obtain ⟨hc, hafter⟩ := step_writeFrom hdata hudp
  have hnew : ∀ {w : TunWrite}, w.call < (s.udp.conns w.conn).calls → h.Agrees w := by
    intro w hlt hconn hsame
    rw [← hconn, ← hsame, hcall] at hlt
    exact absurd hlt (Nat.lt_irrefl _)
  refine ⟨fun h' hh' => ?_, fun t' w hw h' hh' => ?_, fun w hw => ?_, fun w hw h' hh' => ?_⟩
  · rw [hwrites] at hh'
    obtain hold | hself := List.mem_append.mp hh'
    · exact called_step hsec (hinv.logged h' hold)
    · cases List.mem_singleton.mp hself
      rw [hafter]
      simpa [UdpConn.called, hcall] using hc
  · rw [hwrites] at hh'
    obtain hold | ⟨hact, hnum⟩ := writing_step hsec hw
    · obtain hmem | hself := List.mem_append.mp hh'
      · exact hinv.running t' w hold h' hmem
      · cases List.mem_singleton.mp hself
        exact hnew (running_lt hreach hold).2
    · obtain hmem | hself := List.mem_append.mp hh'
      · exact hinv.agrees_new hmem hnum
      · cases List.mem_singleton.mp hself
        intro _ _
        simp only [UdpAct.call.injEq, UdpCall.writeFrom.injEq] at hact
        exact hact.2.2
  · exact called_step hsec (hinv.made w (htun ▸ hw))
  · rw [hwrites] at hh'
    rw [htun] at hw
    obtain hmem | hself := List.mem_append.mp hh'
    · exact hinv.sent w hw h' hmem
    · cases List.mem_singleton.mp hself
      exact hnew (hinv.made w hw).2

end WriteInv

theorem reach_writeInv {env : Env} {ok : SocksStack → SocksAct → Prop} {s : SocksStack}
    (h : Reach (socksMachine env) ok s) : WriteInv s := by
  refine h.invariant (.init env) ?_
  intro s act s' hreach hinv _ hstep
  have hudpReach := reach_udp hreach
  obtain ⟨next, hsec, hafter⟩ := SocksStack.step_section hstep
  obtain hwrites | ⟨t, h, hwrites, hcall, hdata, hact⟩ := hsec.writes
  · obtain ⟨_, rfl⟩ | ⟨a, u, _, hudp, rfl⟩ := hafter
    · obtain ⟨hu, _, htun⟩ := hsec.frame
      exact hinv.of_eq hu hwrites htun
    · exact hinv.udp hudpReach hudp rfl hwrites rfl
  · obtain ⟨hnone, _⟩ | ⟨a, u, hact', hudp, rfl⟩ := hafter
    · rw [hact] at hnone
      cases hnone
    · cases hact.symm.trans hact'
      refine hinv.call hudpReach hcall hdata hudp rfl hwrites ?_
      exact List.append_nil _

/-- `w` was written to the TUN side for a call of `WriteFrom` that the handler made for
    `origin`. -/
def WrittenFor (s : SocksStack) (w : TunWrite) (origin : Origin) : Prop :=
  w ∈ s.toTun ∧ ∃ h ∈ s.writes, h.conn = w.conn ∧ h.call = w.call ∧ h.origin = origin

instance (s : SocksStack) (w : TunWrite) (origin : Origin) : Decidable (WrittenFor s w origin) :=
  inferInstanceAs (Decidable (_ ∧ _))

end tun2proxy.socks
