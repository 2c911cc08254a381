import Tun2Proxy.Lib.Trace
import Tun2Proxy.Tcp.Release

open tun2proxy.machine tun2proxy.machine.Machine

namespace tun2proxy.core

/-- Every connection that was stored in `tcpConns` and is not released is the one that
    `tcpConns` returns for its key. -/
def KeysOwn (s : Stack) : Prop :=
  ∀ c, c < s.accepted → ¬(s.conns c).state.released → s.lookup c = some c

/-- The pcb whose callback a step belongs to: it starts the callback, or it is a later
    section of it. -/
def Stack.callbackOf (s : Stack) : Act → Option ConnId
  | .err c _ => some c
  | .task | .pipe _ =>
    match s.holder with
    | .task k => k.caller.tpcb
    | _ => none
  | .run t =>
    match s.procs t with
    -- `tcp_process_refused_data` calls `tcpRecvFn`
    | .refused c => (s.pcbs c).refused_data.map fun _ => c
    | _ => none
  | a => a.callback

/-- What a step must not do: a callback touches no other connection than that of its pcb, and
    the step that releases a connection frees the cell of that connection, once, and removes
    its own entry and no other. -/
structure OwnStep (s : Stack) (a : Act) (s' : Stack) : Prop where
  callback : ∀ tpcb, s.callbackOf a = some tpcb → ∀ c, c ≠ tpcb →
    s'.conns c = s.conns c ∧ s'.pcbs c = s.pcbs c
  release : ∀ c, c < s.accepted → ¬(s.conns c).state.released → (s'.conns c).state.released →
    (∀ c', c' < s.accepted → (s'.conns c').connKeyArgFrees =
      (s.conns c').connKeyArgFrees + if c' = c then 1 else 0) ∧
    s.tcpConns (s.conns c).connKey = some c ∧
    s'.tcpConns = Function.update s.tcpConns (s.conns c).connKey none

/-! ### How often the cells are freed -/

theorem ConnMove.frees {s : Stack} {t : Tid} {c : ConnId} {p p' : Proc} {f : TcpConn → TcpConn}
    (hmove : ConnMove s t c p p' f) (conn : TcpConn) :
    (f conn).connKeyArgFrees = conn.connKeyArgFrees := by
  cases hmove <;> rfl

theorem PcbMove.frees {s : Stack} {t : Tid} {c : ConnId} {a : Act} {p p' : Proc}
    {f : TcpPcb → TcpPcb} {g : TcpConn → TcpConn} (hmove : PcbMove s t c a p p' f g)
    (conn : TcpConn) : (g conn).connKeyArgFrees = conn.connKeyArgFrees := by
  cases hmove <;> rfl

/-- A connection is released, and then its cell is freed, or it stays as it is. -/
def FreedOnRelease (conn conn' : TcpConn) : Prop :=
  (conn'.connKeyArgFrees = conn.connKeyArgFrees ∧ (conn'.state.released → conn.state.released)) ∨
  (conn'.connKeyArgFrees = conn.connKeyArgFrees + 1 ∧ ¬conn.state.released ∧ conn'.state.released)

namespace FreedOnRelease

/-- Nothing is freed where the state stays. -/
theorem same (conn : TcpConn) : FreedOnRelease conn conn := .inl ⟨rfl, id⟩

/-- The cell is freed at the step that releases the connection, and at no other. -/
theorem eq {conn conn' : TcpConn} (h : FreedOnRelease conn conn') :
    conn'.connKeyArgFrees = conn.connKeyArgFrees +
      if ¬conn.state.released ∧ conn'.state.released then 1 else 0 := by
  obtain ⟨hsame, hback⟩ | ⟨hone, hopen, hreleased⟩ := h
  · rw [hsame, if_neg fun h => h.1 (hback h.2), Nat.add_zero]
  · rw [hone, if_pos ⟨hopen, hreleased⟩]

theorem of_modConn {s s' : Stack} (c : ConnId) (f : TcpConn → TcpConn)
    (hconns : s'.conns = (s.modConn c f).conns)
    (hf : FreedOnRelease (s.conns c) (f (s.conns c))) (c' : ConnId) :
    FreedOnRelease (s.conns c') (s'.conns c') := by
  rw [hconns, Stack.modConn_conns]
  split
  · rename_i heq
    rwa [heq]
  · exact .same _

/-- `release` of a connection that is registered. -/
theorem release {s : Stack} {c : ConnId} (hopen : ¬(s.conns c).state.released)
    (hc : s.lookup c = some c) {conn' : TcpConn} (hreleased : conn'.state.released)
    (hfrees : conn'.connKeyArgFrees = ((s.release c).conns c).connKeyArgFrees) :
    FreedOnRelease (s.conns c) conn' := by
  rw [Stack.lookup] at hc
  refine .inr ⟨?_, hopen, hreleased⟩
  rw [hfrees, Stack.release_conns, if_pos rfl, hc]
  rfl

end FreedOnRelease

/-- In every section with its own key, the cell is freed exactly when the connection is
    released. -/
theorem Section.freed {s s' : Stack} {a : Act} (hreg : Registry s) (htask : TaskInv s)
    (hbounds : Bounds s) (hinv : Owned s) (hsec : Section s a s') {c : ConnId}
    (hc : c < s.accepted) : FreedOnRelease (s.conns c) (s'.conns c) := by
  -- the checks of a task release a connection that is registered
  have htaskRelease {k : Task} (hholder : s.holder = .task k)
      (hcause : ReleaseCause s .task k.conn k.conn) {s' : Stack}
      (hconns : s'.conns = (s.release k.conn).conns) :
      FreedOnRelease (s.conns c) (s'.conns c) := by
    rw [hconns]
    by_cases heq : c = k.conn
    · subst heq
      have hopen := hcause.not_released hreg htask
      have hlookup := (hinv.lookup_iff k.conn (hbounds.task k hholder)).mpr hopen
      refine .release hopen hlookup ?_ rfl
      rw [Stack.release_conns, if_pos rfl]
      exact .inl rfl
    · rw [Stack.release_conns, if_neg heq]
      exact .same _
  cases hsec with
  | @accept key owner hholder =>
    have hsame : Function.update s.conns s.accepted (newConn key) c = s.conns c :=
      Function.update_of_ne (Nat.ne_of_lt hc) _ _
    dsimp only
    rw [hsame]
    exact .same _
  | @acceptDone t c' owner hholder hidle =>
    refine .of_modConn c' (fun conn => { conn with state := .tcpConnecting, started := true }) rfl
      (.inl ⟨rfl, fun h => ?_⟩) c
    rcases h with h | h <;> cases h
  | @errFound tpcb found code owner hholder hlive hfound =>
    rw [Stack.Err_conns]
    split
    · rename_i heq
      subst heq
      have hlookup : s.lookup c = some c := hreg.lookup_found hfound
      exact .release (hreg.notReleased hlookup) hlookup (.inr rfl) rfl
    · exact .same _
  | receiveErrored hholder hstage hstate =>
    refine htaskRelease hholder (.task hholder (.inl ⟨hstage, hstate⟩)) ?_
    rw [Stack.abortInternal_eq]
    rfl
  | closing hholder hstage hstate =>
    exact htaskRelease hholder (.task hholder (.inr (.inl ⟨hstage, hstate⟩))) rfl
  | aborting hholder hstage hstate =>
    refine htaskRelease hholder (.task hholder (.inr (.inr ⟨hstage, hstate⟩))) ?_
    rw [Stack.abortInternal_eq]
    rfl
  | @localClosed k hholder hstage =>
    obtain ⟨hsame, -⟩ | ⟨hclosed, hlt⟩ := s.setLocalClosed_cases k.conn
    · rw [hsame]
      exact .same _
    · rw [hclosed]
      refine .of_modConn k.conn (fun conn => { conn with
        sndPipeWriterClosed := true
        state := if conn.state = .tcpWriteClosed then .tcpClosing else .tcpReceiveClosed })
        rfl (.inl ⟨rfl, fun h => ?_⟩) c
      dsimp only at h
      split at h <;> rcases h with h | h <;> cases h
  | ret hholder hstage =>
    rw [Stack.methodRet_conns]
    exact .same _
  | conn hmove =>
    exact .of_modConn _ _ rfl (.inl ⟨hmove.frees _, (hmove.state .task).released_of_released⟩) c
  | pcb hholder hmove =>
    refine .of_modConn _ _ rfl (.inl ⟨hmove.frees _, fun h => ?_⟩) c
    rwa [hmove.state] at h
  | @pipe t k len rest n stage hholder hstage hproc hnext =>
    exact .of_modConn k.conn
      (fun conn => { conn with readBytes := conn.readBytes ++ rest.take (min len rest.length) })
      rfl (.inl ⟨rfl, id⟩) c
  | _ => exact .same _

/-! ### What callbacks touch -/

/-- A callback belongs to the pcb that lwIP calls it for. -/
theorem CbStart.callbackOf {s : Stack} {pcb : TcpPcb} {c : ConnId} {owner : Option Tid} {a : Act}
    {caller : Caller} {stage : Stage} {f : TcpPcb → TcpPcb}
    (hcb : CbStart pcb c owner a caller stage f) : s.callbackOf a = some c := by
  cases hcb <;> rfl

private theorem Stack.callbackOf_task {s : Stack} {k : Task} (hholder : s.holder = .task k) :
    s.callbackOf .task = k.caller.tpcb := by
  simp only [callbackOf, hholder]

theorem ProcMove.callbackOf {s : Stack} {t : Tid} {a : Act} {p' : Proc}
    (hmove : ProcMove s t a (s.procs t) p') : s.callbackOf a = none := by
  generalize hp : s.procs t = p at hmove
  cases hmove <;> simp [Stack.callbackOf, hp, Act.callback]

theorem ConnMove.callbackOf {s : Stack} {t : Tid} {c : ConnId} {p' : Proc} {f : TcpConn → TcpConn}
    (hmove : ConnMove s t c (s.procs t) p' f) : s.callbackOf (.run t) = none := by
  simp only [Stack.callbackOf]
  generalize s.procs t = p at hmove
  cases hmove <;> rfl

theorem PcbMove.callbackOf {s : Stack} {t : Tid} {c : ConnId} {a : Act} {p' : Proc}
    {f : TcpPcb → TcpPcb} {g : TcpConn → TcpConn} (hmove : PcbMove s t c a (s.procs t) p' f g) :
    s.callbackOf a = none := by
  generalize hp : s.procs t = p at hmove
  cases hmove with
  | noRefused hrefused => simp [Stack.callbackOf, hp, hrefused]
  | _ => rfl

/-- The sections of a callback change its own connection and pcb only. -/
theorem Section.callback_frame {s s' : Stack} {a : Act} (hinv : Owned s) (hsec : Section s a s')
    {tpcb c : ConnId} (htpcb : s.callbackOf a = some tpcb) (hne : c ≠ tpcb) :
    s'.conns c = s.conns c ∧ s'.pcbs c = s.pcbs c := by
  -- the code of a callback works on the connection of its pcb
  have hconn {k : Task} (hholder : s.holder = .task k) (h : s.callbackOf .task = some tpcb) :
      c ≠ k.conn := by
    rw [Stack.callbackOf_task hholder] at h
    rwa [hinv.tpcb k tpcb hholder h]
  cases hsec with
  | lwipLock _ | lwipUnlock _ | procUnlock _ | accept _ | acceptDone _ _ | tcp _ => cases htpcb
  | cbFound hcb _ _ _ =>
    cases hcb.callbackOf.symm.trans htpcb
    simp [hne]
  | cbUnknown hcb _ _ _ =>
    cases hcb.callbackOf.symm.trans htpcb
    simp [hne]
  | procFound hproc _ hrefused _ | procUnknown hproc _ hrefused _ =>
    simp only [Stack.callbackOf, hproc, hrefused, Option.map_some] at htpcb
    cases htpcb
    simp [hne]
  | errFound _ hlive hfound =>
    cases htpcb
    cases (hinv.lookup_live hlive).symm.trans hfound
    rw [Stack.Err_conns, if_neg hne]
    simp [hne]
  | errUnknown _ _ _ =>
    cases htpcb
    simp [hne]
  | task _ _ | broadcast _ _ => exact ⟨rfl, rfl⟩
  | receiveErrored hholder _ _ | aborting hholder _ _ =>
    rw [Stack.abortInternal_eq]
    simp [hconn hholder htpcb]
  | recved hholder _ | closing hholder _ _ => simp [Stack.closeInternal, hconn hholder htpcb]
  | @localClosed k hholder _ =>
    obtain ⟨hsame, -⟩ | ⟨hclosed, -⟩ := s.setLocalClosed_cases k.conn
    · rw [hsame]
      exact ⟨rfl, rfl⟩
    · rw [hclosed]
      simp [hconn hholder htpcb]
  | ret hholder _ =>
    rw [Stack.callbackOf_task hholder] at htpcb
    refine ⟨by rw [Stack.methodRet_conns], Stack.methodRet_pcbs_of_ne ?_⟩
    intro hsame
    exact hne (Option.some.inj (hsame.symm.trans htpcb))
  | pipe hholder _ _ _ => simp [hconn hholder htpcb]
  | abortLwip hproc _ =>
    simp only [Stack.callbackOf, hproc] at htpcb
    cases htpcb
  | proc _ => exact ⟨rfl, rfl⟩
  | conn hmove => cases hmove.callbackOf.symm.trans htpcb
  | pcb _ hmove => cases hmove.callbackOf.symm.trans htpcb

private theorem Section.ownStep {s s' : Stack} {a : Act} (hreg : Registry s) (htask : TaskInv s)
    (hbounds : Bounds s) (hinv : Owned s) (hsec : Section s a s') : OwnStep s a s' where
  callback tpcb htpcb c hne := hsec.callback_frame hinv htpcb hne
  release c hc hopen hreleased := by
    have hlookup := (hinv.lookup_iff c hc).mpr hopen
    cases hsec.life with
    | keep _ _ _ hmove _ =>
      exact absurd (((hmove c).released_iff (hinv.accepting c)).mp hreleased) hopen
    | accept key _ _ _ hconns _ =>
      rw [hconns, Function.update_of_ne (Nat.ne_of_lt hc)] at hreleased
      exact absurd hreleased hopen
    | unknown tpcb hnone htpcb _ _ _ => exact (hinv.not_unknown hbounds hnone htpcb).elim
    | release c₀ tpcb st _ hcause _ htcpConns _ hstate _ =>
      have heq : c = c₀ := by
        by_contra hne
        rw [hstate, if_neg hne] at hreleased
        exact hopen hreleased
      subst heq
      refine ⟨fun c' hc' => ?_, hlookup, htcpConns⟩
      rw [(hsec.freed hreg htask hbounds hinv hc').eq]
      by_cases hc'c : c' = c
      · subst hc'c
        rw [if_pos ⟨hopen, hreleased⟩, if_pos rfl]
      · rw [if_neg hc'c, if_neg]
        rintro ⟨hopen', hreleased'⟩
        rw [hstate, if_neg hc'c] at hreleased'
        exact hopen' hreleased'

/-- In every state of the run each key leads to its own connection, and every step is one
    that respects the other connections. -/
def CallbacksOwn (schedule : List Act) : Prop :=
  Steps tcpMachine (fun s a => ∀ s', s.step a = some s' → KeysOwn s' ∧ OwnStep s a s') schedule

/-- An accept that draws a key in use takes it away from a connection. -/
theorem KeysOwn.freshKey {s s' : Stack} {a : Act} (hreg : Registry s) (hsec : Section s a s')
    (hown : KeysOwn s') : FreshKey s a := by
  cases a with
  | accept key =>
    by_contra hstale
    obtain ⟨c, hkey⟩ := Option.ne_none_iff_exists'.mp hstale
    have hlt := hreg.accepted hkey
    have hne : c ≠ s.accepted := Nat.ne_of_lt hlt
    have hlife : s'.accepted = s.accepted + 1 ∧ s'.conns c = s.conns c ∧
        s'.tcpConns key = some s.accepted := by
      obtain ⟨owner, -, rfl⟩ := hsec.accept_eq
      exact ⟨rfl, Function.update_of_ne hne _ _, Function.update_self _ _ _⟩
    obtain ⟨haccepted, hconn, hnew⟩ := hlife
    have hlookup := hown c (haccepted ▸ Nat.lt_succ_of_lt hlt)
      (by rw [hconn]; exact hreg.notReleased hkey)
    rw [Stack.lookup, hconn, hreg.connKey hkey, hnew] at hlookup
    exact hne (Option.some.inj hlookup).symm
  | _ => trivial

/-- In every run: the callbacks find their own connections, in all its states and steps, if
    and only if each accept of the run draws a key that is not in `tcpConns`. -/
theorem callbacksOwn_iff {schedule : List Act} {s : Stack} (h : Trace tcpMachine schedule s) :
    CallbacksOwn schedule ↔ Steps tcpMachine FreshKey schedule := by
  constructor
  · intro hown
    refine h.steps hown fun s a s' hreach hok hstep => ?_
    have hreg := (reach_registry (hreach.mono fun _ _ _ => trivial)).1
    exact (hok s' hstep).1.freshKey hreg (Stack.step_section hstep)
  · intro hfresh
    refine h.steps hfresh fun s a s' hreach hok hstep s'' hstep' => ?_
    have hany : Reach tcpMachine any _ := hreach.mono fun _ _ _ => trivial
    have hinv := reach_owned hreach
    have hinv' := reach_owned (hreach.step hok hstep')
    exact ⟨fun c hc hopen => (hinv'.lookup_iff c hc).mpr hopen,
      (Stack.step_section hstep').ownStep (reach_registry hany).1 (reach_registry hany).2
        (reach_bounds hany) hinv⟩

/-- Two connections, the first with key 1; then the client of the first one sends FIN. -/
def twoAccepts (key : UInt32) : List Act :=
  [.lwipLock, .accept 1, .acceptDone 0, .accept key, .acceptDone 1, .recvFin 0, .task]

/-- Two connections with keys of their own. -/
theorem callbacksOwn_iff_two : ∃ s, Trace tcpMachine (twoAccepts 2) s ∧
    (CallbacksOwn (twoAccepts 2) ↔ Steps tcpMachine FreshKey (twoAccepts 2)) := by
  obtain ⟨s, htrace, -⟩ := exists_trace_of_run tcpMachine any (twoAccepts 2) (fun _ => True)
    (by decide)
  exact ⟨s, htrace, callbacksOwn_iff htrace⟩

private theorem CallbacksOwn.keysOwn {schedule : List Act} {s : Stack} (h : Trace tcpMachine schedule s)
    (hown : CallbacksOwn schedule) : KeysOwn s := by
  cases h with
  | nil => exact fun c hc => absurd hc (Nat.not_lt_zero c)
  | snoc htrace hstep => exact (hown _ _ [] _ rfl htrace _ hstep).1

/-- The second connection draws the key of the first: the FIN of the first one's client closes
    the receiving side of the second, which the first one's key leads to. -/
theorem shared_key_crosses : ¬CallbacksOwn (twoAccepts 1) ∧
    ∃ s, Trace tcpMachine (twoAccepts 1) s ∧ s.lookup 0 = some 1 ∧
      (s.conns 0).state = .tcpConnecting ∧ (s.conns 1).state = .tcpReceiveClosed := by
  obtain ⟨s, htrace, -, hpos, hlookup, hfirst, hsecond⟩ := exists_trace_of_run tcpMachine any
    (twoAccepts 1) (fun s => 0 < s.accepted ∧ s.lookup 0 = some 1 ∧
      (s.conns 0).state = .tcpConnecting ∧ (s.conns 1).state = .tcpReceiveClosed) (by decide)
  refine ⟨fun hown => ?_, s, htrace, hlookup, hfirst, hsecond⟩
  have hself := hown.keysOwn htrace 0 hpos (by rw [hfirst]; decide)
  rw [hlookup] at hself
  cases hself

end tun2proxy.core
