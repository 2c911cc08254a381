import Tun2Proxy.UdpConn.Registry

open tun2proxy.machine tun2proxy.machine.Machine tun2proxy.udppackage

namespace tun2proxy.core

/-! ### Delete by key -/

namespace UdpStack

variable {s s' : UdpStack} {a : UdpAct} {c : UdpNo}

/-- What the Delete of a step does. -/
theorem deletes_spec (hdelete : s.deletes a = some c) (hstep : udpMachine.step s a = some s') :
    s'.udpConns = Function.update s.udpConns (s.conns c).connId none ∧
      (c < s.created ∨ ∃ t, (s.procs t).conn = some c) := by
  cases a with
  | run t =>
    simp only [deletes] at hdelete
    split at hdelete
    · rename_i hproc
      cases hdelete
      simp only [udpMachine, step, procStep, hproc, Option.some.injEq] at hstep
      subst hstep
      exact ⟨rfl, .inr ⟨t, congrArg UdpProc.conn hproc⟩⟩
    · rename_i hproc
      cases hdelete
      simp only [udpMachine, step, procStep, hproc, Option.some.injEq] at hstep
      subst hstep
      exact ⟨rfl, .inr ⟨t, congrArg UdpProc.conn hproc⟩⟩
    · cases hdelete
  | connector c' =>
    simp only [deletes, Option.ite_none_right_eq_some, Option.some.injEq] at hdelete
    obtain ⟨hat, rfl⟩ := hdelete
    simp only [udpMachine, step, connectorStep, hat, Option.ite_none_right_eq_some,
      Option.some.injEq] at hstep
    obtain ⟨hc, rfl⟩ := hstep
    exact ⟨rfl, .inl hc⟩
  | _ => cases hdelete

private theorem deletes_lt (hbounds : UdpBounds s) (hdelete : s.deletes a = some c)
    (hstep : udpMachine.step s a = some s') : c < s.created :=
  (deletes_spec hdelete hstep).2.elim id fun ⟨t, ht⟩ => hbounds.procs t c ht

end UdpStack

/-- A Delete for `c` comes only while no connection made after `c` is registered under
    its key. -/
def OwnEntry (s : UdpStack) (a : UdpAct) : Prop :=
  ∀ c ∈ s.deletes a, ∀ e ∈ s.udpConns (s.conns c).connId, e ≤ c

instance (s : UdpStack) (a : UdpAct) : Decidable (OwnEntry s a) :=
  inferInstanceAs (Decidable (∀ c ∈ s.deletes a, ∀ e ∈ s.udpConns (s.conns c).connId, e ≤ c))

/-- The exact condition under which a Delete for `c` removes no other entry. -/
theorem delete_own_iff {ok : UdpStack → UdpAct → Prop} {s s' : UdpStack} {a : UdpAct} {c : UdpNo}
    (hreach : Reach udpMachine ok s) (hdelete : s.deletes a = some c)
    (hstep : udpMachine.step s a = some s') :
    (∀ id e, s.udpConns id = some e → s'.udpConns id ≠ some e → e = c) ↔
      ∀ e, s.udpConns (s.conns c).connId = some e → e ≤ c := by
  have hregistry := reach_udpRegistry hreach
  have hc := UdpStack.deletes_lt (reach_udpBounds hreach) hdelete hstep
  have hmap := (UdpStack.deletes_spec hdelete hstep).1
  constructor
  · intro hown e he
    refine Nat.le_of_eq (hown _ e he ?_)
    rw [hmap, Function.update_self]
    exact fun h => by cases h
  · intro hle id e he hremoved
    have hid : id = (s.conns c).connId := by
      by_contra hne
      rw [hmap, Function.update_of_ne hne] at hremoved
      exact hremoved he
    subst hid
    -- an entry is the newest connection with its key
    exact Nat.le_antisymm (hle e he)
      (hregistry.newest e (.inr ⟨_, he⟩) c hc (hregistry.key _ e he).symm)

/-- `Close` has changed the state of the connection whose key the goroutine is about
    to delete. -/
def UdpProc.deleting : UdpProc → Option UdpNo
  | .unregister c _ | .forget c | .unregisterAgain c => some c
  | _ => none

private theorem UdpProc.conn_of_deleting {p : UdpProc} {c : UdpNo} (h : p.deleting = some c) :
    p.conn = some c := by
  cases p <;> simp_all [UdpProc.deleting, UdpProc.conn]

theorem UdpConnStep.closed {s s' : UdpStack} {a : UdpAct} {c : UdpNo} {conn : UdpConn}
    (hstep : UdpConnStep s a s' c conn) (hc : c < s.created) (hclosed : (s.conns c).closed) :
    conn.closed := by
  cases hstep with
  | new hnew _ => exact absurd hc (hnew ▸ Nat.lt_irrefl _)
  | queue _ hqueue _ =>
    obtain ⟨_, _, _, _, rfl⟩ := UdpConn.enqueueEarlyPacket_eq_some hqueue
    exact hclosed
  | close _ => rfl
  | _ => exact hclosed

/-- Delete comes after the change of the state. -/
structure DeleteInv (s : UdpStack) (c : UdpNo) : Prop where
  connector : s.connectors c = .unregister → (s.conns c).closed
  procs : ∀ t, (s.procs t).deleting = some c → (s.conns c).closed

namespace DeleteInv

variable {s s' : UdpStack} {a : UdpAct} {c : UdpNo}

theorem new (hbounds : UdpBounds s) (hsec : UdpSection s a s') (hlt : s.created < s'.created) :
    DeleteInv s' s.created := by
  obtain ⟨t', id, data, addr, _, rfl⟩ := hsec.created hlt
  refine ⟨fun hat => ?_, fun t ht => ?_⟩
  · simp at hat
  · simp only [UdpStack.setProc_procs] at ht
    split at ht
    · cases ht
    · exact absurd (hbounds.procs t _ (UdpProc.conn_of_deleting ht)) (Nat.lt_irrefl _)

theorem step (hinv : DeleteInv s c) (hc : c < s.created) (hsec : UdpSection s a s') :
    DeleteInv s' c := by
  have hclosed := (hsec.conns c).closed hc
  refine ⟨fun hat => ?_, fun t ht => ?_⟩
  · have hmove := hsec.connectors c
    have hold := hinv.connector
    rw [hat] at hmove
    generalize s.connectors c = g at hmove hold
    cases hmove with
    | same => exact hclosed (hold rfl)
    | close hafter => rw [hafter]; rfl
  · obtain hsame | hown := hsec.procs t
    · exact hclosed (hinv.procs t (hsame ▸ ht))
    have hold := hinv.procs t
    generalize s.procs t = p at hown hold
    generalize s'.procs t = p' at hown ht
    cases hown with
    | close hafter =>
      cases ht
      rw [hafter]
      rfl
    | unregisterAction _ | forget => exact hclosed (hold ht)
    | move hmove => cases hmove <;> cases ht
    | _ => cases ht

end DeleteInv

theorem reach_deleteInv {ok : UdpStack → UdpAct → Prop} {s : UdpStack} (h : Reach udpMachine ok s) :
    ∀ c < s.created, DeleteInv s c :=
  reach_each (fun hreach hsec hlt => .new (reach_udpBounds hreach) hsec hlt)
    (fun _ hc hinv _ hstep => hinv.step hc (UdpStack.step_section hstep)) h

theorem deletes_closed {ok : UdpStack → UdpAct → Prop} {s s' : UdpStack} {a : UdpAct} {c : UdpNo}
    (hreach : Reach udpMachine ok s) (hdelete : s.deletes a = some c)
    (hstep : udpMachine.step s a = some s') : (s.conns c).closed := by
  have hinv := reach_deleteInv hreach c (UdpStack.deletes_lt (reach_udpBounds hreach) hdelete hstep)
  cases a with
  | run t =>
    refine hinv.procs t ?_
    simp only [UdpStack.deletes] at hdelete
    split at hdelete
    · rename_i hproc
      exact (congrArg UdpProc.deleting hproc).trans hdelete
    · rename_i hproc
      exact (congrArg UdpProc.deleting hproc).trans hdelete
    · cases hdelete
  | connector c' =>
    simp only [UdpStack.deletes, Option.ite_none_right_eq_some, Option.some.injEq] at hdelete
    obtain ⟨hat, rfl⟩ := hdelete
    exact hinv.connector hat
  | _ => cases hdelete

/-- An entry goes only with its own connection. -/
theorem OwnEntry.kept {s s' : UdpStack} {a : UdpAct} {id : UdpConnId} {c : UdpNo}
    (hok : OwnEntry s a) (hreach : Reach udpMachine OwnEntry s)
    (hstep : udpMachine.step s a = some s') (hid : s.udpConns id = some c) :
    s'.udpConns id = some c ∨ (s'.conns c).closed := by
  have hsec := UdpStack.step_section hstep
  cases hsec.udpConns with
  | same hmap => exact .inl (hmap ▸ hid)
  | @store t c' data addr hproc _ hmap =>
    have hne : id ≠ (s.conns c').connId := by
      rintro rfl
      rw [(reach_udpRegistry hreach).unstored t c' data addr hproc] at hid
      cases hid
    exact .inl (by rw [hmap, Function.update_of_ne hne, hid])
  | @delete c' hdelete hmap =>
    by_cases hremoved : s'.udpConns id = some c
    · exact .inl hremoved
    · obtain rfl := (delete_own_iff hreach hdelete hstep).mpr (hok c' hdelete) id c hid hremoved
      exact .inr ((hsec.conns c).closed ((reach_udpBounds hreach).udpConns id c hid)
        (deletes_closed hreach hdelete hstep))

/-- A Delete for `c` removes only the entry of `c` exactly when no connection made after
    `c` is registered under its key. In runs where this holds at every Delete, a
    registered connection stays so until it is closed itself. -/
theorem unregisters_own_entry (c : UdpNo) :
    (∀ s s' a, Reach udpMachine any s → s.deletes a = some c → udpMachine.step s a = some s' →
      ((∀ id e, s.udpConns id = some e → s'.udpConns id ≠ some e → e = c) ↔
        ∀ e, s.udpConns (s.conns c).connId = some e → e ≤ c)) ∧
    ∀ s s' schedule id, Reach udpMachine OwnEntry s → s.udpConns id = some c →
      udpMachine.run OwnEntry s schedule = some s' →
      s'.udpConns id = some c ∨ (s'.conns c).closed := by
  refine ⟨fun s s' a => delete_own_iff, fun s s' schedule id hreach hid hrun => ?_⟩
  have hkept : Reach udpMachine OwnEntry s' ∧ c < s'.created ∧
      (s'.udpConns id = some c ∨ (s'.conns c).closed) := by
    refine run_invariant (P := fun u => Reach udpMachine OwnEntry u ∧ c < u.created ∧
      (u.udpConns id = some c ∨ (u.conns c).closed)) ?_ hrun
      ⟨hreach, (reach_udpBounds hreach).udpConns id c hid, .inl hid⟩
    rintro u a u' ⟨hu, hc, hstored⟩ hok hstep
    have hsec := UdpStack.step_section hstep
    refine ⟨hu.step hok hstep, Nat.lt_of_lt_of_le hc hsec.created_le, ?_⟩
    obtain hstored | hclosed := hstored
    · exact hok.kept hu hstep hstored
    · exact .inr ((hsec.conns c).closed hc hclosed)
  exact hkept.2.2

/-- The source address of `dialing`. -/
def dialer : UdpConnId := ⟨"10.0.0.2:5000"⟩

theorem unregisters_own_entry_first_close : ∃ s s', Reach udpMachine OwnEntry s ∧
    s.udpConns dialer = some 0 ∧ udpMachine.run OwnEntry s [.run 1] = some s' ∧
    (s'.udpConns dialer = some 0 ∨ (s'.conns 0).closed) ∧
    ∀ id e, s.udpConns id = some e → s'.udpConns id ≠ some e → e = 0 := by
  obtain ⟨s, hreach, hid, hdelete, hkey, hrun⟩ := exists_reach_of_run udpMachine OwnEntry
    (dialing ++ [.call 1 (.close 0), .run 1])
    (fun s => s.udpConns dialer = some 0 ∧ s.deletes (.run 1) = some 0 ∧
      (s.conns 0).connId = dialer ∧ (udpMachine.run OwnEntry s [.run 1]).isSome) (by decide)
  obtain ⟨s', hs'⟩ := Option.isSome_iff_exists.mp hrun
  have hstep : udpMachine.step s (.run 1) = some s' := by
    obtain ⟨_, hbind⟩ := Option.ite_none_right_eq_some.mp hs'
    obtain ⟨mid, hmid, hend⟩ := Option.bind_eq_some_iff.mp hbind
    cases hend
    exact hmid
  refine ⟨s, s', hreach, hid, hs', (unregisters_own_entry 0).2 s s' _ dialer hreach hid hs',
    ((unregisters_own_entry 0).1 s s' _ (hreach.mono fun _ _ _ => trivial) hdelete hstep).mpr ?_⟩
  intro e he
  rw [hkey, hid] at he
  cases he
  exact Nat.le_refl 0

/-- After a `Close` and the next datagram from the same source, a second `Close` of the
    old connection removes the entry of the new one, which is open. -/
theorem second_close_unregisters_other : ∃ s s', Reach udpMachine any s ∧
    s.udpConns dialer = some 1 ∧ (s.conns 1).closed = false ∧ s.deletes (.run 1) = some 0 ∧
    udpMachine.step s (.run 1) = some s' ∧ s'.udpConns dialer = none ∧
    (s'.conns 1).closed = false := by
  obtain ⟨s, hreach, hid, hopen, hdelete, hstep⟩ := exists_reach_of_run udpMachine any
    (dialing ++ closing ++ dialing ++ [.call 1 (.close 0), .run 1])
    (fun s => s.udpConns dialer = some 1 ∧ (s.conns 1).closed = false ∧
      s.deletes (.run 1) = some 0 ∧ (udpMachine.step s (.run 1)).any fun s' =>
        decide (s'.udpConns dialer = none ∧ (s'.conns 1).closed = false)) (by decide)
  obtain ⟨s', hs', hafter⟩ := (Option.any_eq_true _ _).mp hstep
  exact ⟨s, s', hreach, hid, hopen, hdelete, hs', of_decide_eq_true hafter⟩

/-! ### Dead entries -/

/-- A Delete for `c` does not come before `udpRecvFn` has stored `c`. -/
def StoreFirst (s : UdpStack) (a : UdpAct) : Prop := ∀ c ∈ s.deletes a, s.storing ≠ some c

instance (s : UdpStack) (a : UdpAct) : Decidable (StoreFirst s a) :=
  inferInstanceAs (Decidable (∀ c ∈ s.deletes a, s.storing ≠ some c))

/-- A `Close` of `c` is about to delete its key. -/
def UdpStack.DeletePending (s : UdpStack) (c : UdpNo) : Prop :=
  s.connectors c = .unregister ∨ ∃ t byAction, s.procs t = .unregister c byAction

theorem UdpStack.storing_eq_some {s : UdpStack} (hlwip : LwipInv s) {c : UdpNo} :
    s.storing = some c ↔ ∃ t data addr, s.procs t = .store c data addr := by
  unfold UdpStack.storing
  constructor
  · intro h
    obtain ⟨t, _, ht⟩ := Option.bind_eq_some_iff.mp h
    split at ht
    · cases ht
      exact ⟨t, _, _, ‹_›⟩
    · cases ht
  · rintro ⟨t, data, addr, ht⟩
    rw [hlwip t (by rw [ht]; rfl), Option.bind_some, ht]

/-- A `Close` that has changed the state goes on to its Delete. -/
theorem UdpSection.unregister_procs {s s' : UdpStack} {a : UdpAct} (hsec : UdpSection s a s')
    {t : Tid} {c : UdpNo} {byAction : Bool} (hproc : s.procs t = .unregister c byAction) :
    s'.procs t = .unregister c byAction ∨
      a = .run t ∧ s'.procs t = if byAction then .forget c else .idle := by
  obtain hsame | hown := hsec.procs t
  · exact .inl (hsame.trans hproc)
  rw [hproc] at hown
  generalize s'.procs t = p' at hown
  cases hown with
  | unregister hact | unregisterAction hact => exact .inr ⟨hact, rfl⟩
  | move hmove => cases hmove
  | queue hstart | receive hstart _ => cases hstart
  | refuse hrefused _ => cases hrefused

theorem UdpSection.deletePending {s s' : UdpStack} {a : UdpAct} (hsec : UdpSection s a s')
    {c : UdpNo} (hc : c < s.created) (h : s.DeletePending c) :
    s'.DeletePending c ∨ s.deletes a = some c := by
  obtain hat | ⟨t, byAction, hproc⟩ := h
  · have hmove := hsec.connectors c
    rw [hat] at hmove
    generalize hnext : s'.connectors c = g at hmove
    cases hmove with
    | same => exact .inl (.inl hnext)
    | new hnew _ => exact absurd hc (hnew ▸ Nat.lt_irrefl _)
    | unregister hact =>
      subst hact
      exact .inr (by simp [UdpStack.deletes, hat])
  · obtain hsame | ⟨rfl, _⟩ := hsec.unregister_procs hproc
    · exact .inl (.inr ⟨t, byAction, hsame⟩)
    · exact .inr (by simp only [UdpStack.deletes, hproc])

/-- A closed connection that is registered, or will be, has its Delete still to come. -/
def HoleInv (s : UdpStack) (c : UdpNo) : Prop :=
  (s.conns c).state = .udpClosed → (∃ id, s.udpConns id = some c) ∨ s.storing = some c →
    s.DeletePending c

theorem UdpConnStep.deletePending {s s' : UdpStack} {a : UdpAct} {c : UdpNo} {conn : UdpConn}
    (hstep : UdpConnStep s a s' c conn) (hclosed : conn.state = .udpClosed) :
    (s.conns c).state = .udpClosed ∨ s'.DeletePending c := by
  cases hstep with
  | new _ _ | connected _ _ => cases hclosed
  | queue _ hqueue _ =>
    obtain ⟨_, _, _, _, rfl⟩ := UdpConn.enqueueEarlyPacket_eq_some hqueue
    exact .inl hclosed
  | close hafter => exact .inr hafter
  | _ => exact .inl hclosed

theorem HoleInv.step {s s' : UdpStack} {a : UdpAct} {c : UdpNo} (hinv : HoleInv s c)
    (hok : StoreFirst s a) (hreach : Reach udpMachine StoreFirst s) (hc : c < s.created)
    (hstep : udpMachine.step s a = some s') : HoleInv s' c := by
  intro hclosed hentry
  have hsec := UdpStack.step_section hstep
  have hlwip := reach_lwipInv hreach
  have hlwip' := hlwip.step hsec
  have hstoring (h : s'.storing = some c) : s.storing = some c := by
    obtain ⟨t, data, addr, ht⟩ := (UdpStack.storing_eq_some hlwip').mp h
    obtain hold | ⟨_, rfl⟩ := hsec.storing ht
    · exact (UdpStack.storing_eq_some hlwip).mpr ⟨t, data, addr, hold⟩
    · exact absurd hc (Nat.lt_irrefl _)
  obtain hold | hpending := (hsec.conns c).deletePending hclosed
  · have hentry' : (∃ id, s.udpConns id = some c) ∨ s.storing = some c := by
      obtain ⟨id, hid⟩ | h := hentry
      · obtain hid | ⟨_, hstore⟩ := hsec.entry hid
        · exact .inl ⟨id, hid⟩
        · exact .inr ((UdpStack.storing_eq_some hlwip).mpr hstore)
      · exact .inr (hstoring h)
    obtain hpending | hdelete := hsec.deletePending hc (hinv hold hentry')
    · exact hpending
    -- after the Delete there is no entry left, and none to come
    obtain ⟨id, hid⟩ | h := hentry
    · have hkey := (reach_udpRegistry (hreach.step hok hstep)).key id c hid
      rw [(UdpStack.deletes_spec hdelete hstep).1, Function.update_apply, ← hkey,
        (hsec.conns c).connId hc, if_pos rfl] at hid
      cases hid
    · exact absurd (hstoring h) (hok c hdelete)
  · exact hpending

private theorem reach_holeInv {s : UdpStack} (h : Reach udpMachine StoreFirst s) :
    ∀ c < s.created, HoleInv s c := by
  refine reach_each (fun {s s' a} _ hsec hlt hclosed => ?_)
    (fun hreach hc hinv hok hstep => hinv.step hok hreach hc hstep) h
  obtain ⟨t, id, data, addr, _, rfl⟩ := hsec.created hlt
  simp [newUDPConn] at hclosed

/-- `Close` of `c` is running. -/
def UdpProc.closing : UdpProc → Option UdpNo
  | .close c _ | .unregister c _ => some c
  | _ => none

/-- While neither `Close` nor the goroutine of `newUDPConn` is running for `c`, an entry
    with `c` is not a closed connection. This holds also while `udpRecvFn` is running. -/
theorem no_dead_entry {s : UdpStack} {id : UdpConnId} {c : UdpNo}
    (hreach : Reach udpMachine StoreFirst s) (hconnector : (s.connectors c).ended)
    (hclose : ∀ t, (s.procs t).closing ≠ some c) (hid : s.udpConns id = some c) :
    (s.conns c).state ≠ .udpClosed := by
  intro hclosed
  have hc := (reach_udpBounds hreach).udpConns id c hid
  obtain hat | ⟨t, byAction, hproc⟩ := reach_holeInv hreach c hc hclosed (.inl ⟨id, hid⟩)
  · rw [hat] at hconnector
    cases hconnector
  · exact hclose t (by rw [hproc]; rfl)

/-- Schedules in which only goroutine 0 enters the package. -/
def ByFirst (ok : UdpStack → UdpAct → Prop) (s : UdpStack) (a : UdpAct) : Prop :=
  ok s a ∧ (a.starts = none ∨ a.starts = some 0)

instance {ok : UdpStack → UdpAct → Prop} [∀ s a, Decidable (ok s a)] (s : UdpStack) (a : UdpAct) :
    Decidable (ByFirst ok s a) :=
  inferInstanceAs (Decidable (ok s a ∧ (a.starts = none ∨ a.starts = some 0)))

private theorem byFirst_idle {ok : UdpStack → UdpAct → Prop} {s : UdpStack}
    (h : Reach udpMachine (ByFirst ok) s) : ∀ t, t ≠ 0 → s.procs t = .idle := by
  refine h.invariant (P := fun s => ∀ t, t ≠ 0 → s.procs t = .idle) (fun _ _ => rfl) ?_
  intro s a s' _ hinv hok hstep t ht
  refine (UdpStack.step_section hstep).idle (hinv t ht) fun hstarts => ?_
  obtain hnone | hfirst := hok.2
  · rw [hstarts] at hnone
    cases hnone
  · rw [hstarts] at hfirst
    exact ht (Option.some.inj hfirst)

private theorem byFirst_closing {ok : UdpStack → UdpAct → Prop} {s : UdpStack}
    (h : Reach udpMachine (ByFirst ok) s) (hidle : s.procs 0 = .idle) (c : UdpNo) (t : Tid) :
    (s.procs t).closing ≠ some c := by
  by_cases ht : t = 0
  · simp [ht, hidle, UdpProc.closing]
  · simp [byFirst_idle h t ht, UdpProc.closing]

theorem no_dead_entry_connected : ∃ s, Reach udpMachine StoreFirst s ∧
    s.udpConns dialer = some 0 ∧ (s.conns 0).state ≠ .udpClosed := by
  obtain ⟨s, hreach, hid, hended, hidle⟩ := exists_reach_of_run udpMachine (ByFirst StoreFirst)
    (dialing ++ [.connect 0 true, .connector 0, .connector 0, .drained 0 true, .connector 0,
      .connector 0])
    (fun s => s.udpConns dialer = some 0 ∧ (s.connectors 0).ended ∧ s.procs 0 = .idle) (by decide)
  have hclose := byFirst_closing hreach hidle 0
  have hreach := hreach.mono fun _ _ hok => hok.1
  exact ⟨s, hreach, hid, no_dead_entry hreach hended hclose hid⟩

/-- `Connect` fails and `Close` returns before `udpRecvFn` comes to its Store: the closed
    connection stays registered. -/
theorem dead_entry : ∃ s, Reach udpMachine any s ∧ s.lwip = none ∧ (s.connectors 0).ended ∧
    (∀ t, (s.procs t).closing ≠ some 0) ∧ s.udpConns dialer = some 0 ∧
    (s.conns 0).state = .udpClosed := by
  obtain ⟨s, hreach, hlwip, hended, hid, hclosed, hidle⟩ :=
    exists_reach_of_run udpMachine (ByFirst any)
      [.recvFn 0 (some dialer) (some [1]) ⟨[8, 8, 8, 8], 53, ""⟩, .run 0, .create 0 true,
        .connect 0 false, .connector 0, .connector 0, .run 0, .run 0, .run 0, .run 0]
      (fun s => s.lwip = none ∧ (s.connectors 0).ended ∧ s.udpConns dialer = some 0 ∧
        (s.conns 0).state = .udpClosed ∧ s.procs 0 = .idle) (by decide)
  exact ⟨s, hreach.mono fun _ _ hok => hok.1, hlwip, hended, byFirst_closing hreach hidle 0, hid,
    hclosed⟩

end tun2proxy.core
