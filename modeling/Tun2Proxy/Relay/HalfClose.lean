import Tun2Proxy.Relay.Copy

open tun2proxy.machine tun2proxy.machine.Machine

namespace tun2proxy.relay

/-- Everything a step can do, with the guards it has passed. -/
inductive RelaySection (r : Relay) (s : RelayState) : RelayAct → RelayState → Prop where
  | pass {n : Nat} : RelaySection r s (.pass n) { s with now := s.now + n }
  | start {x : Side} {rest : List Side} (hmain : s.main = .start (x :: rest)) :
      RelaySection r s .start
        { s.setCopy x (if r = .handleTCP then .setRead else .read) with main := .start rest }
  | setRead {x : Side} (hat : s.copies x = .setRead) :
      RelaySection r s (.prepare x) ((s.modConn x.other fun conn =>
        { conn with readDeadline := some (s.now + timeout) }).setCopy x .setWrite)
  | setWrite {x : Side} (hat : s.copies x = .setWrite) :
      RelaySection r s (.prepare x) ((s.modConn x fun conn =>
        { conn with writeDeadline := some (s.now + timeout) }).setCopy x .read)
  | read {x : Side} {data : List UInt8} {err : Option ReadError} (hat : s.copies x = .read)
      (hlen : data.length ≤ copyBufSize)
      (htime : if expired (s.conns x).readDeadline s.now then data = [] ∧ err = some .timeout
        else err ≠ some .timeout) :
      RelaySection r s (.read x data err) ((s.modConn x fun conn =>
        { conn with received := conn.received ++ data }).setCopy x (afterRead data err))
  | write {x : Side} {data : List UInt8} {err : Option ReadError} {n : Nat} {werr : Option WriteError}
      (hat : s.copies x = .write data err) (hn : n ≤ data.length)
      (htime : if expired (s.conns x.other).writeDeadline s.now then werr = some .timeout
        else werr ≠ some .timeout) :
      RelaySection r s (.write x n werr) ((s.modConn x.other fun conn =>
        { conn with written := conn.written ++ data.take n }).setCopy x (afterWrite data err n werr))
  | done {x : Side} {e : CopyEnd} (hat : s.copies x = .ended e) :
      RelaySection r s (.done x) { s.setCopy x (.done e) with wg := s.wg - 1 }
  | wait (hmain : s.main = .start []) (hwg : s.wg = 0) :
      RelaySection r s .wait { s with main := .close r.closes }
  | close {x : Side} {rest : List Side} (hmain : s.main = .close (x :: rest)) :
      RelaySection r s .close
        { s.modConn x fun conn => { conn with shut := true } with main := .close rest }

theorem RelayState.step_section {r : Relay} {s s' : RelayState} {act : RelayAct}
    (hstep : s.step r act = some s') : RelaySection r s act s' := by
  cases act with
  | pass n =>
    cases hstep
    exact .pass
  | start =>
    simp only [step] at hstep
    split at hstep
    · cases hstep
      exact .start ‹_›
    · cases hstep
  | prepare x =>
    simp only [step, prepare] at hstep
    split at hstep
    · cases hstep
      exact .setRead ‹_›
    · cases hstep
      exact .setWrite ‹_›
    · cases hstep
  | read x data err =>
    obtain ⟨⟨hat, hlen, htime⟩, heq⟩ := Option.ite_none_right_eq_some.mp hstep
    cases heq
    exact .read hat hlen htime
  | write x n werr =>
    simp only [step, write] at hstep
    split at hstep
    · rename_i data err hat
      obtain ⟨⟨hn, htime⟩, heq⟩ := Option.ite_none_right_eq_some.mp hstep
      cases heq
      exact .write hat hn htime
    · cases hstep
  | done x =>
    simp only [step] at hstep
    split at hstep
    · cases hstep
      exact .done ‹_›
    · cases hstep
  | wait =>
    obtain ⟨⟨hmain, hwg⟩, heq⟩ := Option.ite_none_right_eq_some.mp hstep
    cases heq
    exact .wait hmain hwg
  | close =>
    simp only [step] at hstep
    split at hstep
    · cases hstep
      exact .close ‹_›
    · cases hstep

/-! ### When a connection is closed -/

def CopyAt.isDone : CopyAt → Bool
  | .done _ => true
  | _ => false

private theorem afterRead_isDone (data : List UInt8) (err : Option ReadError) :
    (afterRead data err).isDone = false := by
  unfold afterRead
  split
  · split <;> rfl
  · rfl

private theorem afterWrite_isDone (data : List UInt8) (err : Option ReadError) (n : Nat)
    (werr : Option WriteError) : (afterWrite data err n werr).isDone = false := by
  unfold afterWrite
  split
  · rfl
  · split
    · rfl
    · exact afterRead_isDone [] err

theorem RelayState.setCopy_conns (s : RelayState) (x : Side) (place : CopyAt) :
    (s.setCopy x place).conns = s.conns := rfl

theorem RelayState.modConn_field {B : Type} (field : Conn → B) (s : RelayState) {x : Side}
    {f : Conn → Conn} (hf : ∀ conn, field (f conn) = field conn) (y : Side) :
    field ((s.modConn x f).conns y) = field (s.conns y) := by
  simp only [modConn, Function.update_apply]
  split
  · rename_i heq
    rw [hf, heq]
  · rfl

/-- What a copy adds to the counter of `wg`. -/
def CopyAt.pending (place : CopyAt) : Nat := if place.isDone then 0 else 1

/-- The connections are open until both copies are done; then they are closed in turn. -/
structure CloseInv (r : Relay) (s : RelayState) : Prop where
  counted : s.wg = (s.copies .tun).pending + (s.copies .proxy).pending
  starting : ∀ rest, s.main = .start rest → rest.Nodup ∧ ∀ x ∈ rest, s.copies x = .absent
  opened : ∀ rest, s.main = .start rest → ∀ y, (s.conns y).shut = false
  closing : ∀ rest, s.main = .close rest → (∀ x, (s.copies x).isDone = true) ∧
    rest.Nodup ∧ ∀ y, (s.conns y).shut = true ↔ y ∉ rest

namespace CloseInv

variable {r : Relay} {s s' : RelayState} {act : RelayAct}

theorem init (r : Relay) : CloseInv r (RelayState.init r) where
  counted := rfl
  starting rest h := by
    cases h
    cases r <;> exact ⟨by decide, fun _ _ => rfl⟩
  opened _ _ _ := rfl
  closing _ h := by cases h

private theorem counted_step (hinv : CloseInv r s) (hsec : RelaySection r s act s') :
    s'.wg = (s'.copies .tun).pending + (s'.copies .proxy).pending := by
  have hset : ∀ {x : Side} {place : CopyAt}, place.pending = (s.copies x).pending →
      s.wg = (Function.update s.copies x place .tun).pending +
        (Function.update s.copies x place .proxy).pending := by
    intro x place hplace
    rw [hinv.counted]
    cases x <;> simp [hplace]
  cases hsec with
  | pass | wait _ _ | close _ => exact hinv.counted
  | @start x rest hmain =>
    refine hset ?_
    rw [(hinv.starting _ hmain).2 x List.mem_cons_self]
    split <;> rfl
  | setRead hat | setWrite hat => exact hset (by rw [hat]; rfl)
  | read hat _ _ => exact hset (by rw [hat, CopyAt.pending, afterRead_isDone]; rfl)
  | write hat _ _ => exact hset (by rw [hat, CopyAt.pending, afterWrite_isDone]; rfl)
  | @done x e hat =>
    have hcounted := hinv.counted
    have hone : (s.copies x).pending = 1 := by rw [hat]; rfl
    have hzero : (CopyAt.done e).pending = 0 := rfl
    cases x <;> simp [RelayState.setCopy, hzero] <;> omega

private theorem starting_step (hinv : CloseInv r s) (hsec : RelaySection r s act s') {rest : List Side}
    (hmain : s'.main = .start rest) :
    (rest.Nodup ∧ ∀ x ∈ rest, s'.copies x = .absent) ∧ ∀ y, (s'.conns y).shut = false := by
  have hset : ∀ {x : Side} {place : CopyAt}, s.main = .start rest → s.copies x ≠ .absent →
      rest.Nodup ∧ ∀ y ∈ rest, Function.update s.copies x place y = .absent := by
    intro x place hmain hx
    obtain ⟨hnodup, habsent⟩ := hinv.starting rest hmain
    refine ⟨hnodup, fun y hy => ?_⟩
    rw [Function.update_of_ne, habsent y hy]
    rintro rfl
    exact hx (habsent y hy)
  cases hsec with
  | pass => exact ⟨hinv.starting rest hmain, hinv.opened rest hmain⟩
  | @start x _ hbefore =>
    cases hmain
    obtain ⟨hnodup, habsent⟩ := hinv.starting _ hbefore
    obtain ⟨hx, hnodup⟩ := List.nodup_cons.mp hnodup
    refine ⟨⟨hnodup, fun y hy => ?_⟩, hinv.opened _ hbefore⟩
    have hne : y ≠ x := fun heq => hx (heq ▸ hy)
    exact (Function.update_of_ne hne _ _).trans (habsent y (List.mem_cons_of_mem _ hy))
  | setRead hat | setWrite hat | read hat _ _ | write hat _ _ =>
    refine ⟨hset hmain (by rw [hat]; exact nofun), fun y => ?_⟩
    simp only [RelayState.setCopy_conns, RelayState.modConn_field Conn.shut, implies_true]
    exact hinv.opened rest hmain y
  | done hat => exact ⟨hset hmain (by rw [hat]; exact nofun), hinv.opened rest hmain⟩
  | wait _ _ | close _ => cases hmain

private theorem closing_step (hinv : CloseInv r s) (hsec : RelaySection r s act s') {rest : List Side}
    (hmain : s'.main = .close rest) : (∀ x, (s'.copies x).isDone = true) ∧
      rest.Nodup ∧ ∀ y, (s'.conns y).shut = true ↔ y ∉ rest := by
  -- no copy moves any more
  have hdone : ∀ {x : Side} {place : CopyAt}, s.main = .close rest → s.copies x = place →
      place.isDone = true := fun hmain hat => hat ▸ (hinv.closing rest hmain).1 _
  cases hsec with
  | pass => exact hinv.closing rest hmain
  | start _ => cases hmain
  | setRead hat | setWrite hat | read hat _ _ | write hat _ _ | done hat =>
    cases hdone hmain hat
  | wait hbefore hwg =>
    cases hmain
    have hcounted := hinv.counted
    rw [hwg] at hcounted
    refine ⟨fun x => ?_, ?_, fun y => ?_⟩
    · have hzero : (s.copies x).pending = 0 := by cases x <;> omega
      by_contra hnot
      rw [CopyAt.pending, if_neg hnot] at hzero
      cases hzero
    · cases r <;> decide
    · have hmem : y ∈ r.closes := by cases r <;> cases y <;> decide
      simp [hinv.opened _ hbefore y, hmem]
  | @close x _ hbefore =>
    cases hmain
    obtain ⟨hall, hnodup, hshut⟩ := hinv.closing _ hbefore
    obtain ⟨hx, hnodup⟩ := List.nodup_cons.mp hnodup
    refine ⟨hall, hnodup, fun y => ?_⟩
    by_cases hy : y = x
    · simp [RelayState.modConn, hy, hx]
    · simp [RelayState.modConn, hy, hshut]

end CloseInv

theorem reach_closeInv {r : Relay} {ok : RelayState → RelayAct → Prop} {s : RelayState}
    (h : Reach (relayMachine r) ok s) : CloseInv r s := by
  refine h.invariant (.init r) ?_
  intro s act s' _ hinv _ hstep
  have hsec := RelayState.step_section hstep
  exact ⟨hinv.counted_step hsec, fun _ hmain => (hinv.starting_step hsec hmain).1,
    fun _ hmain => (hinv.starting_step hsec hmain).2, fun _ hmain => hinv.closing_step hsec hmain⟩

/-! ### What a copy has transferred -/

/-- What a copy has got from `Read` and not yet brought to `Write`, unless a `Write` failed. -/
def CopyAt.unwritten : CopyAt → Option (List UInt8)
  | .write data _ => some data
  | .ended .writeFailed | .ended .shortWrite | .done .writeFailed | .done .shortWrite => none
  | _ => some []

private theorem afterRead_unwritten (data : List UInt8) (err : Option ReadError) :
    (afterRead data err).unwritten = some data := by
  unfold afterRead
  split
  · rename_i hempty
    subst hempty
    split <;> rfl
  · rfl

private theorem afterWrite_unwritten {data rest : List UInt8} {err : Option ReadError} {n : Nat}
    {werr : Option WriteError} (h : (afterWrite data err n werr).unwritten = some rest) :
    rest = [] ∧ data.take n = data := by
  unfold afterWrite at h
  split at h
  · cases h
  · split at h
    · cases h
    · rename_i hlen
      rw [afterRead_unwritten] at h
      cases h
      exact ⟨rfl, List.take_of_length_le (Nat.le_of_eq (not_not.mp hlen).symm)⟩

/-- Whatever was received is written, or about to be. -/
def BytesInv (s : RelayState) : Prop :=
  ∀ x data, (s.copies x).unwritten = some data →
    (s.conns x).received = (s.conns x.other).written ++ data

namespace BytesInv

variable {r : Relay} {s s' : RelayState} {act : RelayAct}

/-- A copy moves on with nothing in between. -/
theorem setCopy (hinv : BytesInv s) {s' : RelayState} {x : Side} {place : CopyAt}
    (hcopies : s'.copies = Function.update s.copies x place)
    (hplace : ∀ data, place.unwritten = some data → (s.copies x).unwritten = some data)
    (hreceived : ∀ y, (s'.conns y).received = (s.conns y).received)
    (hwritten : ∀ y, (s'.conns y).written = (s.conns y).written) : BytesInv s' := by
  intro y data h
  rw [hreceived, hwritten]
  rw [hcopies, Function.update_apply] at h
  split at h
  · rename_i heq
    exact hinv y data (heq ▸ hplace data h)
  · exact hinv y data h

theorem read (hinv : BytesInv s) {x : Side} {data : List UInt8} {err : Option ReadError}
    (hat : s.copies x = .read) : BytesInv ((s.modConn x fun conn =>
      { conn with received := conn.received ++ data }).setCopy x (afterRead data err)) := by
  intro y rest h
  simp only [RelayState.setCopy_conns, RelayState.modConn_field Conn.written, implies_true]
  by_cases hy : y = x
  · subst hy
    have hbefore := hinv y [] (by rw [hat]; rfl)
    simp only [RelayState.setCopy, Function.update_self, afterRead_unwritten, Option.some.injEq] at h
    subst h
    simp [RelayState.modConn, hbefore]
  · simp only [RelayState.setCopy, Function.update_of_ne hy] at h
    simp only [RelayState.modConn, Function.update_of_ne hy]
    exact hinv y rest h

theorem write (hinv : BytesInv s) {x : Side} {data : List UInt8} {err : Option ReadError} {n : Nat}
    {werr : Option WriteError} (hat : s.copies x = .write data err) :
    BytesInv ((s.modConn x.other fun conn =>
      { conn with written := conn.written ++ data.take n }).setCopy x (afterWrite data err n werr)) := by
  intro y rest h
  simp only [RelayState.setCopy_conns, RelayState.modConn_field Conn.received, implies_true]
  by_cases hy : y = x
  · subst hy
    have hbefore := hinv y data (by rw [hat]; rfl)
    simp only [RelayState.setCopy, Function.update_self] at h
    obtain ⟨rfl, hall⟩ := afterWrite_unwritten h
    simp [RelayState.modConn, hbefore, hall]
  · have hne : y.other ≠ x.other := by cases x <;> cases y <;> simp_all [Side.other]
    simp only [RelayState.setCopy, Function.update_of_ne hy] at h
    simp only [RelayState.modConn, Function.update_of_ne hne]
    exact hinv y rest h

theorem step (hinv : BytesInv s) (hclose : CloseInv r s) (hsec : RelaySection r s act s') :
    BytesInv s' := by
  have hempty : ∀ {x : Side}, (s.copies x).unwritten = some [] → ∀ {place : CopyAt},
      place.unwritten = some [] →
      ∀ data, place.unwritten = some data → (s.copies x).unwritten = some data := by
    intro x hx place hplace data h
    rw [hplace] at h
    rw [hx, h]
  cases hsec with
  | pass | wait _ _ => exact hinv
  | @start x rest hmain =>
    have habsent := (hclose.starting _ hmain).2 x List.mem_cons_self
    refine hinv.setCopy rfl (hempty (by rw [habsent]; rfl) ?_) (fun _ => rfl) fun _ => rfl
    split <;> rfl
  | setRead hat | setWrite hat =>
    refine hinv.setCopy rfl (hempty (by rw [hat]; rfl) rfl) (fun y => ?_) fun y => ?_
    · simp only [RelayState.setCopy_conns, RelayState.modConn_field Conn.received, implies_true]
    · simp only [RelayState.setCopy_conns, RelayState.modConn_field Conn.written, implies_true]
  | read hat _ _ => exact hinv.read hat
  | write hat _ _ => exact hinv.write hat
  | @done x e hat =>
    refine hinv.setCopy rfl (fun data h => ?_) (fun _ => rfl) fun _ => rfl
    rw [hat]
    cases e <;> exact h
  | close _ =>
    intro y data h
    simp only [RelayState.modConn_field Conn.received, RelayState.modConn_field Conn.written,
      implies_true]
    exact hinv y data h

end BytesInv

private theorem reach_bytesInv {r : Relay} {ok : RelayState → RelayAct → Prop} {s : RelayState}
    (h : Reach (relayMachine r) ok s) : BytesInv s := by
  refine h.invariant ?_ ?_
  · intro x data hdata
    cases hdata
    rfl
  · intro s act s' hreach hinv _ hstep
    exact hinv.step (reach_closeInv hreach) (RelayState.step_section hstep)

/-! ### The end of one direction -/

/-- The copy from `x` has ended because `x` reported the end of its data. -/
def EndedAtEof (s : RelayState) (x : Side) : Prop :=
  s.copies x = .ended .eof ∨ s.copies x = .done .eof

instance (s : RelayState) (x : Side) : Decidable (EndedAtEof s x) :=
  inferInstanceAs (Decidable (_ ∨ _))

/-- The goroutine of the relay is past its deferred `Close` of `y`. -/
def RelayAt.pastClose (y : Side) : RelayAt → Bool
  | .start _ => false
  | .close rest => y ∉ rest

private theorem CloseInv.shut_iff {r : Relay} {s : RelayState} (hinv : CloseInv r s) (y : Side) :
    (s.conns y).shut = true ↔ s.main.pastClose y = true := by
  cases hmain : s.main with
  | start rest => simp [RelayAt.pastClose, hinv.opened rest hmain y]
  | close rest => simpa [RelayAt.pastClose] using (hinv.closing rest hmain).2.2 y

/-- Until both copies are done, neither connection is closed. -/
theorem CloseInv.open_of_running {r : Relay} {s : RelayState} (hinv : CloseInv r s) {x : Side}
    (hrunning : (s.copies x).isDone = false) (y : Side) : (s.conns y).shut = false := by
  cases hmain : s.main with
  | start rest => exact hinv.opened rest hmain y
  | close rest =>
    rw [(hinv.closing rest hmain).1 x] at hrunning
    cases hrunning

/-- `wg.Wait` has let the goroutine of the relay go only when both copies were done. -/
theorem CloseInv.done_of_pastClose {r : Relay} {s : RelayState} (hinv : CloseInv r s) {y : Side}
    (hpast : s.main.pastClose y = true) (x : Side) : (s.copies x).isDone = true := by
  cases hmain : s.main with
  | start rest =>
    rw [hmain] at hpast
    cases hpast
  | close rest => exact (hinv.closing rest hmain).1 x

/-- When the copy from `x` has ended at the end of the data, all of them were written. The
    other side is shut down only by the deferred `Close` at the end of the relay, which both
    copies must be done for, so never while the opposite copy runs. Nothing is assumed of
    what the connections answer, nor of the order in which the goroutines run. -/
theorem writeShut_iff {r : Relay} {s : RelayState} {x : Side}
    (hreach : Reach (relayMachine r) any s) (hended : EndedAtEof s x) :
    (s.conns x.other).written = (s.conns x).received ∧
    ((s.conns x.other).shut = true ↔
      (∀ y, (s.copies y).isDone = true) ∧ s.main.pastClose x.other = true) ∧
    (s.main.pastClose x.other = true → ∀ y, (s.copies y).isDone = true) ∧
    ((s.copies x.other).isDone = false → (s.conns x.other).shut = false) := by
  have hclose := reach_closeInv hreach
  have hshut := hclose.shut_iff x.other
  have hnone : (s.copies x).unwritten = some [] := by
    obtain hat | hat := hended <;> rw [hat] <;> rfl
  refine ⟨?_, ?_, hclose.done_of_pastClose, fun hrunning => hclose.open_of_running hrunning x.other⟩
  · rw [reach_bytesInv hreach x [] hnone, List.append_nil]
  · rw [hshut]
    exact ⟨fun hpast => ⟨hclose.done_of_pastClose hpast, hpast⟩, fun h => h.2⟩

/-- The client sends a byte and closes its writing side. -/
def halfClosing : List RelayAct :=
  [.start, .start, .read .tun [1] none, .write .tun 1 none, .read .tun [] (some .eof), .done .tun]

/-- The proxy closes too, and the relay ends. -/
def bothClosing : List RelayAct :=
  [.read .proxy [] (some .eof), .done .proxy, .wait, .close, .close]

theorem writeShut_at_end : ∃ s, EndedAtEof s .tun ∧ (s.conns .proxy).shut = true := by
  obtain ⟨s, hreach, hended, hpast⟩ := exists_reach_of_run (relayMachine .pipe) any
    (halfClosing ++ bothClosing)
    (fun s => EndedAtEof s .tun ∧ s.main.pastClose .proxy = true) (by decide)
  obtain ⟨_, hshut, hdone, _⟩ := writeShut_iff hreach hended
  exact ⟨s, hended, hshut.mpr ⟨hdone hpast, hpast⟩⟩

/-- In both relays the client has closed its writing side, and the proxy, which may be
    waiting for that, is not told. -/
theorem half_close_not_propagated :
    (∃ s, Reach (relayMachine .pipe) any s ∧ EndedAtEof s .tun ∧
      (s.conns .proxy).written = [1] ∧ s.copies .proxy = .read ∧ (s.conns .proxy).shut = false) ∧
    ∃ s, Reach (relayMachine .handleTCP) any s ∧ EndedAtEof s .tun ∧
      (s.conns .proxy).written = [1] ∧ s.copies .proxy = .read ∧ (s.conns .proxy).shut = false := by
  constructor
  · exact exists_reach_of_run (relayMachine .pipe) any halfClosing
      (fun s => EndedAtEof s .tun ∧ (s.conns .proxy).written = [1] ∧ s.copies .proxy = .read ∧
        (s.conns .proxy).shut = false) (by decide)
  · exact exists_reach_of_run (relayMachine .handleTCP) any
      ([.start, .start, .prepare .proxy, .prepare .proxy, .prepare .tun, .prepare .tun] ++
        halfClosing.drop 2)
      (fun s => EndedAtEof s .tun ∧ (s.conns .proxy).written = [1] ∧ s.copies .proxy = .read ∧
        (s.conns .proxy).shut = false) (by decide)

end tun2proxy.relay
