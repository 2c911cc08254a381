import Tun2Proxy.Lib.Authored
import Tun2Proxy.Lib.Trace
import Tun2Proxy.Tcp.Monitor

open tun2proxy.machine tun2proxy.machine.Machine tun2proxy.authored

namespace tun2proxy.core

/-- The bytes that lwIP takes from a call of `tcp_write`, with the goroutine that
    made it. -/
def TcpWrite.signed (w : TcpWrite) : List (Tid × UInt8) := sign w.tid w.accepted

/-- All bytes that a schedule enqueues on the pcb of `c`, in order. -/
def enqueued (c : ConnId) (schedule : List Act) : List (Tid × UInt8) :=
  (Stack.init.tcpWrites c schedule).flatMap TcpWrite.signed

/-- A run appends to what was enqueued. -/
theorem enqueued_append {c : ConnId} {front : List Act} {mid : Stack}
    (htrace : Trace tcpMachine front mid) (rest : List Act) :
    enqueued c (front ++ rest) =
      enqueued c front ++ (mid.tcpWrites c rest).flatMap TcpWrite.signed := by
  induction htrace generalizing rest with
  | nil => rfl
  | @snoc schedule s s' a _ hstep ih =>
    have hall := ih (a :: rest)
    have hone := ih [a]
    rw [Stack.tcpWrites_cons hstep, List.flatMap_append] at hall hone
    rw [List.append_assoc, List.singleton_append, hall, hone]
    simp [Stack.tcpWrites]

private theorem enqueued_snoc {c : ConnId} {schedule : List Act} {s s' : Stack} {a : Act}
    (htrace : Trace tcpMachine schedule s) (hstep : s.step a = some s') :
    enqueued c (schedule ++ [a]) =
      enqueued c schedule ++ (s.tcpWrite c a).toList.flatMap TcpWrite.signed := by
  rw [enqueued_append htrace, Stack.tcpWrites_cons hstep]
  simp [Stack.tcpWrites]

/-- What goroutine `t` adds in a section. -/
theorem Stack.own_tcpWrite (s : Stack) (t : Tid) (c : ConnId) (a : Act) :
    own t ((s.tcpWrite c a).toList.flatMap TcpWrite.signed) = s.sentBy t c a := by
  unfold Stack.sentBy
  cases s.tcpWrite c a with
  | none => rfl
  | some w =>
    by_cases ht : w.tid = t
    · simp [TcpWrite.signed, ht]
    · simp [TcpWrite.signed, ht, own_sign_of_ne]

private theorem own_snoc {c : ConnId} {schedule : List Act} {s s' : Stack} {a : Act} {t : Tid}
    (htrace : Trace tcpMachine schedule s) (hstep : s.step a = some s') :
    own t (enqueued c (schedule ++ [a])) = own t (enqueued c schedule) ++ s.sentBy t c a := by
  rw [enqueued_snoc htrace hstep, own_append, Stack.own_tcpWrite]

/-- Bytes are taken from the goroutine whose section it is. -/
theorem Stack.sentBy_ne_nil {s : Stack} {t : Tid} {c : ConnId} {a : Act} (hsent : s.sentBy t c a ≠ []) :
    (∃ data n, s.procs t = .write c .lwip data n) ∧ ∀ t', t' ≠ t → s.sentBy t' c a = [] := by
  have hact : ∃ data n, s.procs t = .write c .lwip data n ∧ ∃ snd_buf res, a = .write t snd_buf res := by
    by_contra hnone
    refine hsent (Stack.sentBy_eq_nil ?_)
    intro data n hproc snd_buf res hact
    exact hnone ⟨data, n, hproc, snd_buf, res, hact⟩
  obtain ⟨data, n, hproc, snd_buf, res, rfl⟩ := hact
  refine ⟨⟨data, n, hproc⟩, ?_⟩
  intro t' hne
  refine Stack.sentBy_eq_nil ?_
  intro _ _ _ _ _ hact
  cases hact
  exact hne rfl

/-! ### One `Write` -/

/-- The goroutine is in a `Write` or has made one. -/
def Proc.writes : Proc → Bool
  | .write _ _ _ _ | .wrote _ _ _ => true
  | _ => false

/-- A `Write` with bytes taken from it and bytes left. -/
def Proc.partway (c : ConnId) : Proc → Prop
  | .write c' _ data n => c' = c ∧ n ≠ 0 ∧ data ≠ []
  | _ => False

instance (c : ConnId) : (p : Proc) → Decidable (p.partway c)
  | .write c' _ data n => inferInstanceAs (Decidable (c' = c ∧ n ≠ 0 ∧ data ≠ []))
  | .idle | .handle _ | .connected _ | .refused _ | .processing _ | .abort _ | .abortLwip _ | .abortCheck _
  | .aborted _ | .wrote _ _ _ | .closeWrite _ _ | .shutdown _ _ | .closeRead _ | .close _ | .read _ _
  | .readPipe _ _ | .readBlocked _ _ => inferInstanceAs (Decidable False)

private theorem Proc.writes_of_partway {c : ConnId} {p : Proc} (h : p.partway c) : p.writes = true := by
  cases p <;> first | rfl | exact h.elim

private theorem Section.writes_stay {s s' : Stack} {a : Act} {t : Tid} (hsec : Section s a s')
    (hrunner : RunnerInv s) (hwrites : (s.procs t).writes = true) : (s'.procs t).writes = true := by
  have houtside : (s.procs t).inLwip = false := by
    revert hwrites
    cases s.procs t <;> simp [Proc.writes, Proc.inLwip]
  have hmove := hsec.procs t
  generalize s'.procs t = p' at hmove
  generalize hproc : s.procs t = p at hmove hwrites
  cases hmove with
  | same => exact hwrites
  | woken c =>
    unfold Proc.wake
    split
    · rfl
    · exact hwrites
  | own hown =>
    cases hown with
    | unlock hholder => exact absurd hholder (hrunner.not_unlock houtside)
    | aborted hholder hcaller _ => exact absurd hcaller (hrunner.not_abort houtside hholder)
    | proc hmove => cases hmove <;> first | rfl | cases hwrites
    | conn _ hmove _ => cases hmove <;> first | rfl | cases hwrites
    | pcb _ hmove => cases hmove <;> first | rfl | cases hwrites
    | _ => cases hwrites

namespace WriteProgress

variable {c : ConnId} {data sent : List UInt8} {p : Proc}

/-- A `Write` that is not partway has not begun, is done or has failed. -/
theorem of_not_partway (h : WriteProgress c data sent p) (hnot : ¬p.partway c) :
    sent = [] ∨ sent = data ∨ ∃ n e, p = .wrote c n (some e) := by
  cases h with
  | @writing pos n hn hsent =>
    by_cases hzero : n = 0
    · exact .inl (by rw [hsent, hzero]; rfl)
    · have hrest : data.drop n = [] := by
        by_contra hrest
        exact hnot ⟨rfl, hzero, hrest⟩
      refine .inr (.inl ?_)
      rw [hsent]
      exact List.take_of_length_le (List.drop_eq_nil_iff.mp hrest)
  | @wrote n err hn hsent herr =>
    cases err with
    | none =>
      refine .inr (.inl ?_)
      rw [hsent, herr.mpr rfl]
      exact List.take_length
    | some e => exact .inr (.inr ⟨n, e, rfl⟩)

private theorem of_partway (h : WriteProgress c data sent p) (hpartway : p.partway c) :
    sent ≠ [] ∧ sent ≠ data := by
  cases h with
  | @writing pos n hn hsent =>
    obtain ⟨-, hzero, hrest⟩ := hpartway
    have hlt : n < data.length := by
      rw [Ne, List.drop_eq_nil_iff] at hrest
      omega
    have hlength : sent.length = n := by
      rw [hsent, List.length_take]
      omega
    constructor
    · rintro rfl
      exact hzero hlength.symm
    · rintro rfl
      omega
  | wrote _ _ _ => exact hpartway.elim

theorem length_le (h : WriteProgress c data sent p) : sent.length ≤ data.length := by
  cases h with
  | writing hn hsent | wrote hn hsent _ =>
    rw [hsent, List.length_take]
    omega

/-- A `Write` that returned nil has enqueued all of its data. -/
theorem of_wrote {n : Nat} (h : WriteProgress c data sent (.wrote c n none)) : sent = data := by
  cases h with
  | wrote _ hsent herr =>
    rw [hsent, herr.mpr rfl]
    exact List.take_length

end WriteProgress

/-- How far goroutine `t` is with its `Write` of `data`. -/
inductive Writer (c : ConnId) (t : Tid) (data : List UInt8) (schedule : List Act) (s : Stack) :
    Prop where
  | ahead (hcall : Act.call t (.write c data) ∉ schedule)
      (hown : own t (enqueued c schedule) = []) (hproc : (s.procs t).writes = false)
  | called (hcall : Act.call t (.write c data) ∈ schedule)
      (hprogress : WriteProgress c data (own t (enqueued c schedule)) (s.procs t))
  -- it has made another `Write`, and a goroutine is for one
  | other (hcall : Act.call t (.write c data) ∉ schedule) (hproc : (s.procs t).writes = true)

namespace Writer

variable {c : ConnId} {t : Tid} {data : List UInt8} {schedule : List Act} {s s' : Stack} {a : Act}

/-- A goroutine in a `Write` makes no call. -/
theorem not_call (hwrites : (s.procs t).writes = true) (hstep : s.step a = some s') (op : Call) :
    a ≠ .call t op := by
  rintro rfl
  simp only [Stack.step, Option.ite_none_right_eq_some] at hstep
  rw [hstep.1.1] at hwrites
  cases hwrites

private theorem not_mem_snoc (hcall : Act.call t (.write c data) ∉ schedule)
    (hact : a ≠ .call t (.write c data)) : Act.call t (.write c data) ∉ schedule ++ [a] := by
  simp [hcall, Ne.symm hact]

theorem step (h : Writer c t data schedule s) (htrace : Trace tcpMachine schedule s)
    (hstep : s.step a = some s') : Writer c t data (schedule ++ [a]) s' := by
  have hrunner := reach_runner htrace.reach
  have hsec := Stack.step_section hstep
  cases h with
  | ahead hcall hown hproc =>
    have hsent : s.sentBy t c a = [] := by
      by_contra hsent
      obtain ⟨⟨_, _, hwrite⟩, -⟩ := Stack.sentBy_ne_nil hsent
      rw [hwrite] at hproc
      cases hproc
    have hown' : own t (enqueued c (schedule ++ [a])) = [] := by
      rw [own_snoc htrace hstep, hown, hsent]
      rfl
    by_cases hact : a = .call t (.write c data)
    · subst hact
      have hstart : s'.procs t = .write c .lock data 0 := by
        simp only [Stack.step, Option.ite_none_right_eq_some, Option.some.injEq] at hstep
        rw [← hstep.2]
        simp [Call.start]
      refine .called (by simp) ?_
      rw [hown', hstart]
      exact .writing (Nat.zero_le _) rfl
    · by_cases hwrites : (s'.procs t).writes = true
      · exact .other (not_mem_snoc hcall hact) hwrites
      · exact .ahead (not_mem_snoc hcall hact) hown' (Bool.eq_false_iff.mpr hwrites)
  | called hcall hprogress =>
    refine .called (by simp [hcall]) ?_
    rw [own_snoc htrace hstep]
    exact hprogress.step hrunner hstep
  | other hcall hproc =>
    exact .other (not_mem_snoc hcall (not_call hproc hstep _)) (hsec.writes_stay hrunner hproc)

theorem trace (c : ConnId) (t : Tid) (data : List UInt8) (htrace : Trace tcpMachine schedule s) :
    Writer c t data schedule s := by
  induction htrace with
  | nil => exact .ahead (by simp) rfl rfl
  | snoc htrace hstep ih => exact ih.step htrace hstep

end Writer

/-- The `Write` of `data` by goroutine `t` will not return nil any more: the
    goroutine has made another one, or it has failed. -/
inductive Lost (c : ConnId) (t : Tid) (data : List UInt8) (schedule : List Act) (s : Stack) :
    Prop where
  | other (hcall : Act.call t (.write c data) ∉ schedule) (hproc : (s.procs t).writes = true)
  | failed {n : Nat} {e : GoError} (hproc : s.procs t = .wrote c n (some e))

namespace Lost

variable {c : ConnId} {t : Tid} {data : List UInt8} {schedule : List Act} {s s' : Stack} {a : Act}

theorem step (h : Lost c t data schedule s) (htrace : Trace tcpMachine schedule s)
    (hstep : s.step a = some s') : Lost c t data (schedule ++ [a]) s' := by
  have hrunner := reach_runner htrace.reach
  have hsec := Stack.step_section hstep
  cases h with
  | other hcall hproc =>
    exact .other (Writer.not_mem_snoc hcall (Writer.not_call hproc hstep _)) (hsec.writes_stay hrunner hproc)
  | failed hproc => exact .failed (WriteProgress.wrote_step hrunner hproc hsec)

private theorem not_wrote {n : Nat} (h : Lost c t data schedule s)
    (hcall : Act.call t (.write c data) ∈ schedule) : s.procs t ≠ .wrote c n none := by
  intro hret
  cases h with
  | other hnot _ => exact hnot hcall
  | failed hproc =>
    rw [hproc] at hret
    cases hret

end Lost

/-- The bytes of a `Write` that has returned nil. -/
theorem own_of_wrote {c : ConnId} {t : Tid} {data : List UInt8} {schedule : List Act} {s : Stack}
    {n : Nat} (htrace : Trace tcpMachine schedule s)
    (hcall : Act.call t (.write c data) ∈ schedule) (hret : s.procs t = .wrote c n none) :
    own t (enqueued c schedule) = data := by
  cases Writer.trace c t data htrace with
  | ahead hnot _ _ => exact absurd hcall hnot
  | other hnot _ => exact absurd hcall hnot
  | called _ hprogress =>
    rw [hret] at hprogress
    exact hprogress.of_wrote

/-! ### Two of them -/

/-- The places of `Write` between the release of `canWrite.L` in `Wait` and the moment `Wait` has
    it again. -/
def Proc.waitsForRoom (c : ConnId) : Proc → Prop
  | .write c' pos _ _ => c' = c ∧ (pos = .waiting ∨ pos = .woken)
  | _ => False

instance (c : ConnId) : (p : Proc) → Decidable (p.waitsForRoom c)
  | .write c' pos _ _ => inferInstanceAs (Decidable (c' = c ∧ (pos = .waiting ∨ pos = .woken)))
  | .idle | .handle _ | .connected _ | .refused _ | .processing _ | .abort _ | .abortLwip _ | .abortCheck _
  | .aborted _ | .wrote _ _ _ | .closeWrite _ _ | .shutdown _ _ | .closeRead _ | .close _ | .read _ _
  | .readPipe _ _ | .readBlocked _ _ => inferInstanceAs (Decidable False)

/-- lwIP takes bytes from one of the two goroutines while the other is partway and waits for room. -/
def Mixes (c : ConnId) (t₁ t₂ : Tid) (s : Stack) (a : Act) : Prop :=
  (s.sentBy t₁ c a ≠ [] ∧ (s.procs t₂).partway c ∧ (s.procs t₂).waitsForRoom c) ∨
  (s.sentBy t₂ c a ≠ [] ∧ (s.procs t₁).partway c ∧ (s.procs t₁).waitsForRoom c)

instance (c : ConnId) (t₁ t₂ : Tid) (s : Stack) (a : Act) : Decidable (Mixes c t₁ t₂ s a) :=
  inferInstanceAs (Decidable (_ ∨ _))

/-- lwIP takes bytes from a `Write` that holds `canWrite.L`, so another one that is partway is in
    `Wait`: at `Lock` it would have written nothing, and at every other place it would hold the
    lock. -/
theorem waitsForRoom_of_sent {s : Stack} {c : ConnId} {t t' : Tid} {a : Act} (h : Reach tcpMachine any s)
    (hne : t ≠ t') (hsent : s.sentBy t c a ≠ []) (hpartway : (s.procs t').partway c) :
    (s.procs t').waitsForRoom c := by
  obtain ⟨⟨data, n, hwrite⟩, -⟩ := Stack.sentBy_ne_nil hsent
  have hlocks : (s.procs t).locks c := by
    rw [hwrite]
    exact ⟨rfl, .inr (.inl rfl)⟩
  have hnot : ¬(s.procs t').locks c := fun hlocks' => hne (reach_locks_one h hlocks hlocks')
  have hzero := reach_lock_zero h t'
  cases hproc : s.procs t' with
  | write c' pos data' n' =>
    rw [hproc] at hpartway hnot
    obtain ⟨rfl, hn', -⟩ := hpartway
    cases pos with
    | lock => exact absurd (hzero c' data' n' hproc) hn'
    | check => exact absurd ⟨rfl, .inl rfl⟩ hnot
    | lwip => exact absurd ⟨rfl, .inr (.inl rfl)⟩ hnot
    | wait => exact absurd ⟨rfl, .inr (.inr rfl)⟩ hnot
    | waiting => exact ⟨rfl, .inl rfl⟩
    | woken => exact ⟨rfl, .inr rfl⟩
  | _ =>
    rw [hproc] at hpartway
    exact hpartway.elim

section
variable {c : ConnId} {t₁ t₂ : Tid} {a b : List UInt8} {schedule : List Act} {s s' : Stack} {act : Act}

/-- The first of two goroutines enqueues, in turn. -/
theorem InTurn.enqueue (hne : t₁ ≠ t₂) (htrace : Trace tcpMachine schedule s)
    (hstep : s.step act = some s')
    (h : InTurn t₁ t₂ (own t₁ (enqueued c schedule) = a) (own t₂ (enqueued c schedule) = b)
      (enqueued c schedule))
    (hsent : s.sentBy t₁ c act ≠ []) (hnot : ¬(s.procs t₂).partway c) :
    (Lost c t₁ a schedule s ∨ Lost c t₂ b schedule s) ∨
      InTurn t₁ t₂ (own t₁ (enqueued c (schedule ++ [act])) = a)
        (own t₂ (enqueued c (schedule ++ [act])) = b) (enqueued c (schedule ++ [act])) := by
  obtain ⟨⟨rest, n, hwrite⟩, hothers⟩ := Stack.sentBy_ne_nil hsent
  have hown₂ : own t₂ (enqueued c (schedule ++ [act])) = own t₂ (enqueued c schedule) := by
    rw [own_snoc htrace hstep, hothers t₂ hne.symm, List.append_nil]
  have hnew : own t₂ ((s.tcpWrite c act).toList.flatMap TcpWrite.signed) = [] := by
    rw [Stack.own_tcpWrite]
    exact hothers t₂ hne.symm
  -- the second goroutine has not begun or is done
  have hother : Lost c t₂ b schedule s ∨ own t₂ (enqueued c schedule) = [] ∨
      own t₂ (enqueued c schedule) = b := by
    cases Writer.trace c t₂ b htrace with
    | ahead _ hown _ => exact .inr (.inl hown)
    | other hcall hproc => exact .inl (.other hcall hproc)
    | called _ hprogress =>
      obtain hnil | hall | ⟨n, e, hproc⟩ := hprogress.of_not_partway hnot
      · exact .inr (.inl hnil)
      · exact .inr (.inr hall)
      · exact .inl (.failed hproc)
  -- the first one has bytes left
  have hopen : Lost c t₁ a schedule s ∨ own t₁ (enqueued c schedule) ≠ a := by
    cases Writer.trace c t₁ a htrace with
    | ahead _ _ hproc =>
      rw [hwrite] at hproc
      cases hproc
    | other hcall hproc => exact .inl (.other hcall hproc)
    | called _ hprogress =>
      refine .inr fun hall => hsent ?_
      have hle := (hprogress.step (reach_runner htrace.reach) hstep).length_le
      rw [hall, List.length_append] at hle
      exact List.eq_nil_of_length_eq_zero (by omega)
  obtain hlost | hopen := hopen
  · exact .inl (.inl hlost)
  obtain hlost | hother := hother
  · exact .inl (.inr hlost)
  · right
    rw [hown₂, enqueued_snoc htrace hstep]
    exact h.append hnew hopen hother

/-- A run without such a step has the bytes of the two one after the other. -/
theorem inTurn_trace (hne : t₁ ≠ t₂) (htrace : Trace tcpMachine schedule s)
    (hsteps : Steps tcpMachine (fun s act => ¬Mixes c t₁ t₂ s act) schedule) :
    (Lost c t₁ a schedule s ∨ Lost c t₂ b schedule s) ∨
      InTurn t₁ t₂ (own t₁ (enqueued c schedule) = a) (own t₂ (enqueued c schedule) = b)
        (enqueued c schedule) := by
  induction htrace with
  | nil => exact .inr .nil
  | @snoc schedule s s' act htrace hstep ih =>
    have hnot := hsteps schedule act [] s rfl htrace
    obtain (hlost | hlost) | hturn := ih hsteps.init
    · exact .inl (.inl (hlost.step htrace hstep))
    · exact .inl (.inr (hlost.step htrace hstep))
    · have hkeep (h : Lost c t₁ a schedule s ∨ Lost c t₂ b schedule s) :
          Lost c t₁ a (schedule ++ [act]) s' ∨ Lost c t₂ b (schedule ++ [act]) s' :=
        h.imp (fun h => h.step htrace hstep) fun h => h.step htrace hstep
      by_cases h₁ : s.sentBy t₁ c act = []
      · by_cases h₂ : s.sentBy t₂ c act = []
        · right
          rw [own_snoc htrace hstep, own_snoc htrace hstep, h₁, h₂, List.append_nil, List.append_nil,
            enqueued_snoc htrace hstep]
          refine hturn.append_other ?_ ?_ id id <;> rw [Stack.own_tcpWrite] <;> assumption
        · have hpartway : ¬(s.procs t₁).partway c := fun h =>
            hnot (.inr ⟨h₂, h, waitsForRoom_of_sent htrace.reach hne.symm h₂ h⟩)
          obtain hlost | hturn' := InTurn.enqueue hne.symm htrace hstep hturn.symm h₂ hpartway
          · exact .inl (hkeep hlost.symm)
          · exact .inr hturn'.symm
      · have hpartway : ¬(s.procs t₂).partway c := fun h =>
          hnot (.inl ⟨h₁, h, waitsForRoom_of_sent htrace.reach hne h₁ h⟩)
        obtain hlost | hturn' := InTurn.enqueue hne htrace hstep hturn h₁ hpartway
        · exact .inl (hkeep hlost)
        · exact .inr hturn'

/-- A goroutine that is partway has enqueued something and not everything. -/
theorem own_of_partway {front back : List Act} {mid : Stack} {n : Nat}
    (hfront : Trace tcpMachine front mid) (htrace : Trace tcpMachine (front ++ back) s)
    (hcall : Act.call t₂ (.write c b) ∈ front ++ back) (hret : s.procs t₂ = .wrote c n none)
    (hpartway : (mid.procs t₂).partway c) :
    own t₂ (enqueued c front) ≠ [] ∧ own t₂ (enqueued c front) ≠ b := by
  have hwrites := Proc.writes_of_partway hpartway
  cases Writer.trace c t₂ b hfront with
  | ahead _ _ hproc =>
    rw [hwrites] at hproc
    cases hproc
  | other hnot hproc =>
    have hlost := hfront.since (Lost.other hnot hproc)
      (fun _ _ _ _ htrace hstep h => Lost.step h htrace hstep) htrace
    exact absurd hret (hlost.not_wrote hcall)
  | called _ hprogress => exact hprogress.of_partway hpartway

/-- When bytes of `t₁` are taken while `t₂` is partway, and `t₂` is done in the end,
    bytes of `t₂` stand on both sides of bytes of `t₁`. -/
theorem not_before_of_mixed {front back : List Act} {mid : Stack} {n : Nat} (hne : t₁ ≠ t₂)
    (hfront : Trace tcpMachine front mid) (htrace : Trace tcpMachine (front ++ act :: back) s)
    (hcall : Act.call t₂ (.write c b) ∈ front ++ act :: back) (hret : s.procs t₂ = .wrote c n none)
    (hsent : mid.sentBy t₁ c act ≠ []) (hpartway : (mid.procs t₂).partway c) :
    ¬Before t₁ t₂ (enqueued c (front ++ act :: back)) ∧
      ¬Before t₂ t₁ (enqueued c (front ++ act :: back)) := by
  obtain ⟨hsome, hnotAll⟩ := own_of_partway hfront htrace hcall hret hpartway
  have hall := own_of_wrote htrace hcall hret
  obtain ⟨mid', next, hfront', hstep⟩ := htrace.before rfl
  obtain rfl := hfront.unique hfront'
  -- what was enqueued before the step, in it and after it
  have hsplit : enqueued c (front ++ act :: back) = enqueued c front ++
      (mid.tcpWrite c act).toList.flatMap TcpWrite.signed ++
      (next.tcpWrites c back).flatMap TcpWrite.signed := by
    rw [List.append_cons, enqueued_append (hfront.snoc hstep), enqueued_snoc hfront hstep]
  have hown₁ := mid.own_tcpWrite t₁ c act
  have hown₂ := mid.own_tcpWrite t₂ c act
  rw [(Stack.sentBy_ne_nil hsent).2 t₂ hne.symm] at hown₂
  rw [hsplit] at hall ⊢
  generalize (mid.tcpWrite c act).toList.flatMap TcpWrite.signed = new at hall hown₁ hown₂ ⊢
  generalize (next.tcpWrites c back).flatMap TcpWrite.signed = later at hall ⊢
  rw [own_append, own_append, hown₂, List.append_nil] at hall
  constructor
  · intro hbefore
    obtain ⟨-, -, hnil | hnil⟩ := before_append.mp (before_append.mp hbefore).1
    · exact hsome hnil
    · exact hsent (hown₁.symm.trans hnil)
  · intro hbefore
    obtain ⟨-, -, hnil | hnil⟩ := before_append.mp hbefore
    · rw [own_append, List.append_eq_nil_iff] at hnil
      exact hsent (hown₁.symm.trans hnil.2)
    · rw [hnil, List.append_nil] at hall
      exact hnotAll hall

private theorem before_iff_not_mixed {n m : Nat} (hne : t₁ ≠ t₂) (htrace : Trace tcpMachine schedule s)
    (hcall₁ : Act.call t₁ (.write c a) ∈ schedule) (hcall₂ : Act.call t₂ (.write c b) ∈ schedule)
    (hret₁ : s.procs t₁ = .wrote c n none) (hret₂ : s.procs t₂ = .wrote c m none) :
    (Before t₁ t₂ (enqueued c schedule) ∨ Before t₂ t₁ (enqueued c schedule)) ↔
      ¬Happened tcpMachine (Mixes c t₁ t₂) schedule := by
  constructor
  · rintro hbefore ⟨front, act, back, mid, rfl, hfront, hmixes⟩
    obtain ⟨hsent, hpartway, -⟩ | ⟨hsent, hpartway, -⟩ := hmixes
    · obtain ⟨h₁, h₂⟩ := not_before_of_mixed hne hfront htrace hcall₂ hret₂ hsent hpartway
      exact hbefore.elim h₁ h₂
    · obtain ⟨h₂, h₁⟩ := not_before_of_mixed hne.symm hfront htrace hcall₁ hret₁ hsent hpartway
      exact hbefore.elim h₁ h₂
  · intro hnot
    obtain (hlost | hlost) | hturn := inTurn_trace (a := a) (b := b) hne htrace (not_happened_iff.mp hnot)
    · exact absurd hret₁ (hlost.not_wrote hcall₁)
    · exact absurd hret₂ (hlost.not_wrote hcall₂)
    · cases hturn with
      | first hbefore _ => exact .inl hbefore
      | second hbefore _ => exact .inr hbefore

end

/-- In every run in which two goroutines call `Write(a)` and `Write(b)` on one
    connection and both return nil: the bytes enqueued by each are its data in
    order; lwIP takes bytes from one while the other is partway only where that
    one waits for room; and the bytes of the two stand one after the other exactly
    when this has not happened. No order of the callbacks, no `snd_buf` and no
    number of other writers is assumed. -/
theorem writes_apart_iff (c : ConnId) (t₁ t₂ : Tid) (hne : t₁ ≠ t₂) (a b : List UInt8)
    (schedule : List Act) (s : Stack) (htrace : Trace tcpMachine schedule s)
    (hcall₁ : Act.call t₁ (.write c a) ∈ schedule) (hcall₂ : Act.call t₂ (.write c b) ∈ schedule)
    (n m : Nat) (hret₁ : s.procs t₁ = .wrote c n none) (hret₂ : s.procs t₂ = .wrote c m none) :
    own t₁ (enqueued c schedule) = a ∧ own t₂ (enqueued c schedule) = b ∧
    Steps tcpMachine (fun s act =>
      (s.sentBy t₁ c act ≠ [] → (s.procs t₂).partway c → (s.procs t₂).waitsForRoom c) ∧
      (s.sentBy t₂ c act ≠ [] → (s.procs t₁).partway c → (s.procs t₁).waitsForRoom c)) schedule ∧
    ((between t₁ t₂ (enqueued c schedule) = sign t₁ a ++ sign t₂ b ∨
        between t₁ t₂ (enqueued c schedule) = sign t₂ b ++ sign t₁ a) ↔
      ¬Happened tcpMachine (Mixes c t₁ t₂) schedule) ∧
    (¬Happened tcpMachine (Mixes c t₁ t₂) schedule →
      (between t₁ t₂ (enqueued c schedule)).map Prod.snd = a ++ b ∨
        (between t₁ t₂ (enqueued c schedule)).map Prod.snd = b ++ a) := by
  have hown₁ := own_of_wrote htrace hcall₁ hret₁
  have hown₂ := own_of_wrote htrace hcall₂ hret₂
  have hiff : (between t₁ t₂ (enqueued c schedule) = sign t₁ a ++ sign t₂ b ∨
        between t₁ t₂ (enqueued c schedule) = sign t₂ b ++ sign t₁ a) ↔
      ¬Happened tcpMachine (Mixes c t₁ t₂) schedule := by
    rw [← before_iff_not_mixed hne htrace hcall₁ hcall₂ hret₁ hret₂, ← between_eq_iff hne,
      ← between_eq_iff hne.symm, between_comm t₂ t₁, hown₁, hown₂]
  refine ⟨hown₁, hown₂, ?_, hiff, ?_⟩
  · intro front act back mid _ hfront
    exact ⟨waitsForRoom_of_sent hfront.reach hne, waitsForRoom_of_sent hfront.reach hne.symm⟩
  intro hnot
  refine (hiff.mpr hnot).imp ?_ ?_ <;> intro heq <;> rw [heq] <;> simp

/-- Two bytes against a send buffer of one, while another goroutine waits for the
    lock of `canWrite` and gets it only when the first `Write` has returned. -/
theorem writes_apart_iff_waiting : ∃ schedule s, Trace tcpMachine schedule s ∧
    s.procs 1 = .wrote 0 2 none ∧ s.procs 2 = .wrote 0 1 none ∧
    ¬Happened tcpMachine (Mixes 0 1 2) schedule ∧
    (between 1 2 (enqueued 0 schedule) = sign 1 [1, 2] ++ sign 2 [3] ∨
      between 1 2 (enqueued 0 schedule) = sign 2 [3] ++ sign 1 [1, 2]) := by
  let schedule : List Act :=
    [.lwipLock, .accept 7, .acceptDone 0, .lwipUnlock, .call 1 (.write 0 [1, 2]), .run 1,
      .call 2 (.write 0 [3]), .run 1, .write 1 1 .ERR_OK, .run 1, .lwipLock, .poll 0, .task, .task, .task,
      .task, .task, .lwipUnlock, .run 1, .run 1, .write 1 1 .ERR_OK, .run 2, .run 2, .write 2 1 .ERR_OK]
  obtain ⟨s, htrace, hsteps, h₁, h₂⟩ := exists_trace_of_run tcpMachine
    (fun s a => ¬Mixes 0 1 2 s a) schedule
    (fun s => s.procs 1 = .wrote 0 2 none ∧ s.procs 2 = .wrote 0 1 none) (by decide)
  have hnot := not_happened_iff.mpr hsteps
  have hiff := (writes_apart_iff 0 1 2 (by decide) [1, 2] [3] schedule s htrace (by decide) (by decide)
    2 1 h₁ h₂).2.2.2.1
  exact ⟨schedule, s, htrace, h₁, h₂, hnot, hiff.mpr hnot⟩

/-- The same two calls, but the second goroutine gets the lock while the first one
    waits for room: its byte lands between the two others. -/
theorem writes_interleaved : ∃ schedule s, Trace tcpMachine schedule s ∧
    Act.call 1 (.write 0 [1, 2]) ∈ schedule ∧ Act.call 2 (.write 0 [3]) ∈ schedule ∧
    s.procs 1 = .wrote 0 2 none ∧ s.procs 2 = .wrote 0 1 none ∧
    (s.pcbs 0).sndQueue = [1, 3, 2] ∧
    (between 1 2 (enqueued 0 schedule)).map Prod.snd ≠ [1, 2] ++ [3] ∧
    (between 1 2 (enqueued 0 schedule)).map Prod.snd ≠ [3] ++ [1, 2] := by
  let schedule : List Act :=
    [.lwipLock, .accept 7, .acceptDone 0, .lwipUnlock, .call 1 (.write 0 [1, 2]), .run 1, .run 1,
      .write 1 1 .ERR_OK, .run 1, .call 2 (.write 0 [3]), .run 2, .run 2, .write 2 1 .ERR_OK, .lwipLock,
      .poll 0, .task, .task, .task, .task, .task, .lwipUnlock, .run 1, .run 1, .write 1 1 .ERR_OK]
  obtain ⟨s, htrace, -, h₁, h₂, hqueue⟩ := exists_trace_of_run tcpMachine any schedule
    (fun s => s.procs 1 = .wrote 0 2 none ∧ s.procs 2 = .wrote 0 1 none ∧
      (s.pcbs 0).sndQueue = [1, 3, 2]) (by decide)
  have hbytes : (between 1 2 (enqueued 0 schedule)).map Prod.snd = [1, 3, 2] := by decide
  refine ⟨schedule, s, htrace, by decide, by decide, h₁, h₂, hqueue, ?_, ?_⟩ <;> rw [hbytes] <;> decide

end tun2proxy.core
