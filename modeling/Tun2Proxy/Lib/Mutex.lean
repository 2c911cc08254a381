import Tun2Proxy.Lib.Machine

namespace tun2proxy.machine

/-- Code around one mutex and a library whose functions are named by `F`, as far as it
    locks, unlocks, calls and creates threads of the kinds `K`. The library may run
    `callbacks`, any number of times, before the call returns. -/
inductive Code (F K : Type) where
  | skip
  | lock
  | unlock
  | create (k : K)
  | call (f : F) (callbacks : Code F K)
  | seq (first second : Code F K)
  | choice (left right : Code F K)
  | loop (body : Code F K)

namespace Code

variable {F K : Type}

/-- One after the other. -/
def block : List (Code F K) → Code F K
  | [] => .skip
  | c :: rest => .seq c (block rest)

/-- One of them or none. -/
def oneOf : List (Code F K) → Code F K
  | [] => .skip
  | c :: rest => .choice c (oneOf rest)

/-- Code that leaves the mutex alone. -/
def quiet : Code F K → Bool
  | .skip => true
  | .lock | .unlock => false
  | .create _ => true
  | .call _ callbacks => callbacks.quiet
  | .seq first second => first.quiet && second.quiet
  | .choice left right => left.quiet && right.quiet
  | .loop body => body.quiet

/-- Whether the mutex is held after the code, if it is held before it as given; `none`
    if that is not determined, or if a call that is not in `free` may come without the
    mutex. Callbacks leave the mutex alone. -/
def check (free : F → Bool) : Code F K → Bool → Option Bool
  | .skip, held => some held
  | .lock, held => if held then none else some true
  | .unlock, held => if held then some false else none
  | .create _, held => some held
  | .call f callbacks, held => if (held || free f) && callbacks.quiet then some held else none
  | .seq first second, held => (first.check free held).bind (second.check free)
  | .choice left right, held =>
    if left.check free held = right.check free held then left.check free held else none
  | .loop body, held => if body.check free held = some held then some held else none

end Code

/-- What a thread has still to do: code to run, or the return from a library call. -/
inductive Item (F K : Type) where
  | run (c : Code F K)
  | leave (f : F)

/-- The function that an item is the rest of, if any. -/
def Item.function {F K : Type} : Item F K → Option F
  | .run _ => none
  | .leave f => some f

/-- The mutex, the stacks of all threads, and the threads that were created and have not
    started. -/
structure Threads (F K : Type) where
  owner : Option Nat
  frames : Nat → List (Item F K)
  created : List K

/-- A thread starts code of kind `k`, or does its next step, with the branch it takes. -/
inductive ThreadAct (K : Type) where
  | start (t : Nat) (k : K)
  | next (t : Nat) (branch : Bool)
  deriving DecidableEq

namespace Threads

variable {F K : Type}

/-- Thread `t` goes on with `stack`. -/
def setStack (s : Threads F K) (t : Nat) (stack : List (Item F K)) : Threads F K :=
  { s with frames := Function.update s.frames t stack }

/-- The thread is inside the library. -/
def inside (stack : List (Item F K)) : Bool := stack.any fun item => item.function.isSome

/-- The next step of thread `t`. -/
def next (s : Threads F K) (t : Nat) (branch : Bool) : Option (Threads F K) :=
  match s.frames t with
  | [] => none
  | .leave _ :: rest => some (s.setStack t rest)
  | .run c :: rest =>
    match c with
    | .skip => some (s.setStack t rest)
    | .lock => if s.owner = none then some { s.setStack t rest with owner := some t } else none
    | .unlock => if s.owner = some t then some { s.setStack t rest with owner := none } else none
    | .create k => some { s.setStack t rest with created := k :: s.created }
    | .call f callbacks => some (s.setStack t (.run (.loop callbacks) :: .leave f :: rest))
    | .seq first second => some (s.setStack t (.run first :: .run second :: rest))
    | .choice left right => some (s.setStack t (.run (if branch then left else right) :: rest))
    | .loop body =>
      if branch then some (s.setStack t (.run body :: .run (.loop body) :: rest))
      else some (s.setStack t rest)

/-- One step. A thread of kind `k` runs `body k`; it starts at any time if it is an entry
    point, and otherwise once it was created. -/
def step [DecidableEq K] (entry : K → Bool) (body : K → Code F K) (s : Threads F K) :
    ThreadAct K → Option (Threads F K)
  | .start t k =>
    if (s.frames t).isEmpty ∧ (entry k = true ∨ k ∈ s.created) then
      some { s.setStack t [.run (body k)] with created := s.created.erase k }
    else none
  | .next t branch => s.next t branch

/-- No thread runs and the mutex is free. -/
def init : Threads F K := ⟨none, fun _ => [], []⟩

/-- Thread `t` runs, with these branches. -/
def steps (t : Nat) (branches : List Bool) : List (ThreadAct K) := branches.map (.next t)

/-- The library function that thread `t` is about to call. -/
def calling (s : Threads F K) (t : Nat) : Option F :=
  match s.frames t with
  | .run (.call f _) :: _ => some f
  | _ => none

/-- Functions in `free` are called only in a callback of the library. -/
def Guarded (free : F → Bool) (s : Threads F K) : ThreadAct K → Prop
  | .start _ _ => True
  | .next t _ => ∀ f ∈ s.calling t, free f → inside (s.frames t)

instance (free : F → Bool) (s : Threads F K) : (a : ThreadAct K) → Decidable (Guarded free s a)
  | .start _ _ => inferInstanceAs (Decidable True)
  | .next t _ => inferInstanceAs (Decidable (∀ f ∈ s.calling t, free f → inside (s.frames t)))

/-- The stack passes the check: outside the library its code does, one after the other,
    and ends without the mutex; inside, the mutex is held and left alone. -/
def Typed (free : F → Bool) : Bool → List (Item F K) → Prop
  | held, [] => held = false
  | held, .leave _ :: rest => held = true ∧ Typed free held rest
  | held, .run c :: rest =>
    if inside rest then held = true ∧ c.quiet ∧ Typed free held rest
    else ∃ after, c.check free held = some after ∧ Typed free after rest

theorem inside_leave (f : F) (rest : List (Item F K)) : inside (.leave f :: rest) = true := rfl

variable {free : F → Bool} {held : Bool} {c : Code F K} {rest : List (Item F K)}

/-- Inside a call, code may run that leaves the mutex alone. -/
theorem typed_run_inside (hinside : inside rest = true) :
    Typed free held (.run c :: rest) ↔ held = true ∧ c.quiet ∧ Typed free held rest := by
  rw [Typed, if_pos hinside]

/-- Outside of a call, code runs as `check` says. -/
theorem typed_run_outside (hinside : inside rest = false) :
    Typed free held (.run c :: rest) ↔
      ∃ after, c.check free held = some after ∧ Typed free after rest := by
  rw [Typed, hinside]
  exact if_neg Bool.false_ne_true ▸ Iff.rfl

/-- Inside a call the mutex is held. -/
theorem Typed.held_of_inside {stack : List (Item F K)} (h : Typed free held stack)
    (hinside : inside stack = true) : held = true := by
  cases stack with
  | nil => cases hinside
  | cons item rest =>
    cases item with
    | leave f => exact h.1
    | run c =>
      have hrest : inside rest = true := hinside
      exact ((typed_run_inside hrest).mp h).1

/-- A call runs its callbacks, any number of times, and then returns. -/
theorem Typed.call {f : F} {callbacks : Code F K} (h : Typed free true rest)
    (hquiet : callbacks.quiet = true) :
    Typed free true (.run (.loop callbacks) :: .leave f :: rest) :=
  (typed_run_inside (inside_leave f rest)).mpr ⟨rfl, hquiet, rfl, h⟩

/-- A step of one thread keeps the others typed, if they hold the mutex as before. -/
theorem Typed.of_setStack {s s' : Threads F K} {t : Nat} {stack : List (Item F K)}
    (hinv : ∀ t, Typed free (decide (s.owner = some t)) (s.frames t))
    (hstacks : s'.frames = Function.update s.frames t stack)
    (howner : ∀ t', t' ≠ t → (s'.owner = some t' ↔ s.owner = some t'))
    (htyped : Typed free (decide (s'.owner = some t)) stack) :
    ∀ t', Typed free (decide (s'.owner = some t')) (s'.frames t') := by
  intro t'
  rw [hstacks, Function.update_apply]
  split
  · rename_i heq
    subst heq
    exact htyped
  · rename_i hne
    simp only [howner t' hne]
    exact hinv t'

/-- Code that is put on the stack does not change where the thread is. -/
theorem inside_map_run (code : List (Code F K)) (rest : List (Item F K)) :
    inside (code.map .run ++ rest) = inside rest := by
  induction code with
  | nil => rfl
  | cons c code ih => exact ih

/-- A block may be put on the stack inside a call if its parts leave the mutex alone. -/
theorem typed_map_inside {code : List (Code F K)} (hinside : inside rest = true)
    (hquiet : ∀ d ∈ code, d.quiet = true) (h : Typed free true rest) :
    Typed free true (code.map .run ++ rest) := by
  induction code with
  | nil => exact h
  | cons c code ih =>
    refine (typed_run_inside ((inside_map_run code rest).trans hinside)).mpr ⟨rfl, ?_, ?_⟩
    · exact hquiet c List.mem_cons_self
    · exact ih fun d hd => hquiet d (List.mem_cons_of_mem _ hd)

/-- A block may be put on the stack outside of a call if it checks. -/
theorem typed_map_outside {code : List (Code F K)} (hinside : inside rest = false) {after : Bool}
    (h : Typed free after rest) :
    ∀ {held : Bool}, (Code.block code).check free held = some after →
      Typed free held (code.map .run ++ rest) := by
  induction code with
  | nil =>
    intro held hcheck
    cases hcheck
    exact h
  | cons c code ih =>
    intro held hcheck
    obtain ⟨mid, hmid, hrest⟩ := Option.bind_eq_some_iff.mp hcheck
    exact (typed_run_outside ((inside_map_run code rest).trans hinside)).mpr ⟨mid, hmid, ih hrest⟩

/-- The code on top of the stack may be replaced by code that passes the check as it
    does. -/
theorem Typed.replace (code : List (Code F K)) (h : Typed free held (.run c :: rest))
    (hquiet : c.quiet = true → ∀ d ∈ code, d.quiet = true)
    (hcheck : ∀ after, c.check free held = some after →
      (Code.block code).check free held = some after) :
    Typed free held (code.map .run ++ rest) := by
  cases hinside : inside rest with
  | true =>
    obtain ⟨rfl, hc, hrest⟩ := (typed_run_inside hinside).mp h
    exact typed_map_inside hinside (hquiet hc) hrest
  | false =>
    obtain ⟨after, hc, hrest⟩ := (typed_run_outside hinside).mp h
    exact typed_map_outside hinside hrest (hcheck after hc)

/-- Code that does not leave the mutex alone is not run in a callback. -/
theorem Typed.of_not_quiet (h : Typed free held (.run c :: rest)) (hc : c.quiet = false) :
    ∃ after, c.check free held = some after ∧ Typed free after rest := by
  cases hinside : inside rest with
  | true =>
    obtain ⟨_, hquiet, _⟩ := (typed_run_inside hinside).mp h
    rw [hc] at hquiet
    cases hquiet
  | false => exact (typed_run_outside hinside).mp h

theorem Typed.lock (h : Typed free held (.run .lock :: rest)) : Typed free true rest := by
  obtain ⟨after, hcheck, hrest⟩ := h.of_not_quiet rfl
  cases held with
  | true => cases hcheck
  | false =>
    cases hcheck
    exact hrest

theorem Typed.unlock (h : Typed free held (.run .unlock :: rest)) : Typed free false rest := by
  obtain ⟨after, hcheck, hrest⟩ := h.of_not_quiet rfl
  cases held with
  | true =>
    cases hcheck
    exact hrest
  | false => cases hcheck

/-- Who begins a call holds the mutex, unless the function needs none. -/
theorem Typed.call_step {f : F} {callbacks : Code F K}
    (h : Typed free held (.run (.call f callbacks) :: rest))
    (hfree : free f = true → inside rest = true) :
    held = true ∧ Typed free true (.run (.loop callbacks) :: .leave f :: rest) := by
  cases hinside : inside rest with
  | true =>
    obtain ⟨rfl, hquiet, hrest⟩ := (typed_run_inside hinside).mp h
    exact ⟨rfl, hrest.call hquiet⟩
  | false =>
    obtain ⟨after, hcheck, hrest⟩ := (typed_run_outside hinside).mp h
    obtain ⟨hguard, hafter⟩ := Option.ite_none_right_eq_some.mp hcheck
    cases hafter
    obtain ⟨hheld, hquiet⟩ := Bool.and_eq_true_iff.mp hguard
    rcases Bool.or_eq_true_iff.mp hheld with rfl | hf
    · exact ⟨rfl, hrest.call hquiet⟩
    · cases hinside.symm.trans (hfree hf)

theorem Typed.skip (h : Typed free held (.run .skip :: rest)) : Typed free held rest :=
  h.replace [] (fun _ _ hd => by cases hd) fun _ hcheck => hcheck

theorem Typed.create {k : K} (h : Typed free held (.run (.create k) :: rest)) :
    Typed free held rest :=
  h.replace [] (fun _ _ hd => by cases hd) fun _ hcheck => hcheck

theorem Typed.seq {first second : Code F K}
    (h : Typed free held (.run (.seq first second) :: rest)) :
    Typed free held (.run first :: .run second :: rest) := by
  refine h.replace [first, second] ?_ ?_
  · intro hquiet d hd
    obtain ⟨hfirst, hsecond⟩ := Bool.and_eq_true_iff.mp hquiet
    simp only [List.mem_cons, List.not_mem_nil, or_false] at hd
    rcases hd with rfl | rfl
    · exact hfirst
    · exact hsecond
  · intro after hcheck
    obtain ⟨mid, hmid, hsecond⟩ := Option.bind_eq_some_iff.mp hcheck
    simp only [Code.block, Code.check, hmid, hsecond, Option.bind_some]

theorem Typed.choice {left right : Code F K} (branch : Bool)
    (h : Typed free held (.run (.choice left right) :: rest)) :
    Typed free held (.run (if branch then left else right) :: rest) := by
  refine h.replace [if branch then left else right] ?_ ?_
  · intro hquiet d hd
    obtain ⟨hleft, hright⟩ := Bool.and_eq_true_iff.mp hquiet
    obtain rfl := List.mem_singleton.mp hd
    cases branch with
    | true => exact hleft
    | false => exact hright
  · intro after hcheck
    obtain ⟨hsame, hleft⟩ := Option.ite_none_right_eq_some.mp hcheck
    have htaken : (if branch then left else right).check free held = some after := by
      cases branch with
      | true => exact hleft
      | false => exact hsame ▸ hleft
    simp only [Code.block, Code.check, htaken, Option.bind_some]

theorem Typed.loop_again {body : Code F K} (h : Typed free held (.run (.loop body) :: rest)) :
    Typed free held (.run body :: .run (.loop body) :: rest) := by
  refine h.replace [body, .loop body] ?_ ?_
  · intro hquiet d hd
    simp only [List.mem_cons, List.not_mem_nil, or_false] at hd
    rcases hd with rfl | rfl
    · exact hquiet
    · exact hquiet
  · intro after hcheck
    obtain ⟨hbody, hafter⟩ := Option.ite_none_right_eq_some.mp hcheck
    cases hafter
    simp only [Code.block, Code.check, hbody, if_true, Option.bind_some]

theorem Typed.loop_done {body : Code F K} (h : Typed free held (.run (.loop body) :: rest)) :
    Typed free held rest := by
  refine h.replace [] (fun _ _ hd => by cases hd) ?_
  intro after hcheck
  exact (Option.ite_none_right_eq_some.mp hcheck).2

/-- A step of one thread keeps every stack typed. -/
theorem typed_next {s s' : Threads F K} {t : Nat} {branch : Bool}
    (hinv : ∀ t, Typed free (decide (s.owner = some t)) (s.frames t))
    (hguarded : ∀ f ∈ s.calling t, free f → inside (s.frames t))
    (hstep : s.next t branch = some s') :
    ∀ t', Typed free (decide (s'.owner = some t')) (s'.frames t') := by
  have htop := hinv t
  unfold calling at hguarded
  unfold next at hstep
  cases hstack : s.frames t with
  | nil => simp [hstack] at hstep
  | cons item rest =>
    rw [hstack] at htop hguarded
    cases item with
    | leave f =>
      simp only [hstack, Option.some.injEq] at hstep
      subst hstep
      exact .of_setStack hinv rfl (fun _ _ => Iff.rfl) htop.2
    | run c =>
      simp only [hstack] at hstep
      cases c with
      | skip =>
        cases hstep
        exact .of_setStack hinv rfl (fun _ _ => Iff.rfl) htop.skip
      | lock =>
        obtain ⟨hfree, hstep⟩ := Option.ite_none_right_eq_some.mp hstep
        cases hstep
        refine .of_setStack hinv rfl (fun t' hne => ?_) (by simpa using htop.lock)
        simp [hfree, Ne.symm hne]
      | unlock =>
        obtain ⟨howner, hstep⟩ := Option.ite_none_right_eq_some.mp hstep
        cases hstep
        refine .of_setStack hinv rfl (fun t' hne => ?_) (by simpa using htop.unlock)
        simp [howner, Ne.symm hne]
      | create k =>
        cases hstep
        exact .of_setStack hinv rfl (fun _ _ => Iff.rfl) htop.create
      | call f callbacks =>
        cases hstep
        obtain ⟨hheld, htyped⟩ := htop.call_step (hguarded f rfl)
        exact .of_setStack hinv rfl (fun _ _ => Iff.rfl) (hheld ▸ htyped)
      | seq first second =>
        cases hstep
        exact .of_setStack hinv rfl (fun _ _ => Iff.rfl) htop.seq
      | choice left right =>
        cases hstep
        exact .of_setStack hinv rfl (fun _ _ => Iff.rfl) (htop.choice branch)
      | loop body =>
        cases branch with
        | true =>
          cases hstep
          exact .of_setStack hinv rfl (fun _ _ => Iff.rfl) htop.loop_again
        | false =>
          cases hstep
          exact .of_setStack hinv rfl (fun _ _ => Iff.rfl) htop.loop_done

/-- If the code of every kind passes the check, every stack does in every state of a run
    whose steps are guarded. -/
theorem typed_of_reach [DecidableEq K] {entry : K → Bool} {body : K → Code F K}
    {s : Threads F K} (hbody : ∀ k, (body k).check free false = some false)
    (hreach : Machine.Reach ⟨init, step entry body⟩ (Guarded free) s) :
    ∀ t, Typed free (decide (s.owner = some t)) (s.frames t) := by
  induction hreach with
  | init =>
    intro t
    exact decide_eq_false fun howner => by cases howner
  | @step s s' a _ hguarded hstep ih =>
    cases a with
    | next t branch => exact typed_next ih hguarded hstep
    | start t k =>
      obtain ⟨⟨hidle, _⟩, hstep⟩ := Option.ite_none_right_eq_some.mp hstep
      cases hstep
      have htop := ih t
      rw [List.isEmpty_iff.mp hidle] at htop
      refine .of_setStack ih rfl (fun _ _ => Iff.rfl) ?_
      refine (typed_run_outside rfl).mpr ⟨false, ?_, rfl⟩
      exact htop ▸ hbody k

/-- A thread inside a call owns the mutex. -/
theorem owner_of_inside {s : Threads F K} {t : Nat}
    (hinv : ∀ t, Typed free (decide (s.owner = some t)) (s.frames t))
    (hinside : inside (s.frames t) = true) : s.owner = some t :=
  of_decide_eq_true ((hinv t).held_of_inside hinside)

/-- A thread that calls owns the mutex, unless the function needs none. -/
theorem owner_of_calling {s : Threads F K} {t : Nat} {f : F}
    (hinv : ∀ t, Typed free (decide (s.owner = some t)) (s.frames t))
    (hcalling : s.calling t = some f) (hfree : free f = true → inside (s.frames t) = true) :
    s.owner = some t := by
  have htop := hinv t
  unfold calling at hcalling
  split at hcalling
  · rename_i callbacks rest hstack
    cases hcalling
    rw [hstack] at htop hfree
    exact of_decide_eq_true (htop.call_step hfree).1
  · cases hcalling

end Threads

end tun2proxy.machine
