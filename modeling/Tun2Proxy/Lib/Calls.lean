import Tun2Proxy.Lib.Machine

namespace tun2proxy.machine

/-- A sequential program that makes calls to its environment. The answer to the call `op`
    has type `Ans op`. -/
inductive Prog (Op : Type) (Ans : Op → Type) (α : Type) where
  | ret (a : α)
  | call (op : Op) (k : Ans op → Prog Op Ans α)

/-- The environment of a program: how it answers calls, with a choice `β` of its own, and
    what others do with it meanwhile. -/
structure System (Op : Type) (Ans : Op → Type) (σ β γ : Type) where
  init : σ
  answer : σ → (op : Op) → β → Option (Ans op × σ)
  others : σ → γ → Option σ

namespace Prog

variable {Op σ β γ : Type} {Ans : Op → Type} {A B : Type}

/-- The second program runs with the result of the first. -/
def bind : Prog Op Ans A → (A → Prog Op Ans B) → Prog Op Ans B
  | .ret a, f => f a
  | .call op k, f => .call op fun ans => (k ans).bind f

instance : Monad (Prog Op Ans) where
  pure := .ret
  bind := bind

/-- One call. -/
def perform (op : Op) : Prog Op Ans (Ans op) := .call op .ret

/-- `body` after `defer cleanup`. -/
def deferred (cleanup : Prog Op Ans B) (body : Prog Op Ans A) : Prog Op Ans A :=
  body.bind fun a => cleanup.bind fun _ => .ret a

/-- Between any two calls of the program, the others can do anything. -/
def step (sys : System Op Ans σ β γ) : Prog Op Ans A × σ → β ⊕ γ → Option (Prog Op Ans A × σ)
  | (.call op k, s), .inl b => (sys.answer s op b).map fun (ans, s') => (k ans, s')
  | (.ret _, _), .inl _ => none
  | (p, s), .inr c => (sys.others s c).map fun s' => (p, s')

/-- The program, with steps of others at any time. -/
def interleaved (sys : System Op Ans σ β γ) (p : Prog Op Ans A) :
    Machine (Prog Op Ans A × σ) (β ⊕ γ) := ⟨(p, sys.init), step sys⟩

/-- What the others do is in `rely`. -/
structure Rely (sys : System Op Ans σ β γ) (rely : σ → σ → Prop) : Prop where
  refl : ∀ s, rely s s
  trans : ∀ {s s' s''}, rely s s' → rely s' s'' → rely s s''
  others : ∀ {s s' c}, sys.others s c = some s' → rely s s'

section Holds

variable (sys : System Op Ans σ β γ) (rely : σ → σ → Prop) (inv : σ → Prop)

/-- From `s` on, whatever the answers are and whatever the others do, `inv` always holds,
    and `post` when the program returns. -/
def Holds (post : A → σ → Prop) : Prog Op Ans A → σ → Prop
  | .ret a, s => ∀ s', rely s s' → inv s' ∧ post a s'
  | .call op k, s => ∀ s', rely s s' → inv s' ∧
      ∀ b ans s'', sys.answer s' op b = some (ans, s'') → Holds post (k ans) s''

variable {sys rely inv} {post : A → σ → Prop} {p : Prog Op Ans A} {s s' : σ}

/-- What others may do keeps a specification. -/
theorem Holds.stable (hrely : Rely sys rely) (h : Holds sys rely inv post p s) (hs : rely s s') :
    Holds sys rely inv post p s' := by
  cases p with
  | ret a => exact fun s'' hs' => h s'' (hrely.trans hs hs')
  | call op k => exact fun s'' hs' => h s'' (hrely.trans hs hs')

/-- The invariant holds now, and at a return the postcondition too. -/
theorem Holds.inv_post (hrely : Rely sys rely) (h : Holds sys rely inv post p s) :
    inv s ∧ ∀ a, p = .ret a → post a s := by
  cases p with
  | ret a =>
    obtain ⟨hinv, hpost⟩ := h s (hrely.refl s)
    refine ⟨hinv, fun a' heq => ?_⟩
    cases heq
    exact hpost
  | call op k => exact ⟨(h s (hrely.refl s)).1, nofun⟩

/-- The postcondition may be weakened. -/
theorem Holds.mono {post' : A → σ → Prop} (h : Holds sys rely inv post p s)
    (hpost : ∀ a s, post a s → post' a s) : Holds sys rely inv post' p s := by
  induction p generalizing s with
  | ret a => exact fun s' hs => ⟨(h s' hs).1, hpost a s' (h s' hs).2⟩
  | call op k ih =>
    exact fun s' hs => ⟨(h s' hs).1, fun b ans s'' hans => ih ans ((h s' hs).2 b ans s'' hans)⟩

/-- A sequence meets the specification if its first part ends where the second one does. -/
theorem Holds.bind {f : A → Prog Op Ans B} {post : B → σ → Prop} (hrely : Rely sys rely)
    (h : Holds sys rely inv (fun a s => Holds sys rely inv post (f a) s) p s) :
    Holds sys rely inv post (p.bind f) s := by
  induction p generalizing s with
  | ret a => exact (h s (hrely.refl s)).2
  | call op k ih =>
    intro s' hs
    obtain ⟨hinv, hrest⟩ := h s' hs
    exact ⟨hinv, fun b ans s'' hans => ih ans (hrest b ans s'' hans)⟩

/-- A returned value with a stable postcondition. -/
theorem holds_ret {P : σ → Prop} {a : A} (hstable : ∀ {s s'}, rely s s' → P s → P s')
    (hinv : ∀ {s}, P s → inv s) (hpost : ∀ {s}, P s → post a s) (hs : P s) :
    Holds sys rely inv post (.ret a) s :=
  fun _ hs' => ⟨hinv (hstable hs' hs), hpost (hstable hs' hs)⟩

/-- A call from a stable precondition. -/
theorem holds_call {P : σ → Prop} {op : Op} {k : Ans op → Prog Op Ans A}
    (hstable : ∀ {s s'}, rely s s' → P s → P s') (hinv : ∀ {s}, P s → inv s)
    (hcall : ∀ s, P s → ∀ b ans s', sys.answer s op b = some (ans, s') →
      Holds sys rely inv post (k ans) s')
    (hs : P s) : Holds sys rely inv post (.call op k) s :=
  fun s' hs' => ⟨hinv (hstable hs' hs), hcall s' (hstable hs' hs)⟩

/-- What holds from the beginning on holds in every interleaving. -/
theorem Holds.reach (hrely : Rely sys rely) (h : Holds sys rely inv post p sys.init)
    {ok : Prog Op Ans A × σ → β ⊕ γ → Prop} {x : Prog Op Ans A × σ}
    (hreach : Machine.Reach (interleaved sys p) ok x) : Holds sys rely inv post x.1 x.2 := by
  refine hreach.invariant (P := fun x => Holds sys rely inv post x.1 x.2) h ?_
  rintro ⟨q, s⟩ act ⟨q', s'⟩ _ hholds _ hstep
  cases act with
  | inl b =>
    cases q with
    | ret a => cases hstep
    | call op k =>
      obtain ⟨⟨ans, s''⟩, hans, heq⟩ := Option.map_eq_some_iff.mp hstep
      cases heq
      exact (hholds s (hrely.refl s)).2 b ans s' hans
  | inr c =>
    have hothers : (sys.others s c).map (fun s' => (q, s')) = some (q', s') := by
      cases q <;> exact hstep
    obtain ⟨s'', hs, heq⟩ := Option.map_eq_some_iff.mp hothers
    cases heq
    exact hholds.stable hrely (hrely.others hs)

end Holds

section Exec

variable (sys : System Op Ans σ β γ)

/-- An execution in which the others do nothing. -/
inductive Exec : Prog Op Ans A → σ → A → σ → Prop where
  | ret {a : A} {s : σ} : Exec (.ret a) s a s
  | call {op : Op} {k : Ans op → Prog Op Ans A} {s s' s'' : σ} {b : β} {ans : Ans op} {a : A}
      (hans : sys.answer s op b = some (ans, s')) (hrest : Exec (k ans) s' a s'') :
      Exec (.call op k) s a s''

variable {sys} {p : Prog Op Ans A} {f : A → Prog Op Ans B} {s s' s'' : σ} {a : A} {b : B}

/-- Runs of the two parts make a run of the sequence. -/
theorem Exec.bind (hp : Exec sys p s a s') (hf : Exec sys (f a) s' b s'') :
    Exec sys (p.bind f) s b s'' := by
  induction hp with
  | ret => exact hf
  | call hans _ ih => exact .call hans (ih hf)

/-- An answered call leads to what comes after it. -/
theorem reach_call {q : Prog Op Ans A} {op : Op} {k : Ans op → Prog Op Ans A} {c : β} {ans : Ans op}
    (hreach : Machine.Reach (interleaved sys q) Machine.any (.call op k, s))
    (hans : sys.answer s op c = some (ans, s')) :
    Machine.Reach (interleaved sys q) Machine.any (k ans, s') :=
  hreach.step (a := .inl c) trivial (by simp [interleaved, step, hans])

/-- A step of others leaves the program where it is. -/
theorem reach_others {q r : Prog Op Ans A} {c : γ}
    (hreach : Machine.Reach (interleaved sys q) Machine.any (r, s)) (hs : sys.others s c = some s') :
    Machine.Reach (interleaved sys q) Machine.any (r, s') :=
  hreach.step (a := .inr c) trivial (by cases r <;> simp [interleaved, step, hs])

/-- Such an execution of the first part of a program is one of the interleavings. -/
theorem Exec.reach {q : Prog Op Ans B} (h : Exec sys p s a s')
    (hreach : Machine.Reach (interleaved sys q) Machine.any (p.bind f, s)) :
    Machine.Reach (interleaved sys q) Machine.any (f a, s') := by
  induction h with
  | ret => exact hreach
  | call hans _ ih => exact ih (reach_call hreach hans)

end Exec

end Prog

end tun2proxy.machine
