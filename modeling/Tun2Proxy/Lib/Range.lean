namespace tun2proxy.machine

/-- A walk over a concurrent map. It comes to every key that was there when it began, and
    may come to keys that were stored later; to none of them twice. The value is loaded
    when the walk comes to the key. -/
structure Range (K : Type) where
  start : List K
  visited : List K
  deriving DecidableEq

namespace Range

variable {K V : Type} {m m' : K → Option V} {r : Range K} {current : Option V}

/-- The walk comes to `k`. -/
def visit (r : Range K) (k : K) : Range K := { r with visited := k :: r.visited }

/-- The walk may end when it has come to all keys that were there at the start. -/
def done (r : Range K) : Prop := ∀ k ∈ r.start, k ∈ r.visited

instance [DecidableEq K] (r : Range K) : Decidable r.done :=
  inferInstanceAs (Decidable (∀ k ∈ r.start, k ∈ r.visited))

/-- The walk will not miss an entry: each was there at the start, and it was not visited
    yet or is the one with value `current`, which the walk is working on. -/
structure Covers (m : K → Option V) (r : Range K) (current : Option V) : Prop where
  start : ∀ k v, m k = some v → k ∈ r.start
  visited : ∀ k v, m k = some v → k ∈ r.visited → current = some v

namespace Covers

/-- At the start no entry was visited. -/
theorem begin {keys : List K} (hkeys : ∀ k v, m k = some v → k ∈ keys) :
    Covers m ⟨keys, []⟩ none :=
  ⟨hkeys, fun _ _ _ hvisited => absurd hvisited List.not_mem_nil⟩

/-- Entries may go at any time. -/
theorem shrink (h : Covers m r current) (hle : ∀ k v, m' k = some v → m k = some v) :
    Covers m' r current :=
  ⟨fun k v hk => h.start k v (hle k v hk), fun k v hk => h.visited k v (hle k v hk)⟩

/-- The walk comes to a key, and works on its value. -/
theorem visit (h : Covers m r none) {k : K} (hk : m k = current) :
    Covers m (r.visit k) current where
  start := h.start
  visited k' v hk' hvisited := by
    obtain rfl | hold := List.mem_cons.mp hvisited
    · exact hk.symm.trans hk'
    · cases h.visited k' v hk' hold

/-- The work on the current entry has removed it. -/
theorem finish {v : V} (h : Covers m r (some v)) (hgone : ∀ k, m k ≠ some v) : Covers m r none where
  start := h.start
  visited k v' hk hvisited := by
    cases h.visited k v' hk hvisited
    exact absurd hk (hgone k)

/-- When the walk has ended, nothing is left. -/
theorem empty (h : Covers m r none) (hdone : r.done) (k : K) : m k = none := by
  cases hk : m k with
  | none => rfl
  | some v => cases h.visited k v hk (hdone k (h.start k v hk))

end Covers

end Range

end tun2proxy.machine
