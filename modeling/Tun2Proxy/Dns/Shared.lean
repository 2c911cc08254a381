import Tun2Proxy.Dns.History
import Tun2Proxy.Lib.Boxed

open tun2proxy.machine

namespace tun2proxy.dns

/-- `DNSCache` with its entries behind pointers: `Query` returns a pointer to the message
    in the cache, which other calls of `Query` write to. -/
abbrev SharedCache := Boxed (List UInt8) DNSCacheEntry

def newSharedCache : SharedCache := Boxed.empty ⟨⟨0, 0, [], [], []⟩, 0⟩

namespace SharedCache

/-- The cache as a map of values. -/
def view (c : SharedCache) : DNSCache := ⟨Boxed.view c⟩

/-- `entry.msg.Id = id` -/
def setId (c : SharedCache) (p : Nat) (id : UInt16) : SharedCache :=
  c.modify p fun entry => { entry with msg := { entry.msg with Id := id } }

/-- `Query` at time `now`, with the entry of the message it returns, if any. -/
def query (lib : Library) (now : Nat) (c : SharedCache) (payload : List UInt8) :
    Option Nat × SharedCache :=
  match lib.unpack payload with
  | none => (none, c)
  | some request =>
    match request.Question with
    | [] => (none, c)
    | question :: _ =>
      let key := cacheKey question
      match c.keys key with
      | none => (none, c)
      | some p => if (c.cells p).exp < now then (none, c.erase key) else (some p, c.setId p request.Id)

/-- `Store` at time `now`. -/
def store (lib : Library) (now : Nat) (c : SharedCache) (payload : List UInt8) : SharedCache :=
  match lib.unpack payload with
  | none => c
  | some resp =>
    if resp.Rcode ≠ rcodeSuccess then c
    else
      match resp.Question, resp.Answer with
      | question :: _, answer :: _ =>
        c.insert (cacheKey question) ⟨resp, now + answer.Ttl.toNat * 1000000000⟩
      | _, _ => c

variable {lib : Library} {now : Nat} {c c' : SharedCache} {payload : List UInt8} {p : Nat}

private theorem view_setId {key : List UInt8} (hp : c.keys key = some p) (id : UInt16) :
    (c.setId p id).view = ⟨Function.update c.view.storage key
      (some { c.cells p with msg := { (c.cells p).msg with Id := id } })⟩ :=
  congrArg DNSCache.mk (Boxed.view_modify hp _)

theorem view_erase (c : SharedCache) (key : List UInt8) :
    SharedCache.view (c.erase key) = ⟨Function.update c.view.storage key none⟩ :=
  congrArg DNSCache.mk (Boxed.view_erase c key)

theorem view_insert (c : SharedCache) (key : List UInt8) (entry : DNSCacheEntry) :
    SharedCache.view (c.insert key entry) = ⟨Function.update c.view.storage key (some entry)⟩ :=
  congrArg DNSCache.mk (Boxed.view_insert c key entry)

/-- Everything that `Query` can do. -/
inductive QuerySpec (lib : Library) (now : Nat) (c : SharedCache) (payload : List UInt8) :
    Option Nat × SharedCache → Prop where
  | miss : QuerySpec lib now c payload (none, c)
  | expired {key : List UInt8} : QuerySpec lib now c payload (none, c.erase key)
  | hit {request : Msg} {question : Question} {p : Nat} (hunpack : lib.unpack payload = some request)
      (hquestion : request.Question.head? = some question) (hp : c.keys (cacheKey question) = some p)
      (hfresh : ¬(c.cells p).exp < now) : QuerySpec lib now c payload (some p, c.setId p request.Id)

theorem query_spec (lib : Library) (now : Nat) (c : SharedCache) (payload : List UInt8) :
    QuerySpec lib now c payload (c.query lib now payload) := by
  unfold query
  cases hunpack : lib.unpack payload with
  | none => exact .miss
  | some request =>
    cases hquestion : request.Question with
    | nil =>
      simp only [hquestion]
      exact .miss
    | cons question questions =>
      simp only [hquestion]
      cases hp : c.keys (cacheKey question) with
      | none => exact .miss
      | some p =>
        dsimp only
        split
        · exact .expired
        · exact .hit hunpack (by rw [hquestion]; rfl) hp ‹_›

/-- `Store` allocates at most one new entry. -/
theorem store_spec (lib : Library) (now : Nat) (c : SharedCache) (payload : List UInt8) :
    c.store lib now payload = c ∨ ∃ key entry, c.store lib now payload = c.insert key entry := by
  unfold store
  cases lib.unpack payload with
  | none => exact .inl rfl
  | some resp =>
    dsimp only
    split
    · exact .inl rfl
    · split
      · exact .inr ⟨_, _, rfl⟩
      · exact .inl rfl

/-- On its values, the cache with pointers does what the cache without them does. -/
theorem view_query (lib : Library) (now : Nat) (c : SharedCache) (payload : List UInt8) :
    (c.query lib now payload).2.view = (c.view.query lib now payload).2 ∧
      (c.query lib now payload).1.map (fun p => ((c.query lib now payload).2.cells p).msg) =
        (c.view.query lib now payload).1 := by
  unfold query DNSCache.query
  cases lib.unpack payload with
  | none => exact ⟨rfl, rfl⟩
  | some request =>
    cases hquestion : request.Question with
    | nil => simp [hquestion]
    | cons question questions =>
      cases hp : c.keys (cacheKey question) with
      | none =>
        have hview : c.view.storage (cacheKey question) = none := by simp [view, Boxed.view, hp]
        simp [hquestion, hp, hview]
      | some p =>
        have hview : c.view.storage (cacheKey question) = some (c.cells p) := by
          simp [view, Boxed.view, hp]
        by_cases hexp : (c.cells p).exp < now
        · simp [hquestion, hp, hview, hexp, view_erase]
        · have hcell : ((c.setId p request.Id).cells p).msg =
              { (c.cells p).msg with Id := request.Id } := by
            simp [setId, Boxed.modify]
          simp [hquestion, hp, hview, hexp, view_setId hp, hcell]

private theorem view_store (lib : Library) (now : Nat) (c : SharedCache) (payload : List UInt8) :
    (c.store lib now payload).view = c.view.store lib now payload := by
  unfold store DNSCache.store
  cases lib.unpack payload with
  | none => rfl
  | some resp =>
    by_cases hrcode : resp.Rcode = rcodeSuccess
    · cases hquestion : resp.Question with
      | nil => simp [hrcode, hquestion]
      | cons question questions =>
        cases hanswer : resp.Answer with
        | nil => simp [hrcode, hquestion, hanswer]
        | cons answer answers => simp [hrcode, hquestion, hanswer, view_insert]
    · simp [hrcode]

/-! ### Sequences of calls -/

def call (lib : Library) (c : SharedCache) : CacheCall → SharedCache
  | .store now payload => c.store lib now payload
  | .query now payload => (c.query lib now payload).2

def callAll (lib : Library) (c : SharedCache) (calls : List CacheCall) : SharedCache :=
  calls.foldl (call lib) c

private theorem view_call (lib : Library) (c : SharedCache) (act : CacheCall) :
    (c.call lib act).view = c.view.call lib act := by
  cases act with
  | store now payload => exact view_store lib now c payload
  | query now payload => exact (view_query lib now c payload).1

private theorem view_callAll (lib : Library) (calls : List CacheCall) :
    ∀ c : SharedCache, (c.callAll lib calls).view = calls.foldl (DNSCache.call lib) c.view := by
  induction calls with
  | nil => exact fun _ => rfl
  | cons act rest ih =>
    intro c
    have hrest := ih (c.call lib act)
    rw [view_call] at hrest
    exact hrest

/-- `id` is the Id of a request that `Query` gets in one of the calls. -/
def Asked (lib : Library) (calls : List CacheCall) (id : UInt16) : Prop :=
  ∃ now payload request, .query now payload ∈ calls ∧ lib.unpack payload = some request ∧
    id = request.Id

/-- Nothing but their Ids has changed in the messages that were in use, and an Id only to
    one that was asked for in between. -/
structure OnlyIds (lib : Library) (calls : List CacheCall) (c c' : SharedCache) : Prop where
  next_le : c.next ≤ c'.next
  cells : ∀ p < c.next, ∃ id, (c'.cells p).msg = { (c.cells p).msg with Id := id } ∧
    (id = (c.cells p).msg.Id ∨ Asked lib calls id)

private theorem OnlyIds.of_cells {calls : List CacheCall} (hnext : c.next ≤ c'.next)
    (hcells : ∀ p < c.next, c'.cells p = c.cells p) : OnlyIds lib calls c c' :=
  ⟨hnext, fun p hp => ⟨(c.cells p).msg.Id, by rw [hcells p hp], .inl rfl⟩⟩

private theorem onlyIds_call (lib : Library) (c : SharedCache) (act : CacheCall) :
    OnlyIds lib [act] c (c.call lib act) := by
  cases act with
  | store now payload =>
    rw [call]
    obtain heq | ⟨key, entry, heq⟩ := store_spec lib now c payload
    · rw [heq]
      exact .of_cells (Nat.le_refl _) fun _ _ => rfl
    · rw [heq]
      exact .of_cells (Nat.le_succ _) fun p hp => Boxed.cells_insert hp
  | query now payload =>
    have hspec := query_spec lib now c payload
    rw [call]
    generalize c.query lib now payload = result at hspec
    cases hspec with
    | miss | expired => exact .of_cells (Nat.le_refl _) fun _ _ => rfl
    | @hit request question q hunpack _ _ _ =>
      refine ⟨Nat.le_refl _, fun p _ => ?_⟩
      by_cases hp : p = q
      · -- the entry that is hit
        subst hp
        refine ⟨request.Id, ?_, .inr ⟨now, payload, request, List.mem_singleton_self _, hunpack, rfl⟩⟩
        simp [setId, Boxed.modify]
      · refine ⟨(c.cells p).msg.Id, ?_, .inl rfl⟩
        simp [setId, Boxed.modify, hp]

private theorem onlyIds_callAll (lib : Library) (calls : List CacheCall) :
    ∀ c : SharedCache, OnlyIds lib calls c (c.callAll lib calls) := by
  induction calls with
  | nil => exact fun _ => .of_cells (Nat.le_refl _) fun _ _ => rfl
  | cons act rest ih =>
    intro c
    have hfirst := onlyIds_call lib c act
    have hrest := ih (c.call lib act)
    refine ⟨Nat.le_trans hfirst.next_le hrest.next_le, fun p hp => ?_⟩
    obtain ⟨id, hmsg, hid⟩ := hfirst.cells p hp
    obtain ⟨id', hmsg', hid'⟩ := hrest.cells p (Nat.lt_of_lt_of_le hp hfirst.next_le)
    refine ⟨id', ?_, ?_⟩
    · rw [callAll, List.foldl_cons]
      exact hmsg'.trans (by rw [hmsg])
    · rw [hmsg] at hid'
      obtain rfl | ⟨now, payload, request, hmem, hrequest⟩ := hid'
      · obtain heq | ⟨now, payload, request, hmem, hrequest⟩ := hid
        · exact .inl heq
        · obtain rfl := List.mem_singleton.mp hmem
          exact .inr ⟨now, payload, request, List.mem_cons_self, hrequest⟩
      · exact .inr ⟨now, payload, request, List.mem_cons_of_mem _ hmem, hrequest⟩

private theorem query_lt {result : Option Nat × SharedCache} (h : QuerySpec lib now c payload result) :
    ∀ p ∈ result.1, p < result.2.next := by
  intro p hp
  cases h with
  | miss | expired => cases hp
  | hit _ _ hkeys _ =>
    cases hp
    exact c.keys_lt hkeys

/-- After any calls, a query of the cache with pointers finds what the cache without them
    has. What the pointer leads to keeps its contents in all later calls, except that a
    query that hits the same entry writes its own Id. -/
theorem query_refines (lib : Library) (calls : List CacheCall) (now : Nat) (payload : List UInt8) :
    ∃ found c, (newSharedCache.callAll lib calls).query lib now payload = (found, c) ∧
      found.map (fun p => (c.cells p).msg) = ((cacheAfter lib calls).query lib now payload).1 ∧
      ∀ p ∈ found, ∀ later, ∃ id,
        ((c.callAll lib later).cells p).msg = { (c.cells p).msg with Id := id } ∧
          (id = (c.cells p).msg.Id ∨ Asked lib later id) := by
  have hview : (newSharedCache.callAll lib calls).view = cacheAfter lib calls :=
    view_callAll lib calls newSharedCache
  have hlt := query_lt (query_spec lib now (newSharedCache.callAll lib calls) payload)
  refine ⟨_, _, rfl, ?_, fun p hp later => (onlyIds_callAll lib later _).cells p (hlt p hp)⟩
  rw [← hview]
  exact (view_query lib now _ payload).2

end SharedCache

end tun2proxy.dns
