import Mathlib.Data.List.Induction
import Tun2Proxy.Dns.Cache

namespace tun2proxy.dns

/-! ### One call -/

/-- The message that `Store` keeps of a payload, if any. -/
def Library.acceptable (lib : Library) (payload : List UInt8) : Option Msg :=
  (lib.unpack payload).filter fun resp =>
    resp.Rcode = rcodeSuccess ∧ resp.Question ≠ [] ∧ resp.Answer ≠ []

/-- When a message that is stored at time `now` expires. -/
def Msg.expiry (resp : Msg) (now : Nat) : Nat :=
  now + (resp.Answer.head?.elim 0 fun answer => answer.Ttl.toNat) * 1000000000

/-- The two messages differ in nothing but the Id. -/
def Msg.SameApartFromId (m m' : Msg) : Prop := m = { m' with Id := m.Id }

theorem Msg.SameApartFromId.symm {m m' : Msg} (h : m.SameApartFromId m') :
    m'.SameApartFromId m := by
  generalize hid : m.Id = id
  rw [Msg.SameApartFromId, hid] at h
  subst h
  rfl

/-- The messages about which `p` holds of the first question. -/
def Msg.asks (p : dns.Question → Bool) (m : Msg) : Bool := m.Question.head?.any p

/-- What `Store` writes under a key. -/
def Library.stores (lib : Library) (now : Nat) (payload key : List UInt8) : Option DNSCacheEntry :=
  ((lib.acceptable payload).filter (Msg.asks fun q => cacheKey q = key)).map fun resp =>
    ⟨resp, resp.expiry now⟩

theorem acceptable_eq_some {lib : Library} {payload : List UInt8} {resp : Msg}
    (h : lib.acceptable payload = some resp) :
    lib.unpack payload = some resp ∧ resp.Rcode = rcodeSuccess ∧
      (∃ question questions, resp.Question = question :: questions) ∧
      ∃ answer answers, resp.Answer = answer :: answers := by
  simp only [Library.acceptable, Option.filter_eq_some_iff, decide_eq_true_eq] at h
  obtain ⟨hunpack, hrcode, hquestion, hanswer⟩ := h
  exact ⟨hunpack, hrcode, List.exists_cons_of_ne_nil hquestion, List.exists_cons_of_ne_nil hanswer⟩

theorem store_storage (lib : Library) (now : Nat) (c : DNSCache) (payload key : List UInt8) :
    (c.store lib now payload).storage key = (lib.stores now payload key).or (c.storage key) := by
  unfold DNSCache.store Library.stores Library.acceptable
  cases hunpack : lib.unpack payload with
  | none => rfl
  | some resp =>
    by_cases hrcode : resp.Rcode = rcodeSuccess
    · cases hquestion : resp.Question with
      | nil => simp [Option.filter_some, hrcode, hquestion]
      | cons question questions =>
        cases hanswer : resp.Answer with
        | nil => simp [Option.filter_some, hrcode, hquestion, hanswer]
        | cons answer answers =>
          by_cases hkey : cacheKey question = key
          · simp [Option.filter_some, hrcode, hquestion, hanswer, hkey, Msg.asks, Msg.expiry]
          · simp [Option.filter_some, hrcode, hquestion, hanswer, hkey, Ne.symm hkey, Msg.asks]
    · simp [Option.filter_some, hrcode]

theorem store_of_refused {lib : Library} {payload : List UInt8} (h : lib.acceptable payload = none)
    (now : Nat) (c : DNSCache) : c.store lib now payload = c := by
  have hstorage : (c.store lib now payload).storage = c.storage := by
    funext key
    rw [store_storage, Library.stores, h]
    rfl
  exact congrArg DNSCache.mk hstorage

/-- A hit: the entry is there and not expired. -/
theorem query_eq_some {lib : Library} {now : Nat} {c c' : DNSCache} {payload : List UInt8} {m : Msg}
    (h : c.query lib now payload = (some m, c')) :
    ∃ request question entry, lib.unpack payload = some request ∧
      request.Question.head? = some question ∧ c.storage (cacheKey question) = some entry ∧
      now ≤ entry.exp ∧ m = { entry.msg with Id := request.Id } ∧
      c' = ⟨Function.update c.storage (cacheKey question) (some { entry with msg := m })⟩ := by
  unfold DNSCache.query at h
  cases hunpack : lib.unpack payload with
  | none => simp [hunpack] at h
  | some request =>
    cases hquestion : request.Question with
    | nil => simp [hunpack, hquestion] at h
    | cons question questions =>
      cases hentry : c.storage (cacheKey question) with
      | none => simp [hunpack, hquestion, hentry] at h
      | some entry =>
        by_cases hexp : entry.exp < now
        · simp [hunpack, hquestion, hentry, hexp] at h
        · simp only [hunpack, hquestion, hentry, hexp, if_false, Prod.mk.injEq,
            Option.some.injEq] at h
          obtain ⟨rfl, rfl⟩ := h
          exact ⟨request, question, entry, rfl, by simp [hquestion], hentry, Nat.le_of_not_lt hexp,
            rfl, rfl⟩

theorem query_hit {lib : Library} {now : Nat} {c : DNSCache} {payload : List UInt8}
    {request : Msg} {question : Question} {entry : DNSCacheEntry}
    (hunpack : lib.unpack payload = some request) (hquestion : request.Question.head? = some question)
    (hentry : c.storage (cacheKey question) = some entry) (hexp : now ≤ entry.exp) :
    (c.query lib now payload).1 = some { entry.msg with Id := request.Id } := by
  obtain ⟨questions, hcons⟩ : ∃ questions, request.Question = question :: questions :=
    List.head?_eq_some_iff.mp hquestion
  simp [DNSCache.query, hunpack, hcons, hentry, Nat.not_lt.mpr hexp]

/-- `Query` may drop an entry or change its Id. -/
theorem query_storage {lib : Library} {now : Nat} {c : DNSCache} {payload key : List UInt8}
    {entry' : DNSCacheEntry} (h : (c.query lib now payload).2.storage key = some entry') :
    ∃ entry, c.storage key = some entry ∧ entry'.exp = entry.exp ∧
      entry'.msg = { entry.msg with Id := entry'.msg.Id } := by
  have hsame : c.storage key = some entry' → ∃ entry, c.storage key = some entry ∧
      entry'.exp = entry.exp ∧ entry'.msg = { entry.msg with Id := entry'.msg.Id } :=
    fun hkey => ⟨entry', hkey, rfl, rfl⟩
  unfold DNSCache.query at h
  cases hunpack : lib.unpack payload with
  | none => exact hsame (by simpa [hunpack] using h)
  | some request =>
    cases hquestion : request.Question with
    | nil => exact hsame (by simpa [hunpack, hquestion] using h)
    | cons question questions =>
      cases hentry : c.storage (cacheKey question) with
      | none => exact hsame (by simpa [hunpack, hquestion, hentry] using h)
      | some entry =>
        simp only [hunpack, hquestion, hentry] at h
        split at h
        · simp only [Function.update_apply] at h
          split at h
          · cases h
          · exact hsame h
        · simp only [Function.update_apply] at h
          split at h
          · rename_i hkey
            cases h
            exact ⟨entry, hkey ▸ hentry, rfl, rfl⟩
          · exact hsame h

/-! ### Sequences of calls -/

/-- A call of the cache, with the time it reads from the clock. -/
inductive CacheCall where
  | store (now : Nat) (payload : List UInt8)
  | query (now : Nat) (payload : List UInt8)
  deriving DecidableEq, Repr

def DNSCache.call (lib : Library) (c : DNSCache) : CacheCall → DNSCache
  | .store now payload => c.store lib now payload
  | .query now payload => (c.query lib now payload).2

/-- The cache after a sequence of calls. -/
def cacheAfter (lib : Library) (calls : List CacheCall) : DNSCache :=
  calls.foldl (DNSCache.call lib) newDNSCache

/-- The time and the message of a `Store` that is accepted and about which `p` holds. -/
def CacheCall.accepted (lib : Library) (p : Question → Bool) : CacheCall → Option (Nat × Msg)
  | .store now payload => ((lib.acceptable payload).filter (Msg.asks p)).map fun resp => (now, resp)
  | .query _ _ => none

/-- The latest of them. -/
def latest (lib : Library) (p : Question → Bool) (calls : List CacheCall) : Option (Nat × Msg) :=
  calls.reverse.findSome? (CacheCall.accepted lib p)

private theorem cacheAfter_snoc (lib : Library) (calls : List CacheCall) (last : CacheCall) :
    cacheAfter lib (calls ++ [last]) = (cacheAfter lib calls).call lib last := by
  simp [cacheAfter]

private theorem latest_snoc (lib : Library) (p : Question → Bool) (calls : List CacheCall)
    (last : CacheCall) :
    latest lib p (calls ++ [last]) = (last.accepted lib p).or (latest lib p calls) := by
  simp only [latest, List.reverse_append, List.reverse_singleton, List.singleton_append,
    List.findSome?_cons]
  cases last.accepted lib p <;> rfl

theorem latest_asks {lib : Library} {p : Question → Bool} {calls : List CacheCall} {s : Nat}
    {resp : Msg} (h : latest lib p calls = some (s, resp)) : resp.asks p := by
  obtain ⟨call, _, hcall⟩ := List.exists_of_findSome?_eq_some h
  cases call with
  | query now payload => cases hcall
  | store now payload =>
    simp only [CacheCall.accepted, Option.map_eq_some_iff, Option.filter_eq_some_iff] at hcall
    obtain ⟨resp', ⟨_, hasks⟩, heq⟩ := hcall
    cases heq
    exact hasks

/-- A stricter question finds the same message where the latest one satisfies it. -/
theorem latest_of_imp {lib : Library} {p p' : Question → Bool} (himp : ∀ q, p' q → p q)
    {calls : List CacheCall} {s : Nat} {resp : Msg} (h : latest lib p calls = some (s, resp))
    (hasks : resp.asks p') : latest lib p' calls = some (s, resp) := by
  induction calls using List.reverseRecOn with
  | nil => cases h
  | append_singleton calls last ih =>
    rw [latest_snoc] at h ⊢
    cases last with
    | query now payload => exact ih h
    | store now payload =>
      simp only [CacheCall.accepted] at h ⊢
      cases hacc : lib.acceptable payload with
      | none =>
        rw [hacc] at h
        exact ih h
      | some stored =>
        rw [hacc, Option.filter_some] at h
        by_cases hp : stored.asks p
        · simp only [hp, if_true, Option.map_some, Option.some_or, Option.some.injEq,
            Prod.mk.injEq] at h
          obtain ⟨rfl, rfl⟩ := h
          simp [Option.filter_some, hasks]
        · have hp' : ¬stored.asks p' := by
            intro hp'
            obtain ⟨q, hq, hask⟩ := (Option.any_eq_true _ _).mp hp'
            exact hp ((Option.any_eq_true _ _).mpr ⟨q, hq, himp q hask⟩)
          simp only [hp, Bool.false_eq_true, if_false, Option.map_none, Option.none_or] at h
          simpa [Option.filter_some, hp'] using ih h

/-- Every entry is the latest accepted message under its key, but for the Id, and
    expires when the first record of that message does. -/
theorem storage_latest {lib : Library} {calls : List CacheCall} {key : List UInt8}
    {entry : DNSCacheEntry} (h : (cacheAfter lib calls).storage key = some entry) :
    ∃ s resp, latest lib (fun q => cacheKey q = key) calls = some (s, resp) ∧
      entry.exp = resp.expiry s ∧ entry.msg.SameApartFromId resp := by
  induction calls using List.reverseRecOn generalizing entry with
  | nil => cases h
  | append_singleton calls last ih =>
    rw [cacheAfter_snoc] at h
    rw [latest_snoc]
    cases last with
    | query now payload =>
      obtain ⟨old, hold, hexp, hmsg⟩ := query_storage h
      obtain ⟨s, resp, hlatest, hexp', hmsg'⟩ := ih hold
      refine ⟨s, resp, hlatest, hexp.trans hexp', ?_⟩
      rw [Msg.SameApartFromId, hmsg, hmsg']
    | store now payload =>
      rw [DNSCache.call, store_storage, Library.stores] at h
      simp only [CacheCall.accepted]
      cases hstored : (lib.acceptable payload).filter (Msg.asks fun q => cacheKey q = key) with
      | none =>
        rw [hstored] at h
        exact ih h
      | some resp =>
        rw [hstored] at h
        cases h
        exact ⟨now, resp, rfl, rfl, rfl⟩

/-! ### The key -/

private theorem packUint16_inj {i j : UInt16} (h : packUint16 i = packUint16 j) : i = j := by
  simp only [packUint16, List.cons.injEq, and_true] at h
  obtain ⟨hhigh, hlow⟩ := h
  have hhigh' := congrArg UInt8.toNat hhigh
  have hlow' := congrArg UInt8.toNat hlow
  have hi := i.toNat_lt
  have hj := j.toNat_lt
  simp only [UInt16.toNat_toUInt8, UInt16.toNat_shiftRight, Nat.shiftRight_eq_div_pow] at hhigh' hlow'
  have hshift : UInt16.toNat 8 % 16 = 8 := rfl
  rw [hshift] at hhigh'
  apply UInt16.toNat_inj.mp
  omega

/-- The key identifies name and type; it says nothing about the class. -/
theorem cacheKey_eq_iff (q q' : Question) :
    cacheKey q = cacheKey q' ↔ q.Name = q'.Name ∧ q.Qtype = q'.Qtype := by
  constructor
  · intro h
    obtain ⟨hname, htype⟩ := List.append_inj' h rfl
    exact ⟨hname, packUint16_inj htype⟩
  · rintro ⟨hname, htype⟩
    rw [cacheKey, cacheKey, hname, htype]

end tun2proxy.dns
