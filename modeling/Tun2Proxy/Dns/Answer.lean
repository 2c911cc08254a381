import Tun2Proxy.Dns.History

namespace tun2proxy.dns

/-- The two questions ask for the same name and type. -/
def Question.sameRecord (q q' : Question) : Bool := q'.Name = q.Name ∧ q'.Qtype = q.Qtype

/-- `Query` of `payload` at time `now`, after `calls`, returns `m`; and `resp`, stored at
    time `s`, is what was accepted last for the name and type that it asks for. -/
structure Served (lib : Library) (calls : List CacheCall) (now : Nat) (payload : List UInt8)
    (m : Msg) (s : Nat) (resp : Msg) : Prop where
  hit : ((cacheAfter lib calls).query lib now payload).1 = some m
  stored : ∃ request question, lib.unpack payload = some request ∧
    request.Question.head? = some question ∧
    latest lib question.sameRecord calls = some (s, resp)

/-- What the cache returns is the message stored last, with the Id of the query, and its
    first record has not expired. -/
theorem served_of_hit {lib : Library} {calls : List CacheCall} {now : Nat} {payload : List UInt8}
    {m : Msg} (hit : ((cacheAfter lib calls).query lib now payload).1 = some m) :
    ∃ s resp request, Served lib calls now payload m s resp ∧ lib.unpack payload = some request ∧
      m = { resp with Id := request.Id } ∧ now ≤ resp.expiry s := by
  obtain ⟨request, question, entry, hunpack, hquestion, hentry, hexp, rfl, _⟩ :=
    query_eq_some (Prod.ext hit rfl)
  obtain ⟨s, resp, hlatest, hexpiry, hmsg⟩ := storage_latest hentry
  have hsame : (fun q => decide (cacheKey q = cacheKey question)) = question.sameRecord := by
    funext q
    simp [Question.sameRecord, cacheKey_eq_iff]
  rw [hsame] at hlatest
  refine ⟨s, resp, request, ⟨hit, request, question, hunpack, hquestion, hlatest⟩, hunpack, ?_,
    hexpiry ▸ hexp⟩
  rw [hmsg]

/-- Name and type leave no doubt about the stored message. -/
theorem Served.unique {lib : Library} {calls : List CacheCall} {now : Nat} {payload : List UInt8}
    {m : Msg} {s s' : Nat} {resp resp' : Msg} (h : Served lib calls now payload m s resp)
    (h' : Served lib calls now payload m s' resp') : s = s' ∧ resp = resp' := by
  obtain ⟨request, question, hunpack, hquestion, hlatest⟩ := h.stored
  obtain ⟨request', question', hunpack', hquestion', hlatest'⟩ := h'.stored
  obtain rfl : request = request' := Option.some.inj (hunpack.symm.trans hunpack')
  obtain rfl : question = question' := Option.some.inj (hquestion.symm.trans hquestion')
  exact Prod.mk.inj (Option.some.inj (hlatest.symm.trans hlatest'))

/-! ### The question asked -/

/-- `m` is an answer to the question in `payload`: it repeats the question and the Id, and
    is otherwise the message that was accepted last for this question. -/
def AnswersQuestion (lib : Library) (calls : List CacheCall) (payload : List UInt8) (m : Msg) :
    Prop :=
  ∃ request question, lib.unpack payload = some request ∧
    request.Question.head? = some question ∧ m.Question.head? = some question ∧
    m.Id = request.Id ∧
    ∃ s resp, latest lib (fun q => q = question) calls = some (s, resp) ∧ m.SameApartFromId resp

/-- What was accepted last for the name and type in `payload` is of the class in `payload`. -/
def LatestOfClass (lib : Library) (calls : List CacheCall) (payload : List UInt8) : Prop :=
  ∃ request question, lib.unpack payload = some request ∧
    request.Question.head? = some question ∧
    ∃ s resp, latest lib question.sameRecord calls = some (s, resp) ∧
      resp.Question.head?.map Question.Qclass = some question.Qclass

private theorem AnswersQuestion.latestOfClass {lib : Library} {calls : List CacheCall} {now : Nat}
    {payload : List UInt8} {m : Msg}
    (hit : ((cacheAfter lib calls).query lib now payload).1 = some m)
    (h : AnswersQuestion lib calls payload m) : LatestOfClass lib calls payload := by
  obtain ⟨request, question, hunpack, hquestion, hm, _, _⟩ := h
  obtain ⟨s, resp, _, hserved, _, rfl, _⟩ := served_of_hit hit
  obtain ⟨request', question', hunpack', hquestion', hlatest⟩ := hserved.stored
  obtain rfl : request = request' := Option.some.inj (hunpack.symm.trans hunpack')
  obtain rfl : question = question' := Option.some.inj (hquestion.symm.trans hquestion')
  replace hm : resp.Question.head? = some question := hm
  exact ⟨request, question, hunpack, hquestion, s, resp, hlatest, by rw [hm, Option.map_some]⟩

private theorem LatestOfClass.answersQuestion {lib : Library} {calls : List CacheCall} {now : Nat}
    {payload : List UInt8} {m : Msg}
    (hit : ((cacheAfter lib calls).query lib now payload).1 = some m)
    (h : LatestOfClass lib calls payload) : AnswersQuestion lib calls payload m := by
  obtain ⟨request, question, hunpack, hquestion, s, resp, hlatest, hclass⟩ := h
  obtain ⟨s', resp', request', hserved, hunpack', rfl, _⟩ := served_of_hit hit
  obtain rfl : request = request' := Option.some.inj (hunpack.symm.trans hunpack')
  obtain ⟨rfl, rfl⟩ := hserved.unique ⟨hit, request, question, hunpack, hquestion, hlatest⟩
  obtain ⟨first, hfirst, hrecord⟩ := (Option.any_eq_true _ _).mp (latest_asks hlatest)
  rw [hfirst, Option.map_some, Option.some.injEq] at hclass
  have hsame : first = question := by
    simp only [Question.sameRecord, decide_eq_true_eq] at hrecord
    obtain ⟨Name, Qtype, Qclass⟩ := first
    obtain ⟨rfl, rfl⟩ := hrecord
    cases hclass
    rfl
  subst hsame
  refine ⟨request, first, hunpack, hquestion, hfirst, rfl, s', resp', ?_, rfl⟩
  refine latest_of_imp (fun q hq => ?_) hlatest ?_
  · simp_all [Question.sameRecord]
  · simp [Msg.asks, hfirst]

/-- The cache answers the question asked exactly when the message that was accepted last for its
    name and type is also of its class. The calls may be any, and their clock may go back. -/
theorem answersQuestion_iff {lib : Library} {calls : List CacheCall} {now : Nat}
    {payload : List UInt8} {m : Msg}
    (hit : ((cacheAfter lib calls).query lib now payload).1 = some m) :
    AnswersQuestion lib calls payload m ↔ LatestOfClass lib calls payload :=
  ⟨AnswersQuestion.latestOfClass hit, LatestOfClass.answersQuestion hit⟩

/-- A DNS library that knows the messages of a table, under their bytes after the Id. -/
def tableLib (table : List (List UInt8 × Msg)) : Library where
  unpack
    | high :: low :: body =>
      (table.lookup body).map fun m => { m with Id := high.toUInt16 <<< 8 ||| low.toUInt16 }
    | _ => none
  packBuffer m :=
    ((table.find? fun known => { known.2 with Id := m.Id } = m).elim [] fun known =>
      packUint16 m.Id ++ known.1)

/-- A query for the TXT records of `v.`, without its Id. -/
def txtQuery (Qclass : UInt8) : List UInt8 × Msg :=
  ([1, 0, 0, 1, 0, 0, 0, 0, 0, 0] ++ [1, 118, 0, 0, 16, 0, Qclass],
    ⟨0, 0, [⟨[118, 46], 16, Qclass.toUInt16⟩], [], [1, 0]⟩)

/-- A response to it with one record that lives for a minute. -/
def txtResponse (Qclass : UInt8) : List UInt8 × Msg :=
  ([129, 128, 0, 1, 0, 1, 0, 0, 0, 0] ++ [1, 118, 0, 0, 16, 0, Qclass] ++
      [1, 118, 0, 0, 16, 0, Qclass, 0, 0, 0, 60, 0, 2, 1, 120],
    ⟨0, 0, [⟨[118, 46], 16, Qclass.toUInt16⟩],
      [⟨60, [1, 118, 0, 0, 16, 0, Qclass, 0, 2, 1, 120]⟩], [129, 128]⟩)

def txtLib : Library := tableLib [txtQuery 1, txtQuery 3, txtResponse 1]

/-- The response of class IN is stored under its Id 1. -/
def txtCalls : List CacheCall := [.store 0 (0 :: 1 :: (txtResponse 1).1)]

/-- A query of class IN with Id 2 is answered. -/
theorem answersQuestion_txt :
    AnswersQuestion txtLib txtCalls (0 :: 2 :: (txtQuery 1).1)
      { (txtResponse 1).2 with Id := 2 } := by
  have hit : ((cacheAfter txtLib txtCalls).query txtLib 0 (0 :: 2 :: (txtQuery 1).1)).1 =
      some { (txtResponse 1).2 with Id := 2 } := by decide
  exact (answersQuestion_iff hit).mpr ⟨{ (txtQuery 1).2 with Id := 2 }, _, by decide, rfl, 0,
    { (txtResponse 1).2 with Id := 1 }, by decide, rfl⟩

/-- A query of class CH gets the response of class IN. -/
theorem wrong_class_answered :
    ((cacheAfter txtLib txtCalls).query txtLib 0 (0 :: 2 :: (txtQuery 3).1)).1 =
        some { (txtResponse 1).2 with Id := 2 } ∧
      ¬AnswersQuestion txtLib txtCalls (0 :: 2 :: (txtQuery 3).1)
        { (txtResponse 1).2 with Id := 2 } := by
  refine ⟨by decide, ?_⟩
  rintro ⟨request, question, hunpack, hquestion, hm, _⟩
  have hrequest : txtLib.unpack (0 :: 2 :: (txtQuery 3).1) = some { (txtQuery 3).2 with Id := 2 } := by
    decide
  obtain rfl := Option.some.inj (hrequest.symm.trans hunpack)
  rw [← hquestion] at hm
  revert hm
  decide

/-! ### Expired records -/

def CacheCall.now : CacheCall → Nat
  | .store now _ | .query now _ => now

/-- Whenever `resp` is served, as long as the clock does not go back, none of its records
    has expired. -/
def NeverServedExpired (lib : Library) (resp : Msg) : Prop :=
  ∀ (calls : List CacheCall) (now : Nat) (payload : List UInt8) (m : Msg) (s : Nat),
    (calls.map CacheCall.now ++ [now]).Pairwise (· ≤ ·) →
    Served lib calls now payload m s resp → ∀ rr ∈ m.Answer, now ≤ s + rr.Ttl.toNat * 1000000000

/-- No record lives shorter than the first one. -/
def LeastTtlFirst (resp : Msg) : Prop :=
  ∀ first ∈ resp.Answer.head?, ∀ rr ∈ resp.Answer, first.Ttl.toNat ≤ rr.Ttl.toNat

private theorem NeverServedExpired.leastTtlFirst {lib : Library} {payload : List UInt8} {resp : Msg}
    (hacc : lib.acceptable payload = some resp) (h : NeverServedExpired lib resp) :
    LeastTtlFirst resp := by
  obtain ⟨hunpack, _, ⟨question, questions, hquestion⟩, answer, answers, hanswer⟩ :=
    acceptable_eq_some hacc
  intro first hfirst rr hrr
  obtain rfl : answer = first := by simpa [hanswer] using hfirst
  -- stored at time 0, and asked for with the same bytes when its first record expires
  have hlatest : latest lib question.sameRecord [.store 0 payload] = some (0, resp) := by
    simp [latest, CacheCall.accepted, hacc, Option.filter_some, Msg.asks, hquestion,
      Question.sameRecord]
  have hentry : (cacheAfter lib [.store 0 payload]).storage (cacheKey question) =
      some ⟨resp, resp.expiry 0⟩ := by
    rw [cacheAfter, List.foldl_cons, List.foldl_nil, DNSCache.call, store_storage]
    simp [Library.stores, hacc, Option.filter_some, Msg.asks, hquestion]
  have hhead : resp.Question.head? = some question := by rw [hquestion, List.head?_cons]
  have hhit := query_hit hunpack hhead hentry (Nat.le_refl _)
  have hserved : Served lib [.store 0 payload] (resp.expiry 0) payload resp 0 resp :=
    ⟨hhit, resp, question, hunpack, hhead, hlatest⟩
  have hfresh := h [.store 0 payload] (resp.expiry 0) payload resp 0
    (by simp [CacheCall.now, Msg.expiry]) hserved rr hrr
  rw [Msg.expiry, hanswer] at hfresh
  simp only [List.head?_cons, Option.elim_some, Nat.zero_add] at hfresh
  omega

private theorem LeastTtlFirst.neverServedExpired {resp : Msg} (lib : Library) (h : LeastTtlFirst resp) :
    NeverServedExpired lib resp := by
  intro calls now payload m s _ hserved rr hrr
  obtain ⟨s', resp', request, hserved', _, rfl, hexp⟩ := served_of_hit hserved.hit
  obtain ⟨rfl, rfl⟩ := hserved.unique hserved'
  replace hrr : rr ∈ resp.Answer := hrr
  cases hanswer : resp.Answer with
  | nil => simp [hanswer] at hrr
  | cons first rest =>
    have hle := h first (by simp [hanswer]) rr hrr
    rw [Msg.expiry, hanswer] at hexp
    exact Nat.le_trans hexp (Nat.add_le_add_left (Nat.mul_le_mul_right _ hle) s)

/-- A message that `Store` accepts is never served with an expired record exactly when its first
    record has the least TTL. The library may read messages in any way. -/
theorem neverServedExpired_iff {lib : Library} {payload : List UInt8} {resp : Msg}
    (hacc : lib.acceptable payload = some resp) :
    NeverServedExpired lib resp ↔ LeastTtlFirst resp :=
  ⟨NeverServedExpired.leastTtlFirst hacc, LeastTtlFirst.neverServedExpired lib⟩

/-- A response with two records, the second for twice as long. -/
def twoTxtResponse : List UInt8 × Msg :=
  ([129, 128, 0, 1, 0, 2, 0, 0, 0, 0] ++ [1, 118, 0, 0, 16, 0, 1] ++
      [1, 118, 0, 0, 16, 0, 1, 0, 0, 0, 60, 0, 2, 1, 120] ++
      [1, 118, 0, 0, 16, 0, 1, 0, 0, 0, 120, 0, 2, 1, 121],
    ⟨0, 0, [⟨[118, 46], 16, 1⟩],
      [⟨60, [1, 118, 0, 0, 16, 0, 1, 0, 2, 1, 120]⟩, ⟨120, [1, 118, 0, 0, 16, 0, 1, 0, 2, 1, 121]⟩],
      [129, 128]⟩)

theorem neverServedExpired_txt :
    NeverServedExpired (tableLib [twoTxtResponse]) { twoTxtResponse.2 with Id := 1 } := by
  have hacc : (tableLib [twoTxtResponse]).acceptable (0 :: 1 :: twoTxtResponse.1) =
      some { twoTxtResponse.2 with Id := 1 } := by decide
  rw [neverServedExpired_iff hacc]
  unfold LeastTtlFirst
  decide

/-- A query for the address of `w.`, without its Id. -/
def aQuery : List UInt8 × Msg :=
  ([1, 0, 0, 1, 0, 0, 0, 0, 0, 0] ++ [1, 119, 0, 0, 1, 0, 1], ⟨0, 0, [⟨[119, 46], 1, 1⟩], [], [1, 0]⟩)

/-- A response: a CNAME for five minutes, and an address for ten seconds. -/
def aResponse : List UInt8 × Msg :=
  ([129, 128, 0, 1, 0, 2, 0, 0, 0, 0] ++ [1, 119, 0, 0, 1, 0, 1] ++
      [1, 119, 0, 0, 5, 0, 1, 0, 0, 1, 44, 0, 3, 1, 120, 0] ++
      [1, 120, 0, 0, 1, 0, 1, 0, 0, 0, 10, 0, 4, 1, 2, 3, 4],
    ⟨0, 0, [⟨[119, 46], 1, 1⟩],
      [⟨300, [1, 119, 0, 0, 5, 0, 1, 0, 3, 1, 120, 0]⟩,
        ⟨10, [1, 120, 0, 0, 1, 0, 1, 0, 4, 1, 2, 3, 4]⟩], [129, 128]⟩)

/-- Stored at time 0, the address is served eleven seconds later. -/
theorem expired_record_served :
    ∃ m, Served (tableLib [aQuery, aResponse]) [.store 0 (0 :: 1 :: aResponse.1)] 11000000000
        (0 :: 2 :: aQuery.1) m 0 { aResponse.2 with Id := 1 } ∧
      ∃ rr ∈ m.Answer, 0 + rr.Ttl.toNat * 1000000000 < 11000000000 := by
  refine ⟨{ aResponse.2 with Id := 2 }, ⟨by decide, { aQuery.2 with Id := 2 }, _, by decide, rfl,
    by decide⟩, ?_⟩
  decide

end tun2proxy.dns
