import Mathlib.Logic.Function.Basic

namespace tun2proxy.dns

structure Question where
  Name : List UInt8
  Qtype : UInt16
  Qclass : UInt16
  deriving DecidableEq, Repr

/-- `dns.RR`; `data` stands for everything but the TTL. -/
structure RR where
  Ttl : UInt32
  data : List UInt8
  deriving DecidableEq, Repr

/-- `dns.Msg`; `others` stands for the flags and sections that the cache does not
    look at. -/
structure Msg where
  Id : UInt16
  Rcode : Nat
  Question : List Question
  Answer : List RR
  others : List UInt8
  deriving DecidableEq, Repr

/-- The part of the DNS library that the cache and its users call. -/
structure Library where
  -- `Msg.Unpack`; `none` is an error
  unpack : List UInt8 → Option Msg
  -- `Msg.PackBuffer`, whose error is ignored
  packBuffer : Msg → List UInt8

/-- `DNSCacheEntry`. Times are in nanoseconds. -/
structure DNSCacheEntry where
  msg : Msg
  exp : Nat
  deriving DecidableEq, Repr

/-- `DNSCache`, as far as it is used. -/
structure DNSCache where
  storage : List UInt8 → Option DNSCacheEntry

def newDNSCache : DNSCache := ⟨fun _ => none⟩

def packUint16 (i : UInt16) : List UInt8 := [(i >>> 8).toUInt8, i.toUInt8]

def cacheKey (q : Question) : List UInt8 := q.Name ++ packUint16 q.Qtype

/-- `Query` at time `now`, with the message it returns, if any, and the cache after it. -/
def DNSCache.query (lib : Library) (now : Nat) (c : DNSCache) (payload : List UInt8) :
    Option Msg × DNSCache :=
  match lib.unpack payload with
  | none => (none, c)
  | some request =>
    match request.Question with
    | [] => (none, c)
    | question :: _ =>
      let key := cacheKey question
      match c.storage key with
      | none => (none, c)
      | some entry =>
        if entry.exp < now then (none, ⟨Function.update c.storage key none⟩)
        else
          let msg := { entry.msg with Id := request.Id }
          (some msg, ⟨Function.update c.storage key (some { entry with msg })⟩)

def rcodeSuccess : Nat := 0

/-- `Store` at time `now`. -/
def DNSCache.store (lib : Library) (now : Nat) (c : DNSCache) (payload : List UInt8) : DNSCache :=
  match lib.unpack payload with
  | none => c
  | some resp =>
    if resp.Rcode ≠ rcodeSuccess then c
    else
      match resp.Question, resp.Answer with
      | question :: _, answer :: _ =>
        ⟨Function.update c.storage (cacheKey question)
          (some ⟨resp, now + answer.Ttl.toNat * 1000000000⟩)⟩
      | _, _ => c

end tun2proxy.dns
