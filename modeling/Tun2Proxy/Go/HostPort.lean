import Tun2Proxy.Lib.Numeral
import Mathlib.Data.List.Basic

open tun2proxy.numeral

namespace tun2proxy.go

/-- The byte of an ASCII character. A Go string is a list of bytes. -/
abbrev ascii (c : Char) : UInt8 := c.toUInt8

/-- The parts before and after the first `sep`. -/
def cut (sep : UInt8) : List UInt8 → Option (List UInt8 × List UInt8)
  | [] => none
  | c :: rest => if c = sep then some ([], rest) else (cut sep rest).map fun p => (c :: p.1, p.2)

/-- The parts before and after the last `sep`. -/
def cutLast (sep : UInt8) (s : List UInt8) : Option (List UInt8 × List UInt8) :=
  (cut sep s.reverse).map fun p => (p.2.reverse, p.1.reverse)

/-! ### Package strconv -/

/-- The decimal digit with that value. -/
def decimalChar (d : Nat) : UInt8 := UInt8.ofNat (48 + d)

def decimalVal (c : UInt8) : Option Nat :=
  if ascii '0' ≤ c ∧ c ≤ ascii '9' then some (c.toNat - 48) else none

/-- `strconv.Itoa` of a number that is not negative. -/
def itoa (n : Nat) : List UInt8 := print 10 decimalChar n

/-- `strconv.ParseUint(s, 10, bitSize)`. -/
def parseUint (s : List UInt8) (bitSize : Nat) : Option Nat :=
  (read 10 decimalVal s).filter (· < 2 ^ bitSize)

/-! ### Package net -/

/-- `net.JoinHostPort`. -/
def joinHostPort (host port : List UInt8) : List UInt8 :=
  if ascii ':' ∈ host then ascii '[' :: host ++ ascii ']' :: ascii ':' :: port
  else host ++ ascii ':' :: port

/-- `net.SplitHostPort`; `none` is an error. -/
def splitHostPort (hostport : List UInt8) : Option (List UInt8 × List UInt8) :=
  -- the port starts after the last colon
  match cutLast (ascii ':') hostport with
  | none => none
  | some (before, port) =>
    if hostport.head? = some (ascii '[') then
      match cut (ascii ']') hostport.tail with
      | none => none
      | some (host, after) =>
        -- the first ']' must stand just before the last colon
        if after = ascii ':' :: port ∧ ascii '[' ∉ hostport.tail ∧ ascii ']' ∉ after then
          some (host, port)
        else none
    else if ascii ':' ∉ before ∧ ascii '[' ∉ hostport ∧ ascii ']' ∉ hostport then
      some (before, port)
    else none

/-- No bracket, as it is in every host that `SplitHostPort` returns. -/
def NoBracket (s : List UInt8) : Prop := ascii '[' ∉ s ∧ ascii ']' ∉ s

theorem decimalVal_decimalChar (d : Nat) (hd : d < 10) : decimalVal (decimalChar d) = some d := by
  interval_cases d <;> rfl

theorem parseUint_itoa {n bitSize : Nat} (hn : n < 2 ^ bitSize) :
    parseUint (itoa n) bitSize = some n := by
  rw [parseUint, itoa, read_print (by decide) decimalVal_decimalChar]
  simpa using hn

/-- A decimal numeral has digits only. -/
theorem mem_itoa {n : Nat} {c : UInt8} (hc : c ∈ itoa n) : ascii '0' ≤ c ∧ c ≤ ascii '9' := by
  obtain ⟨d, hd, rfl⟩ := exists_digit_of_mem_print (by decide) hc
  interval_cases d <;> decide

theorem not_mem_itoa {n : Nat} {c : UInt8} (hc : ¬(ascii '0' ≤ c ∧ c ≤ ascii '9')) :
    c ∉ itoa n := fun hmem => hc (mem_itoa hmem)

private theorem cut_append {sep : UInt8} {before : List UInt8} (hsep : sep ∉ before)
    (after : List UInt8) : cut sep (before ++ sep :: after) = some (before, after) := by
  induction before with
  | nil => simp [cut]
  | cons c before ih =>
    have hc : c ≠ sep := fun h => hsep (h ▸ List.mem_cons_self)
    have hrest := ih fun h => hsep (List.mem_cons_of_mem _ h)
    simp [cut, hc, hrest]

private theorem cutLast_append {sep : UInt8} {after : List UInt8} (hsep : sep ∉ after)
    (before : List UInt8) : cutLast sep (before ++ sep :: after) = some (before, after) := by
  have hrev : (before ++ sep :: after).reverse = after.reverse ++ sep :: before.reverse := by simp
  rw [cutLast, hrev, cut_append (by simpa using hsep)]
  simp

private theorem eq_of_cut {sep : UInt8} {s : List UInt8} :
    ∀ {before after : List UInt8}, cut sep s = some (before, after) →
      s = before ++ sep :: after ∧ sep ∉ before := by
  induction s with
  | nil =>
    intro before after h
    cases h
  | cons c s ih =>
    intro before after h
    rw [cut] at h
    split at h
    case isTrue hc =>
      cases h
      exact ⟨by rw [hc, List.nil_append], List.not_mem_nil⟩
    case isFalse hc =>
      obtain ⟨⟨before', after'⟩, hcut, heq⟩ := Option.map_eq_some_iff.mp h
      cases heq
      obtain ⟨rfl, hnot⟩ := ih hcut
      refine ⟨rfl, fun hmem => ?_⟩
      obtain heq | hmem := List.mem_cons.mp hmem
      · exact hc heq.symm
      · exact hnot hmem

/-- What `JoinHostPort` joined, `SplitHostPort` splits. -/
theorem splitHostPort_joinHostPort {host port : List UInt8} (hhost : NoBracket host)
    (hport : NoBracket port) (hcolon : ascii ':' ∉ port) :
    splitHostPort (joinHostPort host port) = some (host, port) := by
  unfold joinHostPort
  split
  case isTrue =>
    have hlast : cutLast (ascii ':') (ascii '[' :: host ++ ascii ']' :: ascii ':' :: port) =
        some (ascii '[' :: host ++ [ascii ']'], port) := by
      have hassoc : ascii '[' :: host ++ ascii ']' :: ascii ':' :: port =
          (ascii '[' :: host ++ [ascii ']']) ++ ascii ':' :: port := by simp
      rw [hassoc, cutLast_append hcolon]
    have hafter : ascii ']' ∉ ascii ':' :: port := by
      simpa using ⟨by decide, hport.2⟩
    have hopen : ascii '[' ∉ host ++ ascii ']' :: ascii ':' :: port := by
      simpa using ⟨hhost.1, by decide, by decide, hport.1⟩
    unfold splitHostPort
    rw [hlast]
    simp only [List.cons_append, List.head?_cons, if_true, List.tail_cons, cut_append hhost.2]
    rw [if_pos ⟨trivial, hopen, hafter⟩]
  case isFalse hplain =>
    have hhead : (host ++ ascii ':' :: port).head? ≠ some (ascii '[') := by
      intro hhead
      have hmem := List.mem_of_mem_head? hhead
      obtain hmem | hmem := List.mem_append.mp hmem
      · exact hhost.1 hmem
      · obtain heq | hmem := List.mem_cons.mp hmem
        · exact absurd heq (by decide)
        · exact hport.1 hmem
    have hopen : ascii '[' ∉ host ++ ascii ':' :: port := by
      simpa using ⟨hhost.1, by decide, hport.1⟩
    have hclose : ascii ']' ∉ host ++ ascii ':' :: port := by
      simpa using ⟨hhost.2, by decide, hport.2⟩
    unfold splitHostPort
    rw [cutLast_append hcolon]
    simp only [if_neg hhead]
    rw [if_pos ⟨hplain, hopen, hclose⟩]

/-- A host that `SplitHostPort` returns has no bracket. -/
theorem noBracket_of_splitHostPort {hostport host port : List UInt8}
    (h : splitHostPort hostport = some (host, port)) : NoBracket host := by
  unfold splitHostPort at h
  split at h
  · cases h
  case _ before port' hlast =>
    split at h
    case isTrue =>
      split at h
      · cases h
      case _ host' after hcut =>
        obtain ⟨⟨-, hopen, -⟩, heq⟩ := Option.ite_none_right_eq_some.mp h
        cases heq
        obtain ⟨htail, hclose⟩ := eq_of_cut hcut
        rw [htail] at hopen
        exact ⟨fun hmem => hopen (List.mem_append_left _ hmem), hclose⟩
    case isFalse =>
      obtain ⟨⟨-, hopen, hclose⟩, heq⟩ := Option.ite_none_right_eq_some.mp h
      cases heq
      obtain ⟨⟨p1, p2⟩, hcut, heq⟩ := Option.map_eq_some_iff.mp hlast
      cases heq
      obtain ⟨hrev, -⟩ := eq_of_cut hcut
      have hwhole : hostport = p2.reverse ++ ascii ':' :: p1.reverse := by
        rw [← List.reverse_reverse hostport, hrev]
        simp
      rw [hwhole] at hopen hclose
      exact ⟨fun hmem => hopen (List.mem_append_left _ hmem),
        fun hmem => hclose (List.mem_append_left _ hmem)⟩

end tun2proxy.go
