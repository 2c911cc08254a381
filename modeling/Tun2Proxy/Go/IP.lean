import Tun2Proxy.Go.HostPort
import Mathlib.Data.List.TakeWhile

open tun2proxy.numeral

namespace tun2proxy.go

/-- `v4InV6Prefix` of package net. -/
def v4InV6Prefix : List UInt8 := List.replicate 10 0 ++ [255, 255]

/-- `net.IP.To4`. -/
def to4 (ip : List UInt8) : Option (List UInt8) :=
  if ip.length = 4 then some ip
  else if ip.length = 16 ∧ ip.take 12 = v4InV6Prefix then some (ip.drop 12)
  else none

/-- `net.IP.To16`. -/
def to16 (ip : List UInt8) : Option (List UInt8) :=
  if ip.length = 4 then some (v4InV6Prefix ++ ip)
  else if ip.length = 16 then some ip
  else none

def hexChar (d : Nat) : UInt8 := UInt8.ofNat (if d < 10 then 48 + d else 87 + d)

def hexVal (c : UInt8) : Option Nat :=
  if ascii '0' ≤ c ∧ c ≤ ascii '9' then some (c.toNat - 48)
  else if ascii 'a' ≤ c ∧ c ≤ ascii 'f' then some (c.toNat - 87)
  else if ascii 'A' ≤ c ∧ c ≤ ascii 'F' then some (c.toNat - 55)
  else none

/-! ### `ParseIP` -/

/-- One field of an IPv4 address: a number up to 255 without leading zeros. -/
def parseOctet (field : List UInt8) : Option UInt8 :=
  if field.head? = some (ascii '0') ∧ 1 < field.length then none
  else ((read 10 decimalVal field).filter (· ≤ 255)).map UInt8.ofNat

/-- `parseIPv4Fields`. -/
def parseIPv4Fields (s : List UInt8) : Option (List UInt8) :=
  let fields := s.splitOn (ascii '.')
  if fields.length = 4 then fields.mapM parseOctet else none

/-- The two bytes of a group. -/
def groupBytes (g : Nat) : List UInt8 := [UInt8.ofNat (g / 256), UInt8.ofNat g]

/-- The loop of `parseIPv6`, with the number of groups that there is room for, the bytes so
    far and the place of the ellipsis in them. -/
def parseIPv6Loop : Nat → List UInt8 → Option Nat → List UInt8 → Option (List UInt8 × Option Nat)
  | 0, ip, ellipsis, s => if s.isEmpty then some (ip, ellipsis) else none
  | room + 1, ip, ellipsis, s =>
    let field := s.takeWhile fun c => (hexVal c).isSome
    if 4 < field.length then none
    else
      match read 16 hexVal field with
      | none => none
      | some acc =>
        match s.dropWhile fun c => (hexVal c).isSome with
        | [] => some (ip ++ groupBytes acc, ellipsis)
        | c :: rest =>
          if c = ascii '.' then
            -- an IPv4 address at the end, in the place of the last two groups
            if ellipsis.isNone ∧ ip.length ≠ 12 ∨ 16 < ip.length + 4 then none
            else (parseIPv4Fields s).map fun ip4 => (ip ++ ip4, ellipsis)
          else if c ≠ ascii ':' then none
          else
            let ip := ip ++ groupBytes acc
            match rest with
            | [] => none
            | c :: rest' =>
              if c = ascii ':' then
                if ellipsis.isSome then none
                else if rest'.isEmpty then some (ip, some ip.length)
                else parseIPv6Loop room ip (some ip.length) rest'
              else parseIPv6Loop room ip ellipsis rest

/-- The zeros that the ellipsis stands for, at least one group. -/
def expandEllipsis : List UInt8 × Option Nat → Option (List UInt8)
  | (ip, none) => if ip.length = 16 then some ip else none
  | (ip, some n) =>
    if ip.length < 16 then some (ip.take n ++ List.replicate (16 - ip.length) 0 ++ ip.drop n)
    else none

/-- `parseIPv6`. An address with a zone is none for package net. -/
def parseIPv6 (s : List UInt8) : Option (List UInt8) :=
  if ascii '%' ∈ s then none
  else if s.take 2 = [ascii ':', ascii ':'] then
    if (s.drop 2).isEmpty then some (List.replicate 16 0)
    else (parseIPv6Loop 8 [] (some 0) (s.drop 2)).bind expandEllipsis
  else (parseIPv6Loop 8 [] none s).bind expandEllipsis

/-- `net.ParseIP`: the first dot, colon or percent sign tells what to parse. -/
def parseIP (s : List UInt8) : Option (List UInt8) :=
  match s.find? fun c => c = ascii '.' ∨ c = ascii ':' ∨ c = ascii '%' with
  | none => none
  | some c =>
    if c = ascii '.' then (parseIPv4Fields s).map (v4InV6Prefix ++ ·)
    else if c = ascii ':' then parseIPv6 s
    else none

/-! ### `IP.String` -/

/-- The printed form of four bytes. -/
def dotted (ip : List UInt8) : List UInt8 :=
  [ascii '.'].intercalate (ip.map fun b => itoa b.toNat)

/-- The groups of two bytes. -/
def groups : List UInt8 → List Nat
  | high :: low :: rest => (high.toNat * 256 + low.toNat) :: groups rest
  | _ => []

/-- How many zero groups there are from `i` on. -/
def zeroRun (gs : List Nat) (i : Nat) : Nat := ((gs.drop i).takeWhile (· = 0)).length

/-- The first of the longest runs of two or more zero groups, as its start and its length. -/
def longestZeroRun (gs : List Nat) : Nat × Nat :=
  (List.range gs.length).foldl
    (fun best i => if 2 ≤ zeroRun gs i ∧ best.2 < zeroRun gs i then (i, zeroRun gs i) else best)
    (0, 0)

/-- Groups with colons between them. -/
def colonHex (gs : List Nat) : List UInt8 := [ascii ':'].intercalate (gs.map (print 16 hexChar))

/-- `netip.Addr.appendTo6`. -/
def appendTo6 (gs : List Nat) : List UInt8 :=
  let run := longestZeroRun gs
  if run.2 = 0 then colonHex gs
  else colonHex (gs.take run.1) ++ ascii ':' :: ascii ':' :: colonHex (gs.drop (run.1 + run.2))

/-- `net.IP.String`. -/
def ipString (ip : List UInt8) : List UInt8 :=
  if ip.length = 0 then ['<', 'n', 'i', 'l', '>'].map ascii
  else if ip.length ≠ 4 ∧ ip.length ≠ 16 then
    ascii '?' :: ip.flatMap fun b => [hexChar (b.toNat / 16), hexChar (b.toNat % 16)]
  else
    match to4 ip with
    | some p4 => dotted p4
    | none => appendTo6 (groups ip)

/-! ### IPv4 -/

private theorem parseOctet_itoa (b : UInt8) : parseOctet (itoa b.toNat) = some b := by
  have hlt := b.toNat_lt
  have hlead : ¬((itoa b.toNat).head? = some (ascii '0') ∧ 1 < (itoa b.toNat).length) := by
    rintro ⟨hhead, hlong⟩
    unfold itoa print at hhead hlong
    cases hdigits : digits 10 b.toNat with
    | nil => exact digits_ne_nil _ hdigits
    | cons d ds =>
      rw [hdigits] at hhead hlong
      have hd : d < 10 := lt_of_mem_digits (by decide) (hdigits ▸ List.mem_cons_self)
      have hzero : d = 0 := by
        have hchar : decimalChar d = ascii '0' := by simpa using hhead
        interval_cases d <;> first | rfl | exact absurd hchar (by decide)
      subst hzero
      rw [digits_eq_zero_cons hdigits] at hlong
      exact absurd hlong (by simp)
  rw [parseOctet, if_neg hlead, itoa, read_print (by decide) decimalVal_decimalChar]
  have hfits : b.toNat ≤ 255 := by omega
  simp [hfits]

private theorem mapM_parseOctet (ip : List UInt8) :
    (ip.map fun b => itoa b.toNat).mapM parseOctet = some ip := by
  induction ip with
  | nil => rfl
  | cons b ip ih => simp [List.mapM_cons, parseOctet_itoa, ih]

private theorem parseIPv4Fields_dotted {ip : List UInt8} (hlen : ip.length = 4) :
    parseIPv4Fields (dotted ip) = some ip := by
  have hsplit : (dotted ip).splitOn (ascii '.') = ip.map fun b => itoa b.toNat := by
    apply List.splitOn_intercalate
    · intro field hfield
      obtain ⟨b, -, rfl⟩ := List.mem_map.mp hfield
      exact not_mem_itoa (by decide)
    · intro hnil
      rw [List.map_eq_nil_iff.mp hnil] at hlen
      cases hlen
  unfold parseIPv4Fields
  simp only [hsplit, List.length_map, hlen, if_true, mapM_parseOctet]

/-! ### IPv6 -/

private theorem hexVal_hexChar (d : Nat) (hd : d < 16) : hexVal (hexChar d) = some d := by
  interval_cases d <;> rfl

private theorem isSome_hexVal_of_mem {g : Nat} {c : UInt8} (hc : c ∈ print 16 hexChar g) :
    (hexVal c).isSome := by
  obtain ⟨d, hd, rfl⟩ := exists_digit_of_mem_print (by decide) hc
  rw [hexVal_hexChar d hd]
  rfl

/-- The bytes of a list of groups. -/
def groupsBytes (gs : List Nat) : List UInt8 := gs.flatMap groupBytes

private theorem groupsBytes_cons (g : Nat) (gs : List Nat) :
    groupsBytes (g :: gs) = groupBytes g ++ groupsBytes gs := rfl

private theorem groupsBytes_append (gs hs : List Nat) :
    groupsBytes (gs ++ hs) = groupsBytes gs ++ groupsBytes hs := List.flatMap_append

private theorem length_groupsBytes (gs : List Nat) : (groupsBytes gs).length = 2 * gs.length := by
  induction gs with
  | nil => rfl
  | cons g gs ih =>
    rw [groupsBytes_cons, List.length_append, ih, List.length_cons, groupBytes]
    simp only [List.length_cons, List.length_nil]
    omega

private theorem groupsBytes_replicate (n : Nat) :
    groupsBytes (List.replicate n 0) = List.replicate (2 * n) 0 := by
  induction n with
  | zero => rfl
  | succ n ih =>
    rw [List.replicate_succ, groupsBytes_cons, ih]
    rfl

private theorem groupBytes_join (high low : UInt8) :
    groupBytes (high.toNat * 256 + low.toNat) = [high, low] := by
  have hlow := low.toNat_lt
  have hdiv : (high.toNat * 256 + low.toNat) / 256 = high.toNat := by omega
  have hmod : UInt8.ofNat (high.toNat * 256 + low.toNat) = low := by
    apply UInt8.toNat_inj.mp
    rw [UInt8.toNat_ofNat']
    omega
  rw [groupBytes, hdiv, hmod, UInt8.ofNat_toNat]

private theorem groups_spec (ip : List UInt8) : ∀ n, ip.length = 2 * n →
    groupsBytes (groups ip) = ip ∧ (groups ip).length = n ∧ ∀ g ∈ groups ip, g < 16 ^ 4 := by
  induction ip using groups.induct with
  | case1 high low rest ih =>
    intro n hlen
    simp only [List.length_cons] at hlen
    obtain ⟨hbytes, hcount, hsmall⟩ := ih (n - 1) (by omega)
    refine ⟨?_, ?_, ?_⟩
    · rw [groups, groupsBytes_cons, hbytes, groupBytes_join]
      rfl
    · rw [groups, List.length_cons, hcount]
      omega
    · rw [groups]
      intro g hg
      obtain rfl | hg := List.mem_cons.mp hg
      · have hhigh := high.toNat_lt
        have hlow := low.toNat_lt
        omega
      · exact hsmall g hg
  | case2 ip hshort =>
    intro n hlen
    match ip, hshort with
    | [], _ =>
      obtain rfl : n = 0 := by simpa using hlen.symm
      exact ⟨rfl, rfl, fun g hg => absurd hg List.not_mem_nil⟩
    | [b], _ =>
      simp only [List.length_cons, List.length_nil] at hlen
      omega
    | high :: low :: rest, hshort => exact absurd rfl (hshort high low rest)

/-- Reading a group that is followed by something that is no hexadecimal digit. -/
theorem takeWhile_group (g : Nat) (rest : List UInt8)
    (hrest : ∀ c ∈ rest.head?, (hexVal c).isSome = false) :
    ((print 16 hexChar g ++ rest).takeWhile fun c => (hexVal c).isSome) = print 16 hexChar g ∧
    ((print 16 hexChar g ++ rest).dropWhile fun c => (hexVal c).isSome) = rest := by
  have hall : ∀ c ∈ print 16 hexChar g, (hexVal c).isSome := fun c => isSome_hexVal_of_mem
  rw [List.takeWhile_append_of_pos hall, List.dropWhile_append_of_pos hall]
  cases rest with
  | nil => exact ⟨by simp, rfl⟩
  | cons c rest =>
    have hc := hrest c rfl
    simp [hc]

private theorem not_hex_head_colon (rest : List UInt8) :
    ∀ c ∈ (ascii ':' :: rest).head?, (hexVal c).isSome = false := by
  intro c hc
  cases hc
  rfl

private theorem length_print_group {g : Nat} (hg : g < 16 ^ 4) : ¬4 < (print 16 hexChar g).length :=
  Nat.not_lt.mpr (length_print_le (by decide) (by decide) hg)

private theorem parseIPv6Loop_last {g : Nat} (hg : g < 16 ^ 4) (room : Nat) (ip : List UInt8)
    (ellipsis : Option Nat) :
    parseIPv6Loop (room + 1) ip ellipsis (print 16 hexChar g) =
      some (ip ++ groupBytes g, ellipsis) := by
  obtain ⟨htake, hdrop⟩ := takeWhile_group g [] (by simp)
  rw [List.append_nil] at htake hdrop
  rw [parseIPv6Loop, htake, hdrop]
  simp only [if_neg (length_print_group hg), read_print (by decide) hexVal_hexChar]

private theorem parseIPv6Loop_colon {g : Nat} (hg : g < 16 ^ 4) (room : Nat) (ip : List UInt8)
    (ellipsis : Option Nat) {c : UInt8} (hc : c ≠ ascii ':') (rest : List UInt8) :
    parseIPv6Loop (room + 1) ip ellipsis (print 16 hexChar g ++ ascii ':' :: c :: rest) =
      parseIPv6Loop room (ip ++ groupBytes g) ellipsis (c :: rest) := by
  obtain ⟨htake, hdrop⟩ := takeWhile_group g _ (not_hex_head_colon (c :: rest))
  rw [parseIPv6Loop, htake, hdrop]
  simp only [if_neg (length_print_group hg), read_print (by decide) hexVal_hexChar]
  rw [if_neg (by decide), if_neg (by decide), if_neg hc]

private theorem parseIPv6Loop_ellipsis {g : Nat} (hg : g < 16 ^ 4) (room : Nat) (ip rest : List UInt8) :
    parseIPv6Loop (room + 1) ip none (print 16 hexChar g ++ ascii ':' :: ascii ':' :: rest) =
      if rest.isEmpty then some (ip ++ groupBytes g, some (ip ++ groupBytes g).length)
      else parseIPv6Loop room (ip ++ groupBytes g) (some (ip ++ groupBytes g).length) rest := by
  obtain ⟨htake, hdrop⟩ := takeWhile_group g _ (not_hex_head_colon (ascii ':' :: rest))
  rw [parseIPv6Loop, htake, hdrop]
  simp only [if_neg (length_print_group hg), read_print (by decide) hexVal_hexChar]
  rw [if_neg (by decide), if_neg (by decide)]
  simp

private theorem colonHex_cons_cons (g h : Nat) (gs : List Nat) :
    colonHex (g :: h :: gs) = print 16 hexChar g ++ ascii ':' :: colonHex (h :: gs) := by
  simp [colonHex]

/-- A text of groups begins with a digit. -/
theorem exists_cons_colonHex (g : Nat) (gs : List Nat) :
    ∃ c rest, colonHex (g :: gs) = c :: rest ∧ c ≠ ascii ':' := by
  have hfirst : ∃ rest, colonHex (g :: gs) = print 16 hexChar g ++ rest := by
    cases gs with
    | nil => exact ⟨[], by simp [colonHex]⟩
    | cons h gs => exact ⟨_, colonHex_cons_cons g h gs⟩
  obtain ⟨rest, hrest⟩ := hfirst
  cases hprint : print 16 hexChar g with
  | nil => exact absurd hprint (print_ne_nil g)
  | cons c text =>
    refine ⟨c, text ++ rest, by rw [hrest, hprint, List.cons_append], fun hc => ?_⟩
    have hhex := isSome_hexVal_of_mem (hprint ▸ List.mem_cons_self)
    rw [hc] at hhex
    cases hhex

/-- Groups up to the end of the text. -/
theorem parseIPv6Loop_colonHex (ellipsis : Option Nat) (gs : List Nat) :
    ∀ (g room : Nat) (ip : List UInt8), (∀ h ∈ g :: gs, h < 16 ^ 4) → gs.length < room →
      parseIPv6Loop room ip ellipsis (colonHex (g :: gs)) =
        some (ip ++ groupsBytes (g :: gs), ellipsis) := by
  induction gs with
  | nil =>
    intro g room ip hsmall hroom
    obtain ⟨room, rfl⟩ := Nat.exists_eq_add_one_of_ne_zero (Nat.ne_of_gt hroom)
    have htext : colonHex [g] = print 16 hexChar g := by simp [colonHex]
    rw [htext, parseIPv6Loop_last (hsmall g List.mem_cons_self), groupsBytes_cons]
    simp [groupsBytes]
  | cons h gs ih =>
    intro g room ip hsmall hroom
    rw [List.length_cons] at hroom
    obtain ⟨room, rfl⟩ := Nat.exists_eq_add_one_of_ne_zero (Nat.ne_of_gt (Nat.zero_lt_of_lt hroom))
    obtain ⟨c, rest, htext, hc⟩ := exists_cons_colonHex h gs
    rw [colonHex_cons_cons, htext, parseIPv6Loop_colon (hsmall g List.mem_cons_self) _ _ _ hc,
      ← htext, ih h room _ (fun k hk => hsmall k (List.mem_cons_of_mem _ hk)) (by omega),
      groupsBytes_cons g, List.append_assoc]

/-- Groups up to the ellipsis. -/
theorem parseIPv6Loop_colonHex_ellipsis (rest : List UInt8) (gs : List Nat) :
    ∀ (g room : Nat) (ip : List UInt8), (∀ h ∈ g :: gs, h < 16 ^ 4) → gs.length < room →
      parseIPv6Loop room ip none (colonHex (g :: gs) ++ ascii ':' :: ascii ':' :: rest) =
        let ip' := ip ++ groupsBytes (g :: gs)
        if rest.isEmpty then some (ip', some ip'.length)
        else parseIPv6Loop (room - (g :: gs).length) ip' (some ip'.length) rest := by
  induction gs with
  | nil =>
    intro g room ip hsmall hroom
    obtain ⟨room, rfl⟩ := Nat.exists_eq_add_one_of_ne_zero (Nat.ne_of_gt hroom)
    have htext : colonHex [g] = print 16 hexChar g := by simp [colonHex]
    have hbytes : groupsBytes [g] = groupBytes g := by simp [groupsBytes]
    rw [htext, parseIPv6Loop_ellipsis (hsmall g List.mem_cons_self), hbytes]
    rfl
  | cons h gs ih =>
    intro g room ip hsmall hroom
    rw [List.length_cons] at hroom
    obtain ⟨room, rfl⟩ := Nat.exists_eq_add_one_of_ne_zero (Nat.ne_of_gt (Nat.zero_lt_of_lt hroom))
    obtain ⟨c, text, htext, hc⟩ := exists_cons_colonHex h gs
    rw [colonHex_cons_cons, List.append_assoc, List.cons_append, htext, List.cons_append,
      parseIPv6Loop_colon (hsmall g List.mem_cons_self) _ _ _ hc, ← List.cons_append, ← htext,
      ih h room _ (fun k hk => hsmall k (List.mem_cons_of_mem _ hk)) (by omega),
      groupsBytes_cons g, List.append_assoc, List.length_cons (a := g), Nat.add_sub_add_right]

/-- What is said of a run: it lies within the groups, and they are zero there. -/
def IsZeroRun (gs : List Nat) (run : Nat × Nat) : Prop :=
  run.2 = 0 ∨ gs = gs.take run.1 ++ List.replicate run.2 0 ++ gs.drop (run.1 + run.2)

private theorem isZeroRun_zeroRun (gs : List Nat) (i : Nat) : IsZeroRun gs (i, zeroRun gs i) := by
  have hzeros : (gs.drop i).takeWhile (· = 0) = List.replicate (zeroRun gs i) 0 := by
    refine List.eq_replicate_iff.mpr ⟨rfl, fun g hg => ?_⟩
    simpa using List.mem_takeWhile_imp hg
  have hsplit := List.takeWhile_append_dropWhile (p := (· = 0)) (l := gs.drop i)
  have hrest : (gs.drop i).dropWhile (· = 0) = gs.drop (i + zeroRun gs i) := by
    rw [← List.drop_drop]
    conv_rhs => rw [← hsplit]
    rw [zeroRun, List.drop_left]
  right
  rw [hzeros, hrest] at hsplit
  change gs = gs.take i ++ List.replicate (zeroRun gs i) 0 ++ gs.drop (i + zeroRun gs i)
  rw [List.append_assoc, hsplit, List.take_append_drop]

private theorem isZeroRun_longestZeroRun (gs : List Nat) : IsZeroRun gs (longestZeroRun gs) := by
  unfold longestZeroRun
  generalize List.range gs.length = is
  suffices h : ∀ best, IsZeroRun gs best → IsZeroRun gs (is.foldl
      (fun best i => if 2 ≤ zeroRun gs i ∧ best.2 < zeroRun gs i then (i, zeroRun gs i) else best)
      best) from h (0, 0) (.inl rfl)
  induction is with
  | nil => exact fun best hbest => hbest
  | cons i is ih =>
    intro best hbest
    apply ih
    dsimp only
    split
    · exact isZeroRun_zeroRun gs i
    · exact hbest

private theorem expandEllipsis_groups {left right : List Nat} {zeros : Nat} (hpos : zeros ≠ 0)
    (hlen : left.length + zeros + right.length = 8) :
    expandEllipsis (groupsBytes left ++ groupsBytes right, some (groupsBytes left).length) =
      some (groupsBytes (left ++ List.replicate zeros 0 ++ right)) := by
  have hbytes : (groupsBytes left ++ groupsBytes right).length = 16 - 2 * zeros := by
    rw [List.length_append, length_groupsBytes, length_groupsBytes]
    omega
  have hfill : 16 - (16 - 2 * zeros) = 2 * zeros := by omega
  rw [expandEllipsis, if_pos (by omega), List.take_left, List.drop_left, hbytes, hfill,
    groupsBytes_append, groupsBytes_append, groupsBytes_replicate]

/-- Every character of the text is a hexadecimal digit or a colon. -/
theorem mem_colonHex {gs : List Nat} {c : UInt8} (hc : c ∈ colonHex gs) :
    (hexVal c).isSome ∨ c = ascii ':' := by
  induction gs with
  | nil => cases hc
  | cons g gs ih =>
    cases gs with
    | nil =>
      left
      exact isSome_hexVal_of_mem (g := g) (by simpa [colonHex] using hc)
    | cons h gs =>
      rw [colonHex_cons_cons] at hc
      obtain hc | hc := List.mem_append.mp hc
      · exact .inl (isSome_hexVal_of_mem hc)
      · obtain hc | hc := List.mem_cons.mp hc
        · exact .inr hc
        · exact ih hc

private theorem mem_appendTo6 {gs : List Nat} {c : UInt8} (hc : c ∈ appendTo6 gs) :
    (hexVal c).isSome ∨ c = ascii ':' := by
  simp only [appendTo6] at hc
  split at hc
  · exact mem_colonHex hc
  · obtain hc | hc := List.mem_append.mp hc
    · exact mem_colonHex hc
    · obtain hc | hc := List.mem_cons.mp hc
      · exact .inr hc
      · obtain hc | hc := List.mem_cons.mp hc
        · exact .inr hc
        · exact mem_colonHex hc

private theorem colon_mem_appendTo6 {gs : List Nat} (hlen : gs.length = 8) :
    ascii ':' ∈ appendTo6 gs := by
  simp only [appendTo6]
  split
  · match gs, hlen with
    | g :: h :: gs, _ =>
      rw [colonHex_cons_cons]
      simp
  · simp

private theorem take_two_ne {c : UInt8} (hc : c ≠ ascii ':') (rest : List UInt8) :
    (c :: rest).take 2 ≠ [ascii ':', ascii ':'] := by
  intro htake
  rw [List.take_succ_cons] at htake
  exact hc (List.cons.inj htake).1

/-- What follows the ellipsis, if anything does. -/
theorem parseIPv6Loop_right {right : List Nat} (hsmall : ∀ g ∈ right, g < 16 ^ 4) (room : Nat)
    (hroom : right.length ≤ room) (ip : List UInt8) (n : Nat) :
    (if (colonHex right).isEmpty then some (ip, some n)
      else parseIPv6Loop room ip (some n) (colonHex right)) =
      some (ip ++ groupsBytes right, some n) := by
  cases right with
  | nil => simp [colonHex, groupsBytes]
  | cons g right =>
    obtain ⟨c, rest, htext, -⟩ := exists_cons_colonHex g right
    have hne : (colonHex (g :: right)).isEmpty = false := by
      rw [htext]
      rfl
    rw [hne]
    exact parseIPv6Loop_colonHex (some n) right g room ip hsmall hroom

private theorem parseIPv6_appendTo6 {gs : List Nat} (hlen : gs.length = 8)
    (hsmall : ∀ g ∈ gs, g < 16 ^ 4) : parseIPv6 (appendTo6 gs) = some (groupsBytes gs) := by
  have hzone : ascii '%' ∉ appendTo6 gs := by
    intro hmem
    obtain hhex | heq := mem_appendTo6 hmem
    · exact absurd hhex (by decide)
    · exact absurd heq (by decide)
  rw [parseIPv6, if_neg hzone]
  simp only [appendTo6]
  split
  case isTrue =>
    obtain ⟨g, gs, rfl⟩ := List.exists_cons_of_length_eq_add_one hlen
    obtain ⟨c, rest, htext, hc⟩ := exists_cons_colonHex g gs
    have hroom : gs.length < 8 := by
      rw [← hlen]
      exact Nat.lt_succ_self _
    rw [if_neg (htext ▸ take_two_ne hc rest),
      parseIPv6Loop_colonHex none gs g 8 [] hsmall hroom, Option.bind_some, List.nil_append,
      expandEllipsis, if_pos (by rw [length_groupsBytes, hlen])]
  case isFalse hpos =>
    generalize hrun : longestZeroRun gs = run at hpos ⊢
    have hsplit := (isZeroRun_longestZeroRun gs).resolve_left (hrun ▸ hpos)
    rw [hrun] at hsplit
    generalize hleft : gs.take run.1 = left at hsplit ⊢
    generalize hright : gs.drop (run.1 + run.2) = right at hsplit ⊢
    have hsum : left.length + run.2 + right.length = 8 := by
      rw [← hlen, hsplit, List.length_append, List.length_append, List.length_replicate]
    have hexpand := expandEllipsis_groups hpos hsum
    have hsmallLeft : ∀ g ∈ left, g < 16 ^ 4 := fun g hg =>
      hsmall g (hleft ▸ hg |> List.mem_of_mem_take)
    have hsmallRight : ∀ g ∈ right, g < 16 ^ 4 := fun g hg =>
      hsmall g (hright ▸ hg |> List.mem_of_mem_drop)
    rw [hsplit]
    cases left with
    | nil =>
      have htake : (colonHex [] ++ ascii ':' :: ascii ':' :: colonHex right).take 2 =
          [ascii ':', ascii ':'] := rfl
      have hdrop : (colonHex [] ++ ascii ':' :: ascii ':' :: colonHex right).drop 2 =
          colonHex right := rfl
      have hloop := parseIPv6Loop_right hsmallRight 8 (by omega) (groupsBytes [])
        (groupsBytes []).length
      rw [if_pos htake, hdrop, ← hexpand]
      split at hloop
      case isTrue hempty =>
        rw [if_pos hempty, ← Option.some.inj hloop]
        rfl
      case isFalse hne =>
        rw [if_neg hne]
        change (parseIPv6Loop 8 (groupsBytes []) (some (groupsBytes []).length)
          (colonHex right)).bind expandEllipsis = _
        rw [hloop, Option.bind_some]
    | cons g left =>
      obtain ⟨c, rest, htext, hc⟩ := exists_cons_colonHex g left
      have hroom : left.length < 8 := by
        rw [List.length_cons] at hsum
        omega
      rw [if_neg (by rw [htext, List.cons_append]; exact take_two_ne hc _),
        parseIPv6Loop_colonHex_ellipsis (colonHex right) left g 8 [] hsmallLeft hroom,
        List.nil_append, parseIPv6Loop_right hsmallRight _ (by omega), Option.bind_some]
      exact hexpand

/-! ### The two together -/

/-- The first dot, colon or percent sign, when there is one kind of them only. -/
theorem find?_sep {s : List UInt8} {sep : UInt8} (hmem : sep ∈ s)
    (hsep : sep = ascii '.' ∨ sep = ascii ':' ∨ sep = ascii '%')
    (hother : ∀ c ∈ s, (c = ascii '.' ∨ c = ascii ':' ∨ c = ascii '%') → c = sep) :
    (s.find? fun c => c = ascii '.' ∨ c = ascii ':' ∨ c = ascii '%') = some sep := by
  cases hfind : s.find? fun c => c = ascii '.' ∨ c = ascii ':' ∨ c = ascii '%' with
  | none =>
    have hno := List.find?_eq_none.mp hfind sep hmem
    exact absurd hsep (by simpa using hno)
  | some c =>
    have hc := List.find?_some hfind
    rw [hother c (List.mem_of_find?_eq_some hfind) (by simpa using hc)]

/-- Every character of the text is a decimal digit or a dot. -/
theorem mem_dotted {ip : List UInt8} {c : UInt8} (hc : c ∈ dotted ip) :
    (ascii '0' ≤ c ∧ c ≤ ascii '9') ∨ c = ascii '.' := by
  induction ip with
  | nil => cases hc
  | cons b ip ih =>
    cases ip with
    | nil =>
      left
      exact mem_itoa (n := b.toNat) (by simpa [dotted] using hc)
    | cons b' ip =>
      have htext : dotted (b :: b' :: ip) = itoa b.toNat ++ ascii '.' :: dotted (b' :: ip) := by
        simp [dotted]
      rw [htext] at hc
      obtain hc | hc := List.mem_append.mp hc
      · exact .inl (mem_itoa hc)
      · obtain hc | hc := List.mem_cons.mp hc
        · exact .inr hc
        · exact ih hc

private theorem parseIP_dotted {ip : List UInt8} (hlen : ip.length = 4) :
    parseIP (dotted ip) = some (v4InV6Prefix ++ ip) := by
  have hdot : ascii '.' ∈ dotted ip := by
    match ip, hlen with
    | b :: b' :: ip, _ => simp [dotted]
  have hfind := find?_sep hdot (.inl rfl) fun c hc hsep => by
    obtain hdigit | hdot := mem_dotted hc
    · obtain rfl | rfl | rfl := hsep <;> exact absurd hdigit (by decide)
    · exact hdot
  rw [parseIP, hfind]
  simp [parseIPv4Fields_dotted hlen]

private theorem parseIP_appendTo6 {gs : List Nat} (hlen : gs.length = 8)
    (hsmall : ∀ g ∈ gs, g < 16 ^ 4) : parseIP (appendTo6 gs) = some (groupsBytes gs) := by
  have hfind := find?_sep (colon_mem_appendTo6 hlen) (.inr (.inl rfl)) fun c hc hsep => by
    obtain hdigit | hcolon := mem_appendTo6 hc
    · obtain rfl | rfl | rfl := hsep <;> exact absurd hdigit (by decide)
    · exact hcolon
  rw [parseIP, hfind]
  simp only [parseIPv6_appendTo6 hlen hsmall]
  rfl

theorem to4_spec {ip p4 : List UInt8} (h : to4 ip = some p4) :
    p4.length = 4 ∧ to16 ip = some (v4InV6Prefix ++ p4) := by
  unfold to4 at h
  split at h
  case isTrue hlen =>
    cases h
    exact ⟨hlen, if_pos hlen⟩
  case isFalse hlen =>
    obtain ⟨⟨h16, hprefix⟩, heq⟩ := Option.ite_none_right_eq_some.mp h
    cases heq
    refine ⟨by rw [List.length_drop, h16], ?_⟩
    rw [to16, if_neg hlen, if_pos h16, ← hprefix, List.take_append_drop]

/-- The printed form of an address parses to it. -/
theorem parseIP_ipString {ip : List UInt8} (hlen : ip.length = 4 ∨ ip.length = 16) :
    parseIP (ipString ip) = to16 ip := by
  unfold ipString
  rw [if_neg (by omega), if_neg (by omega)]
  cases h4 : to4 ip with
  | some p4 =>
    obtain ⟨hp4, h16⟩ := to4_spec h4
    rw [h16]
    exact parseIP_dotted hp4
  | none =>
    have hlong : ip.length = 2 * 8 := by
      obtain hlen | hlen := hlen
      · rw [to4, if_pos hlen] at h4
        cases h4
      · exact hlen
    obtain ⟨hbytes, hcount, hsmall⟩ := groups_spec ip 8 hlong
    have h16 : to16 ip = some ip := by rw [to16, if_neg (by omega), if_pos hlong]
    rw [h16]
    conv_rhs => rw [← hbytes]
    exact parseIP_appendTo6 hcount hsmall

theorem noBracket_ipString {ip : List UInt8} (hlen : ip.length = 4 ∨ ip.length = 16) :
    NoBracket (ipString ip) := by
  unfold ipString
  rw [if_neg (by omega), if_neg (by omega)]
  cases to4 ip with
  | some p4 =>
    refine ⟨fun hmem => ?_, fun hmem => ?_⟩ <;>
      exact absurd (mem_dotted hmem) (by decide)
  | none =>
    refine ⟨fun hmem => ?_, fun hmem => ?_⟩ <;>
      exact absurd (mem_appendTo6 hmem) (by decide)

private theorem length_mapM_parseOctet {fields : List (List UInt8)} :
    ∀ {ip : List UInt8}, fields.mapM parseOctet = some ip → ip.length = fields.length := by
  induction fields with
  | nil =>
    intro ip h
    cases h
    rfl
  | cons field fields ih =>
    intro ip h
    rw [List.mapM_cons] at h
    obtain ⟨b, -, h⟩ := Option.bind_eq_some_iff.mp h
    obtain ⟨bs, hbs, h⟩ := Option.bind_eq_some_iff.mp h
    cases h
    rw [List.length_cons, List.length_cons, ih hbs]

private theorem length_expandEllipsis {parsed : List UInt8 × Option Nat} {ip : List UInt8}
    (h : expandEllipsis parsed = some ip) : ip.length = 16 := by
  obtain ⟨bytes, _ | n⟩ := parsed
  · obtain ⟨hlen, heq⟩ := Option.ite_none_right_eq_some.mp h
    cases heq
    exact hlen
  · obtain ⟨hlen, heq⟩ := Option.ite_none_right_eq_some.mp h
    cases heq
    simp only [List.length_append, List.length_take, List.length_drop, List.length_replicate]
    omega

private theorem length_parseIPv6 {s ip : List UInt8} (h : parseIPv6 s = some ip) : ip.length = 16 := by
  unfold parseIPv6 at h
  split at h
  · cases h
  · split at h
    · split at h
      · cases h
        rfl
      · obtain ⟨parsed, -, hexpand⟩ := Option.bind_eq_some_iff.mp h
        exact length_expandEllipsis hexpand
    · obtain ⟨parsed, -, hexpand⟩ := Option.bind_eq_some_iff.mp h
      exact length_expandEllipsis hexpand

/-- What `ParseIP` returns has 16 bytes. -/
theorem length_parseIP {s ip : List UInt8} (h : parseIP s = some ip) : ip.length = 16 := by
  unfold parseIP at h
  split at h
  · cases h
  · split at h
    · obtain ⟨ip4, hfields, rfl⟩ := Option.map_eq_some_iff.mp h
      obtain ⟨hcount, hmap⟩ := Option.ite_none_right_eq_some.mp hfields
      rw [List.length_append, length_mapM_parseOctet hmap, hcount]
      rfl
    · split at h
      · exact length_parseIPv6 h
      · cases h

end tun2proxy.go
