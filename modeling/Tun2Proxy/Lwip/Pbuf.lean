import Tun2Proxy.Lib.Memory
import Tun2Proxy.Tcp.State

open tun2proxy.memory

namespace tun2proxy.core

/-- `struct pbuf`. The payload is the `len` bytes that it points to. -/
structure PbufSeg where
  payload : List UInt8
  tot_len : UInt16
  len_lt : payload.length < UInt16.size

def PbufSeg.len (q : PbufSeg) : UInt16 := UInt16.ofNat q.payload.length

@[simp] theorem PbufSeg.toNat_len (q : PbufSeg) : q.len.toNat = q.payload.length :=
  UInt16.toNat_ofNat_of_lt' q.len_lt

/-- The payloads of the pbufs linked by `next`. -/
def chainBytes (p : List PbufSeg) : List UInt8 := p.flatMap PbufSeg.payload

@[simp] theorem chainBytes_nil : chainBytes [] = [] := rfl

@[simp] theorem chainBytes_cons (q : PbufSeg) (next : List PbufSeg) :
    chainBytes (q :: next) = q.payload ++ chainBytes next := rfl

/-- lwIP's rule for a chain: every `tot_len` is the sum of the lengths from there on. -/
def TotLens : List PbufSeg → Prop
  | [] => True
  | q :: next => q.tot_len.toNat = (chainBytes (q :: next)).length ∧ TotLens next

/-- A pbuf with the ones behind it. -/
structure PbufChain where
  first : PbufSeg
  next : List PbufSeg
  rule : TotLens (first :: next)

namespace PbufChain

def segs (p : PbufChain) : List PbufSeg := p.first :: p.next

def bytes (p : PbufChain) : List UInt8 := chainBytes p.segs

theorem tot_len_eq (p : PbufChain) : p.first.tot_len.toNat = p.bytes.length := p.rule.1

/-- The content of the chain, as the callbacks' model takes it. -/
def contents (p : PbufChain) : Pbuf := ⟨p.bytes, p.tot_len_eq ▸ p.first.tot_len.toNat_lt⟩

end PbufChain

/-- `pbuf_copy_partial` into the buffer at `dataptr`; `left` is what it has copied so far.
    `none` is a write past the end of the buffer. -/
def pbuf_copy_partial (buf : List UInt8) (len offset left : UInt16) :
    List PbufSeg → Option (List UInt8)
  | [] => some buf
  | q :: next =>
    if len = 0 then some buf
    else if offset ≠ 0 ∧ offset ≥ q.len then
      -- nothing from this pbuf
      pbuf_copy_partial buf len (offset - q.len) left next
    else
      let n := if q.len - offset > len then len else q.len - offset
      match copyAt buf left.toNat ((q.payload.drop offset.toNat).take n.toNat) with
      | some buf => pbuf_copy_partial buf (len - n) 0 (left + n) next
      | none => none

/-- The whole of a chain is copied in one piece. -/
theorem pbuf_copy_partial_eq (p : List PbufSeg) : ∀ (buf : List UInt8) (left : UInt16) {len : UInt16},
    len.toNat = (chainBytes p).length → left.toNat + len.toNat ≤ buf.length →
    left.toNat + len.toNat < UInt16.size →
    pbuf_copy_partial buf len 0 left p = copyAt buf left.toNat (chainBytes p) := by
  induction p with
  | nil =>
    intro buf left len hlen hfits _
    unfold pbuf_copy_partial
    rw [chainBytes_nil, copyAt_nil (by omega)]
  | cons q next ih =>
    intro buf left len hlen hfits hsize
    unfold pbuf_copy_partial
    by_cases hzero : len = 0
    · have hnil : chainBytes (q :: next) = [] := by
        rw [← List.length_eq_zero_iff, ← hlen, hzero]
        rfl
      rw [if_pos hzero, hnil, copyAt_nil (by omega)]
    · have hsum : len.toNat = q.payload.length + (chainBytes next).length := by
        rw [hlen, chainBytes_cons, List.length_append]
      have hle : q.len ≤ len := by
        rw [UInt16.le_iff_toNat_le, PbufSeg.toNat_len]
        omega
      have hpiece : (q.payload.drop (0 : UInt16).toNat).take q.len.toNat = q.payload := by
        rw [PbufSeg.toNat_len]
        simp
      simp only [hzero, if_false, ne_eq, not_true_eq_false, false_and, UInt16.sub_zero,
        gt_iff_lt, UInt16.not_lt.mpr hle, hpiece]
      have hcopy := copyAt_of_le buf left.toNat q.payload (by omega)
      have hlen' : (len - q.len).toNat = (chainBytes next).length := by
        rw [UInt16.toNat_sub_of_le _ _ hle, PbufSeg.toNat_len]
        omega
      have hleft' : (left + q.len).toNat = left.toNat + q.payload.length := by
        rw [UInt16.toNat_add, PbufSeg.toNat_len]
        exact Nat.mod_eq_of_lt (Nat.lt_of_le_of_lt (by omega) hsize)
      have hkept := length_of_copyAt hcopy
      rw [hcopy]
      dsimp only
      rw [ih _ _ hlen' (by omega) (by omega), hleft', copyAt_append hcopy, chainBytes_cons]

/-- `PBUF_POOL_BUFSIZE`, without alignment. -/
def pbufPoolBufsize : Nat := 1460 + 40 + 0 + 14

/-- `pbuf_alloc(PBUF_RAW, rem, PBUF_POOL)`, where the memory for byte `i` has the content
    `junk i`: a chain of pbufs of at most `PBUF_POOL_BUFSIZE` bytes. -/
def pbuf_alloc (junk : Nat → UInt8) (start rem : Nat) : List PbufSeg :=
  let qlen := min rem pbufPoolBufsize
  let q : PbufSeg :=
    { payload := (List.range' start qlen).map junk
      tot_len := UInt16.ofNat rem
      len_lt := by
        rw [List.length_map, List.length_range']
        exact Nat.lt_of_le_of_lt (Nat.min_le_right _ _) (by decide) }
  if 0 < rem - qlen then q :: pbuf_alloc junk (start + qlen) (rem - qlen) else [q]
termination_by rem
decreasing_by
  have hpos : 0 < pbufPoolBufsize := by decide
  omega

theorem length_pbuf_alloc (junk : Nat → UInt8) (start rem : Nat) :
    (chainBytes (pbuf_alloc junk start rem)).length = rem := by
  fun_induction pbuf_alloc junk start rem with
  | case1 start rem qlen q hmore ih =>
    rw [chainBytes_cons, List.length_append, ih]
    simp only [q, List.length_map, List.length_range']
    omega
  | case2 start rem qlen q hlast =>
    simp only [chainBytes_cons, chainBytes_nil, List.append_nil, q, List.length_map,
      List.length_range']
    omega

/-- The loop of `pbuf_take`, with what is left to copy. The source asserts that the chain does
    not end before. -/
def takeLoop : List PbufSeg → List UInt8 → List PbufSeg
  | p, [] => p
  | [], _ :: _ => []
  | q :: next, b :: data =>
    { q with
      payload := (b :: data).take q.payload.length ++ q.payload.drop (b :: data).length
      len_lt := by
        refine Nat.lt_of_le_of_lt ?_ q.len_lt
        rw [List.length_append, List.length_take, List.length_drop]
        omega } :: takeLoop next ((b :: data).drop q.payload.length)

/-- `pbuf_take`. A chain that is too short is left as it is. -/
def pbuf_take (p : List PbufSeg) (data : List UInt8) : List PbufSeg :=
  match p with
  | [] => []
  | q :: next => if data.length ≤ q.tot_len.toNat then takeLoop (q :: next) data else p

theorem chainBytes_takeLoop (p : List PbufSeg) : ∀ {data : List UInt8},
    (chainBytes p).length = data.length → chainBytes (takeLoop p data) = data := by
  induction p with
  | nil =>
    intro data hlen
    have hnil : data = [] := List.length_eq_zero_iff.mp hlen.symm
    rw [hnil, takeLoop, chainBytes_nil]
  | cons q next ih =>
    intro data hlen
    cases data with
    | nil =>
      rw [takeLoop]
      exact List.length_eq_zero_iff.mp hlen
    | cons b data =>
      rw [chainBytes_cons, List.length_append] at hlen
      have hfull : q.payload.drop (b :: data).length = [] := List.drop_of_length_le (by omega)
      rw [takeLoop, chainBytes_cons, ih (by rw [List.length_drop]; omega)]
      dsimp only
      rw [hfull, List.append_nil, List.take_append_drop]

end tun2proxy.core
