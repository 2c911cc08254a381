import Tun2Proxy.Go.Slice
import Tun2Proxy.Lib.Memory

open tun2proxy.memory

namespace tun2proxy.go

/-- An `io.Reader` with the pieces in which it is going to yield its bytes, before EOF. It may
    return EOF together with the last of them, or by itself. -/
structure Reader where
  chunks : List (List UInt8)
  eager : Bool

inductive ReadErr where
  | EOF
  | unexpectedEOF
  | shortBuffer
  | other (text : String)
  deriving DecidableEq, Repr

namespace Reader

/-- The bytes that are still to come. -/
def data (r : Reader) : List UInt8 := r.chunks.flatten

/-- `Read` into `n` bytes. -/
def read (r : Reader) (n : Nat) : List UInt8 × Option ReadErr × Reader :=
  match r.chunks with
  | [] => ([], some .EOF, r)
  | chunk :: rest =>
    if chunk.length ≤ n then
      (chunk, if r.eager ∧ rest.isEmpty then some .EOF else none, { r with chunks := rest })
    else (chunk.take n, none, { r with chunks := chunk.drop n :: rest })

/-- What a call of `Read` does: it yields the next bytes, and it empties a piece unless it
    fills the buffer; an error says that there is nothing more. -/
theorem read_eq {r r' : Reader} {n : Nat} {got : List UInt8} {err : Option ReadErr}
    (h : r.read n = (got, err, r')) :
    r.data = got ++ r'.data ∧ got.length ≤ n ∧ r'.chunks.length ≤ r.chunks.length ∧
      (err = none → r'.chunks.length < r.chunks.length ∨ got.length = n) ∧
      (err ≠ none → r'.data = []) := by
  unfold read at h
  split at h
  case _ hchunks =>
    cases h
    refine ⟨rfl, Nat.zero_le _, Nat.le_refl _, (fun herr => nomatch herr), fun _ => ?_⟩
    rw [data, hchunks, List.flatten_nil]
  case _ chunk rest hchunks =>
    split at h
    case isTrue hfits =>
      cases h
      refine ⟨by rw [data, hchunks]; rfl, hfits, by simp [hchunks], fun _ => .inl (by simp [hchunks]),
        fun herr => ?_⟩
      have hlast : rest = [] := by
        by_contra hne
        simp [hne] at herr
      rw [data, hlast, List.flatten_nil]
    case isFalse hlong =>
      cases h
      refine ⟨?_, List.length_take_le _ _, by simp [hchunks], fun _ => .inr ?_, fun herr => ?_⟩
      · rw [data, hchunks, data, List.flatten_cons, List.flatten_cons, ← List.append_assoc,
          List.take_append_drop]
      · rw [List.length_take]
        omega
      · exact absurd rfl herr

end Reader

/-- Writing into the backing array of a slice. -/
def Slice.write (s : Slice) (i : Nat) (data : List UInt8) : Outcome Slice :=
  match h : copyAt s.mem i data with
  | none => .panic
  | some mem => .ret ⟨mem, s.len, by rw [length_of_copyAt h]; exact s.len_le⟩

private theorem Slice.write_of_copyAt {s : Slice} {i : Nat} {data mem : List UInt8}
    (h : copyAt s.mem i data = some mem) :
    ∃ s', s.write i data = .ret s' ∧ s'.mem = mem ∧ s'.len = s.len := by
  unfold Slice.write
  split
  case _ hnone => cases h.symm.trans hnone
  case _ mem' hsome =>
    cases h.symm.trans hsome
    exact ⟨_, rfl, rfl, rfl⟩

/-- The buffer after a call of `ReadFull`, with how many bytes were read, and the reader. -/
structure ReadFullRet where
  b : Slice
  n : Nat
  err : Option ReadErr
  r : Reader

/-- The loop of `io.ReadAtLeast` that reads up to `m` bytes into `b` from `i` on; `n` of them
    have been read. -/
def readLoop (r : Reader) (b : Slice) (i m n : Nat) : Outcome ReadFullRet :=
  if n < m then
    match _hread : r.read (m - n) with
    | (got, err, r') =>
      match b.write (i + n) got with
      | .panic => .panic
      | .ret b' =>
        if err = none then readLoop r' b' i m (n + got.length)
        else .ret ⟨b', n + got.length, err, r'⟩
  else .ret ⟨b, n, none, r⟩
termination_by r.chunks.length + if n < m then 1 else 0
decreasing_by
  obtain ⟨-, -, hle, hprogress, -⟩ := Reader.read_eq _hread
  have hmore := hprogress ‹_›
  split <;> omega

/-- `io.ReadFull(r, b[i:j])`. -/
def readFull (r : Reader) (b : Slice) (i j : Nat) : Outcome ReadFullRet := do
  let dest ← b.slice i j
  let ret ← readLoop r b i dest.len 0
  if dest.len ≤ ret.n then
    return { ret with err := none }
  else if 0 < ret.n ∧ ret.err = some .EOF then
    return { ret with err := some .unexpectedEOF }
  else
    return ret

/-- The loop puts what is left of the reader's bytes, up to `m`, into the buffer, and stops
    early only with an error. -/
theorem readLoop_eq (r : Reader) (b : Slice) (i m n : Nat) (hn : n ≤ m)
    (hfits : i + m ≤ b.mem.length) : ∃ ret, readLoop r b i m n = .ret ret ∧
      copyAt b.mem (i + n) (r.data.take (m - n)) = some ret.b.mem ∧ ret.b.len = b.len ∧
      ret.n = n + (r.data.take (m - n)).length ∧ ret.r.data = r.data.drop (m - n) ∧
      (ret.n < m → ret.err ≠ none) := by
  induction r, b, n using readLoop.induct i m with
  | case1 r b n hlt got err r' hread hpanic =>
    -- what was read fits the buffer
    obtain ⟨-, hgot, -⟩ := Reader.read_eq hread
    obtain ⟨b', hwrite, -⟩ := Slice.write_of_copyAt (copyAt_of_le b.mem (i + n) got
      (by omega))
    cases hpanic.symm.trans hwrite
  | case2 r b n hlt got r' b' hwrite hread ih =>
    obtain ⟨hdata, hgot, -⟩ := Reader.read_eq hread
    have hcopy := copyAt_of_le b.mem (i + n) got (by omega)
    obtain ⟨b'', hwrite', hmem, hlen⟩ := Slice.write_of_copyAt hcopy
    cases hwrite.symm.trans hwrite'
    rw [← hmem] at hcopy
    obtain ⟨ret, hret, hrest, hretlen, hcount, hleft, herr⟩ :=
      ih (by omega) (by rw [length_of_copyAt hcopy]; exact hfits)
    have hsub : m - (n + got.length) = m - n - got.length := by omega
    have htake : r.data.take (m - n) = got ++ r'.data.take (m - (n + got.length)) := by
      rw [hdata, List.take_append, List.take_of_length_le hgot, hsub]
    refine ⟨ret, ?_, ?_, by rw [hretlen, hlen], ?_, ?_, herr⟩
    · rw [readLoop, if_pos hlt, hread]
      simp only [hwrite]
      exact hret
    · rw [htake, ← copyAt_append hcopy, Nat.add_assoc]
      exact hrest
    · rw [hcount, htake, List.length_append, Nat.add_assoc]
    · rw [hleft, hdata, List.drop_append, List.drop_of_length_le hgot, hsub, List.nil_append]
  | case3 r b n hlt got err r' hread b' hwrite herr =>
    obtain ⟨hdata, hgot, -, -, hend⟩ := Reader.read_eq hread
    have hnil := hend herr
    rw [hnil, List.append_nil] at hdata
    have hcopy := copyAt_of_le b.mem (i + n) got (by omega)
    obtain ⟨b'', hwrite', hmem, hlen⟩ := Slice.write_of_copyAt hcopy
    cases hwrite.symm.trans hwrite'
    refine ⟨⟨b', n + got.length, err, r'⟩, ?_, ?_, hlen, ?_, ?_, fun _ => herr⟩
    · rw [readLoop, if_pos hlt, hread]
      simp only [hwrite, if_neg herr]
    · rw [hdata, List.take_of_length_le hgot, hmem]
      exact hcopy
    · rw [hdata, List.take_of_length_le hgot]
    · rw [hnil, hdata, List.drop_of_length_le hgot]
  | case4 r b n hge =>
    have hzero : m - n = 0 := by omega
    refine ⟨⟨b, n, none, r⟩, by rw [readLoop, if_neg hge], ?_, rfl, ?_, ?_, fun h => absurd h hge⟩
    · rw [hzero, List.take_zero]
      exact copyAt_nil (by omega)
    · rw [hzero, List.take_zero]
      rfl
    · rw [hzero, List.drop_zero]

/-- `ReadFull` puts the next bytes into its part of the buffer; there is an error exactly if
    they do not fill it. -/
theorem readFull_eq (r : Reader) (b : Slice) {i j : Nat} (hij : i ≤ j) (hj : j ≤ b.mem.length) :
    ∃ ret, readFull r b i j = .ret ret ∧
      copyAt b.mem i (r.data.take (j - i)) = some ret.b.mem ∧ ret.b.len = b.len ∧
      ret.r.data = r.data.drop (j - i) ∧ (ret.err = none ↔ j - i ≤ r.data.length) := by
  obtain ⟨ret, hloop, hcopy, hlen, hcount, hleft, herr⟩ :=
    readLoop_eq r b i (j - i) 0 (Nat.zero_le _) (by omega)
  rw [Nat.sub_zero] at hcopy hcount hleft
  rw [List.length_take, Nat.zero_add] at hcount
  unfold readFull
  rw [Slice.slice_of_le hij hj, Outcome.ret_bind, hloop, Outcome.ret_bind]
  dsimp only
  split_ifs with hfull hsome
  · exact ⟨_, rfl, hcopy, hlen, hleft, by omega, fun _ => rfl⟩
  · refine ⟨_, rfl, hcopy, hlen, hleft, (fun h => nomatch h), fun hle => ?_⟩
    omega
  · refine ⟨_, rfl, hcopy, hlen, hleft, fun h => absurd h (herr (by omega)), fun hle => ?_⟩
    omega

end tun2proxy.go
