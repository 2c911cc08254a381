import Tun2Proxy.Udp.Layout

open tun2proxy.go

namespace tun2proxy.udppackage

/-- What a parser of the wire format owes its callers on one input: no panic, the
    fields of a well-formed datagram, and an error for every other input. -/
structure MeetsFormat (data : List UInt8) : Prop where
  no_panic : unpackUDPData (.ofBytes data) ≠ .panic
  success_iff : ∀ fields, unpackUDPData (.ofBytes data) = .ret (.ok fields) ↔
    ∃ rest, WireForm data fields rest
  error_otherwise : (¬ ∃ fields rest, WireForm data fields rest) →
    ∃ e, unpackUDPData (.ofBytes data) = .ret (.error e)

private theorem exists_wireForm_iff_fits (data : List UInt8) :
    (∃ fields rest, WireForm data fields rest) ↔ headerLen data + payloadLen data ≤ data.length := by
  constructor
  · rintro ⟨fields, hform⟩
    exact ((exists_wireForm_iff data fields).mp hform).1
  · intro hfits
    exact ⟨fieldsOf data, (exists_wireForm_iff data _).mpr ⟨hfits, rfl⟩⟩

/-- The parser keeps the format's contract on exactly the inputs that are cut
    off by the check up front or that hold everything their lengths announce.
    A truncated input of four bytes or more panics. -/
theorem unpackUDPData_meetsFormat_iff (data : List UInt8) :
    MeetsFormat data ↔ data.length < 4 ∨ headerLen data + payloadLen data ≤ data.length := by
  constructor
  · intro hmeets
    by_contra hnot
    push Not at hnot
    obtain ⟨hlong, hshort⟩ := hnot
    exact hmeets.no_panic (unpackUDPData_panic hlong fun _ => hshort)
  · rintro (hshort | hfits)
    · have hrun := @unpackUDPData_short (.ofBytes data) hshort
      have hten : 10 ≤ headerLen data := by
        have := srcIdx_le_lenIdx data
        have := three_le_srcIdx data
        unfold headerLen
        omega
      have hform : ¬ ∃ fields rest, WireForm data fields rest := by
        rw [exists_wireForm_iff_fits]
        omega
      refine ⟨by simp [hrun], fun fields => ?_, fun _ => ⟨_, hrun⟩⟩
      rw [hrun]
      constructor
      · intro h
        cases h
      · intro h
        exact absurd ⟨fields, h⟩ hform
    · have hrun : unpackUDPData (.ofBytes data) = .ret (.ok (fieldsOf data)) :=
        @unpackUDPData_success (.ofBytes data) (by change headerLen data ≤ data.length; omega) hfits
      refine ⟨by simp [hrun], fun fields => ?_, fun hnone => ?_⟩
      · rw [hrun, exists_wireForm_iff]
        simp only [Outcome.ret.injEq, Except.ok.injEq]
        constructor
        · rintro rfl
          exact ⟨hfits, rfl⟩
        · rintro ⟨_, rfl⟩
          rfl
      · exact absurd ((exists_wireForm_iff_fits data).mpr hfits) hnone

/-- Four bytes announcing a four-byte target IP: only three follow, and the slice that is
    to hold the address goes past the capacity. -/
theorem unpackUDPData_truncated_panics :
    unpackUDPData (.ofBytes [4, 10, 0, 0]) = .panic ∧ ¬ MeetsFormat [4, 10, 0, 0] := by
  have hpanic : unpackUDPData (.ofBytes [4, 10, 0, 0]) = .panic := by decide
  exact ⟨hpanic, fun hmeets => hmeets.no_panic hpanic⟩

end tun2proxy.udppackage
