import FidoTouch.Ctap.NextAssertions
import FidoTouch.Ctap.Upload

/-! Fragments that are refused because nobody has authorized them: what such a request leaves behind, and which runs can tell
that it was sent. -/
namespace FidoTouch.Ctap
open FidoTouch.Program Handler FidoTouch.Storage

section
variable [Sdk] [ObjectLibrary] {d : Device} {p : LargeBlobsParams} {fragment : Bytes}

/-- A pinUvAuthParam of the protocol's length that verifies under a token for large blobs. -/
def BlobsAuthorized (p : LargeBlobsParams) (fragment : Bytes) (d : Device) : Prop :=
  ∃ param, p.pinUvAuthParam = some param ∧ (p.pinUvAuthProtocol = 1 ∨ p.pinUvAuthProtocol = 2) ∧
    (param.length = if p.pinUvAuthProtocol = 1 then 16 else 32) ∧
    verify p.pinUvAuthProtocol.toUInt8 d.paut.data (largeBlobsVerifyData p fragment) param = true ∧
    d.paut.permissions &&& permissionLbw ≠ 0

omit [ObjectLibrary] in
private theorem authorize_refuses (h : ¬ BlobsAuthorized p fragment d) : Refuses (largeBlobsAuthorize p fragment) d := by
  unfold largeBlobsAuthorize
  refine refuses_guarded fun hparam => refuses_guarded fun _ => refuses_guarded fun hprotocol => refuses_guarded fun hlength => ?_
  obtain ⟨param, hparam⟩ := Option.ne_none_iff_exists'.mp hparam
  rw [hparam, Option.getD_some, not_not] at hlength
  rw [Refuses, bind_eq (get_run d)]
  refine refuses_guarded fun hverified => refuses_refuseIf ?_ _ d
  by_contra hpermitted
  refine h ⟨param, hparam, ?_, hlength, by simpa [hparam] using hverified, hpermitted⟩
  by_contra hneither
  exact hprotocol (not_or.mp hneither)

omit [ObjectLibrary] in
/-- At most the counters of the staging have moved. -/
private theorem largeBlobsSet_unauthorized (h : ¬ BlobsAuthorized p fragment d) : ∃ e b, (b = d.largeBlobs ∨ b = begun p d.largeBlobs) ∧
    largeBlobsSet p fragment d = (.error e, { d with largeBlobs := b }) := by
  unfold largeBlobsSet
  by_cases hlong : fragment.length > maxFragmentLength
  · rw [refuseIf_true hlong]
    exact ⟨_, d.largeBlobs, .inl rfl, rfl⟩
  rw [refuseIf_false hlong, pure_bind]
  rcases largeBlobsBegin_run p d with hbegin | ⟨e, hbegin⟩
  · rw [bind_eq hbegin, bind_eq (get_run _)]
    by_cases hoffset : p.offset.toNat ≠ (begun p d.largeBlobs).expectedNextOffset
    · rw [refuseIf_true hoffset]
      exact ⟨_, begun p d.largeBlobs, .inr rfl, rfl⟩
    rw [refuseIf_false hoffset, pure_bind]
    obtain ⟨e, hrefused⟩ := authorize_refuses (d := { d with largeBlobs := begun p d.largeBlobs }) h
    exact ⟨e, begun p d.largeBlobs, .inr rfl, by rw [bind_run, hrefused]⟩
  · exact ⟨e, d.largeBlobs, .inl rfl, by rw [bind_run, hbegin]⟩

/-! ### In a run -/

private theorem move_blobs (hget : p.get = none) (hset : p.set = some fragment) (h : ¬ BlobsAuthorized p fragment (ticked d)) :
    (∃ e, (authenticator.move d (.cbor (.largeBlobs (.params p)))).output = .error e) ∧
      ∃ b, (b = d.largeBlobs ∨ b = begun p d.largeBlobs) ∧ (authenticator.move d (.cbor (.largeBlobs (.params p)))).after =
        { (authenticator.move d (.cbor .getInfo)).after with largeBlobs := b } := by
  have hstaging : (ticked d).largeBlobs = d.largeBlobs := ticked_largeBlobs d
  simp only [Machine.move, authenticator, authenticate, map_run, cborParse_run, continuesAssertion, if_true]
  by_cases hcap : capSupported (ticked d).files capFido2 = false
  · rw [if_pos hcap, if_pos hcap]
    exact ⟨⟨_, rfl⟩, d.largeBlobs, .inl rfl, by rw [← hstaging]⟩
  rw [if_neg hcap, if_neg hcap]
  have hrun : ∃ e b, (b = d.largeBlobs ∨ b = begun p d.largeBlobs) ∧
      cborCommand (.largeBlobs (.params p)) (ticked d).forgotten = (.error e, { (ticked d).forgotten with largeBlobs := b }) := by
    simp only [cborCommand, map_run]
    unfold cborLargeBlobs
    rw [Parsed.result, ofExcept_ok_bind, hget, hset]
    by_cases hnone : p.offset = noOffset
    · rw [refuseIf_true hnone]
      exact ⟨_, d.largeBlobs, .inl rfl, by rw [← hstaging]; rfl⟩
    obtain ⟨e, b, hb, hrefused⟩ := largeBlobsSet_unauthorized (d := (ticked d).forgotten) h
    rw [refuseIf_false hnone, pure_bind]
    refine ⟨e, b, by rwa [← hstaging], ?_⟩
    dsimp only
    rw [bind_run, hrefused]
  obtain ⟨e, b, hb, hrun⟩ := hrun
  rw [hrun]
  exact ⟨⟨e, rfl⟩, b, hb, rfl⟩

/-- What a client sees of a step: its answer, and the array that can be read after it. -/
def shown (t : AuthMove) : Except CtapError (Option Response) × Option Bytes := (t.output, t.after.files efLargeblob)

/-- No answer after an unauthorized fragment, and no array, shows that it was sent in this state. -/
def Unseen (d : Device) : Prop := ∀ (p : LargeBlobsParams) (fragment : Bytes) (later : List Input), p.get = none → p.set = some fragment →
  ¬ BlobsAuthorized p fragment (ticked d) →
    (authenticator.trace (authenticator.move d (.cbor (.largeBlobs (.params p)))).after later).map shown =
      (authenticator.trace d later).map shown

/-- No limit of the token runs out now, and no assertions are kept: a message changes nothing before its command. -/
def AtRest (d : Device) : Prop := ticked d = d ∧ d.forgotten = d

omit [Sdk] [ObjectLibrary] in
private theorem begun_later (hoffset : p.offset ≠ 0) (b : LargeBlobs) : begun p b = b := if_neg hoffset

private theorem getInfo_after (d : Device) : (authenticator.move d (.cbor .getInfo)).after.store = d.store ∧
    (authenticator.move d (.cbor .getInfo)).after.largeBlobs = d.largeBlobs ∧
      (AtRest d → (authenticator.move d (.cbor .getInfo)).after = d) := by
  rcases move_message (r := .getInfo) rfl d with ⟨-, hafter⟩ | ⟨-, hafter⟩ <;> rw [hafter]
  · exact ⟨ticked_store d, ticked_largeBlobs d, fun hrest => hrest.1⟩
  · exact ⟨ticked_store d, ticked_largeBlobs d, fun hrest => by
      show (ticked d).forgotten = d
      rw [hrest.1, hrest.2]⟩

end

/-! ### On a plain device -/

section Plain
attribute [local instance] cborSdk plainLibrary

/-- A request for a part of an array of 51 bytes, with its MAC. -/
private def thirdArray (offset length : UInt64) : LargeBlobsParams :=
  let p : LargeBlobsParams := ⟨none, some (List.replicate 17 0), offset, length, none, 1⟩
  { p with pinUvAuthParam := some (plainMac lbwDevice (largeBlobsVerifyData p (List.replicate 17 0))) }

/-- The first third of an array is staged. -/
private def underway : Device := (authenticator.move lbwDevice (.cbor (.largeBlobs (.params (thirdArray 0 51))))).after

/-- A fragment without a pinUvAuthParam. -/
private def unsigned (offset length : UInt64) : LargeBlobsParams := ⟨none, some [1], offset, length, none, 0⟩

private theorem unsigned_unauthorized (offset length : UInt64) (d : Device) : ¬ BlobsAuthorized (unsigned offset length) [1] d := by
  rintro ⟨param, hparam, -⟩
  cases hparam

/-- Two assertions were asked for, and the second one is to come. -/
private def asserting : Device :=
  (authenticator.move (plainDevice [(efKeyDev, plainKeydev)]) (.cbor (.getAssertion (.params twoListed)))).after

private theorem not_unseen {d : Device} (next : Input) (hanswers : ((authenticator.trace (authenticator.move d
    (.cbor (.largeBlobs (.params (unsigned 0 17))))).after [next]).map fun t => t.output.toBool) ≠
      (authenticator.trace d [next]).map fun t => t.output.toBool) : ¬ Unseen d := by
  intro h
  have hsame := congrArg (List.map fun s : Except CtapError (Option Response) × Option Bytes => s.1.toBool)
    (h (unsigned 0 17) [1] [next] rfl rfl (unsigned_unauthorized 0 17 _))
  rw [List.map_map, List.map_map] at hsame
  exact hanswers hsame

end Plain
end FidoTouch.Ctap
