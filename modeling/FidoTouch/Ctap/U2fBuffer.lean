import FidoTouch.Ctap.IdRanges
import FidoTouch.Ctap.PlainDevice
import FidoTouch.Ctap.U2fRegister
import FidoTouch.Program.Ghost

/-! U2F authentication in the APDU buffer: the handler once more, with a record of the parts of the buffer that it
reads. What stands behind a request was left there by earlier commands. -/
namespace FidoTouch.Ctap
open FidoTouch.Program Handler FidoTouch.Storage

section
variable [Sdk] {α : Type}

/-! ### The request in the buffer -/

/-- The buffer, of which the first `nc` bytes are the request. -/
structure U2fBuffer where
  p1 : UInt8
  nc : Nat
  bytes : Bytes

/-- `req` points to the buffer, wherever the request ends in it. -/
def U2fBuffer.req (b : U2fBuffer) : U2fApdu := ⟨b.p1, b.bytes⟩

/-- `cmd_authenticate`, which looks at the length of the request once. -/
def cmdAuthenticateAt (b : U2fBuffer) : U2fOp U2fAuthentication := do
  refuseIf (b.nc < 32 + 32 + 1 + 1) .wrongData
  cmdAuthenticate b.req

/-! ### What is read -/

/-- The parts of `CTAP_AUTHENTICATE_REQ`; of the key handle as much as is asked for. -/
def reqChal : Span := ⟨0, 32⟩
def reqAppId : Span := ⟨32, 32⟩
def reqKeyHandleLen : Span := ⟨64, 1⟩
def reqKeyHandle (len : Nat) : Span := ⟨65, len⟩

/-- A device and the parts of the buffer that were read. -/
abbrev Reading := Ghosted Device (List Span)

def reads (s : Span) : Handler Reading U2fSw Unit := onGhost (s :: ·)

/-- `derive_key` reads the path of a key handle, and `verify_key` the MAC as well. -/
def authenticationKeyReads (appId : Block 32) (keyHandle : Bytes) : Handler Reading U2fSw EcKey := do
  reads reqAppId
  let payload ← onState (credentialVerify keyHandle appId)
  match payload with
  | some _ => do
    reads (reqKeyHandle keyHandle.length)
    reads reqAppId
    let cred ← onState (mapError (fun _ => .incorrectParams) (credentialLoad keyHandle appId))
    onState (refuseIf (cred.extensions.credProtect = credProtUvRequired) .securityStatusNotSatisfied)
    reads (reqKeyHandle 32)
    onState (mapError (fun _ => .execError) (fidoLoadKey curveP256 keyHandle))
  | none => do
    reads (reqKeyHandle 32)
    let key ← onState (attempt (deriveKey keyHandle curveP256 : DeviceIo EcKey))
    reads reqAppId
    reads (reqKeyHandle 64)
    onState (refuseIf (verifyDerived appId keyHandle key = false) .incorrectParams)
    onState (ofExcept (key.mapError fun _ => .execError))

def signReads (b : U2fBuffer) (key : EcKey) : Handler Reading U2fSw U2fAuthentication := do
  onState (refuseIf (b.p1 = ctapAuthCheckOnly) .conditionsNotSatisfied)
  let flags := if b.p1 = ctapAuthEnforce then ctapAuthFlagTup else 0
  let files ← onState getFiles
  let counter := signCounter files
  reads reqAppId
  reads reqChal
  let hash := Sdk.sha256 (b.req.appId.1 ++ [flags] ++ be32 counter ++ b.req.chal)
  let sig ← onState (randomly (Sdk.ecdsaSign key hash.1))
  let sig ← onState (orFail sig .execError)
  onState (setSignCounter (counter + 1))
  return ⟨flags, counter, sig⟩

/-- What is made of the key handle once it is copied. -/
def handleReads (b : U2fBuffer) : Handler Reading U2fSw U2fAuthentication := do
  let key ← authenticationKeyReads b.req.appId b.req.keyHandle
  signReads b key

/-- `cmd_authenticate` with the reads that it makes. -/
def cmdAuthenticateReads (b : U2fBuffer) : Handler Reading U2fSw U2fAuthentication := do
  onState (refuseIf (b.nc < 32 + 32 + 1 + 1) .wrongData)
  reads reqKeyHandleLen
  onState (refuseIf (b.req.keyHandleLen < keyHandleLen) .incorrectParams)
  onState (runIf (b.p1 = ctapAuthEnforce) do
    let press ← waitButtonPressed
    refuseIf (press ≠ .pressed) .conditionsNotSatisfied)
  -- The copy is as long as the request says.
  reads (reqKeyHandle b.req.keyHandleLen)
  handleReads b

private theorem authenticationKeyReads_shadows (appId : Block 32) (keyHandle : Bytes) :
    Shadows (authenticationKeyReads appId keyHandle) (authenticationKey appId keyHandle) := by
  refine .ghost (.bind (shadows_onState _) fun payload => ?_)
  cases payload with
  | some _ =>
    exact .ghost (.ghost (.bind (shadows_onState _) fun _ => .bind (shadows_onState _) fun _ => .ghost (shadows_onState _)))
  | none =>
    exact .ghost (.bind (shadows_onState _) fun _ => .ghost (.ghost (.bind (shadows_onState _) fun _ => shadows_onState _)))

/-- The record of the reads changes nothing of what the command does. -/
theorem cmdAuthenticateReads_shadows {b : U2fBuffer} (hlength : 32 + 32 + 1 + 1 ≤ b.bytes.length) :
    Shadows (cmdAuthenticateReads b) (cmdAuthenticateAt b) := by
  have hlong : ¬ b.req.data.length < 32 + 32 + 1 + 1 := Nat.not_lt.mpr hlength
  unfold cmdAuthenticateReads cmdAuthenticateAt cmdAuthenticate handleReads
  refine .bind (shadows_onState _) fun _ => ?_
  rw [refuseIf_false hlong, pure_bind]
  refine .ghost (.bind (shadows_onState _) fun _ => .bind (shadows_onState _) fun _ =>
    .ghost (.bind (authenticationKeyReads_shadows _ _) fun key => ?_))
  exact .bind (shadows_onState _) fun _ => .bind (shadows_onState _) fun _ => .ghost (.ghost (.bind (shadows_onState _)
    fun _ => .bind (shadows_onState _) fun _ => .bind (shadows_onState _) fun _ => shadows_pure _))

/-! ### Requests that are all there -/

/-- A buffer that begins with a request, and holds the whole of `CTAP_AUTHENTICATE_REQ` with the longest key handle. -/
def requestBuffer (p1 : UInt8) (data rest : Bytes) : U2fBuffer := ⟨p1, data.length, data ++ rest⟩

/-- Nothing behind the request is read, nothing there makes a difference, and a request that has less of its key handle
than it says is refused. -/
structure RequestOnly (p1 : UInt8) (data : Bytes) (d : Device) : Prop where
  reads : ∀ rest, 65 + 255 ≤ (data ++ rest).length →
    Remembers (fun s : Span => s.stop ≤ data.length) (cmdAuthenticateReads (requestBuffer p1 data rest) ⟨d, []⟩).2
  same : ∀ rest rest', 65 + 255 ≤ (data ++ rest).length → 65 + 255 ≤ (data ++ rest').length →
    cmdAuthenticateAt (requestBuffer p1 data rest) d = cmdAuthenticateAt (requestBuffer p1 data rest') d
  refused : data.length < 65 + (byteAt data 64).toNat → ∀ rest, 65 + 255 ≤ (data ++ rest).length →
    ∃ e, (cmdAuthenticateAt (requestBuffer p1 data rest) d).1 = .error e

/-- The length byte is refused, or the user does not agree, before the key handle is looked at, or all of it is there. -/
def HandlePresent (p1 : UInt8) (data : Bytes) (d : Device) : Prop :=
  (byteAt data 64).toNat < keyHandleLen ∨ p1 = ctapAuthEnforce ∧ d.presses 0 ≠ .pressed ∨ 65 + (byteAt data 64).toNat ≤ data.length

section
variable {p1 : UInt8} {data rest rest' : Bytes} {d : Device}

omit [Sdk] in
private theorem byteAt_append {n : Nat} (h : n < data.length) : byteAt (data ++ rest) n = byteAt data n := by
  rw [byteAt, byteAt, List.getD_eq_getElem?_getD, List.getD_eq_getElem?_getD, List.getElem?_append_left h]

omit [Sdk] in
private theorem keyHandleLen_request (hdata : 66 ≤ data.length) :
    (requestBuffer p1 data rest).req.keyHandleLen = (byteAt data 64).toNat :=
  congrArg UInt8.toNat (byteAt_append (by omega))

/-- Enforcing the presence of a user. -/
private def askUser (p1 : UInt8) : U2fOp Unit :=
  runIf (p1 = ctapAuthEnforce) do
    let press ← waitButtonPressed
    refuseIf (press ≠ .pressed) .conditionsNotSatisfied

omit [Sdk] in
private theorem askUser_run (p1 : UInt8) (d : Device) :
    (∃ d', askUser p1 d = (if p1 = ctapAuthEnforce ∧ d.presses 0 ≠ .pressed then .error .conditionsNotSatisfied else .ok (), d')) := by
  unfold askUser
  by_cases henforce : p1 = ctapAuthEnforce
  · rw [runIf_true henforce, bind_eq (show (waitButtonPressed : U2fOp Press) d = _ from rfl)]
    by_cases hpress : d.presses 0 ≠ .pressed
    · rw [refuseIf_true hpress, if_pos ⟨henforce, hpress⟩]
      exact ⟨_, rfl⟩
    · rw [refuseIf_false hpress, if_neg fun h => hpress h.2]
      exact ⟨_, rfl⟩
  · rw [runIf_false henforce, if_neg fun h => henforce h.1]
    exact ⟨d, rfl⟩

/-- A long enough length byte leads on to the user. -/
private theorem reads_run (hdata : 66 ≤ data.length) (rest : Bytes) :
    cmdAuthenticateReads (requestBuffer p1 data rest) ⟨d, []⟩ = if (byteAt data 64).toNat < keyHandleLen
      then (.error .incorrectParams, ⟨d, [reqKeyHandleLen]⟩)
      else (onState (askUser p1) >>= fun _ => reads (reqKeyHandle (byteAt data 64).toNat) >>= fun _ =>
        handleReads (requestBuffer p1 data rest)) ⟨d, [reqKeyHandleLen]⟩ := by
  have hlong : ¬ data.length < 32 + 32 + 1 + 1 := by omega
  unfold cmdAuthenticateReads
  rw [keyHandleLen_request hdata, show (requestBuffer p1 data rest).nc = data.length from rfl, refuseIf_false hlong]
  split
  · next hshort =>
    rw [refuseIf_true hshort]
    rfl
  · next hlen =>
    rw [refuseIf_false hlen]
    rfl

/-- A guard that stops the command does so before it comes to the key handle. -/
private theorem guarded_run (hdata : 66 ≤ data.length)
    (h : (byteAt data 64).toNat < keyHandleLen ∨ p1 = ctapAuthEnforce ∧ d.presses 0 ≠ .pressed) :
    ∃ e d', ∀ rest, cmdAuthenticateReads (requestBuffer p1 data rest) ⟨d, []⟩ = (.error e, ⟨d', [reqKeyHandleLen]⟩) := by
  by_cases hshort : (byteAt data 64).toNat < keyHandleLen
  · exact ⟨.incorrectParams, d, fun rest => by rw [reads_run hdata, if_pos hshort]⟩
  · obtain ⟨d', hask⟩ := askUser_run p1 d
    rw [if_pos (h.resolve_left hshort)] at hask
    exact ⟨.conditionsNotSatisfied, d', fun rest => by rw [reads_run hdata, if_neg hshort, bind_run, onState_run, hask]⟩

/-- Once the guards are passed the key handle is copied. -/
private theorem unguarded_run (hdata : 66 ≤ data.length)
    (h : ¬ ((byteAt data 64).toNat < keyHandleLen ∨ p1 = ctapAuthEnforce ∧ d.presses 0 ≠ .pressed)) (rest : Bytes) :
    ∃ d', cmdAuthenticateReads (requestBuffer p1 data rest) ⟨d, []⟩ =
      handleReads (requestBuffer p1 data rest) ⟨d', [reqKeyHandle (byteAt data 64).toNat, reqKeyHandleLen]⟩ := by
  obtain ⟨hlen, hpress⟩ := not_or.mp h
  obtain ⟨d', hask⟩ := askUser_run p1 d
  rw [if_neg hpress] at hask
  exact ⟨d', by rw [reads_run hdata, if_neg hlen, bind_run, onState_run, hask]; rfl⟩

/-! ### Every read of the rest -/

/-- What was read once stays on record. -/
private def Grows (t t' : Reading) : Prop := t.ghost ⊆ t'.ghost

omit [Sdk] in
private instance : Std.Refl Grows := ⟨fun t => List.Subset.refl t.ghost⟩
omit [Sdk] in
private instance : IsTrans Reading Grows := ⟨fun _ _ _ => List.Subset.trans⟩
omit [Sdk] in
private instance (x : U2fOp α) : Keeps Grows (onState x : Handler Reading U2fSw α) := ⟨fun t => List.Subset.refl t.ghost⟩
omit [Sdk] in
private instance (s : Span) : Keeps Grows (reads s) := ⟨fun t => List.subset_cons_self s t.ghost⟩

section
variable {R : Reading → Reading → Prop} [Std.Refl R] [IsTrans Reading R] [∀ (α : Type) (x : U2fOp α), Keeps R (onState x)]

omit [Std.Refl R] in
private theorem authenticationKeyReads_keeps {len : Nat} {appId : Block 32} {keyHandle : Bytes} (hlen : keyHandle.length = len)
    (happ : Keeps R (reads reqAppId)) (hhandle : ∀ n, n ≤ len ∨ n ≤ 64 → Keeps R (reads (reqKeyHandle n))) :
    Keeps R (authenticationKeyReads appId keyHandle) := by
  have := hhandle keyHandle.length (.inl (Nat.le_of_eq hlen))
  have := hhandle 32 (.inr (by decide))
  have := hhandle 64 (.inr (by decide))
  unfold authenticationKeyReads
  refine .bind inferInstance fun _ => .bind inferInstance fun payload => ?_
  split <;> infer_instance

private theorem handleReads_keeps {b : U2fBuffer} (happ : Keeps R (reads reqAppId)) (hchal : Keeps R (reads reqChal))
    (hhandle : ∀ n, n ≤ b.req.keyHandleLen ∨ n ≤ 64 → Keeps R (reads (reqKeyHandle n))) : Keeps R (handleReads b) := by
  have hkey : Keeps R (authenticationKeyReads b.req.appId b.req.keyHandle) := authenticationKeyReads_keeps (readPast_length _ _) happ hhandle
  unfold handleReads signReads
  refine .bind inferInstance fun _ => .bind inferInstance fun _ => .bind inferInstance fun _ => ?_
  infer_instance

end

private theorem requestBuffer_shadows (hdata : 66 ≤ data.length) (rest : Bytes) :
    Shadows (cmdAuthenticateReads (requestBuffer p1 data rest)) (cmdAuthenticateAt (requestBuffer p1 data rest)) :=
  cmdAuthenticateReads_shadows (by rw [requestBuffer, List.length_append]; omega)

/-- A key handle that is all there is read from the request. -/
private theorem keyHandle_request (hdata : 66 ≤ data.length) (hpresent : 65 + (byteAt data 64).toNat ≤ data.length) (rest : Bytes) :
    (requestBuffer p1 data rest).req.keyHandle = (data.drop 65).take (byteAt data 64).toNat := by
  have hlength : (byteAt data 64).toNat ≤ (data.drop 65).length := by rw [List.length_drop]; omega
  rw [U2fApdu.keyHandle, keyHandleLen_request hdata]
  change readPast _ ((data ++ rest).drop 65) = _
  rw [List.drop_append_of_le_length (by omega), readPast_take (by rw [List.length_append]; omega), List.take_append_of_le_length hlength]

private theorem present_same (hdata : 66 ≤ data.length) (hpresent : 65 + (byteAt data 64).toNat ≤ data.length) (rest rest' : Bytes) :
    cmdAuthenticateAt (requestBuffer p1 data rest) = cmdAuthenticateAt (requestBuffer p1 data rest') := by
  have hreq : ∀ rest : Bytes, ¬ (requestBuffer p1 data rest).req.data.length < 32 + 32 + 1 + 1 := fun rest => by
    rw [show (requestBuffer p1 data rest).req.data = data ++ rest from rfl, List.length_append]
    omega
  have happ : ∀ rest : Bytes, (requestBuffer p1 data rest).req.appId = Block.ofBytes 32 ((data.drop 32).take 32) := fun rest => by
    apply Subtype.ext
    change ((((data ++ rest).drop 32) ++ List.replicate 32 0).take 32) = (((data.drop 32).take 32) ++ List.replicate 32 0).take 32
    have hlong : 32 ≤ (data.drop 32).length := by rw [List.length_drop]; omega
    rw [List.drop_append_of_le_length (by omega), List.append_assoc, List.take_append_of_le_length hlong,
      List.take_append_of_le_length (by rw [List.length_take]; omega), List.take_take, Nat.min_self]
  have hchal : ∀ rest : Bytes, (requestBuffer p1 data rest).req.chal = data.take 32 := fun rest =>
    List.take_append_of_le_length (by omega)
  unfold cmdAuthenticateAt cmdAuthenticate
  rw [refuseIf_false (hreq rest), refuseIf_false (hreq rest')]
  rw [keyHandleLen_request hdata, keyHandleLen_request hdata]
  simp only [keyHandle_request hdata hpresent, happ, hchal]
  rfl

/-- The length byte is not checked against the request: nothing behind the request is read, and nothing there makes a
difference, exactly when a guard before stops the command or the whole key handle is there. -/
theorem authenticate_reads_request_iff (hdata : 66 ≤ data.length) : RequestOnly p1 data d ↔ HandlePresent p1 data d := by
  have hshadows : ∀ rest, cmdAuthenticateAt (requestBuffer p1 data rest) d =
      ((cmdAuthenticateReads (requestBuffer p1 data rest) ⟨d, []⟩).1, (cmdAuthenticateReads (requestBuffer p1 data rest) ⟨d, []⟩).2.state) :=
    fun rest => requestBuffer_shadows hdata rest ⟨d, []⟩
  constructor
  · intro h
    by_contra habsent
    obtain ⟨hlen, hrest⟩ := not_or.mp habsent
    obtain ⟨hpress, hpresent⟩ := not_or.mp hrest
    obtain ⟨d', hrun⟩ := unguarded_run (d := d) hdata (not_or.mpr ⟨hlen, hpress⟩) (List.replicate 320 0)
    have hgrows : Keeps Grows (handleReads (requestBuffer p1 data (List.replicate 320 0))) :=
      handleReads_keeps inferInstance inferInstance fun _ _ => inferInstance
    have hread : reqKeyHandle (byteAt data 64).toNat ∈ (cmdAuthenticateReads (requestBuffer p1 data (List.replicate 320 0)) ⟨d, []⟩).2.ghost := by
      rw [hrun]
      exact hgrows.rel _ (List.mem_cons_self ..)
    exact hpresent (h.reads _ (by rw [List.length_append, List.length_replicate]; omega) _ hread)
  · intro h
    by_cases hguarded : (byteAt data 64).toNat < keyHandleLen ∨ p1 = ctapAuthEnforce ∧ d.presses 0 ≠ .pressed
    · obtain ⟨e, d', hrun⟩ := guarded_run (d := d) hdata hguarded
      refine ⟨fun rest _ => ?_, fun rest rest' _ _ => ?_, fun _ rest _ => ⟨e, ?_⟩⟩
      · rw [hrun]
        intro s hs
        obtain rfl : s = reqKeyHandleLen := by simpa using hs
        exact Nat.le_of_lt hdata
      · rw [hshadows, hshadows, hrun, hrun]
      · rw [hshadows, hrun]
    · have hpresent : 65 + (byteAt data 64).toNat ≤ data.length := by
        rcases h with h | h | h
        · exact absurd (.inl h) hguarded
        · exact absurd (.inr h) hguarded
        · exact h
      refine ⟨fun rest _ => ?_, fun rest rest' _ _ => by rw [present_same hdata hpresent rest rest'], fun habsent => absurd habsent (by omega)⟩
      obtain ⟨d', hrun⟩ := unguarded_run (d := d) hdata hguarded rest
      have hlen : keyHandleLen ≤ (byteAt data 64).toNat := Nat.not_lt.mp (not_or.mp hguarded).1
      have hinside : Keeps (Preserves (Remembers fun s : Span => s.stop ≤ data.length)) (handleReads (requestBuffer p1 data rest)) :=
        handleReads_keeps (keeps_told (by simp only [reqAppId, Span.stop]; omega)) (keeps_told (by simp only [reqChal, Span.stop]; omega))
          fun n hn => keeps_told (by
            rw [keyHandleLen_request hdata] at hn
            simp only [reqKeyHandle, Span.stop]
            have : keyHandleLen = 64 := rfl
            omega)
      rw [hrun]
      refine hinside.rel _ fun s hs => ?_
      rcases List.mem_cons.mp hs with rfl | hs
      · exact hpresent
      · obtain rfl : s = reqKeyHandleLen := by simpa using hs
        exact Nat.le_of_lt hdata

end

end

section Plain
attribute [local instance] plainSdk plainLibrary

private def u2fDevice : Device := plainDevice [(efKeyDev, plainKeydev)]

/-- A key handle of the device for the application 7. -/
private def sevensHandle : Bytes := match (cmdRegister ⟨0, List.replicate 32 1 ++ List.replicate 32 7⟩ u2fDevice).1 with
  | .ok answer => answer.keyHandle
  | .error _ => []

/-- A request with a length byte of 64, and some of the key handle. -/
private def sevensRequest (keyHandle : Bytes) : Bytes := List.replicate 32 1 ++ List.replicate 32 7 ++ [64] ++ keyHandle

/-- A request with its whole key handle is all that is read. -/
theorem whole_request_read : RequestOnly ctapAuthEnforce (sevensRequest sevensHandle) u2fDevice :=
  (authenticate_reads_request_iff (by decide +kernel)).mpr (.inr (.inr (by decide +kernel)))

/-- The rest of the key handle, where the last request left it, is as good as that of the request: 66 bytes
authenticate, though the length byte says that 129 belong to them. -/
theorem leftover_handle_signs :
    (sevensRequest (sevensHandle.take 1)).length = 66 ∧ byteAt (sevensRequest (sevensHandle.take 1)) 64 = 64 ∧
      (cmdAuthenticateAt (requestBuffer ctapAuthEnforce (sevensRequest (sevensHandle.take 1))
        (sevensHandle.drop 1 ++ List.replicate 200 0)) u2fDevice).1.toBool = true ∧
      (cmdAuthenticateAt (requestBuffer ctapAuthEnforce (sevensRequest (sevensHandle.take 1)) (List.replicate 263 0))
        u2fDevice).1.toBool = false ∧
      ¬ RequestOnly ctapAuthEnforce (sevensRequest (sevensHandle.take 1)) u2fDevice := by
  have hlength : (sevensRequest (sevensHandle.take 1)).length = 66 := by decide +kernel
  have hlen : byteAt (sevensRequest (sevensHandle.take 1)) 64 = 64 := by decide +kernel
  have hsigns : (cmdAuthenticateAt (requestBuffer ctapAuthEnforce (sevensRequest (sevensHandle.take 1))
      (sevensHandle.drop 1 ++ List.replicate 200 0)) u2fDevice).1.toBool = true := by decide +kernel
  refine ⟨hlength, hlen, hsigns, by decide +kernel, fun h => ?_⟩
  obtain ⟨e, herror⟩ := h.refused (by rw [hlength, hlen]; decide) (sevensHandle.drop 1 ++ List.replicate 200 0) (by decide +kernel)
  rw [herror] at hsigns
  cases hsigns

end Plain
end FidoTouch.Ctap
