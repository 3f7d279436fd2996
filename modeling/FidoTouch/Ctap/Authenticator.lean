import FidoTouch.Ctap.Boot
import FidoTouch.Ctap.CredMgmt
import FidoTouch.Ctap.GetAssertion
import FidoTouch.Ctap.LargeBlobs
import FidoTouch.Ctap.MakeCredential
import FidoTouch.Ctap.Vendor
import FidoTouch.Program.Runs

/-! The authenticator as a machine: one command after the other, time passing in between, and
power cycles. -/
namespace FidoTouch.Ctap
open FidoTouch.Program Handler FidoTouch.Storage

variable [Sdk] [ObjectLibrary]

/-- A CTAPHID_CBOR message by its command byte, its parameters parsed. -/
inductive Request where
  | makeCredential (p : Parsed MakeCredentialParams)
  | getAssertion (p : Parsed GetAssertionParams)
  | getNextAssertion
  | clientPin (p : Parsed ClientPinParams)
  | credMgmt (p : Parsed CredMgmtParams)
  | config (p : Parsed ConfigParams)
  | largeBlobs (p : Parsed LargeBlobsParams)
  | getInfo
  | reset
  | selection
  | unknown

inductive Input where
  | cbor (r : Request)
  /-- CTAP_VENDOR_CBOR with the first byte of its data. -/
  | vendor (cmd : UInt8) (p : Parsed VendorParams)
  /-- A message that starts no command. -/
  | emptyMessage
  | elapse (ms : UInt32)
  | powerCycle

inductive Response where
  | makeCredential (a : MakeCredentialAnswer)
  | getAssertion (a : GetAssertionAnswer)
  | clientPin (a : ClientPinAnswer)
  | credMgmt (a : CredMgmtAnswer)
  | vendor (a : VendorAnswer)
  | largeBlobs (fragment : Option Bytes)
  | info
  | done

/-- The command of a request. -/
def cborCommand (r : Request) : CtapOp Response :=
  match r with
  | .makeCredential p => Response.makeCredential <$> cborMakeCredential p
  | .getAssertion p => Response.getAssertion <$> cborGetAssertion p
  | .getNextAssertion => Response.getAssertion <$> cborGetNextAssertion
  | .clientPin p => Response.clientPin <$> cborClientPin p
  | .credMgmt p => Response.credMgmt <$> cborCredMgmt p
  | .config p => do
    cborConfig p
    return .done
  | .largeBlobs p => Response.largeBlobs <$> cborLargeBlobs p
  | .getInfo => return .info
  | .reset => do
    cborReset
    return .done
  | .selection => do
    cborSelection
    return .done
  | .unknown => fail .invalidCmd

/-- Every request but one for the next assertion ends the enumeration of assertions. -/
def continuesAssertion : Request → Bool
  | .getNextAssertion => true
  | _ => false

/-- `cbor_parse` on a message with a command -/
def cborParse (r : Request) : CtapOp Response := do
  pinUvAuthTokenTick
  let files ← getFiles
  refuseIf (capSupported files capFido2 = false) .invalidCmd
  runIf (continuesAssertion r = false) resetGnaState
  cborCommand r

/-- The state in which the command of a message starts. -/
def ticked (d : Device) : Device := ((pinUvAuthTokenTick : CtapOp Unit) d).2

/-- The enumeration of assertions as `reset_gna_state` leaves it. -/
def Device.forgotten (d : Device) : Device := { d with gna := ⟨false, [], 0, 0, 0, 0, none⟩ }

/-- The token is what the tick is about; it leaves these parts alone. -/
private structure TickKeeps (d d' : Device) : Prop where
  store : d'.store = d.store
  largeBlobs : d'.largeBlobs = d.largeBlobs
  mse : d'.mse = d.mse
  gna : d'.gna = d.gna
  boardMillis : d'.boardMillis = d.boardMillis
  keydev : (d'.hasKeydevDec, d'.keydevDec, d'.sessionPin) = (d.hasKeydevDec, d.keydevDec, d.sessionPin)

omit [Sdk] [ObjectLibrary] in
private theorem tick_run (d : Device) : ∃ d', (pinUvAuthTokenTick : CtapOp Unit) d = (.ok (), d') ∧ TickKeeps d d' := by
  unfold pinUvAuthTokenTick
  rw [bind_eq (get_run d)]
  split
  · exact ⟨d, rfl, rfl, rfl, rfl, rfl, rfl, rfl⟩
  · split
    · unfold stopUsingPinUvAuthToken runIf
      rw [bind_eq (get_run d), bind_eq (modify_run _ d)]
      split <;> exact ⟨_, rfl, rfl, rfl, rfl, rfl, rfl, rfl⟩
    · unfold clearUserPresentFlag runIf
      split
      · rw [bind_eq (get_run d)]
        split <;> exact ⟨_, rfl, rfl, rfl, rfl, rfl, rfl, rfl⟩
      · exact ⟨d, rfl, rfl, rfl, rfl, rfl, rfl, rfl⟩

omit [Sdk] [ObjectLibrary] in
theorem pinUvAuthTokenTick_run (d : Device) : (pinUvAuthTokenTick : CtapOp Unit) d = (.ok (), ticked d) := by
  obtain ⟨d', h, -⟩ := tick_run d
  rw [ticked, h]

omit [Sdk] [ObjectLibrary] in
private theorem ticked_keeps (d : Device) : TickKeeps d (ticked d) := by
  obtain ⟨d', h, hkeeps⟩ := tick_run d
  rwa [ticked, h]

omit [Sdk] [ObjectLibrary] in
@[simp] theorem ticked_store (d : Device) : (ticked d).store = d.store := (ticked_keeps d).store

omit [Sdk] [ObjectLibrary] in
@[simp] theorem ticked_largeBlobs (d : Device) : (ticked d).largeBlobs = d.largeBlobs := (ticked_keeps d).largeBlobs

omit [Sdk] [ObjectLibrary] in
@[simp] theorem ticked_mse (d : Device) : (ticked d).mse = d.mse := (ticked_keeps d).mse

omit [Sdk] [ObjectLibrary] in
@[simp] theorem ticked_gna (d : Device) : (ticked d).gna = d.gna := (ticked_keeps d).gna

omit [Sdk] [ObjectLibrary] in
@[simp] theorem ticked_boardMillis (d : Device) : (ticked d).boardMillis = d.boardMillis := (ticked_keeps d).boardMillis

omit [Sdk] [ObjectLibrary] in
theorem ticked_keydev (d : Device) :
    ((ticked d).hasKeydevDec, (ticked d).keydevDec, (ticked d).sessionPin) = (d.hasKeydevDec, d.keydevDec, d.sessionPin) :=
  (ticked_keeps d).keydev

/-- A message is refused, or its command starts with or without the kept assertions. -/
theorem cborParse_run (r : Request) (d : Device) :
    cborParse r d =
      if capSupported (ticked d).files capFido2 = false then (.error .invalidCmd, ticked d)
      else cborCommand r (if continuesAssertion r = false then (ticked d).forgotten else ticked d) := by
  unfold cborParse
  rw [bind_eq (pinUvAuthTokenTick_run d), bind_eq (getFiles_run (ticked d))]
  by_cases hcap : capSupported (ticked d).files capFido2 = false
  · rw [if_pos hcap, refuseIf_true hcap]
    rfl
  · rw [if_neg hcap, refuseIf_false hcap]
    by_cases hend : continuesAssertion r = false
    · rw [if_pos hend, runIf_true hend]
      rfl
    · rw [if_neg hend, runIf_false hend]
      rfl

def cborVendor (cmd : UInt8) (p : Parsed VendorParams) : CtapOp VendorAnswer := do
  refuseIf (cmd < vendorBackup) .invalidCbor
  cborVendorGeneric cmd p

/-- `cbor_parse` on CTAP_VENDOR_CBOR -/
def vendorParse (cmd : UInt8) (p : Parsed VendorParams) : CtapOp Response := do
  pinUvAuthTokenTick
  let files ← getFiles
  refuseIf (capSupported files capFido2 = false) .invalidCmd
  Response.vendor <$> cborVendor cmd p

def emptyMessage : CtapOp Response := do
  pinUvAuthTokenTick
  fail .invalidLen

/-- Without an answer nothing was asked. -/
def authenticate (i : Input) : Handler Device CtapError (Option Response) :=
  match i with
  | .cbor r => some <$> cborParse r
  | .vendor cmd p => some <$> vendorParse cmd p
  | .emptyMessage => some <$> emptyMessage
  | .elapse ms => do
    modify fun d => { d with boardMillis := d.boardMillis + ms }
    return none
  | .powerCycle => do
    modify Device.boot
    return none

/-- The authenticator: what it answers to each input, and the state it goes on in. -/
def authenticator : Machine Device Input (Except CtapError (Option Response)) where
  step d i := authenticate i d

/-- A message is refused, or its command runs without kept assertions and answers. -/
theorem move_message {r : Request} (hends : continuesAssertion r = false) (d : Device) :
    ((authenticator.move d (.cbor r)).output = .error .invalidCmd ∧ (authenticator.move d (.cbor r)).after = ticked d) ∨
      (authenticator.move d (.cbor r)).output = (cborCommand r (ticked d).forgotten).1.map some ∧
        (authenticator.move d (.cbor r)).after = (cborCommand r (ticked d).forgotten).2 := by
  simp only [Machine.move, authenticator, authenticate, map_run, cborParse_run, if_pos hends]
  by_cases hrefused : capSupported (ticked d).files capFido2 = false
  · rw [if_pos hrefused]
    exact .inl ⟨rfl, rfl⟩
  · rw [if_neg hrefused]
    rcases cborCommand r (ticked d).forgotten with ⟨_ | _, _⟩ <;> exact .inr ⟨rfl, rfl⟩

theorem move_answered {r : Request} {response : Response} {d : Device} (hends : continuesAssertion r = false)
    (h : (authenticator.move d (.cbor r)).output = .ok (some response)) :
    cborCommand r (ticked d).forgotten = (.ok response, (authenticator.move d (.cbor r)).after) := by
  rcases move_message hends d with ⟨hout, -⟩ | ⟨hout, hafter⟩
  · rw [hout] at h
    cases h
  · rw [hout] at h
    rw [hafter]
    refine Prod.ext ?_ rfl
    rcases hrun : (cborCommand r (ticked d).forgotten).1 with e | a <;> rw [hrun] at h <;> cases h
    rfl

end FidoTouch.Ctap
