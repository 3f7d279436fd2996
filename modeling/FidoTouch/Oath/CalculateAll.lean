import Mathlib.Algebra.Order.BigOperators.Group.List
import Mathlib.Algebra.Order.Group.Nat
import FidoTouch.Oath.Listing
import FidoTouch.Oath.Names

/-! CALCULATE ALL against CALCULATE: both compute the same code, but the first leaves it out where the response has no room
for it. -/
namespace FidoTouch.Oath
open FidoTouch.Program Handler FidoTouch.Storage
open Tlv (Item encode valueOf)

section
variable [Sdk]

/-! ### Answers -/

/-- A name in a response, its length in one byte. -/
def nameField (name : Bytes) : Bytes := [UInt8.ofNat tagName, UInt8.ofNat name.length] ++ name

/-- A credential whose code is given: neither HOTP nor behind a touch. -/
def GivesCode (data key : Bytes) : Prop := isHotp key = false ∧ touchRequired data = false

/-- What follows a name: the digits only where no code is to be given, else the code. -/
def tailOf (p2 : UInt8) (chal data key : Bytes) : Option Bytes :=
  if isHotp key then some [UInt8.ofNat tagNoResponse, 1, byteAt key 1]
  else if touchRequired data then some [UInt8.ofNat tagTouchResponse, 1, byteAt key 1]
  else (codeBytes p2 key chal).map ([UInt8.ofNat tagResponse + p2] ++ ·)

/-- The length of that. -/
def tailLength (p2 : UInt8) (data key : Bytes) : Nat :=
  if isHotp key = true ∨ touchRequired data = true then 3
  else if p2 = 0x01 then 7
  else ((getOathMdInfo (byteAt key 0)).map Md.size).getD 0 + 3

/-- The room that is asked for before a credential is answered. -/
def tailRoom (data key : Bytes) : Nat := if isHotp key = true ∨ touchRequired data = true then 3 else 8

/-- The whole answer of a credential. -/
def answer (p2 : UInt8) (chal data : Bytes) : Bytes :=
  match lookup data tagName, recordKey data with
  | some name, some key => nameField name ++ (tailOf p2 chal data key).getD []
  | _, _ => []

def answerLength (p2 : UInt8) (data : Bytes) : Nat :=
  match lookup data tagName, recordKey data with
  | some name, some key => 2 + name.length + tailLength p2 data key
  | _, _ => 0

/-- The HMAC of a credential's code can be computed. -/
def Computable (chal data : Bytes) : Prop :=
  ∀ key md, recordKey data = some key → GivesCode data key → getOathMdInfo (byteAt key 0) = some md →
    Sdk.mdHmac md (key.drop 2) chal ≠ none

/-- A credential with a name, a readable key and a supported algorithm. -/
structure Supported (data name key : Bytes) (md : Md) : Prop where
  named : lookup data tagName = some name
  readable : recordKey data = some key
  algorithm : getOathMdInfo (byteAt key 0) = some md

theorem recordKey_two {data key : Bytes} (h : recordKey data = some key) : ¬ key.length < 2 := by
  unfold recordKey at h
  split at h
  · cases h
  · split at h
    · cases h
    · split at h
      · cases h
      · obtain rfl := Option.some.inj h
        assumption

section
variable {p2 : UInt8} {chal data name key code : Bytes} {md : Md}

theorem codeRoom_code (hcode : codeBytes p2 key chal = some code) :
    p2 = 0x01 ∧ codeRoom p2 code = 7 ∧ code.length = 6 ∨ p2 ≠ 0x01 ∧ codeRoom p2 code = code.length := by
  by_cases hp2 : p2 = 0x01
  · refine .inl ⟨hp2, if_pos hp2, ?_⟩
    unfold codeBytes at hcode
    split at hcode
    · cases hcode
    · split at hcode
      · cases hcode
      · obtain ⟨mac, -, rfl⟩ := Option.map_eq_some_iff.mp hcode
        rw [macCode, if_pos hp2]
        rfl
  · exact .inr ⟨hp2, if_neg hp2⟩

theorem GivesCode.not_digits (h : GivesCode data key) : ¬ (isHotp key = true ∨ touchRequired data = true) := by
  rw [h.1, h.2]
  exact fun h => h.elim nofun nofun

/-- A code and the byte before it are as long as they are taken to be. -/
theorem tailLength_code (hgives : GivesCode data key) (hcode : codeBytes p2 key chal = some code) :
    tailLength p2 data key = 1 + code.length := by
  rw [tailLength, if_neg hgives.not_digits]
  rcases codeRoom_code hcode with ⟨hp2, -, hlength⟩ | ⟨hp2, -⟩
  · rw [if_pos hp2, hlength]
  · rw [if_neg hp2]
    unfold codeBytes at hcode
    split at hcode
    · cases hcode
    · split at hcode
      · cases hcode
      · next md hmd =>
        obtain ⟨mac, -, rfl⟩ := Option.map_eq_some_iff.mp hcode
        rw [hmd, macCode, if_neg hp2, List.length_append, mac.2]
        exact Nat.add_comm (Md.size md) 3 |>.trans (Nat.add_assoc 1 2 _)

theorem Supported.code_iff (h : Supported data name key md) :
    codeBytes p2 key chal ≠ none ↔ Sdk.mdHmac md (key.drop 2) chal ≠ none := by
  rw [codeBytes, if_neg (recordKey_two h.readable), h.algorithm]
  exact not_congr Option.map_eq_none_iff

theorem Supported.computable_iff (h : Supported data name key md) (p2 : UInt8) :
    Computable chal data ↔ (GivesCode data key → codeBytes p2 key chal ≠ none) := by
  refine ⟨fun hall hgives => h.code_iff.mpr (hall key md h.readable hgives h.algorithm), fun hcode key' md' hkey hgives hmd => ?_⟩
  obtain rfl := Option.some.inj (h.readable.symm.trans hkey)
  obtain rfl := Option.some.inj (h.algorithm.symm.trans hmd)
  exact h.code_iff.mp (hcode hgives)

theorem Supported.stored (h : Supported data name key md) : ∃ stored, Sdk.tlvFindTag data tagKey = some stored := by
  have hkey := h.readable
  rcases hfind : Sdk.tlvFindTag data tagKey with _ | stored
  · rw [recordKey, hfind] at hkey
    cases hkey
  · exact ⟨stored, rfl⟩

theorem Supported.tail (h : Supported data name key md) (hcomputable : Computable chal data) (p2 : UInt8) :
    ∃ tail, tailOf p2 chal data key = some tail := by
  unfold tailOf
  split
  · exact ⟨_, rfl⟩
  · next hhotp =>
    split
    · exact ⟨_, rfl⟩
    · next htouch =>
      have hcode := (h.computable_iff p2).mp hcomputable ⟨Bool.eq_false_iff.mpr hhotp, Bool.eq_false_iff.mpr htouch⟩
      obtain ⟨code, hcode⟩ := Option.ne_none_iff_exists'.mp hcode
      exact ⟨_, by rw [hcode, Option.map_some]⟩

theorem Supported.answer_eq (h : Supported data name key md) (p2 : UInt8) (chal : Bytes) :
    answer p2 chal data = nameField name ++ (tailOf p2 chal data key).getD [] := by
  rw [answer, h.named, h.readable]

theorem Supported.answerLength_eq (h : Supported data name key md) (p2 : UInt8) :
    answerLength p2 data = 2 + name.length + tailLength p2 data key := by
  rw [answerLength, h.named, h.readable]

omit [Sdk] in
theorem nameField_length (name : Bytes) : (nameField name).length = 2 + name.length := by
  rw [nameField, List.length_append]
  rfl

theorem tailOf_length {tail : Bytes} (htail : tailOf p2 chal data key = some tail) : tail.length = tailLength p2 data key := by
  unfold tailOf at htail
  split at htail
  · next hhotp =>
    obtain rfl := Option.some.inj htail
    rw [tailLength, if_pos (.inl hhotp)]
    rfl
  · next hhotp =>
    split at htail
    · next htouch =>
      obtain rfl := Option.some.inj htail
      rw [tailLength, if_pos (.inr htouch)]
      rfl
    · next htouch =>
      obtain ⟨code, hcode, rfl⟩ := Option.map_eq_some_iff.mp htail
      rw [tailLength_code ⟨Bool.eq_false_iff.mpr hhotp, Bool.eq_false_iff.mpr htouch⟩ hcode]
      rw [List.length_append, List.length_singleton]

theorem Supported.answer_length (h : Supported data name key md) (hcomputable : Computable chal data) (p2 : UInt8) :
    (answer p2 chal data).length = answerLength p2 data := by
  obtain ⟨tail, htail⟩ := h.tail hcomputable p2
  rw [h.answer_eq, h.answerLength_eq, htail, Option.getD_some, List.length_append, nameField_length, tailOf_length htail]

end

/-! ### One credential -/

section
variable {apdu : Apdu} {chal data name key : Bytes} {md : Md} {s s' : OathState}

/-- The code of a credential, or its digits. -/
private theorem codeTail_run (hs : s.resApdu.length + 8 ≤ Sdk.usbBufferSize) :
    ∃ tail, (do
      respond [UInt8.ofNat tagResponse + apdu.p2]
      let result ← attempt (calculateOath apdu.p2 key chal)
      runIf (result.isOk = false) (respond [1, byteAt key 1]) : OathOp Unit) s = (.ok (), { s with resApdu := s.resApdu ++ tail }) ∧
      s.resApdu.length + tail.length ≤ Sdk.usbBufferSize ∧
      ∀ code, codeBytes apdu.p2 key chal = some code → s.resApdu.length + (1 + code.length) ≤ Sdk.usbBufferSize →
        tail = [UInt8.ofNat tagResponse + apdu.p2] ++ code := by
  have hlength : (s.resApdu ++ [UInt8.ofNat tagResponse + apdu.p2]).length = s.resApdu.length + 1 := List.length_append
  have hlater : ({ s with resApdu := s.resApdu ++ [UInt8.ofNat tagResponse + apdu.p2] } : OathState).resApdu.length ≤ Sdk.usbBufferSize := by
    rw [hlength]
    omega
  have htag : (respond [UInt8.ofNat tagResponse + apdu.p2] : OathOp Unit) s =
      (.ok (), { s with resApdu := s.resApdu ++ [UInt8.ofNat tagResponse + apdu.p2] }) := rfl
  rw [bind_eq htag]
  rcases calculateOath_run apdu.p2 key chal { s with resApdu := s.resApdu ++ [UInt8.ofNat tagResponse + apdu.p2] } with
    ⟨code, hcode, hroom, hrun⟩ | ⟨⟨e, hrun⟩, hno⟩
  · refine ⟨[UInt8.ofNat tagResponse + apdu.p2] ++ code, ?_, ?_, fun code' hcode' _ => by rw [Option.some.inj (hcode.symm.trans hcode')]⟩
    · rw [bind_run, attempt_run, hrun, ← List.append_assoc]
      rfl
    · rw [hasRoom_iff hlater, hlength] at hroom
      rw [List.length_append, List.length_singleton]
      rcases codeRoom_code hcode with ⟨-, hneed, hsix⟩ | ⟨-, hneed⟩ <;> omega
  · refine ⟨[UInt8.ofNat tagResponse + apdu.p2, 1, byteAt key 1], ?_, by simp only [List.length_cons, List.length_nil]; omega,
      fun code hcode hfits => ?_⟩
    · have happend : s.resApdu ++ [UInt8.ofNat tagResponse + apdu.p2, 1, byteAt key 1] =
          s.resApdu ++ [UInt8.ofNat tagResponse + apdu.p2] ++ [1, byteAt key 1] := by rw [List.append_assoc]; rfl
      rw [bind_run, attempt_run, hrun, happend]
      rfl
    · have hroom := (hasRoom_iff hlater (codeRoom apdu.p2 code)).not.mp (by rw [hno code hcode]; exact Bool.false_ne_true)
      rw [hlength] at hroom
      rcases codeRoom_code hcode with ⟨-, hneed, -⟩ | ⟨-, hneed⟩ <;> omega

/-- An entry behind its name. -/
private def tailAnswer (apdu : Apdu) (chal data key : Bytes) : OathOp Unit :=
  if isHotp key then respond [UInt8.ofNat tagNoResponse, 1, byteAt key 1]
  else if touchRequired data then respond [UInt8.ofNat tagTouchResponse, 1, byteAt key 1]
  else do
    respond [UInt8.ofNat tagResponse + apdu.p2]
    let result ← attempt (calculateOath apdu.p2 key chal)
    runIf (result.isOk = false) (respond [1, byteAt key 1])

private theorem tail_run (hs : s.resApdu.length + tailRoom data key ≤ Sdk.usbBufferSize) :
    ∃ tail, tailAnswer apdu chal data key s = (.ok (), { s with resApdu := s.resApdu ++ tail }) ∧
      s.resApdu.length + tail.length ≤ Sdk.usbBufferSize ∧
      ∀ full, tailOf apdu.p2 chal data key = some full → s.resApdu.length + tailLength apdu.p2 data key ≤ Sdk.usbBufferSize → tail = full := by
  unfold tailAnswer
  by_cases hhotp : isHotp key = true
  · rw [tailRoom, if_pos (.inl hhotp)] at hs
    rw [if_pos hhotp, tailOf, if_pos hhotp]
    exact ⟨_, rfl, hs, fun full hfull _ => Option.some.inj hfull⟩
  by_cases htouch : touchRequired data = true
  · rw [tailRoom, if_pos (.inr htouch)] at hs
    rw [if_neg hhotp, if_pos htouch, tailOf, if_neg hhotp, if_pos htouch]
    exact ⟨_, rfl, hs, fun full hfull _ => Option.some.inj hfull⟩
  have hgives : GivesCode data key := ⟨Bool.eq_false_iff.mpr hhotp, Bool.eq_false_iff.mpr htouch⟩
  rw [tailRoom, if_neg hgives.not_digits] at hs
  obtain ⟨tail, hrun, hfits, hcodes⟩ := @codeTail_run _ apdu chal key s hs
  refine ⟨tail, by rw [if_neg hhotp, if_neg htouch, hrun], hfits, fun full hfull hroom => ?_⟩
  rw [tailOf, if_neg hhotp, if_neg htouch] at hfull
  obtain ⟨code, hcode, rfl⟩ := Option.map_eq_some_iff.mp hfull
  exact hcodes code hcode (by rwa [← tailLength_code hgives hcode])

/-- The entry of a credential: refused, or what is appended is its answer, unless its code is missing. -/
theorem calculateAllEntry_ok (hsupported : Supported data name key md) (hs : s.resApdu.length ≤ Sdk.usbBufferSize)
    (h : calculateAllEntry apdu chal data s = (.ok (), s')) :
    name.length ≤ uint8Max ∧ 2 + name.length + tailRoom data key ≤ Sdk.usbBufferSize ∧ s'.resApdu.length ≤ Sdk.usbBufferSize ∧
      s' = { s with resApdu := s'.resApdu } ∧
      (Computable chal data → s.resApdu.length + answerLength apdu.p2 data ≤ Sdk.usbBufferSize →
        s'.resApdu = s.resApdu ++ answer apdu.p2 chal data) := by
  obtain ⟨field, hname, rfl⟩ := Option.map_eq_some_iff.mp hsupported.named
  have hkey := hsupported.readable
  obtain ⟨stored, hstored⟩ := hsupported.stored
  simp only [calculateAllEntry, hname, hstored] at h
  obtain ⟨hlong, h⟩ := refuseIf_bind_ok h
  rw [hkey] at h
  dsimp only at h
  rw [bind_eq (get_run s)] at h
  obtain ⟨hroom, h⟩ := refuseIf_bind_ok h
  have hasked : s.resApdu.length + (2 + field.data.length + tailRoom data key) ≤ Sdk.usbBufferSize :=
    (hasRoom_iff hs _).mp (Bool.not_eq_false _ ▸ hroom)
  have hnamed : (respond ([UInt8.ofNat tagName, UInt8.ofNat field.data.length] ++ field.data) : OathOp Unit) s =
      (.ok (), { s with resApdu := s.resApdu ++ nameField field.data }) := rfl
  rw [bind_eq hnamed] at h
  have hlength : (s.resApdu ++ nameField field.data).length = s.resApdu.length + (2 + field.data.length) := by
    rw [List.length_append, nameField_length]
  obtain ⟨tail, htail, hfits, hfull⟩ := @tail_run _ apdu chal data key { s with resApdu := s.resApdu ++ nameField field.data }
    (by rw [hlength]; omega)
  change (tailAnswer apdu chal data key) { s with resApdu := s.resApdu ++ nameField field.data } = _ at h
  rw [htail] at h
  obtain rfl : { s with resApdu := s.resApdu ++ nameField field.data ++ tail } = s' := congrArg Prod.snd h
  refine ⟨Nat.le_of_not_gt hlong, by omega, by rw [List.length_append]; exact hfits, rfl, fun hcomputable hroom' => ?_⟩
  obtain ⟨full, hwhole⟩ := hsupported.tail hcomputable apdu.p2
  rw [hsupported.answerLength_eq] at hroom'
  rw [hsupported.answer_eq, hwhole, Option.getD_some, ← List.append_assoc, hfull full hwhole (by rw [hlength]; omega)]

/-- There is a supported credential in each record. -/
def EachSupported (datas : List Bytes) : Prop := ∀ data ∈ datas, ∃ name key md, Supported data name key md

/-- What CALCULATE ALL asks of a record before it answers. -/
def Answerable (data : Bytes) : Prop :=
  ∀ name key, lookup data tagName = some name → recordKey data = some key →
    name.length ≤ uint8Max ∧ 2 + name.length + tailRoom data key ≤ Sdk.usbBufferSize

/-- The answers of some records. -/
theorem calculateAllEntries_ok {datas : List Bytes} (hsupported : EachSupported datas) (hs : s.resApdu.length ≤ Sdk.usbBufferSize)
    (h : forEach datas (calculateAllEntry apdu chal) s = (.ok (), s')) :
    (∀ data ∈ datas, Answerable data) ∧ s'.resApdu.length ≤ Sdk.usbBufferSize ∧ s' = { s with resApdu := s'.resApdu } ∧
      ((∀ data ∈ datas, Computable chal data) → s.resApdu.length + (datas.map (answerLength apdu.p2)).sum ≤ Sdk.usbBufferSize →
        s'.resApdu = s.resApdu ++ datas.flatMap (answer apdu.p2 chal)) := by
  induction datas generalizing s with
  | nil =>
    obtain ⟨-, rfl⟩ := pure_ok h
    exact ⟨nofun, hs, rfl, fun _ _ => (List.append_nil _).symm⟩
  | cons data datas ih =>
    obtain ⟨name, key, md, hdata⟩ := hsupported data List.mem_cons_self
    obtain ⟨_, t, hentry, hrest⟩ := bind_ok h
    obtain ⟨hname, hasked, ht, htail, hfull⟩ := calculateAllEntry_ok hdata hs hentry
    obtain ⟨hall, hs', hsame, hlater⟩ := ih (fun d hd => hsupported d (List.mem_cons_of_mem _ hd)) ht hrest
    refine ⟨fun d hd => ?_, hs', by rw [hsame, htail], fun hcomputable hroom => ?_⟩
    · rcases List.mem_cons.mp hd with rfl | hd
      · intro name' key' hname' hkey'
        obtain rfl := Option.some.inj (hdata.named.symm.trans hname')
        obtain rfl := Option.some.inj (hdata.readable.symm.trans hkey')
        exact ⟨hname, hasked⟩
      · exact hall d hd
    · have hfirst := hcomputable data List.mem_cons_self
      rw [List.map_cons, List.sum_cons] at hroom
      have happended := hfull hfirst (by omega)
      have hlength : t.resApdu.length = s.resApdu.length + answerLength apdu.p2 data := by
        rw [happended, List.length_append, hdata.answer_length hfirst]
      rw [hlater (fun d hd => hcomputable d (List.mem_cons_of_mem _ hd)) (by omega), happended, List.flatMap_cons, List.append_assoc]

/-! ### CALCULATE of the same credential -/

/-- A request for the code of a name and a challenge. -/
structure AsksFor (request : Apdu) (p2 : UInt8) (name chal : Bytes) : Prop where
  p2 : request.p2 = p2
  named : lookup request.data tagName = some name
  challenge : lookup request.data tagChallenge = some chal

section
variable {request : Apdu} {p2 : UInt8} {fid : Nat} {code : Bytes}

/-- CALCULATE takes the credential of the name, and the challenge where it is not HOTP. -/
private theorem calculateStart_code (hp2 : request.p2 = 0 ∨ request.p2 = 1) (hvalidated : s.validated = true) (hempty : s.resApdu = [])
    (hasks : AsksFor request p2 name chal) (hfound : findOathCred s.store.view name = some fid)
    (hdata : fileData s.store.view fid = some data) (hsupported : Supported data name key md) (hhotp : isHotp key = false)
    (hroom : 1 ≤ Sdk.usbBufferSize) :
    calculateStart request s = (.ok ⟨fid, data, key, none, chal⟩, { s with resApdu := [UInt8.ofNat tagResponse + request.p2] }) := by
  obtain ⟨named, hname, rfl⟩ := Option.map_eq_some_iff.mp hasks.named
  obtain ⟨given, hgiven, rfl⟩ := Option.map_eq_some_iff.mp hasks.challenge
  obtain ⟨stored, hstored⟩ := hsupported.stored
  have hno : decide (byteAt key 0 &&& oathTypeMask = oathTypeHotp) = false := hhotp
  have hfirst : oathResponseHasRoom s 1 = true := by
    rw [hasRoom_iff (by rw [hempty]; exact Nat.zero_le _), hempty]
    exact hroom
  unfold calculateStart
  rw [refuseIf_false (not_and_or.mpr (hp2.imp not_not_intro not_not_intro)), pure_bind]
  rcases requireValidated_run s with ⟨hlocked, -⟩ | ⟨-, hrequired⟩
  · rw [hvalidated] at hlocked
    cases hlocked
  rw [bind_eq hrequired, hgiven, orFail_some_bind, hname, orFail_some_bind, bind_eq (getFiles_run s), hfound, orFail_some_bind,
    hdata, orFail_some_bind, hstored, orFail_some_bind, hsupported.readable, orFail_some_bind, hno,
    refuseIf_false (fun h => Bool.false_ne_true h.1), pure_bind, bind_eq (get_run s), hfirst, refuseIf_false nofun, pure_bind]
  change (Except.ok _, { s with resApdu := s.resApdu ++ _ }) = _
  rw [hempty]
  rfl

/-- CALCULATE of a credential that is not HOTP answers its code where there is room for it. -/
theorem cmdCalculate_code (hp2 : request.p2 = 0 ∨ request.p2 = 1) (hvalidated : s.validated = true) (hempty : s.resApdu = [])
    (hasks : AsksFor request p2 name chal) (hfound : findOathCred s.store.view name = some fid)
    (hdata : fileData s.store.view fid = some data) (hsupported : Supported data name key md) (hhotp : isHotp key = false)
    (hcode : codeBytes request.p2 key chal = some code) (hroom : 8 ≤ Sdk.usbBufferSize) (hfits : 1 + code.length ≤ Sdk.usbBufferSize) :
    cmdCalculate request s = (.ok (), { s with resApdu := [UInt8.ofNat tagResponse + request.p2] ++ code }) := by
  have hlater : ({ s with resApdu := [UInt8.ofNat tagResponse + request.p2] } : OathState).resApdu.length ≤ Sdk.usbBufferSize := by
    rw [List.length_singleton]
    omega
  have hstart := calculateStart_code hp2 hvalidated hempty hasks hfound hdata hsupported hhotp (by omega)
  rw [cmdCalculate_eq, bind_eq hstart, bind_run, mapError]
  rcases calculateOath_run request.p2 key chal { s with resApdu := [UInt8.ofNat tagResponse + request.p2] } with
    ⟨code', hcode', -, hrun⟩ | ⟨-, hno⟩
  · obtain rfl := Option.some.inj (hcode.symm.trans hcode')
    rw [hrun]
    rfl
  · have hfull := (hasRoom_iff hlater (codeRoom request.p2 code)).not.mp (by rw [hno code hcode]; exact Bool.false_ne_true)
    rw [List.length_singleton] at hfull
    rcases codeRoom_code hcode with ⟨-, hneed, -⟩ | ⟨-, hneed⟩ <;> omega

/-- A CALCULATE that succeeds had a code. -/
theorem cmdCalculate_answers (hempty : s.resApdu = []) (hasks : AsksFor request p2 name chal)
    (hfound : findOathCred s.store.view name = some fid) (hdata : fileData s.store.view fid = some data)
    (hsupported : Supported data name key md) (hhotp : isHotp key = false) (h : cmdCalculate request s = (.ok (), s')) :
    ∃ code, codeBytes request.p2 key chal = some code ∧ s'.resApdu = [UInt8.ofNat tagResponse + request.p2] ++ code := by
  rcases cmdCalculate_run request s with ⟨e, t, hfail, -⟩ | ⟨c, code, t, hrun, hc, hcode, hresponse, -⟩
  · rw [hfail] at h
    cases h
  obtain rfl : t = s' := congrArg Prod.snd (hrun.symm.trans h)
  obtain ⟨named, hname, hfind⟩ := hc.found
  have hsame : named.data = name := by
    have hnamed := hasks.named
    rw [lookup, hname, Option.map_some] at hnamed
    exact Option.some.inj hnamed
  have hfid : fid = c.fid := Option.some.inj (hfound.symm.trans (hsame ▸ hfind))
  have hrecord : data = c.data := Option.some.inj (hdata.symm.trans (hfid ▸ hc.data))
  have hkey : key = c.key := Option.some.inj (hsupported.readable.symm.trans (hrecord ▸ hc.key))
  obtain ⟨given, hgiven, hinput⟩ := hc.input
  have himf : c.imf = none := by
    rw [hc.imf, ← hkey, hhotp]
    rfl
  have hchal : chal = c.input := by
    have hchallenge := hasks.challenge
    rw [lookup, hgiven, Option.map_some] at hchallenge
    rw [hinput, himf, Option.getD_none]
    exact (Option.some.inj hchallenge).symm
  exact ⟨code, by rw [hkey, hchal, hcode], by rw [hresponse, hempty, List.nil_append]⟩

end
end

/-! ### Agreement -/

/-- The entry of the credential in a file: its name, then the digits of one that is HOTP or asks for a touch, or else what
CALCULATE answers. -/
def Answers (s : OathState) (p2 : UInt8) (chal : Bytes) (fid : Nat) (entry : Bytes) : Prop :=
  ∃ data name key rest, fileData s.store.view fid = some data ∧ lookup data tagName = some name ∧ recordKey data = some key ∧
    entry = nameField name ++ rest ∧
    if isHotp key then rest = [UInt8.ofNat tagNoResponse, 1, byteAt key 1]
    else if touchRequired data then rest = [UInt8.ofNat tagTouchResponse, 1, byteAt key 1]
    else ∀ request, AsksFor request p2 name chal →
      ∃ t, cmdCalculate request { s with resApdu := [] } = (.ok (), t) ∧ t.resApdu = rest

/-- Every code can be computed, and the whole answers have room. -/
def CodesFit (files : Files) (p2 : UInt8) (chal : Bytes) : Prop :=
  (∀ data ∈ storedRecords files, Computable chal data) ∧
    ((storedRecords files).map (answerLength p2)).sum ≤ Sdk.usbBufferSize

section
variable {apdu : Apdu} {chal data name key : Bytes} {md : Md} {s s' : OathState} {fid : Nat}

theorem cmdCalculateAll_ok (hchal : lookup apdu.data tagChallenge = some chal) (h : cmdCalculateAll apdu s = (.ok (), s')) :
    (apdu.p2 = 0 ∨ apdu.p2 = 1) ∧ s.validated = true ∧
      forEach (storedRecords s.store.view) (calculateAllEntry apdu chal) { s with resApdu := [] } = (.ok (), s') := by
  unfold cmdCalculateAll at h
  obtain ⟨hp2, h⟩ := refuseIf_bind_ok h
  rcases requireValidated_run s with ⟨-, hrefused⟩ | ⟨hvalidated, hrequired⟩
  · rw [bind_run, hrefused] at h
    cases h
  rw [bind_eq hrequired] at h
  obtain ⟨given, _, hgot, h⟩ := bind_ok h
  obtain ⟨hgiven, rfl⟩ := orFail_ok hgot
  have hcleared : (clearResponse : OathOp Unit) s = (.ok (), { s with resApdu := [] }) := rfl
  rw [bind_eq hcleared] at h
  change (getFiles >>= _) { s with resApdu := [] } = _ at h
  rw [bind_eq (getFiles_run _)] at h
  refine ⟨by rwa [not_and_or, not_not, not_not] at hp2, hvalidated, ?_⟩
  rw [lookup, hgiven, Option.map_some] at hchal
  rw [← Option.some.inj hchal, ← h]
  exact (congrFun (forEach_filterMap (fun fid hfid => by rw [hfid]) (fun fid data hfid => by rw [hfid]) _) _).symm

/-- The credential in a file, found under its name. -/
structure StoredIn (files : Files) (fid : Nat) (data name key : Bytes) (md : Md) : Prop where
  file : fileData files fid = some data
  found : findOathCred files name = some fid
  supported : Supported data name key md
  stored : data ∈ storedRecords files

theorem distinct_of_nodup {files : Files} (hnamed : ∀ fid ∈ storedFids files, nameAt files fid ≠ none)
    (hnodup : ((storedFids files).map (nameAt files)).Nodup) : Distinct files where
  named fid hfid hdata := Option.ne_none_iff_exists'.mp (hnamed fid (mem_storedFids.mpr ⟨hfid, hdata⟩))
  unique fid fid' name hfid hfid' hname hname' := by
    have hstored : ∀ {k}, CredFile k → nameAt files k = some name → k ∈ storedFids files := fun hk hk' => by
      obtain ⟨data, -, -, hdata, -⟩ := nameAt_some hk'
      exact mem_storedFids.mpr ⟨hk, by rw [hdata]; exact Option.some_ne_none data⟩
    exact List.inj_on_of_nodup_map hnodup (hstored hfid hname) (hstored hfid' hname') (hname.trans hname'.symm)

variable [TlvCorrect]

theorem exists_storedIn {files : Files} (hdistinct : Distinct files) (hsupported : EachSupported (storedRecords files))
    (hfid : CredFile fid) (hdata : fileData files fid = some data) : ∃ name key md, StoredIn files fid data name key md := by
  have hmem := mem_storedRecords.mpr ⟨fid, hfid, hdata⟩
  obtain ⟨name, key, md, hsup⟩ := hsupported data hmem
  have hname : nameAt files fid = some name := nameAt_record (fileData_some.mp hdata).1 hsup.named
  exact ⟨name, key, md, hdata, findOathCred_unique hfid hname fun k hk hk' => hdistinct.unique k fid name hk hfid hk' hname, hsup, hmem⟩

theorem value_fits {tag : Nat} {value : Bytes} (h : lookup data tag = some value) : value.length < 65536 := by
  obtain ⟨items, tail, hparsed⟩ := exists_parsed data
  rw [hparsed.lookup, valueOf] at h
  obtain ⟨i, -, rfl⟩ := Option.map_eq_some_iff.mp h
  exact i.fits.lt

/-- There is a request for every name and challenge that can be read from one. -/
theorem exists_asksFor (p2 : UInt8) (hname : name.length < 65536) (hchal : chal.length < 65536) :
    ∃ request, AsksFor request p2 name chal := by
  let items : List Item := [⟨tagName, .least name.length, name, by decide, Tlv.Form.least_fits hname⟩,
    ⟨tagChallenge, .least chal.length, chal, by decide, Tlv.Form.least_fits hchal⟩]
  exact ⟨⟨0, insCalculate, 0, p2, encode items⟩, rfl, (parsed_encode items).lookup tagName, (parsed_encode items).lookup tagChallenge⟩

/-- An entry that agrees with CALCULATE has the length of a whole answer, and its code can be computed. -/
theorem StoredIn.answers {p2 : UInt8} {entry : Bytes} (h : StoredIn s.store.view fid data name key md)
    (hchal : chal.length < 65536) (hentry : Answers s p2 chal fid entry) :
    entry.length = answerLength p2 data ∧ Computable chal data := by
  obtain ⟨data', name', key', rest, hfile, hname, hkey, rfl, hrest⟩ := hentry
  obtain rfl := Option.some.inj (h.file.symm.trans hfile)
  obtain rfl := Option.some.inj (h.supported.named.symm.trans hname)
  obtain rfl := Option.some.inj (h.supported.readable.symm.trans hkey)
  suffices htail : tailOf p2 chal data key = some rest by
    refine ⟨?_, (h.supported.computable_iff p2).mpr fun hgives hnone => ?_⟩
    · rw [List.length_append, nameField_length, tailOf_length htail, h.supported.answerLength_eq]
    · rw [tailOf, if_neg (by rw [hgives.1]; nofun), if_neg (by rw [hgives.2]; nofun), hnone] at htail
      cases htail
  unfold tailOf
  split at hrest
  · next hhotp => rw [if_pos hhotp, hrest]
  · next hhotp =>
    rw [if_neg hhotp]
    split at hrest
    · next htouch => rw [if_pos htouch, hrest]
    · next htouch =>
      obtain ⟨request, hasks⟩ := exists_asksFor p2 (value_fits hname) hchal
      obtain ⟨t, hrun, rfl⟩ := hrest request hasks
      obtain ⟨code, hcode, hresponse⟩ :=
        @cmdCalculate_answers _ chal data name key _ { s with resApdu := [] } t request p2 fid rfl hasks h.found h.file h.supported
          (Bool.eq_false_iff.mpr hhotp) hrun
      rw [hasks.p2] at hcode hresponse
      rw [if_neg htouch, hcode, hresponse, Option.map_some]

omit [TlvCorrect] in
/-- A whole answer agrees with CALCULATE. -/
theorem StoredIn.agrees {p2 : UInt8} (h : StoredIn s.store.view fid data name key md) (hp2 : p2 = 0 ∨ p2 = 1) (hvalidated : s.validated = true)
    (hcomputable : Computable chal data) (hanswerable : Answerable data) (hroom : answerLength p2 data ≤ Sdk.usbBufferSize) :
    Answers s p2 chal fid (answer p2 chal data) := by
  obtain ⟨tail, htail⟩ := h.supported.tail hcomputable p2
  refine ⟨data, name, key, tail, h.file, h.supported.named, h.supported.readable, by rw [h.supported.answer_eq, htail, Option.getD_some], ?_⟩
  unfold tailOf at htail
  split at htail
  · next hhotp => rw [if_pos hhotp, Option.some.inj htail]
  · next hhotp =>
    rw [if_neg hhotp]
    split at htail
    · next htouch => rw [if_pos htouch, Option.some.inj htail]
    · next htouch =>
      rw [if_neg htouch]
      intro request hasks
      have hgives : GivesCode data key := ⟨Bool.eq_false_iff.mpr hhotp, Bool.eq_false_iff.mpr htouch⟩
      obtain ⟨code, hcode, rfl⟩ := Option.map_eq_some_iff.mp htail
      have hasked := (hanswerable name key h.supported.named h.supported.readable).2
      rw [tailRoom, if_neg hgives.not_digits] at hasked
      rw [h.supported.answerLength_eq, tailLength_code hgives hcode] at hroom
      refine ⟨_, cmdCalculate_code (hasks.p2 ▸ hp2) hvalidated rfl hasks h.found h.file h.supported hgives.1
        (hasks.p2 ▸ hcode) (by omega) (by omega), by rw [hasks.p2]⟩

/-- A response that agrees with CALCULATE has the length of the whole answers. -/
theorem agrees_length {p2 : UInt8} {response : Bytes} (hdistinct : Distinct s.store.view)
    (hsupported : EachSupported (storedRecords s.store.view)) (hchal : chal.length < 65536)
    (h : EntryEach s.store.view (Answers s p2 chal) response) :
    response.length = ((storedRecords s.store.view).map (answerLength p2)).sum := by
  refine h.length fun fid data entry hfid hdata hentry => ?_
  obtain ⟨name, key, md, hstored⟩ := exists_storedIn hdistinct hsupported hfid hdata
  exact (hstored.answers hchal hentry).1

/-- CALCULATE ALL, where it succeeds, agrees with CALCULATE exactly if every code can be computed and all the whole answers
have room in one response. -/
theorem calculate_all_agrees_iff (hdistinct : Distinct s.store.view) (hsupported : EachSupported (storedRecords s.store.view))
    (hchal : lookup apdu.data tagChallenge = some chal) (hrun : cmdCalculateAll apdu s = (.ok (), s')) :
    (s' = { s with resApdu := s'.resApdu } ∧ EntryEach s.store.view (Answers s apdu.p2 chal) s'.resApdu) ↔
      CodesFit s.store.view apdu.p2 chal := by
  obtain ⟨hp2, hvalidated, hentries⟩ := cmdCalculateAll_ok hchal hrun
  obtain ⟨hanswerable, hfits, hframe, hwhole⟩ := calculateAllEntries_ok hsupported (Nat.zero_le _) hentries
  constructor
  · rintro ⟨-, hagrees⟩
    refine ⟨fun data hdata => ?_, by rw [← agrees_length hdistinct hsupported (value_fits hchal) hagrees]; exact hfits⟩
    obtain ⟨fid, hfid, hfile⟩ := mem_storedRecords.mp hdata
    obtain ⟨entry, hentry⟩ := hagrees.entry hfid (by rw [hfile]; exact Option.some_ne_none data)
    obtain ⟨name, key, md, hstored⟩ := exists_storedIn hdistinct hsupported hfid hfile
    exact (hstored.answers (value_fits hchal) hentry).2
  · rintro ⟨hcomputable, hroom⟩
    refine ⟨hframe, ?_⟩
    rw [hwhole hcomputable (by rwa [List.length_nil, Nat.zero_add]), List.nil_append]
    refine entryEach_flatMap fun fid data hfid hdata => ?_
    obtain ⟨name, key, md, hstored⟩ := exists_storedIn hdistinct hsupported hfid hdata
    refine hstored.agrees hp2 hvalidated (hcomputable data hstored.stored) (hanswerable data hstored.stored) ?_
    exact (List.single_le_sum (fun _ _ => Nat.zero_le _) _ (List.mem_map_of_mem hstored.stored)).trans hroom

end
end
section Plain
attribute [local instance] readerSdk

private def putCred (name key : Bytes) : Apdu :=
  ⟨0, insPut, 0, 0, [0x71] ++ (Tlv.Form.least name.length).bytes name.length ++ name ++ [0x73, UInt8.ofNat key.length] ++ key⟩

/-- The card after some credentials have been put, each a key behind a name. -/
private def filledCard (creds : List (Bytes × Bytes)) : OathState :=
  (forEach creds (fun cred => cmdPut (putCred cred.1 cred.2)) (emptyCard [])).2

private def allApdu (p2 : UInt8) : Apdu := ⟨0, insCalcAll, 0, p2, [0x74, 8, 0, 0, 0, 0, 2, 0xbc, 0xad, 0xc8]⟩

private def sha1Key : Bytes := [0x21, 6, 9]

/-- Seven names of 250 bytes and one of 100. -/
private def longNames : List (Bytes × Bytes) :=
  ((List.range 7).map fun i => (UInt8.ofNat i :: List.replicate 249 0x61, sha1Key)) ++ [(List.replicate 100 0x62, sha1Key)]

private def longCard : OathState := filledCard longNames

private theorem supported_records {s : OathState} (h : ∀ data ∈ storedRecords s.store.view, lookup data tagName ≠ none ∧
    ∃ key ∈ [[0x21, 6, 9], [0x11, 6, 9]], recordKey data = some key) : EachSupported (storedRecords s.store.view) := by
  intro data hdata
  obtain ⟨hname, key, hkey, hrecord⟩ := h data hdata
  obtain ⟨name, hname⟩ := Option.ne_none_iff_exists'.mp hname
  refine ⟨name, key, .sha1, hname, hrecord, ?_⟩
  rcases List.mem_pair.mp hkey with rfl | rfl <;> rfl

/-- The last code has no room behind its name, and CALCULATE ALL succeeds without it. -/
theorem last_code_missing : forEach longNames (fun cred => cmdPut (putCred cred.1 cred.2)) (emptyCard []) = (.ok (), longCard) ∧
    Distinct longCard.store.view ∧ EachSupported (storedRecords longCard.store.view) ∧
    lookup (allApdu 0).data tagChallenge = some [0, 0, 0, 0, 2, 0xbc, 0xad, 0xc8] ∧
    ∃ s', cmdCalculateAll (allApdu 0) longCard = (.ok (), s') ∧
      ¬ EntryEach longCard.store.view (Answers longCard 0 [0, 0, 0, 0, 2, 0xbc, 0xad, 0xc8]) s'.resApdu := by
  obtain ⟨hput, hnamed, hnodup, hrecords, hchallenge, hall, hshort⟩ :
      (forEach longNames (fun cred => cmdPut (putCred cred.1 cred.2)) (emptyCard [])).1 = .ok () ∧
      (∀ fid ∈ storedFids longCard.store.view, nameAt longCard.store.view fid ≠ none) ∧
      ((storedFids longCard.store.view).map (nameAt longCard.store.view)).Nodup ∧
      (∀ data ∈ storedRecords longCard.store.view, lookup data tagName ≠ none ∧
        ∃ key ∈ [[0x21, 6, 9], [0x11, 6, 9]], recordKey data = some key) ∧
      lookup (allApdu 0).data tagChallenge = some [0, 0, 0, 0, 2, 0xbc, 0xad, 0xc8] ∧
      (cmdCalculateAll (allApdu 0) longCard).1 = .ok () ∧
      (cmdCalculateAll (allApdu 0) longCard).2.resApdu.length ≠ ((storedRecords longCard.store.view).map (answerLength 0)).sum := by
    decide +kernel
  have hdistinct := distinct_of_nodup hnamed hnodup
  have hsupported := supported_records hrecords
  have hchal : ([0, 0, 0, 0, 2, 0xbc, 0xad, 0xc8] : Bytes).length < 65536 := by decide
  exact ⟨run_of_ok hput, hdistinct, hsupported, hchallenge, _, run_of_ok hall, fun hagrees =>
    absurd (agrees_length hdistinct hsupported hchal hagrees) hshort⟩

private def mixedCard : OathState := filledCard [([0x74], sha1Key), ([0x68], [0x11, 6, 9])]

theorem mixed_card_agrees : ∃ s', cmdCalculateAll (allApdu 1) mixedCard = (.ok (), s') ∧
    s' = { mixedCard with resApdu := s'.resApdu } ∧
    EntryEach mixedCard.store.view (Answers mixedCard 1 [0, 0, 0, 0, 2, 0xbc, 0xad, 0xc8]) s'.resApdu := by
  obtain ⟨hall, hnamed, hnodup, hrecords, hchallenge, hroom⟩ :
      (cmdCalculateAll (allApdu 1) mixedCard).1 = .ok () ∧
      (∀ fid ∈ storedFids mixedCard.store.view, nameAt mixedCard.store.view fid ≠ none) ∧
      ((storedFids mixedCard.store.view).map (nameAt mixedCard.store.view)).Nodup ∧
      (∀ data ∈ storedRecords mixedCard.store.view, lookup data tagName ≠ none ∧
        ∃ key ∈ [[0x21, 6, 9], [0x11, 6, 9]], recordKey data = some key) ∧
      lookup (allApdu 1).data tagChallenge = some [0, 0, 0, 0, 2, 0xbc, 0xad, 0xc8] ∧
      ((storedRecords mixedCard.store.view).map (answerLength 1)).sum ≤ Sdk.usbBufferSize := by
    decide +kernel
  have hrun := run_of_ok hall
  refine ⟨_, hrun, (calculate_all_agrees_iff (distinct_of_nodup hnamed hnodup) (supported_records hrecords) hchallenge hrun).mpr
    ⟨fun data _ key md _ _ _ => ?_, hroom⟩⟩
  exact Option.some_ne_none _

end Plain
end FidoTouch.Oath
