import FidoTouch.Oath.Hotp

/-! Which moving factors of a HOTP credential are used, by CALCULATE and by VERIFY CODE. The second does not write the next
one, so a code that it accepts can be given out or accepted again. -/
namespace FidoTouch.Oath
open FidoTouch.Program Handler FidoTouch.Storage
open Tlv (Item encode valueOf)

section
variable [Sdk]

/-- Whether the code in a request is the one of a key and a moving factor, computed behind what the response holds. -/
def codeMatches (apdu : Apdu) (response key factor : Bytes) : Bool :=
  match Sdk.tlvFindTag apdu.data tagResponse, codeBytes 0x01 key factor with
  | some given, some code =>
    beNat ((List.range 4).map fun i => byteAt (response ++ code) (2 + i)) %
      (if byteAt (response ++ code) 1 = 6 then 1000000 else 100000000) = beNat given.data
  | _, _ => false

/-- The code in a request is the one that the credential in a file gives next. -/
def Input.Guesses (fid : Nat) (s : OathState) : Input → Prop
  | .select => False
  | .apdu a => ∃ data key imf, fileData s.store.view fid = some data ∧ recordKey data = some key ∧ lookup data tagImf = some imf ∧
      codeMatches a s.resApdu key imf = true

/-- VERIFY CODE accepts the code of the moving factor that stands in the record. -/
theorem cmdVerifyHotp_accepts {apdu : Apdu} {s s' : OathState} (h : cmdVerifyHotp apdu s = (.ok (), s')) :
    ∃ name fid, Sdk.tlvFindTag apdu.data tagName = some name ∧ findOathCred s.store.view name.data = some fid ∧
      (Input.apdu apdu).Guesses fid s := by
  unfold cmdVerifyHotp at h
  rcases requireValidated_run s with ⟨-, hrefused⟩ | ⟨-, hrequired⟩
  · rw [bind_run, hrefused] at h
    cases h
  rw [bind_eq hrequired] at h
  obtain ⟨name, _, h1, h⟩ := bind_ok h
  obtain ⟨hname, rfl⟩ := orFail_ok h1
  rw [bind_eq (getFiles_run s)] at h
  obtain ⟨fid, _, h2, h⟩ := bind_ok h
  obtain ⟨hfind, rfl⟩ := orFail_ok h2
  obtain ⟨data, _, h3, h⟩ := bind_ok h
  obtain ⟨hdata, rfl⟩ := orFail_ok h3
  obtain ⟨_, _, h4, h⟩ := bind_ok h
  obtain ⟨-, rfl⟩ := orFail_ok h4
  obtain ⟨key, _, h5, h⟩ := bind_ok h
  obtain ⟨hkey, rfl⟩ := orFail_ok h5
  obtain ⟨-, h⟩ := refuseIf_bind_ok h
  obtain ⟨imf, _, h6, h⟩ := bind_ok h
  obtain ⟨himf, rfl⟩ := orFail_ok h6
  obtain ⟨-, h⟩ := refuseIf_bind_ok h
  obtain ⟨given, _, h7, h⟩ := bind_ok h
  obtain ⟨hgiven, rfl⟩ := orFail_ok h7
  obtain ⟨-, h⟩ := refuseIf_bind_ok h
  obtain ⟨_, t, h8, h⟩ := bind_ok h
  rw [bind_eq (get_run _)] at h
  obtain ⟨hcode, -⟩ := refuseIf_bind_ok h
  rcases calculateOath_run 0x01 key imf.data s with ⟨code, hcalculated, -, hcalc⟩ | ⟨⟨e, hcalc⟩, -⟩ <;> rw [mapError, hcalc] at h8
  · obtain rfl : { s with resApdu := s.resApdu ++ code } = t := congrArg Prod.snd h8
    refine ⟨name, fid, hname, hfind, data, key, imf.data, hdata, hkey, by rw [lookup, himf, Option.map_some], ?_⟩
    simp only [codeMatches, hgiven, hcalculated, decide_eq_true_eq]
    exact not_not.mp hcode
  · cases h8

/-- A VERIFY CODE of the credential in a file that accepts the code. -/
def verified (fid : Nat) (t : AppletMove) : Bool := decide (t.input.Names insVerifyCode fid t.before) && t.output

/-- The moving factor is given out in a code, or accepted in one. -/
def usesFactor (fid : Nat) (t : AppletMove) : Bool := calculated fid t || verified fid t

/-- The moving factor of the credential in a file. -/
def factorAt (files : Files) (fid : Nat) : Option Nat :=
  (fileData files fid).bind fun data => (lookup data tagImf).map fun imf => beNat (imf.take 8)

/-- A step between two PUTs of a credential, and its DELETE: no code of it is guessed, its new factor is written, its new
name takes the place of the old one, and a record that is stored again is not too long. -/
structure Steady (fid : Nat) (t : AppletMove) : Prop where
  kept : ¬ t.input.Names insPut fid t.before ∧ ¬ t.input.Names insDelete fid t.before ∧ ¬ t.input.Resets
  unguessed : t.input.Names insVerifyCode fid t.before → ¬ t.input.Guesses fid t.before
  written : calculated fid t = true → t.before.store.fates.head? ≠ some false
  renamed : t.input.Names insRename fid t.before → t.input.NewNameFits t.before
  sized : t.input = .select → ∀ record, t.before.store.view fid = some record → reencodedLength record ≤ uint16Max

theorem verified_guesses {fid : Nat} {s : OathState} {i : Input} (h : verified fid (applet.move s i) = true) :
    i.Names insVerifyCode fid s ∧ i.Guesses fid s := by
  rw [verified, Bool.and_eq_true, decide_eq_true_iff] at h
  obtain ⟨hnames, hok⟩ := h
  cases i with
  | select => exact hnames.elim
  | apdu apdu =>
    refine ⟨hnames, ?_⟩
    have hok' : (oathProcessApdu apdu s).1.toBool = true := hok
    obtain ⟨hins, hfound⟩ := hnames
    rcases oathProcessApdu_cmd apdu s with ⟨-, -, cmd, hmem, hcmd, hrun⟩ | ⟨e, hrun⟩ <;> rw [hrun] at hok'
    · have hverify : cmd.2 = cmdVerifyHotp := by
        have hins' : cmd.1 = insVerifyCode := hcmd.trans hins
        simp only [cmds, List.mem_cons, List.not_mem_nil, or_false] at hmem
        rcases hmem with rfl | rfl | rfl | rfl | rfl | rfl | rfl | rfl | rfl | rfl | rfl | rfl | rfl | rfl | rfl <;>
          first
            | rfl
            | (dsimp only at hins'; exact absurd hins' (by decide))
      rw [hverify] at hok'
      rcases hverified : cmdVerifyHotp apdu s with ⟨_ | _, s'⟩ <;> rw [hverified] at hok'
      · cases hok'
      · obtain ⟨name, k, hname, hk, hguesses⟩ := cmdVerifyHotp_accepts hverified
        have hsame : (Sdk.tlvFindTag apdu.data tagName).bind (fun name => findOathCred s.store.view name.data) = some fid := hfound
        rw [hname, Option.bind_some, hk] at hsame
        rwa [← Option.some.inj hsame]
    · cases hok'

variable [TlvCorrect] {key rest record : Bytes} {v : Nat}

/-- A record that is stored again is one of the same credential. -/
theorem HotpRecord.stored (hciphers : OathCiphers) (h : HotpRecord key rest v record) {record' : Bytes} (hstored : StoredAs record record')
    (hsized : reencodedLength record ≤ uint16Max) : HotpRecord key rest v record' where
  clear := hstored.recordKey hciphers hsized h.clear
  hotp := h.hotp
  imf := (hstored.lookup_ne hciphers hsized (by decide)).trans h.imf

/-- A record that gets a new name is one of the same credential. -/
theorem HotpRecord.renamed (h : HotpRecord key rest v record) {old : TlvField} {new : Bytes}
    (hold : Sdk.tlvFindTag record tagName = some old) (hfits : NameFits record new) :
    HotpRecord key rest v (renamedRecord record old new) where
  clear := by rw [recordKey_eq, lookup_renamed_ne hold hfits (by decide), ← recordKey_eq, h.clear]
  hotp := h.hotp
  imf := (lookup_renamed_ne hold hfits (by decide)).trans h.imf

theorem HotpRecord.factorAt {files : Files} {fid : Nat} (h : HotpRecord key rest v record) (hfile : files fid = some record) :
    factorAt files fid = some (v % 2 ^ 64) := by
  have hvalue : beNat (beBytes 8 v) = v % 2 ^ 64 := beNat_beBytes 8 v
  rw [Oath.factorAt, fileData_some.mpr ⟨hfile, lookup_ne_nil h.imf⟩, Option.bind_some, h.imf, Option.map_some,
    List.take_left' (beBytes_length 8 v), hvalue]

/-- A file holds a record of a HOTP credential with a certain moving factor. -/
def HotpAt (key rest : Bytes) (fid v : Nat) (s : OathState) : Prop := ∃ record, s.store.view fid = some record ∧ HotpRecord key rest v record

omit [TlvCorrect] in
private theorem rewritten_hotp {fid : Nat} {s s' : OathState} {record' : Bytes} (hfile : s.store.view fid = some record)
    (h : HotpRecord key rest v record) (h' : HotpRecord key rest v record') (hwritten : Rewritten fid record' s s') :
    HotpAt key rest fid v s' := by
  rcases hwritten with ⟨hview, -⟩ | ⟨hview, -⟩
  · exact ⟨record', by rw [hview, Function.update_self], h'⟩
  · exact ⟨record, by rw [hview, hfile], h⟩

/-- A RENAME of the credential leaves its moving factor alone. -/
private theorem rename_hotp {fid : Nat} {s : OathState} {apdu : Apdu} (hat : HotpAt key rest fid v s)
    (hnames : (Input.apdu apdu).Names insRename fid s) (hfits : (Input.apdu apdu).NewNameFits s) :
    HotpAt key rest fid v (perform (.apdu apdu) s) := by
  obtain ⟨record, hfile, hrecord⟩ := hat
  have heffect := oathProcessApdu_effect apdu s
  have hins : ∀ ins, ins ≠ insRename → apdu.ins ≠ ins := fun ins hne heq => hne (heq.symm.trans hnames.1)
  have hperform : perform (.apdu apdu) s = (oathProcessApdu apdu s).2 := rfl
  rw [hperform]
  generalize oathProcessApdu apdu s = p at heffect
  cases heffect with
  | refused h => exact ⟨record, (congrFun h fid).trans hfile, hrecord⟩
  | other hother => exact absurd (by rw [hnames.1]; decide) hother
  | put heq => exact absurd heq (hins _ (by decide))
  | deleted heq => exact absurd heq (hins _ (by decide))
  | reset heq => exact absurd heq (hins _ (by decide))
  | calculated heq => exact absurd heq (hins _ (by decide))
  | @renamed name new data k old s' _ h hwritten =>
    obtain ⟨field, hfirst, hname⟩ := h.first
    have hsame := hnames.2
    rw [hfirst, Option.bind_some, hname, h.found] at hsame
    obtain rfl : k = fid := Option.some.inj hsame
    obtain rfl : record = data := Option.some.inj (hfile.symm.trans (fileData_some.mp h.record).1)
    exact rewritten_hotp hfile hrecord (hrecord.renamed h.field (hfits _ _ _ _ h.names h.found h.record)) hwritten

/-- CALCULATE gives the code of the moving factor that stands in the record. -/
theorem calculated_code {fid : Nat} {s : OathState} {i : Input} (hfid : CredFile fid) (hat : HotpAt key rest fid v s)
    (h : calculated fid (applet.move s i) = true) : ∃ apdu code, i = .apdu apdu ∧
      codeBytes apdu.p2 key (beBytes 8 v ++ rest) = some code ∧
      (perform i s).resApdu = s.resApdu ++ [UInt8.ofNat tagResponse + apdu.p2] ++ code := by
  obtain ⟨record, hfile, hrecord⟩ := hat
  obtain ⟨o, himf⟩ := hrecord.field
  cases i with
  | select => cases h
  | apdu apdu =>
    have hcalculated := calculated_apdu.mp h
    have hreplaces : ¬ (Input.apdu apdu).Replaces fid s := fun hreplaces => by
      have hins := hreplaces.ins
      rw [hcalculated.1.1] at hins
      exact absurd hins (by decide)
    rcases (oathProcessApdu_effect apdu s).hotp hfid hfile hrecord himf hreplaces with ⟨-, hno⟩ | ⟨-, code, hcode, hresponse, -⟩
    · exact absurd hcalculated hno
    · exact ⟨apdu, code, rfl, hcode, hresponse⟩

/-- A step takes as many moving factors as it uses. -/
theorem steady_step (hciphers : OathCiphers) {fid n : Nat} (hfid : CredFile fid) {s : OathState} {i : Input}
    (hat : HotpAt key rest fid (v + n) s) (hi : Steady fid (applet.move s i)) :
    HotpAt key rest fid (v + (n + (usesFactor fid (applet.move s i)).toNat)) (perform i s) := by
  have hunverified : verified fid (applet.move s i) = false := Bool.eq_false_iff.mpr fun h => by
    obtain ⟨hnames, hguesses⟩ := verified_guesses h
    exact hi.unguessed hnames hguesses
  rw [usesFactor, hunverified, Bool.or_false]
  cases i with
  | select =>
    obtain ⟨record, hfile, hrecord⟩ := hat
    rcases oathSelect_migrates s fid hfid with hsame | ⟨data, record', hdata, hstored, hfile'⟩
    · exact ⟨record, hsame.trans hfile, hrecord⟩
    · obtain rfl : record = data := Option.some.inj (hfile.symm.trans hdata)
      exact ⟨record', hfile', hrecord.stored hciphers hstored (hi.sized rfl record hfile)⟩
  | apdu apdu =>
    by_cases hrename : (Input.apdu apdu).Names insRename fid s
    · have hno : calculated fid (applet.move s (.apdu apdu)) = false := Bool.eq_false_iff.mpr fun h => by
        have hcalculate := (calculated_apdu.mp h).1.1
        rw [hrename.1] at hcalculate
        exact absurd hcalculate (by decide)
      rw [hno]
      exact rename_hotp hat hrename (hi.renamed hrename)
    · obtain ⟨record, hfile, hrecord⟩ := hat
      obtain ⟨o, himf⟩ := hrecord.field
      obtain ⟨hput, hdelete, hreset⟩ := hi.kept
      have hreplaces : ¬ (Input.apdu apdu).Replaces fid s := by
        rintro (h | h | h | h)
        · exact hput h
        · exact hdelete h
        · exact hrename h
        · exact hreset h
      rcases (oathProcessApdu_effect apdu s).hotp hfid hfile hrecord himf hreplaces with ⟨hview, hno⟩ | ⟨hyes, code, hcode, -, hwritten⟩
      · rw [Bool.eq_false_iff.mpr fun h => hno (calculated_apdu.mp h)]
        exact ⟨record, hview, hrecord⟩
      · have hcalculated := calculated_apdu.mpr hyes
        rw [hcalculated]
        rcases hwritten with ⟨hview, -⟩ | ⟨-, hfate⟩
        · exact ⟨_, (congrFun hview fid).trans (Function.update_self ..), hrecord.written himf _⟩
        · exact absurd hfate (hi.written hcalculated)

end
section Plain
attribute [local instance] readerSdk

/-- The code of the first moving factor. -/
private def hotpVerify : Apdu := ⟨0, insVerifyCode, 0, 0, [0x71, 1, 0x61, 0x75, 4, 0x00, 0x06, 0xfc, 0xa3]⟩

private theorem steady_calculate {s : OathState} {p : UInt8} (hfate : s.store.fates.head? ≠ some false) :
    Steady efOathCred (applet.move s (.apdu (hotpCalculate p))) where
  kept := ⟨fun h => absurd h.1 (by show ¬ insCalculate = insPut; decide), fun h => absurd h.1 (by show ¬ insCalculate = insDelete; decide),
    fun h => absurd h.1 (by show ¬ insCalculate = insReset; decide)⟩
  unguessed h := absurd h.1 (by show ¬ insCalculate = insVerifyCode; decide)
  written _ := hfate
  renamed h := absurd h.1 (by show ¬ insCalculate = insRename; decide)
  sized h := nomatch h

end Plain
end FidoTouch.Oath
