import Mathlib.Data.List.Induction
import FidoTouch.Oath.Lookups
import FidoTouch.Oath.Migration
import FidoTouch.Program.Runs

/-! The moving factor of a HOTP credential: how PUT stores it, and which factor each CALCULATE of a run takes. -/
namespace FidoTouch.Oath
open FidoTouch.Program Handler FidoTouch.Storage
open Tlv (Item encode valueOf Around)

/-! ### Big-endian numbers -/

theorem beBytes_succ (n v : Nat) : beBytes (n + 1) v = beBytes n (v / 256) ++ [UInt8.ofNat v] := by
  rw [beBytes, List.range_succ, List.map_append, List.map_singleton, Nat.add_sub_cancel, Nat.sub_self, Nat.pow_zero, Nat.div_one, beBytes]
  congr 1
  refine List.map_congr_left fun i hi => ?_
  have hi' := List.mem_range.mp hi
  rw [Nat.div_div_eq_div_mul, ← Nat.pow_succ', show (n - 1 - i).succ = n - i by omega]

theorem beNat_append (b : Bytes) (x : UInt8) : beNat (b ++ [x]) = beNat b * 256 + x.toNat := by
  rw [beNat, List.foldl_append]
  rfl

theorem beNat_beBytes (n v : Nat) : beNat (beBytes n v) = v % 256 ^ n := by
  induction n generalizing v with
  | zero => simp [beBytes, beNat, Nat.mod_one]
  | succ n ih =>
    have hsplit : v % 256 ^ (n + 1) = v % 256 + 256 * (v / 256 % 256 ^ n) := by rw [Nat.pow_succ', Nat.mod_mul]
    rw [beBytes_succ, beNat_append, ih, UInt8.toNat_ofNat', hsplit]
    omega

theorem beBytes_mod (n v : Nat) : beBytes n (v % 256 ^ n) = beBytes n v := by
  induction n generalizing v with
  | zero => rfl
  | succ n ih =>
    have hhigh : v % 256 ^ (n + 1) / 256 = v / 256 % 256 ^ n := by
      rw [Nat.pow_succ', Nat.mod_mul_right_div_self]
    have hlow : UInt8.ofNat (v % 256 ^ (n + 1)) = UInt8.ofNat v := by
      apply UInt8.toNat_inj.mp
      rw [UInt8.toNat_ofNat', UInt8.toNat_ofNat', Nat.pow_succ']
      exact Nat.mod_mul_right_mod v 256 _
    rw [beBytes_succ, beBytes_succ, hhigh, hlow, ih]

theorem beBytes_beNat (b : Bytes) : beBytes b.length (beNat b) = b := by
  induction b using List.reverseRecOn with
  | nil => rfl
  | append_singleton b x ih =>
    have hx := x.toNat_lt
    have hhigh : (beNat b * 256 + x.toNat) / 256 = beNat b := by omega
    have hlow : UInt8.ofNat (beNat b * 256 + x.toNat) = x := by
      apply UInt8.toNat_inj.mp
      rw [UInt8.toNat_ofNat']
      omega
    rw [List.length_append, List.length_singleton, beNat_append, beBytes_succ, hhigh, hlow, ih]

/-- The number after one that has wrapped around is the one after it. -/
theorem beBytes_next (v : Nat) : beBytes 8 (beNat (beBytes 8 v) + 1) = beBytes 8 (v + 1) := by
  rw [beNat_beBytes, ← beBytes_mod, Nat.mod_add_mod, beBytes_mod]

theorem beNat_padded (imf : Bytes) : beNat (padded imf) = beNat imf := by
  have hzeros : ∀ n, (List.replicate n (0 : UInt8)).foldl (fun n x => n * 256 + x.toNat) 0 = 0 := by
    intro n
    induction n with
    | zero => rfl
    | succ n ih => exact ih
  rw [padded, beNat, List.foldl_append, hzeros]
  rfl

section
variable [Sdk]

/-! ### Records of HOTP credentials -/

omit [Sdk] in
theorem isHotp_clear {key : Bytes} (h : isHotp key = true) : oathKeyIsSecure key = false := by
  refine Bool.eq_false_iff.mpr fun hsecure => ?_
  rw [isHotp, secure_first hsecure] at h
  exact absurd h (by decide)

/-- A record of a HOTP credential whose moving factor has eight bytes, and maybe more that are never changed. -/
structure HotpRecord (key rest : Bytes) (v : Nat) (record : Bytes) : Prop where
  clear : recordKey record = some key
  hotp : isHotp key = true
  imf : lookup record tagImf = some (beBytes 8 v ++ rest)

variable [TlvCorrect] {key rest record : Bytes} {v : Nat} {imf : TlvField}

omit [TlvCorrect] in
theorem HotpRecord.field (h : HotpRecord key rest v record) :
    ∃ o, Sdk.tlvFindTag record tagImf = some ⟨o, beBytes 8 v ++ rest⟩ := by
  obtain ⟨⟨o, value⟩, himf, hvalue⟩ := Option.map_eq_some_iff.mp h.imf
  exact ⟨o, by rw [himf]; exact congrArg (fun value => some (TlvField.mk o value)) hvalue⟩

omit [Sdk] [TlvCorrect] in
private theorem imf_long (v : Nat) (rest : Bytes) : 8 ≤ (beBytes 8 v ++ rest).length := by
  rw [List.length_append, beBytes_length]
  omega

section
variable {o : Nat} (h : HotpRecord key rest v record) (himf : Sdk.tlvFindTag record tagImf = some ⟨o, beBytes 8 v ++ rest⟩)
include himf

theorem find_written (w : Nat) : Sdk.tlvFindTag (overwrite record o (beBytes 8 w)) tagImf = some ⟨o, beBytes 8 w ++ rest⟩ := by
  have hfield := find_overwritten himf (imf_long v rest) (beBytes_length 8 w)
  rwa [List.drop_left' (beBytes_length 8 v)] at hfield

theorem lookup_written {tag : Nat} (hne : tag ≠ tagImf) (w : Nat) : lookup (overwrite record o (beBytes 8 w)) tag = lookup record tag :=
  lookup_overwritten himf (imf_long v rest) (beBytes_length 8 w) hne

theorem written_again (w w' : Nat) : overwrite (overwrite record o (beBytes 8 w)) o (beBytes 8 w') = overwrite record o (beBytes 8 w') :=
  overwrite_overwrite (beBytes_length 8 w) (beBytes_length 8 w') (imf_inside himf (imf_long v rest))

/-- To write the moving factor that a record has leaves the record as it is. -/
theorem written_same : overwrite record o (beBytes 8 v) = record := by
  have hinside := imf_inside himf (imf_long v rest)
  obtain ⟨items, tail, hparsed⟩ := exists_parsed record
  obtain ⟨before, i, after, haround, hfield⟩ := hparsed.field himf
  obtain ⟨rfl, hvalue⟩ := (TlvField.mk.injEq ..).mp hfield
  have hdrop := haround.drop tail
  rw [← hparsed.split, ← hvalue, List.append_assoc] at hdrop
  rw [overwrite_inside (beBytes_length 8 v) hinside, ← List.drop_drop, hdrop, List.drop_left' (beBytes_length 8 v), List.append_assoc,
    ← hdrop, List.take_append_drop]

include h

theorem HotpRecord.written (w : Nat) : HotpRecord key rest w (overwrite record o (beBytes 8 w)) where
  clear := by rw [recordKey_eq, lookup_written himf (by decide), ← recordKey_eq, h.clear]
  hotp := h.hotp
  imf := by
    rw [lookup, find_written himf]
    rfl

omit h in
/-- CALCULATE takes the record to the next moving factor. -/
theorem nextMovingFactor_written : nextMovingFactor record ⟨o, beBytes 8 v ++ rest⟩ = overwrite record o (beBytes 8 (v + 1)) := by
  have hfactor := uint64At_imf himf (imf_long v rest)
  rw [List.take_left' (beBytes_length 8 v)] at hfactor
  rw [nextMovingFactor, hfactor, beBytes_next]

end

/-- What CALCULATE does to a HOTP credential: it takes its moving factor, and writes the next one. -/
theorem Calculates.factor {s s' : OathState} {apdu : Apdu} {c : Calculation} {o : Nat} (hc : Calculates s apdu c)
    (hfile : s.store.view c.fid = some record) (h : HotpRecord key rest v record)
    (himf : Sdk.tlvFindTag record tagImf = some ⟨o, beBytes 8 v ++ rest⟩) (hends : CalculateEnds c s s') :
    c.key = key ∧ c.input = beBytes 8 v ++ rest ∧ Rewritten c.fid (overwrite record o (beBytes 8 (v + 1))) s s' := by
  obtain rfl : record = c.data := Option.some.inj (hfile.symm.trans (fileData_some.mp hc.data).1)
  have hkey : c.key = key := Option.some.inj (hc.key.symm.trans h.clear)
  have hfield : c.imf = some ⟨o, beBytes 8 v ++ rest⟩ := by rw [hc.imf, hkey, h.hotp, if_pos rfl, himf]
  obtain ⟨chal, -, hinput⟩ := hc.input
  rw [hfield] at hinput
  rw [CalculateEnds, hfield] at hends
  dsimp only at hends
  rw [nextMovingFactor_written himf] at hends
  exact ⟨hkey, hinput, hends⟩

/-! ### One credential along a run -/

/-- A CALCULATE of the credential in a file that is answered with a code. -/
def calculated (fid : Nat) (t : AppletMove) : Bool := decide (t.input.Names insCalculate fid t.before) && t.output

omit [TlvCorrect] in
theorem calculated_apdu {fid : Nat} {apdu : Apdu} {s : OathState} : calculated fid (applet.move s (.apdu apdu)) = true ↔
    (Input.apdu apdu).Names insCalculate fid s ∧ (oathProcessApdu apdu s).1.toBool = true := by
  rw [calculated, Bool.and_eq_true, decide_eq_true_iff]
  rfl

omit [TlvCorrect] in
/-- A record with an encrypted key is not stored again. -/
theorem migrates_same {s s' : Store Nat UInt8} {fid : Nat} {stored : Bytes} (h : Migrates s s') (hfid : CredFile fid)
    (hfile : s.view fid = some record) (hstored : lookup record tagKey = some stored) (hsecure : oathKeyIsSecure stored = true) :
    s'.view fid = some record := by
  rcases h fid hfid with hsame | ⟨data, record', hdata, hstoredAs, hfile'⟩
  · exact hsame.trans hfile
  · obtain rfl : record = data := Option.some.inj (hfile.symm.trans hdata)
    cases hstoredAs with
    | kept => exact hfile'
    | encrypted hkey hclear =>
      rw [lookup, hkey, Option.map_some, Option.some.injEq] at hstored
      rw [hstored, hsecure] at hclear
      cases hclear

/-- A HOTP credential under a command that does not replace it. -/
theorem Effect.hotp {apdu : Apdu} {s : OathState} {p : Except Sw Unit × OathState} {fid o : Nat} (h : Effect apdu s p)
    (hfid : CredFile fid) (hfile : s.store.view fid = some record) (hrecord : HotpRecord key rest v record)
    (himf : Sdk.tlvFindTag record tagImf = some ⟨o, beBytes 8 v ++ rest⟩) (hreplaces : ¬ (Input.apdu apdu).Replaces fid s) :
    p.2.store.view fid = some record ∧ ¬ ((Input.apdu apdu).Names insCalculate fid s ∧ p.1.toBool = true) ∨
      ((Input.apdu apdu).Names insCalculate fid s ∧ p.1.toBool = true) ∧ ∃ code,
        codeBytes apdu.p2 key (beBytes 8 v ++ rest) = some code ∧
        p.2.resApdu = s.resApdu ++ [UInt8.ofNat tagResponse + apdu.p2] ++ code ∧
        Rewritten fid (overwrite record o (beBytes 8 (v + 1))) s p.2 := by
  by_cases hnames : (Input.apdu apdu).Names insCalculate fid s
  swap
  · exact .inl ⟨(h.untouched hfid (by simp [hfile]) hreplaces hnames).trans hfile, fun hcalc => hnames hcalc.1⟩
  have hins : ∀ ins, ins ≠ insCalculate → apdu.ins ≠ ins := fun ins hne heq => hne (heq.symm.trans hnames.1)
  cases h with
  | refused h => exact .inl ⟨(congrFun h fid).trans hfile, fun hcalc => nomatch hcalc.2⟩
  | other hother => exact absurd (by rw [hnames.1]; decide) hother
  | put heq => exact absurd heq (hins _ (by decide))
  | deleted heq => exact absurd heq (hins _ (by decide))
  | reset heq => exact absurd heq (hins _ (by decide))
  | renamed heq => exact absurd heq (hins _ (by decide))
  | @calculated c code s' _ hc hcode hresponse hends =>
    obtain ⟨name, hname, hfound⟩ := hc.found
    have hsame := hnames.2
    rw [hname, Option.bind_some, hfound] at hsame
    obtain rfl : c.fid = fid := Option.some.inj hsame
    obtain ⟨hkey, hinput, hwritten⟩ := hc.factor hfile hrecord himf hends
    rw [hkey, hinput] at hcode
    exact .inr ⟨⟨hnames, rfl⟩, code, hcode, hresponse, hwritten⟩

/-! ### What PUT stores -/

/-- The moving factor that a PUT starts from, zero without one. Of a long one the first eight bytes count. -/
def putFactor (items : List Item) : Nat := beNat (((valueOf tagImf items).getD []).take 8)

def putRest (items : List Item) : Bytes := ((valueOf tagImf items).getD []).drop 8

omit [Sdk] [TlvCorrect] in
/-- The moving factor that PUT appends. -/
private def zeroImf : Item := ⟨tagImf, .one, beBytes 8 0, by decide, by decide⟩

theorem putHotpData_imf (items : List Item) :
    lookup (putHotpData (encode items)) tagImf = some (beBytes 8 (putFactor items) ++ putRest items) := by
  have hparsed := parsed_encode items
  cases himf : Sdk.tlvFindTag (encode items) tagImf with
  | none =>
    have hnone : valueOf tagImf items = none := by rw [← hparsed.lookup, lookup, himf, Option.map_none]
    have hbytes : putHotpData (encode items) = encode (items ++ [zeroImf]) := by
      rw [putHotpData, himf, Tlv.encode_append]
      rfl
    rw [putFactor, putRest, hnone]
    rw [valueOf, Option.map_eq_none_iff] at hnone
    rw [hbytes, (parsed_encode _).lookup, valueOf, List.find?_append, hnone]
    rfl
  | some imf =>
    obtain ⟨before, i, after, haround, rfl⟩ := hparsed.field himf
    have hvalue : valueOf tagImf items = some i.value := by rw [← hparsed.lookup, lookup, himf, Option.map_some]
    rw [putFactor, putRest, hvalue, Option.getD_some]
    by_cases hlong : i.value.length < 8
    · obtain ⟨hfits, hput⟩ := hparsed.putHotp haround hlong
      rw [List.append_nil] at hput
      rw [hput, (parsed_encode _).lookup, haround.valueOf_eq (j := i.withValue _ hfits) haround.tagged]
      have hpadded := beBytes_beNat (padded i.value)
      rw [padded_length hlong, beNat_padded] at hpadded
      rw [List.take_of_length_le (by omega), List.drop_eq_nil_of_le (by omega), List.append_nil, hpadded]
      rfl
    · have hfull := beBytes_beNat (i.value.take 8)
      rw [List.length_take, Nat.min_eq_left (by omega)] at hfull
      rw [putHotpData, himf]
      dsimp only
      rw [if_neg hlong, hparsed.lookup, hvalue, hfull, List.take_append_drop]

/-- A PUT of a HOTP credential leaves a record of it with its key encrypted. -/
theorem cmdPut_hotp (hciphers : OathCiphers) {apdu : Apdu} {items : List Item} {s s' : OathState} (hdata : apdu.data = encode items)
    (hkey : valueOf tagKey items = some key) (hhotp : isHotp key = true) (hsized : reencodedLength (requestRecord apdu) ≤ uint16Max)
    (hput : cmdPut apdu s = (.ok (), s')) :
    ∃ name fid record stored, valueOf tagName items = some name ∧ CredFile fid ∧ findOathCred s'.store.view name = some fid ∧
      s'.store.view fid = some record ∧ HotpRecord key (putRest items) (putFactor items) record ∧ lookup record tagKey = some stored ∧ oathKeyIsSecure stored = true := by
  have heffect := cmdPut_effect apdu s
  rw [hput] at heffect
  cases heffect with
  | @stored _ keyField name fid record hkeyField hlong hname hfid hrecord hview =>
    have hparsed := parsed_encode items
    have hlookup : lookup apdu.data tagKey = some key := by rw [hdata, hparsed.lookup, hkey]
    have hkeyData : keyField.data = key := by
      rw [lookup, hkeyField, Option.map_some] at hlookup
      exact Option.some.inj hlookup
    have hclear := isHotp_clear hhotp
    have hrequest : requestRecord apdu = putHotpData (encode items) := by
      rw [requestRecord, hkeyField]
      dsimp only
      rw [hkeyData, hdata]
      exact if_pos (by simpa [isHotp] using hhotp)
    have hrequestKey := lookup_requestRecord hlookup (by decide)
    have hreadable : recordKey (requestRecord apdu) = some key := by
      rw [recordKey_eq, hrequestKey, Option.bind_some, oathDecryptKey, if_pos hclear]
      exact if_neg (by rw [← hkeyData]; omega)
    obtain ⟨encrypted, hencrypts, hstored⟩ := hrecord.lookup_key hciphers hrequestKey hclear hsized
    have hne : key ≠ [] := by
      rintro rfl
      rw [hkeyData] at hlong
      simp at hlong
    have hnameLookup : lookup apdu.data tagName = some name.data := by rw [lookup, hname, Option.map_some]
    have hrecordName : lookup record tagName = some name.data :=
      (hrecord.lookup_ne hciphers hsized (by decide)).trans (lookup_requestRecord hnameLookup (by decide))
    have hfound := hfid.found hrecordName
    rw [← hview] at hfound
    refine ⟨name.data, fid, record, encrypted, ?_, (findOathCred_some hfound).1, hfound, by rw [hview, Function.update_self],
      ⟨?_, hhotp, ?_⟩, hstored, hencrypts.secure hciphers hne⟩
    · rw [← hparsed.lookup, ← hdata, hnameLookup]
    · exact hrecord.recordKey hciphers hsized hreadable
    · rw [hrecord.lookup_ne hciphers hsized (by decide), hrequest, putHotpData_imf]

/-- A step of a run that leaves a credential in its place: it takes no moving factor, or the one that is its turn. -/
theorem hotp_step {fid o n : Nat} (hfid : CredFile fid) (hrecord : HotpRecord key [] v record)
    (himf : Sdk.tlvFindTag record tagImf = some ⟨o, beBytes 8 v ++ []⟩) {stored : Bytes} (hstored : lookup record tagKey = some stored)
    (hsecure : oathKeyIsSecure stored = true) {s : OathState} (hs : s.store.view fid = some (overwrite record o (beBytes 8 (v + n))))
    (i : Input) (hreplaces : ¬ i.Replaces fid s) :
    calculated fid (applet.move s i) = false ∧ (perform i s).store.view fid = s.store.view fid ∨
      calculated fid (applet.move s i) = true ∧ ∃ apdu code, i = .apdu apdu ∧ codeBytes apdu.p2 key (beBytes 8 (v + n)) = some code ∧
        (perform i s).resApdu = s.resApdu ++ [UInt8.ofNat tagResponse + apdu.p2] ++ code ∧
        Rewritten fid (overwrite record o (beBytes 8 (v + n + 1))) s (perform i s) := by
  have hnow := hrecord.written himf (v + n)
  have himfNow := find_written himf (v + n)
  cases i with
  | select =>
    refine .inl ⟨rfl, ?_⟩
    rw [hs]
    exact migrates_same (oathSelect_migrates s) hfid hs ((lookup_written himf (by decide) (v + n)).trans hstored) hsecure
  | apdu apdu =>
    rcases (oathProcessApdu_effect apdu s).hotp hfid hs hnow himfNow hreplaces with ⟨hview, hno⟩ | ⟨hyes, code, hcode, hresponse, hwritten⟩
    · exact .inl ⟨Bool.eq_false_iff.mpr fun h => hno (calculated_apdu.mp h), hview.trans hs.symm⟩
    · rw [written_again himf] at hwritten
      rw [List.append_nil] at hcode
      exact .inr ⟨calculated_apdu.mpr hyes, apdu, code, rfl, hcode, hresponse, hwritten⟩

end

section Plain
attribute [local instance] readerSdk

/-- A HOTP credential of the name `"a"`, without a moving factor. -/
def hotpItems : List Item :=
  [⟨tagName, .one, [0x61], by decide, by decide⟩, ⟨tagKey, .one, [0x11, 6, 9], by decide, by decide⟩]

def hotpPut : Apdu := ⟨0, insPut, 0, 0, encode hotpItems⟩

def hotpCalculate (p2 : UInt8) : Apdu := ⟨0, insCalculate, 0, p2, [0x71, 1, 0x61, 0x74, 0]⟩

def hotpCard (fates : List Bool) : OathState := (cmdPut hotpPut (emptyCard fates)).2

private theorem hotpCalculate_steps {s : OathState} {p p' : UInt8} :
    ∀ t ∈ applet.trace s [.apdu (hotpCalculate p), .apdu (hotpCalculate p')], ¬ t.input.Replaces efOathCred t.before := by
  intro t ht hreplaces
  simp only [Machine.trace, List.mem_cons, List.not_mem_nil, or_false] at ht
  rcases ht with rfl | rfl <;> exact absurd (Input.Replaces.ins hreplaces) (by show insCalculate ∉ _; decide)

end Plain
end FidoTouch.Oath
