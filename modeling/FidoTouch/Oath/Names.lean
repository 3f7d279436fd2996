import FidoTouch.Oath.Lookups
import FidoTouch.Oath.Migration
import FidoTouch.Program.Runs

/-! Whether the names of the stored credentials differ. PUT looks its name up, RENAME does not look up its new one. -/
namespace FidoTouch.Oath
open FidoTouch.Program Handler FidoTouch.Storage
open Tlv (Item encode valueOf)

section
variable [Sdk] {files files' : Files}

/-- Every stored credential has a name, and no other one has it. -/
structure Distinct (files : Files) : Prop where
  named : ∀ fid, CredFile fid → fileData files fid ≠ none → ∃ name, nameAt files fid = some name
  unique : ∀ fid fid' name, CredFile fid → CredFile fid' → nameAt files fid = some name → nameAt files fid' = some name → fid = fid'

/-- The commands that look a name up address every stored credential. -/
def Addressed (files : Files) : Prop :=
  ∀ fid, CredFile fid → fileData files fid ≠ none → ∃ name, nameAt files fid = some name ∧ findOathCred files name = some fid

theorem Distinct.addressed (h : Distinct files) : Addressed files := by
  intro fid hfid hdata
  obtain ⟨name, hname⟩ := h.named fid hfid hdata
  exact ⟨name, hname, findOathCred_unique hfid hname fun k hk hnameK => h.unique k fid name hk hfid hnameK hname⟩

theorem distinct_empty (h : ∀ fid, CredFile fid → files fid = none) : Distinct files where
  named fid hfid hdata := absurd (by rw [fileData, h fid hfid]) hdata
  unique fid _ name hfid _ hname _ := by
    obtain ⟨data, -, hfile, -⟩ := nameAt_some hname
    rw [h fid hfid] at hfile
    cases hfile

theorem nameAt_data {fid : Nat} {name : Bytes} (h : nameAt files fid = some name) : fileData files fid ≠ none := by
  obtain ⟨data, -, -, hdata, -⟩ := nameAt_some h
  rw [hdata]
  exact Option.some_ne_none data

/-- Credentials go or keep their names. -/
theorem Distinct.fewer (h : Distinct files) (hfewer : ∀ k, CredFile k → fileData files' k = none ∨
    nameAt files' k = nameAt files k ∧ fileData files k ≠ none) : Distinct files' where
  named fid hfid hdata := by
    obtain ⟨hname, hdata'⟩ := (hfewer fid hfid).resolve_left hdata
    rw [hname]
    exact h.named fid hfid hdata'
  unique fid fid' name hfid hfid' hname hname' := by
    obtain ⟨hsame, -⟩ := (hfewer fid hfid).resolve_left (nameAt_data hname)
    obtain ⟨hsame', -⟩ := (hfewer fid' hfid').resolve_left (nameAt_data hname')
    exact h.unique fid fid' name hfid hfid' (hsame.symm.trans hname) (hsame'.symm.trans hname')

theorem kept_name {k : Nat} (h : files' k = files k) :
    fileData files' k = none ∨ nameAt files' k = nameAt files k ∧ fileData files k ≠ none := by
  have hdata : fileData files' k = fileData files k := by rw [fileData, fileData, h]
  rcases hfile : fileData files k with _ | data
  · exact .inl (hdata.trans hfile)
  · exact .inr ⟨nameAt_congr h, Option.some_ne_none data⟩

variable [TlvCorrect]

/-- A credential is stored under a name that no other one has. -/
theorem Distinct.store (h : Distinct files) {fid : Nat} {record name : Bytes} (hname : lookup record tagName = some name)
    (hfresh : ∀ k, CredFile k → nameAt files k = some name → k = fid) : Distinct (Function.update files fid (some record)) := by
  have hself : nameAt (Function.update files fid (some record)) fid = some name := nameAt_record (Function.update_self ..) hname
  have hother : ∀ {k}, k ≠ fid → nameAt (Function.update files fid (some record)) k = nameAt files k :=
    fun hk => nameAt_congr (Function.update_of_ne hk ..)
  constructor
  · intro k hk hdata
    by_cases hkf : k = fid
    · exact ⟨name, by rw [hkf, hself]⟩
    · rw [hother hkf]
      refine h.named k hk ?_
      rwa [fileData, Function.update_of_ne hkf] at hdata
  · intro k k' other hk hk' hnameK hnameK'
    by_cases hkf : k = fid <;> by_cases hkf' : k' = fid
    · rw [hkf, hkf']
    · rw [hkf, hself, Option.some.injEq] at hnameK
      rw [hother hkf', ← hnameK] at hnameK'
      exact absurd (hfresh k' hk' hnameK') hkf'
    · rw [hkf', hself, Option.some.injEq] at hnameK'
      rw [hother hkf, ← hnameK'] at hnameK
      exact absurd (hfresh k hk hnameK) hkf
    · rw [hother hkf] at hnameK
      rw [hother hkf'] at hnameK'
      exact h.unique k k' other hk hk' hnameK hnameK'

/-! ### The steps of the applet -/

/-- RENAME gets a new name that no credential has and that can take the old one's place, CALCULATE a moving factor of at
least eight bytes, and no record that PUT or SELECT encrypts the key of becomes too long. -/
def Input.KeepsApart (s : OathState) : Input → Prop
  | .select => ∀ fid record, CredFile fid → s.store.view fid = some record → reencodedLength record ≤ uint16Max
  | .apdu a =>
    (a.ins = insPut → reencodedLength (requestRecord a) ≤ uint16Max) ∧
    (a.ins = insRename → (Input.apdu a).NewNameFits s ∧ ∀ name new fid, renameNames a = some (name, new) → name ≠ new →
      findOathCred s.store.view name = some fid → findOathCred s.store.view new = none) ∧
    (a.ins = insCalculate → ∀ fid data key imf, (Input.apdu a).Names insCalculate fid s → fileData s.store.view fid = some data →
      recordKey data = some key → isHotp key = true → Sdk.tlvFindTag data tagImf = some imf → 8 ≤ imf.data.length)

omit [TlvCorrect] in
theorem Rewritten.distinct {fid : Nat} {record : Bytes} {s s' : OathState} (h : Rewritten fid record s s') (hs : Distinct s.store.view)
    (hstored : Distinct (Function.update s.store.view fid (some record))) : Distinct s'.store.view := by
  rcases h with ⟨hview, -⟩ | ⟨hview, -⟩ <;> rw [hview]
  · exact hstored
  · exact hs

theorem PutEffect.distinct (hciphers : OathCiphers) {apdu : Apdu} {p : Except Sw Unit × OathState} (h : PutEffect apdu files p)
    (hsized : reencodedLength (requestRecord apdu) ≤ uint16Max) (hfiles : Distinct files) : Distinct p.2.store.view := by
  cases h with
  | refused h => exact h ▸ hfiles
  | @emptied _ _ fid hfid hnone h =>
    refine hfiles.fewer fun k hk => ?_
    rw [h]
    by_cases hkf : k = fid
    · exact .inl (by rw [hkf, fileData, Function.update_self])
    · exact kept_name (Function.update_of_ne hkf ..)
  | @stored _ key name fid record hkey hlong hname hputs hrecord h =>
    have hrequest : lookup apdu.data tagName = some name.data := by rw [lookup, hname, Option.map_some]
    have hstored : lookup record tagName = some name.data :=
      (hrecord.lookup_ne hciphers hsized (by decide)).trans (lookup_requestRecord hrequest (by decide))
    rw [h]
    refine hfiles.store hstored fun k hk hnameK => ?_
    rcases hputs with hfound | ⟨hnone, -⟩
    · obtain ⟨hfid, hnameF⟩ := findOathCred_some hfound
      exact hfiles.unique k fid _ hk hfid hnameK hnameF
    · exact absurd hnameK (findOathCred_none hnone hk)

private theorem renamed_distinct {apdu : Apdu} {s s' : OathState} {name new data : Bytes} {fid : Nat} {old : TlvField}
    (hs : Distinct s.store.view) (h : Renames apdu s.store.view name new fid data old) (hfits : (Input.apdu apdu).NewNameFits s)
    (hfresh : findOathCred s.store.view new = none) (hwritten : Rewritten fid (renamedRecord data old new) s s') :
    Distinct s'.store.view := by
  have hname := lookup_renamed_name h.field (hfits _ _ _ _ h.names h.found h.record)
  exact hwritten.distinct hs (hs.store hname fun k hk hnameK => absurd hnameK (findOathCred_none hfresh hk))

private theorem calculated_distinct {apdu : Apdu} {s s' : OathState} {c : Calculation} (hs : Distinct s.store.view)
    (hc : Calculates s apdu c) (hlong : ∀ imf, isHotp c.key = true → Sdk.tlvFindTag c.data tagImf = some imf → 8 ≤ imf.data.length)
    (hends : CalculateEnds c s s') : Distinct s'.store.view := by
  unfold CalculateEnds at hends
  rcases himf : c.imf with _ | imf <;> rw [himf] at hends
  · exact congrArg Store.view hends ▸ hs
  · have hcimf := hc.imf
    rw [himf] at hcimf
    split at hcimf
    next hhotp =>
      have hfield := hcimf.symm
      obtain ⟨field, hfound, hfind⟩ := hc.found
      obtain ⟨hfid, hname⟩ := findOathCred_some hfind
      have hdata := hc.data
      have hrecord : lookup (nextMovingFactor c.data imf) tagName = some field.data := by
        rw [nextMovingFactor, lookup_overwritten hfield (hlong imf hhotp hfield) (beBytes_length 8 _) (by decide)]
        rwa [nameAt, hdata] at hname
      exact hends.distinct hs (hs.store hrecord fun k hk hnameK => hs.unique k c.fid _ hk hfid hnameK hname)
    next => cases hcimf

theorem Effect.distinct (hciphers : OathCiphers) {apdu : Apdu} {s : OathState} {p : Except Sw Unit × OathState} (h : Effect apdu s p)
    (hapart : (Input.apdu apdu).KeepsApart s) (hs : Distinct s.store.view) : Distinct p.2.store.view := by
  obtain ⟨hput, hrename, hcalculate⟩ := hapart
  cases h with
  | refused h => exact h ▸ hs
  | other _ h => exact hs.fewer fun k hk => kept_name (h k hk)
  | put hins h => exact h.distinct hciphers (hput hins) hs
  | @deleted _ _ fid _ _ _ h =>
    rcases h with h | h
    · refine hs.fewer fun k hk => ?_
      rw [h]
      by_cases hkf : k = fid
      · exact .inl (by rw [hkf, fileData, Function.update_self])
      · exact kept_name (Function.update_of_ne hkf ..)
    · exact h ▸ hs
  | reset _ _ h => exact hs.fewer fun k hk => (h k hk).elim kept_name fun hnone => .inl (by rw [fileData, hnone])
  | renamed hins h hwritten =>
    obtain ⟨hfits, hfresh⟩ := hrename hins
    exact renamed_distinct hs h hfits (hfresh _ _ _ h.names h.ne h.found) hwritten
  | @calculated c _ _ hins h _ _ hends =>
    obtain ⟨field, hfield, hfound⟩ := h.found
    have hnames : (Input.apdu apdu).Names insCalculate c.fid s := ⟨hins, by rw [hfield]; exact hfound⟩
    exact calculated_distinct hs h (fun imf hhotp himf => hcalculate hins _ _ _ imf hnames h.data h.key hhotp himf) hends

/-- A record that is stored again has its name. -/
theorem restored_name (hciphers : OathCiphers) (h : Distinct files) {k : Nat} (hk : CredFile k) {data record : Bytes}
    (hfile : files k = some data) (hstored : StoredAs data record) (hsized : reencodedLength data ≤ uint16Max)
    (hfile' : files' k = some record) : fileData files' k = none ∨ nameAt files' k = nameAt files k ∧ fileData files k ≠ none := by
  by_cases hempty : data = []
  · rw [hempty] at hfile hstored
    rw [hstored.empty] at hfile'
    exact kept_name (hfile'.trans hfile.symm)
  · have hdata : fileData files k = some data := fileData_some.mpr ⟨hfile, hempty⟩
    have hpresent : fileData files k ≠ none := by
      rw [hdata]
      exact Option.some_ne_none data
    obtain ⟨name, hnameAt⟩ := h.named k hk hpresent
    have hlookup : lookup data tagName = some name := by rwa [nameAt, hdata] at hnameAt
    have hname : lookup record tagName = lookup data tagName := hstored.lookup_ne hciphers hsized (by decide)
    exact .inr ⟨by rw [hnameAt, nameAt_record hfile' (hname.trans hlookup)], hpresent⟩

theorem perform_distinct (hciphers : OathCiphers) {s : OathState} {i : Input} (hs : Distinct s.store.view) (hi : i.KeepsApart s) :
    Distinct (perform i s).store.view := by
  cases i with
  | apdu apdu => exact (oathProcessApdu_effect apdu s).distinct hciphers hi hs
  | select =>
    refine hs.fewer fun k hk => ?_
    rcases oathSelect_migrates s k hk with hsame | ⟨data, record, hfile, hstored, hfile'⟩
    · exact kept_name hsame
    · exact restored_name hciphers hs hk hfile hstored (hi k data hk hfile) hfile'

end

section Plain
attribute [local instance] readerSdk

private def putNamed (name : UInt8) : Apdu := ⟨0, insPut, 0, 0, [0x71, 1, name, 0x73, 3, 0x21, 6, 9]⟩

private def renameNamed (name new : UInt8) : Apdu := ⟨0, insRename, 0, 0, [0x71, 1, name, 0x71, 1, new]⟩

private def putTwice : List Input := [.apdu (putNamed 0x61), .apdu (putNamed 0x62)]

private def putsAndRename : List Input := putTwice ++ [.apdu (renameNamed 0x62 0x61)]

end Plain
end FidoTouch.Oath
