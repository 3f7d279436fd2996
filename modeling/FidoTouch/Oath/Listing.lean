import Mathlib.Data.List.Forall2
import Mathlib.Data.List.Sort
import FidoTouch.Oath.Lookups

/-! LIST over whole stores. PUT takes names and numbers of credentials for which one response has no room. -/
namespace FidoTouch.Oath
open FidoTouch.Program Handler FidoTouch.Storage
open Tlv (Item encode valueOf)

/-- A loop that passes over some elements. -/
theorem forEach_filterMap {σ ε α β : Type} {g : α → Option β} {f : β → Handler σ ε Unit} {step : α → Handler σ ε Unit}
    (hnone : ∀ a, g a = none → step a = pure ()) (hsome : ∀ a b, g a = some b → step a = f b) (as : List α) :
    forEach as step = forEach (as.filterMap g) f := by
  induction as with
  | nil => rfl
  | cons a as ih =>
    rw [forEach, ih]
    cases hg : g a with
    | none => rw [List.filterMap_cons_none hg, hnone a hg, pure_bind]
    | some b => rw [List.filterMap_cons_some hg, hsome a b hg, forEach]

/-- The files of the stored credentials, in the order of their slots. -/
def storedFids (files : Files) : List Nat := (presentOathCredFids files).filter fun fid => (fileData files fid).isSome

/-- Their records. -/
def storedRecords (files : Files) : List Bytes := (presentOathCredFids files).filterMap (fileData files)

theorem storedFids_sorted (files : Files) : (storedFids files).Pairwise (· < ·) := by
  refine List.Pairwise.filter _ (List.Pairwise.filter _ ?_)
  rw [List.pairwise_map]
  exact List.pairwise_lt_range.imp fun h => Nat.add_lt_add_left h _

theorem mem_storedFids {files : Files} {fid : Nat} : fid ∈ storedFids files ↔ CredFile fid ∧ fileData files fid ≠ none := by
  rw [storedFids, List.mem_filter, mem_present]
  refine ⟨fun ⟨⟨hfid, _⟩, hdata⟩ => ⟨hfid, Option.isSome_iff_ne_none.mp hdata⟩, fun ⟨hfid, hdata⟩ => ?_⟩
  obtain ⟨data, hfile⟩ := Option.ne_none_iff_exists'.mp hdata
  exact ⟨⟨hfid, by rw [(fileData_some.mp hfile).1]; rfl⟩, Option.isSome_iff_ne_none.mpr hdata⟩

theorem storedRecords_eq (files : Files) : (storedRecords files).map some = (storedFids files).map (fileData files) := by
  rw [storedRecords, storedFids]
  induction presentOathCredFids files with
  | nil => rfl
  | cons fid fids ih =>
    cases hdata : fileData files fid with
    | none => rw [List.filterMap_cons_none hdata, List.filter_cons_of_neg (by simp [hdata]), ih]
    | some data => rw [List.filterMap_cons_some hdata, List.filter_cons_of_pos (by simp [hdata]), List.map_cons, List.map_cons, ih, hdata]

theorem mem_storedRecords {files : Files} {data : Bytes} : data ∈ storedRecords files ↔ ∃ fid, CredFile fid ∧ fileData files fid = some data := by
  rw [storedRecords, List.mem_filterMap]
  refine ⟨fun ⟨fid, hmem, hdata⟩ => ⟨fid, (mem_present.mp hmem).1, hdata⟩, fun ⟨fid, hfid, hdata⟩ => ⟨fid, mem_present.mpr ⟨hfid, ?_⟩, hdata⟩⟩
  rw [(fileData_some.mp hdata).1]
  rfl

/-- A response has one entry for every stored credential, in the order of the slots. -/
def EntryEach (files : Files) (entryFor : Nat → Bytes → Prop) (response : Bytes) : Prop :=
  ∃ fids entries, fids.Pairwise (· < ·) ∧ (∀ fid, fid ∈ fids ↔ CredFile fid ∧ fileData files fid ≠ none) ∧
    List.Forall₂ entryFor fids entries ∧ response = entries.flatten

private theorem forall₂_left {α β : Type} {R : α → β → Prop} {as : List α} {bs : List β} (h : List.Forall₂ R as bs) {a : α} (ha : a ∈ as) :
    ∃ b, R a b := by
  induction h with
  | nil => cases ha
  | @cons _ b _ _ hab _ ih =>
    rcases List.mem_cons.mp ha with rfl | ha
    · exact ⟨b, hab⟩
    · exact ih ha

private theorem forall₂_length {α : Type} {R : α → Bytes → Prop} {as : List α} {bs : List Bytes} {length : α → Nat} (h : List.Forall₂ R as bs)
    (hlength : ∀ a ∈ as, ∀ b, R a b → b.length = length a) : bs.flatten.length = (as.map length).sum := by
  induction h with
  | nil => rfl
  | @cons a b as bs hab _ ih =>
    have hb := hlength a List.mem_cons_self b hab
    have hbs := ih fun c hc => hlength c (List.mem_cons_of_mem _ hc)
    rw [List.flatten_cons, List.length_append, hb, hbs, List.map_cons, List.sum_cons]

section
variable {files : Files} {entryFor : Nat → Bytes → Prop} {response : Bytes}

theorem entryEach_flatMap {entry : Bytes → Bytes} (h : ∀ fid data, CredFile fid → fileData files fid = some data → entryFor fid (entry data)) :
    EntryEach files entryFor ((storedRecords files).flatMap entry) := by
  refine ⟨storedFids files, (storedFids files).map fun fid => ((fileData files fid).map entry).getD [], storedFids_sorted files,
    fun fid => mem_storedFids, ?_, ?_⟩
  · rw [List.forall₂_map_right_iff, List.forall₂_same]
    intro fid hfid
    obtain ⟨hcred, hdata⟩ := mem_storedFids.mp hfid
    obtain ⟨data, hdata⟩ := Option.ne_none_iff_exists'.mp hdata
    rw [hdata]
    exact h fid data hcred hdata
  · have hmap : (storedFids files).map (fun fid => ((fileData files fid).map entry).getD []) =
        ((storedFids files).map (fileData files)).map fun data => (data.map entry).getD [] := by
      rw [List.map_map]
      rfl
    rw [hmap, ← storedRecords_eq, List.map_map, List.flatMap_def]
    rfl

theorem EntryEach.entry (h : EntryEach files entryFor response) {fid : Nat} (hfid : CredFile fid) (hdata : fileData files fid ≠ none) :
    ∃ entry, entryFor fid entry := by
  obtain ⟨fids, entries, -, hmem, hentries, -⟩ := h
  exact forall₂_left hentries ((hmem fid).mpr ⟨hfid, hdata⟩)

theorem EntryEach.length (h : EntryEach files entryFor response) {length : Bytes → Nat}
    (hlength : ∀ fid data entry, CredFile fid → fileData files fid = some data → entryFor fid entry → entry.length = length data) :
    response.length = ((storedRecords files).map length).sum := by
  obtain ⟨fids, entries, hsorted, hmem, hentries, rfl⟩ := h
  obtain rfl : fids = storedFids files :=
    hsorted.eq_of_mem_iff (storedFids_sorted files) fun fid => (hmem fid).trans mem_storedFids.symm
  have hsame : (storedRecords files).map length = (storedFids files).map fun fid => ((fileData files fid).map length).getD 0 := by
    have hmap : (storedFids files).map (fun fid => ((fileData files fid).map length).getD 0) =
        ((storedFids files).map (fileData files)).map fun data => (data.map length).getD 0 := by
      rw [List.map_map]
      rfl
    rw [hmap, ← storedRecords_eq, List.map_map]
    rfl
  rw [hsame]
  refine forall₂_length hentries fun fid hfid entry hentry => ?_
  obtain ⟨hcred, hdata⟩ := (hmem fid).mp hfid
  obtain ⟨data, hdata⟩ := Option.ne_none_iff_exists'.mp hdata
  rw [hlength fid data entry hcred hdata hentry, hdata]
  rfl

end

section
variable [Sdk]

/-- Whether a response that is not yet full has room. -/
theorem hasRoom_iff {s : OathState} (hs : s.resApdu.length ≤ Sdk.usbBufferSize) (n : Nat) :
    oathResponseHasRoom s n = true ↔ s.resApdu.length + n ≤ Sdk.usbBufferSize := by
  simp only [oathResponseHasRoom, decide_eq_true_eq]
  omega

def extraLength (ext : Bool) : Nat := if ext then 1 else 0

/-- The entry of a credential in a listing: its name behind the byte of its type and algorithm. -/
def entryOf (ext : Bool) (data name key : Bytes) : Bytes :=
  [UInt8.ofNat tagNameList, UInt8.ofNat (name.length + 1 + extraLength ext), byteAt key 0] ++ name ++ if ext then [listProps data] else []

theorem entryOf_length (ext : Bool) (data name key : Bytes) : (entryOf ext data name key).length = 3 + name.length + extraLength ext := by
  cases ext
  · simp [entryOf, extraLength]
    omega
  · simp [entryOf, extraLength]
    omega

/-- What a listing says of a record: nothing where it has no name or no readable key. -/
def listed (ext : Bool) (data : Bytes) : Bytes :=
  match lookup data tagName, recordKey data with
  | some name, some key => entryOf ext data name key
  | _, _ => []

/-- The length of the name, with what stands before and behind it, is one byte. -/
def NameListable (ext : Bool) (data : Bytes) : Prop :=
  ∀ name key, lookup data tagName = some name → recordKey data = some key → name.length + 1 + extraLength ext ≤ uint8Max

/-- A credential is appended to a listing exactly if its name is not too long and it has room. -/
theorem listEntry_run (ext : Bool) (data : Bytes) {s : OathState} (hs : s.resApdu.length ≤ Sdk.usbBufferSize) :
    (NameListable ext data ∧ s.resApdu.length + (listed ext data).length ≤ Sdk.usbBufferSize ∧
      listEntry ext data s = (.ok (), { s with resApdu := s.resApdu ++ listed ext data })) ∨
    ¬ (NameListable ext data ∧ s.resApdu.length + (listed ext data).length ≤ Sdk.usbBufferSize) ∧
      listEntry ext data s = (.error .wrongLength, s) := by
  have hskip : (lookup data tagName = none ∨ recordKey data = none) → listEntry ext data s = (.ok (), s) →
      NameListable ext data ∧ s.resApdu.length + (listed ext data).length ≤ Sdk.usbBufferSize ∧
        listEntry ext data s = (.ok (), { s with resApdu := s.resApdu ++ listed ext data }) := by
    intro hnone hrun
    have hlisted : listed ext data = [] := by
      unfold listed
      rcases hnone with h | h
      · rw [h]
      · rw [h]
        cases lookup data tagName <;> rfl
    refine ⟨fun name key hname hkey => ?_, by rw [hlisted]; simpa using hs, by rw [hlisted, List.append_nil]; exact hrun⟩
    rcases hnone with h | h
    · rw [h] at hname
      cases hname
    · rw [h] at hkey
      cases hkey
  rcases hname : Sdk.tlvFindTag data tagName with _ | name
  · exact .inl (hskip (.inl (by rw [lookup, hname, Option.map_none])) (by unfold listEntry; rw [hname]; rfl))
  rcases hkey : recordKey data with _ | key
  · exact .inl (hskip (.inr hkey) (by unfold listEntry; rw [hname, hkey]; rfl))
  have hlookup : lookup data tagName = some name.data := by rw [lookup, hname, Option.map_some]
  have hlisted : listed ext data = entryOf ext data name.data key := by rw [listed, hlookup, hkey]
  have hlistable : NameListable ext data ↔ name.data.length + 1 + extraLength ext ≤ uint8Max := by
    refine ⟨fun h => h _ _ hlookup hkey, fun h name' key' hname' _ => ?_⟩
    rwa [← Option.some.inj (hlookup.symm.trans hname')]
  have hroom := hasRoom_iff hs (3 + name.data.length + extraLength ext)
  rw [hlistable, hlisted, entryOf_length, listEntry, hname, hkey]
  dsimp only
  rw [bind_eq (get_run s), show (if ext = true then 1 else 0) = extraLength ext from rfl]
  by_cases h : name.data.length + 1 + extraLength ext ≤ uint8Max ∧ s.resApdu.length + (3 + name.data.length + extraLength ext) ≤ Sdk.usbBufferSize
  · have hpass : ¬ (name.data.length > uint8Max - 1 - extraLength ext ∨ oathResponseHasRoom s (3 + name.data.length + extraLength ext) = false) := by
      rintro (hlong | hfull)
      · omega
      · rw [hroom.mpr h.2] at hfull
        cases hfull
    rw [refuseIf_false hpass]
    exact .inl ⟨h.1, h.2, rfl⟩
  · have hrefused : name.data.length > uint8Max - 1 - extraLength ext ∨ oathResponseHasRoom s (3 + name.data.length + extraLength ext) = false := by
      by_cases hlong : name.data.length > uint8Max - 1 - extraLength ext
      · exact .inl hlong
      · refine .inr (Bool.eq_false_iff.mpr fun hyes => h ⟨?_, hroom.mp hyes⟩)
        have hextra : extraLength ext ≤ 1 := by cases ext <;> decide
        simp only [uint8Max] at hlong ⊢
        omega
    rw [refuseIf_true hrefused]
    exact .inr ⟨h, rfl⟩

/-- The listing of some records. -/
theorem listEntries_run (ext : Bool) (datas : List Bytes) {s : OathState} (hs : s.resApdu.length ≤ Sdk.usbBufferSize) :
    ((∀ data ∈ datas, NameListable ext data) ∧ s.resApdu.length + (datas.flatMap (listed ext)).length ≤ Sdk.usbBufferSize ∧
      forEach datas (listEntry ext) s = (.ok (), { s with resApdu := s.resApdu ++ datas.flatMap (listed ext) })) ∨
    ¬ ((∀ data ∈ datas, NameListable ext data) ∧ s.resApdu.length + (datas.flatMap (listed ext)).length ≤ Sdk.usbBufferSize) ∧
      ∃ s', forEach datas (listEntry ext) s = (.error .wrongLength, s') := by
  induction datas generalizing s with
  | nil => exact .inl ⟨by simp, by simpa using hs, by rw [List.flatMap_nil, List.append_nil]; rfl⟩
  | cons data datas ih =>
    rw [forEach, bind_run, List.flatMap_cons]
    rcases listEntry_run ext data hs with ⟨hlistable, hroom, hrun⟩ | ⟨hno, hrun⟩ <;> rw [hrun]
    · have hlength : (s.resApdu ++ listed ext data).length = s.resApdu.length + (listed ext data).length := List.length_append
      have hs' : ({ s with resApdu := s.resApdu ++ listed ext data } : OathState).resApdu.length ≤ Sdk.usbBufferSize := by
        rw [hlength]
        exact hroom
      dsimp only
      rcases ih hs' with ⟨hall, hroom', hrest⟩ | ⟨hno, hrest⟩
      · rw [hlength] at hroom'
        refine .inl ⟨?_, by rw [List.length_append]; omega, by rw [hrest, List.append_assoc]⟩
        rintro d hd
        rcases List.mem_cons.mp hd with rfl | hd
        · exact hlistable
        · exact hall d hd
      · refine .inr ⟨fun hboth => hno ⟨fun d hd => hboth.1 d (List.mem_cons_of_mem _ hd), ?_⟩, hrest⟩
        have hroom' := hboth.2
        rw [List.length_append] at hroom'
        rw [hlength]
        omega
    · refine .inr ⟨fun hboth => hno ⟨hboth.1 data List.mem_cons_self, ?_⟩, s, rfl⟩
      have hroom' := hboth.2
      rw [List.length_append] at hroom'
      omega

/-! ### Complete listings -/

/-- The entry of the credential in a file, its length in one byte. -/
def Lists (files : Files) (ext : Bool) (fid : Nat) (entry : Bytes) : Prop :=
  ∃ data name key, fileData files fid = some data ∧ lookup data tagName = some name ∧ recordKey data = some key ∧
    name.length + 1 + extraLength ext ≤ uint8Max ∧ entry = entryOf ext data name key

/-- The extended listing. -/
def listExtended (apdu : Apdu) : Bool := apdu.data.length = 1 ∧ byteAt apdu.data 0 = 0x01

/-- What a credential takes of the room of a listing. -/
def listLength (ext : Bool) (data : Bytes) : Nat := 3 + ((lookup data tagName).getD []).length + extraLength ext

/-- A name and a key that can be listed. -/
def Listable (ext : Bool) (data : Bytes) : Prop :=
  ∃ name key, lookup data tagName = some name ∧ recordKey data = some key ∧ name.length + 1 + extraLength ext ≤ uint8Max

theorem Listable.listed {ext : Bool} {data : Bytes} (h : Listable ext data) : ∃ name key, lookup data tagName = some name ∧
    recordKey data = some key ∧ name.length + 1 + extraLength ext ≤ uint8Max ∧ listed ext data = entryOf ext data name key := by
  obtain ⟨name, key, hname, hkey, hlength⟩ := h
  exact ⟨name, key, hname, hkey, hlength, by rw [Oath.listed, hname, hkey]⟩

theorem Listable.nameListable {ext : Bool} {data : Bytes} (h : Listable ext data) : NameListable ext data := by
  obtain ⟨name, key, hname, -, hlength⟩ := h
  intro name' key' hname' _
  rwa [← Option.some.inj (hname.symm.trans hname')]

theorem listed_total {ext : Bool} {datas : List Bytes} (h : ∀ data ∈ datas, Listable ext data) :
    (datas.flatMap (listed ext)).length = (datas.map (listLength ext)).sum := by
  rw [List.length_flatMap]
  congr 1
  refine List.map_congr_left fun data hdata => ?_
  obtain ⟨name, key, hname, -, -, hlisted⟩ := (h data hdata).listed
  rw [hlisted, entryOf_length, listLength, hname, Option.getD_some]

theorem cmdList_run {apdu : Apdu} {s : OathState} (hvalidated : s.validated = true) :
    cmdList apdu s = forEach (storedRecords s.store.view) (listEntry (listExtended apdu)) s := by
  unfold cmdList
  rcases requireValidated_run s with ⟨hno, -⟩ | ⟨-, hrequired⟩
  · rw [hvalidated] at hno
    cases hno
  rw [bind_eq hrequired]
  change (getFiles >>= _) s = _
  rw [bind_eq (getFiles_run s)]
  exact congrFun (forEach_filterMap (fun fid hfid => by rw [hfid]) (fun fid data hfid => by rw [hfid]; rfl) _) s

/-- LIST, with any number of SEND REMAINING after it, lists every stored credential exactly if each can be listed and all
have room in one response. -/
theorem list_complete_iff {apdu : Apdu} {s : OathState} (hvalidated : s.validated = true) (hempty : s.resApdu = []) :
    (∃ more s', (cmdList apdu >>= fun _ => forEach more cmdSendRemaining) s = (.ok (), s') ∧
      EntryEach s.store.view (Lists s.store.view (listExtended apdu)) s'.resApdu) ↔
    (∀ data ∈ storedRecords s.store.view, Listable (listExtended apdu) data) ∧
      ((storedRecords s.store.view).map (listLength (listExtended apdu))).sum ≤ Sdk.usbBufferSize := by
  have hs : s.resApdu.length ≤ Sdk.usbBufferSize := by
    rw [hempty]
    exact Nat.zero_le _
  have hlist : cmdList apdu s = _ := cmdList_run hvalidated
  constructor
  · rintro ⟨more, s', hrun, hlists⟩
    have hlistable : ∀ data ∈ storedRecords s.store.view, Listable (listExtended apdu) data := by
      intro data hdata
      obtain ⟨fid, hcred, hfile⟩ := mem_storedRecords.mp hdata
      obtain ⟨entry, data', name, key, hfile', hname, hkey, hlength, -⟩ := hlists.entry hcred (by rw [hfile]; exact Option.some_ne_none data)
      obtain rfl := Option.some.inj (hfile.symm.trans hfile')
      exact ⟨name, key, hname, hkey, hlength⟩
    refine ⟨hlistable, ?_⟩
    obtain ⟨_, t, ht, -⟩ := bind_ok hrun
    rw [hlist] at ht
    rcases listEntries_run (listExtended apdu) (storedRecords s.store.view) hs with ⟨-, hroom, -⟩ | ⟨-, _, hfail⟩
    · rw [hempty, List.length_nil, Nat.zero_add, listed_total hlistable] at hroom
      exact hroom
    · rw [hfail] at ht
      cases ht
  · rintro ⟨hlistable, hroom⟩
    rcases listEntries_run (listExtended apdu) (storedRecords s.store.view) hs with ⟨-, -, hok⟩ | ⟨hno, -⟩
    · refine ⟨[], _, by rw [bind_run, hlist, hok]; rfl, ?_⟩
      rw [hempty, List.nil_append]
      refine entryEach_flatMap fun fid data hcred hdata => ?_
      obtain ⟨name, key, hname, hkey, hlength, hlisted⟩ := (hlistable data (mem_storedRecords.mpr ⟨fid, hcred, hdata⟩)).listed
      exact ⟨data, name, key, hdata, hname, hkey, hlength, hlisted⟩
    · refine absurd ⟨fun data hdata => (hlistable data hdata).nameListable, ?_⟩ hno
      rw [hempty, List.length_nil, Nat.zero_add, listed_total hlistable]
      exact hroom

end
section Plain
attribute [local instance] readerSdk

private def putName (name : Bytes) : Apdu := ⟨0, insPut, 0, 0, name ++ [0x73, 3, 0x21, 6, 9]⟩

private def listedCard (name : Bytes) : OathState := (cmdPut (putName name) (emptyCard [])).2

private def plainListing : Apdu := ⟨0, insList, 0, 0, []⟩

theorem short_name_listed : ∃ more s',
    (cmdList plainListing >>= fun _ => forEach more cmdSendRemaining) (listedCard [0x71, 1, 0x61]) = (.ok (), s') ∧
      EntryEach (listedCard [0x71, 1, 0x61]).store.view (Lists (listedCard [0x71, 1, 0x61]).store.view false) s'.resApdu := by
  have hrecords : storedRecords (listedCard [0x71, 1, 0x61]).store.view =
      [((listedCard [0x71, 1, 0x61]).store.view efOathCred).getD []] := by decide +kernel
  refine (@list_complete_iff readerSdk plainListing (listedCard [0x71, 1, 0x61]) (by decide +kernel) (by decide +kernel)).mpr ⟨?_, ?_⟩
  · intro data hdata
    rw [hrecords, List.mem_singleton] at hdata
    rw [hdata]
    exact ⟨[0x61], [0x21, 6, 9], by decide +kernel, by decide +kernel, by decide⟩
  · rw [hrecords]
    decide +kernel

/-- PUT takes a name of 255 bytes, and LIST fails from then on. -/
theorem long_name_unlisted : (cmdPut (putName ([0x71, 0x81, 255] ++ List.replicate 255 0x61)) (emptyCard [])).1 = .ok () ∧
    (listedCard ([0x71, 0x81, 255] ++ List.replicate 255 0x61)).validated = true ∧
    (cmdList plainListing (listedCard ([0x71, 0x81, 255] ++ List.replicate 255 0x61))).1 = .error .wrongLength := by
  decide +kernel

end Plain
end FidoTouch.Oath
