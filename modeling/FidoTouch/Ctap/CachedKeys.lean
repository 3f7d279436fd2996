import FidoTouch.Ctap.Algorithms
import FidoTouch.Ctap.Enumerations
import FidoTouch.Ctap.UpdateUser
import FidoTouch.Resident.Genuine

/-! The public key of a container credential: the bytes that COSE_key made, kept with the credential and read again for every listing. -/
namespace FidoTouch.Ctap
open FidoTouch.Program Handler FidoTouch.Storage FidoTouch.Resident

-- The search for `Keeps` follows whole commands.
set_option synthInstance.maxSize 4096

section
variable [Sdk]

/-! ### A key read and written again -/

/-- The coordinates of a public point are not empty, and no longer than a CBOR string can be. -/
def PublicPoints : Prop := ∀ key : EcKey, coseAlg key.curve < 0 →
  (Sdk.ecPublicKey key).1 ≠ [] ∧ (Sdk.ecPublicKey key).1.length < 2 ^ 64 ∧ (Sdk.ecPublicKey key).2.length < 2 ^ 64

/-- The entries of a COSE key; the second coordinate only on curves that have one. -/
private def coseEntries (kty alg crv : Nat) (x : Bytes) (y : Option Bytes) : List (CborItem × CborItem) :=
  [(.uint 1, .uint kty), (.uint 3, .nint alg), (.nint 1, .uint crv), (.nint 2, .bytes x)] ++ (y.map fun y => (.nint 3, .bytes y)).toList

private def coseBytes (kty alg crv : Nat) (x : Bytes) (y : Option Bytes) : Bytes :=
  Cbor.uint 1 ++ Cbor.uint kty ++ (Cbor.uint 3 ++ Cbor.negativeInt alg) ++ (Cbor.negativeInt 1 ++ Cbor.uint crv) ++
    (Cbor.negativeInt 2 ++ Cbor.byteString x) ++ y.elim [] fun y => Cbor.negativeInt 3 ++ Cbor.byteString y

section
variable {kty alg crv : Nat} {x : Bytes} {y : Option Bytes}

omit [Sdk] in
private theorem coseEntries_encodes (hkty : kty < 2 ^ 64) (hpos : 0 < alg) (halg : alg < 2 ^ 64) (hcrv : crv < 2 ^ 64) (hx : x.length < 2 ^ 64)
    (hy : ∀ b ∈ y, b.length < 2 ^ 64) : EncodesAll (coseEntries kty alg crv x y) (coseBytes kty alg crv x y) := by
  have hnumber (n : Nat) (h : 0 < n ∧ n < 4) : Encodes (.nint n) (Cbor.negativeInt n) := .nint h.1 (by omega)
  have hfirst : EncodesAll [(.uint 1, .uint kty), (.uint 3, .nint alg), (.nint 1, .uint crv), (.nint 2, .bytes x)]
      (Cbor.uint 1 ++ Cbor.uint kty ++ (Cbor.uint 3 ++ Cbor.negativeInt alg) ++ (Cbor.negativeInt 1 ++ Cbor.uint crv) ++
        (Cbor.negativeInt 2 ++ Cbor.byteString x)) :=
    ((EncodesAll.single (.uint (by decide)) (.uint hkty)).append (.single (.uint (by decide)) (.nint hpos halg))).append
      (.single (hnumber 1 (by decide)) (.uint hcrv)) |>.append (.single (hnumber 2 (by decide)) (.bytes hx))
  refine hfirst.append ?_
  cases y with
  | none => exact .nil
  | some b => exact .single (hnumber 3 (by decide)) (.bytes (hy b rfl))

omit [Sdk] in
private theorem coseEntries_length : (coseEntries kty alg crv x y).length = if y.isSome then 5 else 4 := by cases y <;> rfl

omit [Sdk] in
private theorem coseEntries_read : (coseEntries kty alg crv x y).foldlM readCoseField ⟨0, 0, 0, none, none⟩ =
    .ok ⟨kty, -(alg : Int), crv, some x, y⟩ := by
  cases y <;> rfl

/-- A key with these parts is written as it was. -/
private theorem coseCachedKey_bytes (maps : MapReads) (hkty : kty < 2 ^ 64) (hpos : 0 < alg) (halg : alg < 2 ^ 64) (hcrv : crv < 2 ^ 64)
    (hsome : x ≠ []) (hx : x.length < 2 ^ 64) (hy : ∀ b ∈ y, b.length < 2 ^ 64) :
    coseCachedKey (Cbor.map (if y.isSome then 5 else 4) ++ coseBytes kty alg crv x y) =
      .ok (Cbor.map (if y.isSome then 5 else 4) ++ coseBytes kty alg crv x y) := by
  have hread := @maps (coseEntries kty alg crv x y) (coseBytes kty alg crv x y) [] (by rw [coseEntries_length]; split <;> omega)
    (coseEntries_encodes hkty hpos halg hcrv hx hy)
  rw [coseEntries_length, List.append_nil] at hread
  have hne : Cbor.map (if y.isSome then 5 else 4) ++ coseBytes kty alg crv x y ≠ [] := fun h => by
    have hlength := Cbor.head_pos 5 (if y.isSome then 5 else 4) (coseBytes kty alg crv x y)
    rw [show Cbor.head 5 (if y.isSome then 5 else 4) = Cbor.map (if y.isSome then 5 else 4) from rfl, h] at hlength
    cases hlength
  unfold coseCachedKey
  rw [if_neg hne, hread]
  simp only [itemMap, bind, Except.bind, coseEntries_read, Option.getD_some, if_neg hsome]
  have hint : Cbor.int (-(alg : Int)) = Cbor.negativeInt alg := by
    rw [Cbor.int, if_neg (by omega), Int.natAbs_neg, Int.natAbs_natCast]
  have huint (n : Nat) : Cbor.int n = Cbor.uint n := by
    rw [Cbor.int, if_pos (Int.natCast_nonneg n), Int.toNat_natCast]
  rw [hint, huint kty, huint crv]
  cases y <;> simp [coseBytes, Cbor.int]

end

/-- What `COSE_cached_key` makes of the bytes of `COSE_key` are the same bytes. -/
theorem coseCachedKey_coseKey (maps : MapReads) (points : PublicPoints) {key : EcKey} (h : coseAlg key.curve < 0) :
    coseCachedKey (coseKey key) = .ok (coseKey key) := by
  obtain ⟨hsome, hx, hy⟩ := points key h
  have halg : (coseAlg key.curve).natAbs < 2 ^ 64 := by
    unfold coseAlg
    split_ifs <;> decide
  have hcrv : coseCurve key.curve < 2 ^ 64 := by
    unfold coseCurve curveBp256r1
    split <;> omega
  have hlayout : ∃ kty y, kty < 2 ^ 64 ∧ (∀ b ∈ y, b.length < 2 ^ 64) ∧ coseKey key =
      Cbor.map (if Option.isSome y then 5 else 4) ++ coseBytes kty (coseAlg key.curve).natAbs (coseCurve key.curve) (Sdk.ecPublicKey key).1 y := by
    by_cases hec2 : key.curve = curveP256 ∨ key.curve = curveP384 ∨ key.curve = curveP521 ∨ key.curve = curveP256k1
    · refine ⟨2, some (Sdk.ecPublicKey key).2, by decide, fun b hb => ?_, ?_⟩
      · cases hb
        exact hy
      · simp [coseKey, if_pos hec2, coseBytes]
    · exact ⟨1, none, by decide, fun b hb => (by cases hb), by simp [coseKey, if_neg hec2, coseBytes]⟩
  obtain ⟨kty, y, hkty, hlength, hkey⟩ := hlayout
  rw [hkey]
  exact coseCachedKey_bytes maps hkty (by omega) halg hcrv hsome hx hlength

/-! ### Containers with a public key -/

private instance (slot other : Slot) : Fact (¬ SlotFile slot (rpFid other)) := ⟨by
  rintro (⟨m, hfid⟩ | ⟨m, t, ht, hfid⟩ | hfid)
  · cases m <;> simp only [residentManifestFid, rpFid, efRp] at hfid <;> omega
  · rw [residentObjectTypeValid_iff] at ht
    cases m <;> simp only [residentRecordFid, rpFid, efRp] at hfid <;> omega
  · simp only [efCred, rpFid, efRp] at hfid
    omega⟩

section
variable [ObjectLibrary] [Fact KeydevCiphers] {d d' : Device} {slot : Slot} {h : Block 32} {r : Block 42} {c publicKey : Bytes} {key : EcKey}

/-- A container with these objects and this public key, under the root key that the device has. -/
structure Caches (d : Device) (slot : Slot) (h : Block 32) (r : Block 42) (c publicKey : Bytes) : Prop where
  marker : isMarker d slot = true
  holding : ∃ o contents, provider d = some o ∧ o.Lawful ∧ Holding o slot (some contents) d.files ∧
    contents fidoResidentObjectRpIdHash = h.1 ∧ contents fidoResidentObjectClientId = r.1 ∧
      contents fidoResidentObjectCredential = c ∧ contents fidoResidentObjectPublicKey = publicKey

namespace Caches

omit [Fact KeydevCiphers] in
theorem inContainer (hc : Caches d slot h r c publicKey) : InContainer d slot h r c := by
  obtain ⟨o, contents, hprovider, law, hholding, hhash, hid, hcredential, -⟩ := hc.holding
  exact ⟨hc.marker, o, contents, hprovider, law, hholding, hhash, hid, hcredential⟩

omit [Fact KeydevCiphers] in
theorem reads (hc : Caches d slot h r c publicKey) : residentPublicKey d slot = .ok publicKey := by
  obtain ⟨o, contents, hprovider, law, hholding, -, -, -, hkey⟩ := hc.holding
  rw [residentPublicKey, if_pos hc.marker, containerReadAlloc_holding hc.marker hprovider law hholding (by decide), hkey]

omit [Fact KeydevCiphers] in
theorem congr (hc : Caches d slot h r c publicKey) (hsame : SameSlot slot d d') : Caches d' slot h r c publicKey := by
  obtain ⟨o, contents, hprovider, law, hholding, hcontents⟩ := hc.holding
  refine ⟨by rw [hsame.isMarker]; exact hc.marker, o, contents, ?_, law, hholding.congr hsame.files, hcontents⟩
  rw [provider_same hsame.master]
  exact hprovider

omit [Fact KeydevCiphers] in
theorem update (hc : Caches d slot h r c publicKey) {c' : Bytes} (hmaster : SameMaster d d') (ok : residentUpdate slot c' d = (.ok (), d')) :
    Caches d' slot h r c' publicKey := by
  obtain ⟨o, contents, hprovider, law, hholding, hhash, hid, -, hkey⟩ := hc.holding
  obtain ⟨hmarker', hprovider', hholding'⟩ := residentUpdate_holding hc.marker hprovider law hholding hmaster ok
  have hother {t : Nat} (ht : t ≠ fidoResidentObjectCredential) :
      Function.update contents fidoResidentObjectCredential c' t = contents t := Function.update_of_ne ht _ _
  exact ⟨hmarker', o, _, hprovider', law, hholding', (hother (by decide)).trans hhash, (hother (by decide)).trans hid,
    Function.update_self .., (hother (by decide)).trans hkey⟩

end Caches

/-! ### Storing -/

/-- The container library keeps its laws, and the files of every slot come from calls to it. -/
def Ready (d : Device) : Prop := ∀ o, provider d = some o → o.Lawful ∧ ∀ slot, Genuine o slot d.files

omit [Fact KeydevCiphers] in
private theorem Ready.congr (ready : Ready d) (hloads : SameLoads d d') : Ready d' := fun o hprovider => by
  rw [provider_same hloads.master] at hprovider
  obtain ⟨law, hgenuine⟩ := ready o hprovider
  exact ⟨law, fun slot => ReadsOnly.congr (fun fid hfid => hloads.slotFile hfid) (hgenuine slot)⟩

omit [Sdk] [ObjectLibrary] [Fact KeydevCiphers] in
private theorem residentContainerCreate_provider {o : Option ObjectStore} {contents : Contents} {s s' : Store Nat UInt8}
    (ok : residentContainerCreate o slot contents s = (.ok (), s')) : ∃ o', o = some o' := by
  cases o with
  | some o' => exact ⟨o', rfl⟩
  | none =>
    have hupdate : residentContainerUpdate none slot contents.writes s = (.ok (), s') := SlotCall.update_of_ok (.create contents) ok
    cases hupdate

omit [Fact KeydevCiphers] in
private theorem storeRecord_stores {useContainer : Bool} (ready : Ready d)
    (ok : storeRecord slot useContainer c h publicKey d = (.ok (), d')) :
    Caches d' slot h (deriveResidentBlock c) c publicKey ∨ InFile d' slot h (deriveResidentBlock c) c := by
  have hmaster : SameMaster d d' := Keeps.of_run inferInstance ok
  unfold storeRecord at ok
  rw [bind_eq (get_run d)] at ok
  cases useContainer with
  | true =>
    rw [if_pos rfl] at ok
    have hrun := container_run ok
    obtain ⟨o, hprovider⟩ := residentContainerCreate_provider hrun
    obtain ⟨law, hgenuine⟩ := ready o hprovider
    rw [hprovider] at hrun
    have hupdate := SlotCall.update_of_ok (.create _) hrun
    obtain ⟨hwrites, hvalid⟩ := SlotCall.writes_valid (.create _)
    obtain ⟨target, base, generation, c₀, hswitched⟩ := (hgenuine slot).switched law hwrites hvalid hupdate
    have hcall : (SlotCall.create _).run (some o) slot d.store = (.ok (), d'.store) := hrun
    refine .inl ⟨SlotCall.run_marker law hcall, o, _, ?_, law, hswitched.create, rfl, rfl, rfl, rfl⟩
    rw [provider_same hmaster]
    exact hprovider
  | false =>
    obtain ⟨_, d₁, -, ok⟩ := bind_ok ok
    obtain ⟨-, ok⟩ := refuseIf_bind_ok ok
    have hproto := credentialIsResident_deriveResident c []
    rw [List.append_nil] at hproto
    refine .inr ⟨fileData_of_file (putFileIo_ok ok) ?_, hproto⟩
    simp only [List.length_append, h.2]
    omega

omit [ObjectLibrary] in
/-- What is done behind the record leaves it alone. -/
private theorem sameSlot_after {newRecord : Prop} [Decidable newRecord] {rpId : Bytes} {u : Unit}
    (hrps : runIf newRecord (increaseRp h rpId) d = (.ok u, d')) : SameSlot slot d d' := by
  have hencrypts (rpIdHash rpId : Bytes) : Keeps (SameFiles (SlotFile slot)) (rpIdEncrypt rpIdHash rpId) := keeps_of fun d => by
    have hloads : SameLoads d (rpIdEncrypt rpIdHash rpId d).2 := by
      unfold rpIdEncrypt
      exact Keeps.rel d
    exact fun fid hfid => hloads.slotFile hfid
  have hincreases : Keeps (SameFiles (SlotFile slot)) (increaseRp h rpId) := by
    unfold increaseRp
    refine .bind inferInstance fun files => .bind inferInstance fun slot => ?_
    split <;> infer_instance
  exact ⟨Keeps.of_run (R := SameFiles (SlotFile slot)) inferInstance hrps, Keeps.of_run inferInstance hrps⟩

/-- A credential that has been stored is in a slot under its resident id, in a container with the public key or in a record of the older
form. -/
private theorem credentialStore_stores (ready : Ready d) (ok : credentialStore c h publicKey d = (.ok (), d')) :
    ∃ slot, Caches d' slot h (deriveResidentBlock c) c publicKey ∨ InFile d' slot h (deriveResidentBlock c) c := by
  rw [credentialStore_eq] at ok
  obtain ⟨⟨cred, target, slot⟩, d₁, hplace, ok⟩ := bind_ok ok
  obtain ⟨hloads, -, -⟩ := storePlace_ok hplace
  obtain ⟨_, d₂, hrecord, ok⟩ := bind_ok ok
  obtain ⟨_, d₃, hrps, ok⟩ := bind_ok ok
  have hcommitted : SameSlot slot d₃ d' := ⟨Keeps.of_run (R := SameFiles (SlotFile slot)) inferInstance ok, Keeps.of_run inferInstance ok⟩
  have hafter : SameSlot slot d₂ d' := IsTrans.trans _ _ _ (sameSlot_after hrps) hcommitted
  refine ⟨slot, (storeRecord_stores (ready.congr hloads) hrecord).imp (·.congr hafter) fun hin => ⟨?_, hin.proto⟩⟩
  rw [hafter.fileData]
  exact hin.file

/-! ### Listings -/

/-- The device has a container under this resident id, with its public key, and can derive the key itself. -/
structure KeepsKey (d : Device) (slot : Slot) (h : Block 32) (id : Block 42) (key : EcKey) : Prop where
  cached : ∃ c, Caches d slot h id c (coseKey key)
  derives : (fidoLoadKey key.curve id.1 d).1 = .ok key
  stable : residentIdUsesStableKeys id.1 = true

/-- The states that follow as long as the slot is left alone, but for updates of its user information. -/
inductive Later (slot : Slot) (d : Device) : Device → Prop
  | refl : Later slot d d
  | same {d₁ d₂ : Device} (before : Later slot d d₁) (same : SameSlot slot d₁ d₂) : Later slot d d₂
  | update {d₁ d₂ : Device} {c : Bytes} (before : Later slot d d₁) (ok : residentUpdate slot c d₁ = (.ok (), d₂)) : Later slot d d₂

/-- Every listing of the slot has this public key, and a key derived anew gives it too. -/
structure ListsKey (d : Device) (slot : Slot) (h : Block 32) (curve : Int) (publicKey : Bytes) : Prop where
  answers : ∀ {cred} total, (loadResident slot h d).1 = .ok cred →
    ∃ c d', listCredential (some slot) h total d = (.ok (.credential c), d') ∧ c.publicKey = publicKey
  fresh : ∀ {cred}, (loadResident slot h d).1 = .ok cred → cred.curve = curve →
    (fidoLoadKey cred.curve (keySeed cred) d).1.map coseKey = .ok publicKey

namespace KeepsKey
variable {id : Block 42}

theorem later (hk : KeepsKey d slot h id key) (hl : Later slot d d') : KeepsKey d' slot h id key := by
  induction hl with
  | refl => exact hk
  | same before hsame ih =>
    obtain ⟨⟨c, hcached⟩, hderives, hstable⟩ := ih
    exact ⟨⟨c, hcached.congr hsame⟩, (Repeats.same hsame.master).trans hderives, hstable⟩
  | update before ok ih =>
    obtain ⟨⟨c, hcached⟩, hderives, hstable⟩ := ih
    have hmaster := Keeps.of_run (R := SameMaster) inferInstance ok
    exact ⟨⟨_, hcached.update hmaster ok⟩, (Repeats.same hmaster).trans hderives, hstable⟩

omit [Fact KeydevCiphers] in
/-- Whatever is listed needs of the master key that it can be opened. -/
private theorem largeBlobKey_ok (hk : KeepsKey d slot h id key) (cred : Credential) : ∃ blob, (listedLargeBlobKey cred d).1 = .ok blob := by
  obtain ⟨keydev, d₁, hload, -⟩ := bind_ok (run_of_ok hk.derives)
  unfold listedLargeBlobKey
  split
  · obtain ⟨blob, hderive⟩ : ∃ blob, deriveLargeBlobKey (keySeed cred) d = (.ok blob, d₁) := ⟨_, bind_eq hload⟩
    refine ⟨some blob, ?_⟩
    rw [map_run, mapError_run, hderive]
    rfl
  · exact ⟨none, rfl⟩

theorem lists (maps : MapReads) (points : PublicPoints) (halg : coseAlg key.curve < 0) (hk : KeepsKey d slot h id key) :
    ListsKey d slot h key.curve (coseKey key) := by
  obtain ⟨c, hcached⟩ := hk.cached
  have htold (cred : Credential) : toldPublicKey d slot cred = .ok (coseKey key) := by
    simp only [toldPublicKey, hcached.reads]
    exact coseCachedKey_coseKey maps points halg
  refine ⟨fun {cred} total hload => ?_, fun {cred} hload hcurve => ?_⟩
  · obtain ⟨blob, hblob⟩ := hk.largeBlobKey_ok cred
    have hanswer : ∃ listed, toldCredential d h slot total = .ok (.credential listed) ∧ listed.publicKey = coseKey key := by
      unfold toldCredential
      rw [hload]
      simp only [Except.mapError, bind, Except.bind, htold, hblob]
      exact ⟨_, rfl, rfl⟩
    obtain ⟨listed, hanswer, hkey⟩ := hanswer
    obtain ⟨d', hrun, -⟩ := listCredential_run hanswer
    exact ⟨listed, d', hrun, hkey⟩
  · rw [hcached.inContainer.answers.load, if_neg (by simp)] at hload
    obtain ⟨cred₀, -, rfl⟩ : ∃ cred₀, (credentialLoad c h d).1 = .ok cred₀ ∧ { cred₀ with residentId := some id.1 } = cred := by
      cases hopen : (credentialLoad c h d).1 with
      | error e =>
        rw [hopen] at hload
        cases hload
      | ok cred₀ =>
        rw [hopen] at hload
        exact ⟨cred₀, rfl, Except.ok.inj hload⟩
    have hseed : keySeed { cred₀ with residentId := some id.1 } = id.1 := if_pos hk.stable
    rw [hseed, hcurve, hk.derives]
    rfl

end KeepsKey

/-- COSE_cached_key gives back the bytes of COSE_key. So for a container credential every listing has the public key that its
registration was answered with, and so has the key derived anew. -/
theorem cached_key_faithful (reads : CborReads) (maps : MapReads) (points : PublicPoints) (keys : EcKeys)
    (clock : ∀ time, Sdk.rtcTime = some time → time < 2 ^ 64) :
    (∀ key, coseAlg key.curve < 0 → coseCachedKey (coseKey key) = .ok (coseKey key)) ∧
      ∀ {p : MakeCredentialParams} {d a d'}, p.rk = true → p.extensions.credProtect < 2 ^ 64 → Ready d →
        cborMakeCredential (.params p) d = (.ok a, d') → ∃ slot curve alg, selectAlgorithm p = .ok (curve, alg) ∧
          residentMatchesId d' slot (attestedId a.authData.attested) = true ∧ (isMarker d' slot = true → coseAlg curve < 0 →
            (∀ d₁, SameSlot slot d' d₁ → ∃ cred, (loadResident slot p.rpIdHash d₁).1 = .ok cred ∧ cred.curve = curve) ∧
              ∀ d₁, Later slot d' d₁ → ListsKey d₁ slot p.rpIdHash curve (attestedKey a.authData.attested)) := by
  refine ⟨fun key halg => coseCachedKey_coseKey maps points halg, fun {p d a d'} hrk hprotect ready hmake => ?_⟩
  obtain ⟨curve, alg, credId, key, s, hselect, hloads, hregisters⟩ := cborMakeCredential_registers hmake
  obtain ⟨t, hcreated⟩ := hregisters.created
  obtain ⟨hid, hkey⟩ := hregisters.parts
  have hanswered : p.answeredId credId = deriveResident credId := if_pos hrk
  have hloaded := hregisters.loaded
  rw [hanswered] at hid hloaded
  have hstored := hregisters.stored
  rw [if_pos hrk] at hstored
  obtain ⟨s₁, s₂, hloads₁, hstore, hafter⟩ := hstored
  have hready : Ready s₁ := (ready.congr hloads).congr hloads₁
  obtain ⟨slot, hform⟩ := credentialStore_stores hready hstore
  have hmaster : SameMaster s d' := IsTrans.trans _ _ _ hloads₁.master
    (IsTrans.trans _ _ _ (Keeps.of_run (R := SameMaster) inferInstance hstore) (hafter slot).master)
  obtain rfl : key.curve = curve := deriveKey_curve keys hloaded
  have hderives : (fidoLoadKey key.curve (deriveResident credId) d').1 = .ok key := (Repeats.same hmaster).trans hloaded
  refine ⟨slot, key.curve, alg, hselect, ?_, fun hmarker halg => ?_⟩
  · rw [hid, (hafter slot).residentMatchesId]
    rcases hform with hcached | hin
    · rw [hcached.inContainer.answers.matchesId]
      exact decide_eq_true rfl
    · rw [hin.answers.matchesId]
      exact decide_eq_true rfl
  · rcases hform with hcached | hin
    · have hkept : KeepsKey d' slot p.rpIdHash (deriveResidentBlock credId) key :=
        ⟨⟨credId, hcached.congr (hafter slot)⟩, hderives, residentIdUsesStableKeys_deriveResident credId⟩
      rw [hkey]
      refine ⟨fun d₁ hsame => ?_, fun d₁ hlater => (hkept.later hlater).lists maps points halg⟩
      have hcached₁ := (hcached.congr (hafter slot)).congr hsame
      have hload := credentialLoad_created reads (encodable_credential hprotect clock hselect) hcreated
        (IsTrans.trans _ _ _ hmaster hsame.master : SameMaster s d₁)
      rw [hcached₁.inContainer.answers.load, if_neg (by simp), show p.rpIdHash = Sdk.sha256 ((p.credential key.curve alg).rpId.getD []) from rfl, hload]
      exact ⟨_, rfl, rfl⟩
    · rw [(hafter slot).isMarker] at hmarker
      have hlength : 32 ≤ (p.rpIdHash.1 ++ (deriveResidentBlock credId).1 ++ credId).length := by
        simp only [List.length_append, p.rpIdHash.2]
        omega
      rw [not_marker hin.file hlength] at hmarker
      cases hmarker

end
end

/-! ### On a plain device -/

section Plain

/-- The plain SDK with coordinates of fixed width. -/
@[reducible] private def coordinateSdk : Sdk :=
  { mapSdk with ecPublicKey := fun key => ((Block.ofBytes 32 key.d).1, (Block.ofBytes 32 key.d).1) }

attribute [local instance] coordinateSdk plainLibrary

private theorem coordinateSdk_points : PublicPoints := fun key _ => by
  have hlength : (Block.ofBytes 32 key.d).1.length = 32 := (Block.ofBytes 32 key.d).2
  refine ⟨fun hnil => ?_, ?_, ?_⟩
  · rw [show (Sdk.ecPublicKey key).1 = (Block.ofBytes 32 key.d).1 from rfl] at hnil
    rw [hnil] at hlength
    cases hlength
  · rw [show (Sdk.ecPublicKey key).1 = (Block.ofBytes 32 key.d).1 from rfl, hlength]
    decide
  · rw [show (Sdk.ecPublicKey key).2 = (Block.ofBytes 32 key.d).1 from rfl, hlength]
    decide

private theorem coordinateSdk_ciphers : KeydevCiphers := ⟨@KeydevCiphers.encrypt cborSdk cborSdk_ciphers⟩

private theorem coordinateSdk_keys : EcKeys where
  curve curve b key h := by
    cases h
    rfl
  scalar b key _ h := by
    cases h
    rfl
  p256 := rfl
  none := rfl

/-- The request of a discoverable credential. -/
private def residentRequest : MakeCredentialParams :=
  { plainMakeCredential with options := some { rk := some true, up := none, uv := none } }

private def residentDevice : Device := plainDevice [(efKeyDev, plainKeydev)]

private def residentRegistered : Device := (cborMakeCredential (.params residentRequest) residentDevice).2

private def residentIdOf (made : Except CtapError MakeCredentialAnswer) : Bytes := match made with
  | .ok answer => attestedId answer.authData.attested
  | .error _ => []

private theorem residentDevice_ready : Ready residentDevice := by
  intro o hprovider
  obtain ⟨key, hkey⟩ := exists_ok (show (rootKey residentDevice).toBool = true by decide +kernel)
  rw [provider, hkey] at hprovider
  cases hprovider
  refine ⟨PlainStore.lawful, fun slot => .ofEmpty fun fid hfid => ?_⟩
  have hfile : residentDevice.files fid = none := by
    show List.lookup fid [(efKeyDev, plainKeydev)] = none
    have hother : (fid == efKeyDev) = false := beq_false_of_ne (slotFile_ne hfid).1
    rw [List.lookup_cons, hother]
    rfl
  rw [hfile]
  rfl

/-- A discoverable credential is listed with the key that it was registered with. -/
theorem resident_key_listed : coseCachedKey (coseKey ⟨curveP521, [7]⟩) = .ok (coseKey ⟨curveP521, [7]⟩) ∧
    ∃ a slot, cborMakeCredential (.params residentRequest) residentDevice = (.ok a, residentRegistered) ∧
      isMarker residentRegistered slot = true ∧
        (∃ cred, (loadResident slot residentRequest.rpIdHash residentRegistered).1 = .ok cred ∧ cred.curve = curveP256) ∧
          ListsKey residentRegistered slot residentRequest.rpIdHash curveP256 (attestedKey a.authData.attested) := by
  have : Fact KeydevCiphers := ⟨coordinateSdk_ciphers⟩
  obtain ⟨a, hmake⟩ := exists_ok (r := (cborMakeCredential (.params residentRequest) residentDevice).1) (by decide +kernel)
  have hfaithful := cached_key_faithful mapSdk_reads mapSdk_maps coordinateSdk_points coordinateSdk_keys (fun _ h => nomatch h)
  obtain ⟨slot, curve, alg, hselect, hfound, hlists⟩ :=
    hfaithful.2 (p := residentRequest) rfl (by decide) residentDevice_ready (run_of_ok hmake)
  obtain rfl : curveP256 = curve := congrArg Prod.fst (Except.ok.inj hselect)
  have hmarker : ∀ slot, residentMatchesId residentRegistered slot
      (residentIdOf (cborMakeCredential (.params residentRequest) residentDevice).1) = true → isMarker residentRegistered slot = true := by
    decide +kernel
  rw [hmake] at hmarker
  have hmarked := hmarker slot hfound
  obtain ⟨hloads, hlisted⟩ := hlists hmarked (by decide)
  exact ⟨hfaithful.1 _ (by decide), a, slot, run_of_ok hmake, hmarked, hloads _ (Std.Refl.refl _), hlisted _ .refl⟩

end Plain
end FidoTouch.Ctap
