import FidoTouch.CborItems
import FidoTouch.Ctap.Loads

/-! What a credential id gives back: the map in it reads as the fields it was made from, and the device that sealed it
opens it to them again. -/
namespace FidoTouch.Ctap
open FidoTouch.Program Handler FidoTouch.Storage FidoTouch.Resident

/-! ### The items of the map -/

def textItems (key : Nat) : Option Bytes → List (CborItem × CborItem)
  | some (b :: bs) => [(.uint key, .text (cString (b :: bs)))]
  | _ => []

def bytesItems (key : Nat) : Option Bytes → List (CborItem × CborItem)
  | some (b :: bs) => [(.uint key, .bytes (b :: bs))]
  | _ => []

def boolItems (key : String) : Option Bool → List (CborItem × CborItem)
  | some b => [(.text (Cbor.ascii key), .bool b)]
  | none => []

def trueItems (key : String) (b : Option Bool) : List (CborItem × CborItem) :=
  if b = some true then [(.text (Cbor.ascii key), .bool true)] else []

def intItem (i : Int) : CborItem := if 0 ≤ i then .uint i.toNat else .nint i.natAbs

def blobItems : Option Bytes → List (CborItem × CborItem)
  | some blob => if blob.length < maxCredblobLength then [(.text (Cbor.ascii "credBlob"), .bytes blob)] else []
  | none => []

def protectItems (credProtect : Nat) : List (CborItem × CborItem) :=
  if credProtect ≠ 0 then [(.text (Cbor.ascii "credProtect"), .uint credProtect)] else []

def extensionItems (e : CredExtensions) : List (CborItem × CborItem) :=
  blobItems e.credBlob ++ protectItems e.credProtect ++ boolItems "hmac-secret" e.hmacSecret ++
    trueItems "largeBlobKey" e.largeBlobKey ++ trueItems "thirdPartyPayment" e.thirdPartyPayment

def extensionsItems (e : CredExtensions) : List (CborItem × CborItem) :=
  if e.present then [(.uint 0x07, .map (extensionItems e))] else []

def algorithmItems (alg curve : Int) : List (CborItem × CborItem) :=
  if alg ≠ algEs256 ∨ curve ≠ curveP256 then [(.uint 0x09, intItem alg), (.uint 0x0A, intItem curve)] else []

def optionItems (o : CredOptions) : List (CborItem × CborItem) :=
  if o.present then [(.uint 0x0B, .map (boolItems "rk" o.rk))] else []

def timeItems : Option Nat → List (CborItem × CborItem)
  | some time => [(.uint 0x0C, .uint time)]
  | none => []

section
variable [Sdk]

/-- The entries of the map in a credential id. -/
def credentialItems (c : NewCredential) (rpIdHash : Block 32) (boardMillis : UInt32) : List (CborItem × CborItem) :=
  textItems 0x01 c.rpId ++ [(.uint 0x02, .bytes rpIdHash.1)] ++ bytesItems 0x03 c.userId ++ textItems 0x04 c.userName ++
    textItems 0x05 c.userDisplayName ++ [(.uint 0x06, .uint boardMillis.toNat)] ++ extensionsItems c.extensions ++
    [(.uint 0x08, .bool c.useSignCount)] ++ algorithmItems c.alg c.curve ++ optionItems c.opts ++ timeItems Sdk.rtcTime

end

/-! ### They are what the map holds -/

private theorem encodes_text (s : String) (h : (Cbor.ascii s).length < 2 ^ 64) : Encodes (.text (Cbor.ascii s)) (Cbor.text s) := .text h

private theorem encodesAll_text (key : Nat) (v : Option Bytes) (hkey : key < 2 ^ 64) (h : (appendText key v).length < 2 ^ 64) :
    EncodesAll (textItems key v) (appendText key v) := by
  rcases v with _ | _ | ⟨b, bs⟩
  · exact .nil
  · exact .nil
  · refine .single (.uint hkey) (.text ?_)
    simp only [appendText, Cbor.textString, List.length_append] at h
    omega

private theorem encodesAll_bytes (key : Nat) (v : Option Bytes) (hkey : key < 2 ^ 64) (h : (appendBytes key v).length < 2 ^ 64) :
    EncodesAll (bytesItems key v) (appendBytes key v) := by
  rcases v with _ | _ | ⟨b, bs⟩
  · exact .nil
  · exact .nil
  · refine .single (.uint hkey) (.bytes ?_)
    simp only [appendBytes, Cbor.byteString, List.length_append] at h
    omega

private theorem encodesAll_bool {key : String} (hkey : (Cbor.ascii key).length < 2 ^ 64) (b : Option Bool) :
    EncodesAll (boolItems key b) (optBool key b) := by
  cases b with
  | none => exact .nil
  | some b => exact .single (encodes_text key hkey) (.bool b)

private theorem encodesAll_true {key : String} (hkey : (Cbor.ascii key).length < 2 ^ 64) (b : Option Bool) :
    EncodesAll (trueItems key b) (if b = some true then Cbor.text key ++ Cbor.boolean true else []) := by
  unfold trueItems
  split
  · exact .single (encodes_text key hkey) (.bool true)
  · exact .nil

private theorem encodes_int {i : Int} (h : i.natAbs < 2 ^ 64) : Encodes (intItem i) (Cbor.int i) := by
  unfold intItem Cbor.int
  split
  · exact .uint (by omega)
  · exact .nint (by omega) h

private theorem encodesAll_extensions {e : CredExtensions} (hprotect : e.credProtect < 2 ^ 64) :
    EncodesAll (extensionItems e) (extensionEntries e) := by
  have hblob : EncodesAll (blobItems e.credBlob) (match e.credBlob with
      | some blob => if blob.length < maxCredblobLength then Cbor.text "credBlob" ++ Cbor.byteString blob else []
      | none => []) := by
    cases e.credBlob with
    | none => exact .nil
    | some blob =>
      simp only [blobItems]
      split
      · next hlength => exact .single (encodes_text _ (by decide)) (.bytes (Nat.lt_trans hlength (by decide)))
      · exact .nil
  have hlevel : EncodesAll (protectItems e.credProtect)
      (if e.credProtect ≠ 0 then Cbor.text "credProtect" ++ Cbor.uint e.credProtect else []) := by
    unfold protectItems
    split
    · exact .single (encodes_text _ (by decide)) (.uint hprotect)
    · exact .nil
  exact (((hblob.append hlevel).append (encodesAll_bool (by decide) _)).append (encodesAll_true (by decide) _)).append
    (encodesAll_true (by decide) _)

section
variable [Sdk]

/-- Numbers as wide as the types they have in the program. -/
structure Encodable (c : NewCredential) : Prop where
  credProtect : c.extensions.credProtect < 2 ^ 64
  alg : c.alg.natAbs < 2 ^ 64
  curve : c.curve.natAbs < 2 ^ 64
  rtcTime : ∀ time, Sdk.rtcTime = some time → time < 2 ^ 64

theorem credentialMap_encodes {c : NewCredential} (hc : Encodable c) {rpIdHash : Block 32} {boardMillis : UInt32}
    (hlength : (credentialMap c rpIdHash boardMillis).length < 2 ^ 64) :
    Encodes (.map (credentialItems c rpIdHash boardMillis)) (credentialMap c rpIdHash boardMillis) := by
  simp only [credentialMap, Cbor.openMap, List.length_cons, List.length_append] at hlength
  have hrpIdHash : EncodesAll [(.uint 0x02, .bytes rpIdHash.1)] (Cbor.uint 0x02 ++ Cbor.byteString rpIdHash.1) :=
    .single (.uint (by omega)) (.bytes (by rw [rpIdHash.2]; omega))
  have hcreation : EncodesAll [(.uint 0x06, .uint boardMillis.toNat)] (Cbor.uint 0x06 ++ Cbor.uint boardMillis.toNat) :=
    .single (.uint (by omega)) (.uint (Nat.lt_trans boardMillis.toNat_lt (by omega)))
  have hextensions : EncodesAll (extensionsItems c.extensions)
      (if c.extensions.present then Cbor.uint 0x07 ++ Cbor.openMap (extensionEntries c.extensions) else []) := by
    unfold extensionsItems
    split
    · exact .single (.uint (by omega)) (.map (encodesAll_extensions hc.credProtect))
    · exact .nil
  have hcounted : EncodesAll [(.uint 0x08, .bool c.useSignCount)] (Cbor.uint 0x08 ++ Cbor.boolean c.useSignCount) :=
    .single (.uint (by omega)) (.bool _)
  have halgorithm : EncodesAll (algorithmItems c.alg c.curve) (if c.alg ≠ algEs256 ∨ c.curve ≠ curveP256 then
      (Cbor.uint 0x09 ++ Cbor.int c.alg) ++ (Cbor.uint 0x0A ++ Cbor.int c.curve) else []) := by
    unfold algorithmItems
    split
    · exact (EncodesAll.single (.uint (by omega)) (encodes_int hc.alg)).append (.single (.uint (by omega)) (encodes_int hc.curve))
    · exact .nil
  have hoptions : EncodesAll (optionItems c.opts) (if c.opts.present then Cbor.uint 0x0B ++ Cbor.openMap (optBool "rk" c.opts.rk) else []) := by
    unfold optionItems
    split
    · exact .single (.uint (by omega)) (.map (encodesAll_bool (by decide) _))
    · exact .nil
  have htime : EncodesAll (timeItems Sdk.rtcTime) (match Sdk.rtcTime with
      | some time => Cbor.uint 0x0C ++ Cbor.uint time
      | none => []) := by
    cases htime : Sdk.rtcTime with
    | none => exact .nil
    | some time => exact .single (.uint (by omega)) (.uint (hc.rtcTime time htime))
  have hall := ((((((((((encodesAll_text 0x01 c.rpId (by omega) (by omega)).append hrpIdHash).append
    (encodesAll_bytes 0x03 c.userId (by omega) (by omega))).append
    (encodesAll_text 0x04 c.userName (by omega) (by omega))).append
    (encodesAll_text 0x05 c.userDisplayName (by omega) (by omega))).append hcreation).append hextensions).append
    hcounted).append halgorithm).append hoptions).append htime
  have hmap := Encodes.map hall
  simp only [credentialMap, credentialItems, List.append_assoc] at hmap ⊢
  exact hmap

/-! ### What the map reads as -/

def recordedText : Option Bytes → Option Bytes
  | some (b :: bs) => some (cString (b :: bs))
  | _ => none

def recordedBytes : Option Bytes → Option Bytes
  | some (b :: bs) => some (b :: bs)
  | _ => none

def recordedTrue (b : Option Bool) : Option Bool := if b = some true then some true else none

/-- A blob that is too long is left out, and so is what is not set. -/
def recordedExtensions (e : CredExtensions) : CredExtensions :=
  if e.present then
    ⟨e.hmacSecret, e.credProtect, none, e.credBlob.filter fun blob => blob.length < maxCredblobLength, recordedTrue e.largeBlobKey,
      recordedTrue e.thirdPartyPayment, true⟩
  else Credential.empty.extensions

def recordedOptions (o : CredOptions) : CredOptions :=
  if o.present then ⟨o.rk, none, none, true⟩ else Credential.empty.opts

/-- The fields that come back of a new credential. -/
def recorded (c : NewCredential) (boardMillis : UInt32) : Credential :=
  { rpId := recordedText c.rpId, userId := recordedBytes c.userId, userName := recordedText c.userName,
    userDisplayName := recordedText c.userDisplayName, boardCreation := boardMillis.toNat,
    extensions := recordedExtensions c.extensions, useSignCount := some c.useSignCount, alg := c.alg, curve := c.curve, id := none,
    residentId := none, opts := recordedOptions c.opts, present := false, rtcCreation := Sdk.rtcTime.getD 0 }

/-- The entries turn one credential into the other. -/
def Reads (items : List (CborItem × CborItem)) (cred cred' : Credential) : Prop := items.foldlM readCredentialEntry cred = .ok cred'

omit [Sdk] in
private theorem Reads.append {l r : List (CborItem × CborItem)} {cred cred' cred'' : Credential} (hl : Reads l cred cred')
    (hr : Reads r cred' cred'') : Reads (l ++ r) cred cred'' := by
  unfold Reads at hl hr ⊢
  rw [List.foldlM_append, hl]
  exact hr

omit [Sdk] in
private theorem readExtension_blob (blob : Option Bytes) (e : CredExtensions) (h : e.credBlob = none) :
    (blobItems blob).foldlM readExtension e = .ok { e with credBlob := blob.filter fun blob => blob.length < maxCredblobLength } := by
  obtain ⟨_, _, _, _, _, _, _⟩ := e
  subst h
  cases blob with
  | none => rfl
  | some blob =>
    simp only [blobItems, Option.filter, decide_eq_true_eq]
    split <;> rfl

omit [Sdk] in
private theorem readExtension_protect (credProtect : Nat) (e : CredExtensions) (h : e.credProtect = 0) :
    (protectItems credProtect).foldlM readExtension e = .ok { e with credProtect := credProtect } := by
  obtain ⟨_, _, _, _, _, _, _⟩ := e
  subst h
  unfold protectItems
  by_cases hzero : credProtect = 0
  · rw [if_neg (not_not_intro hzero), hzero]
    rfl
  · rw [if_pos hzero]
    rfl

omit [Sdk] in
private theorem readExtension_hmacSecret (b : Option Bool) (e : CredExtensions) (h : e.hmacSecret = none) :
    (boolItems "hmac-secret" b).foldlM readExtension e = .ok { e with hmacSecret := b } := by
  obtain ⟨_, _, _, _, _, _, _⟩ := e
  subst h
  cases b <;> rfl

omit [Sdk] in
private theorem readExtension_largeBlobKey (b : Option Bool) (e : CredExtensions) (h : e.largeBlobKey = none) :
    (trueItems "largeBlobKey" b).foldlM readExtension e = .ok { e with largeBlobKey := recordedTrue b } := by
  obtain ⟨_, _, _, _, _, _, _⟩ := e
  subst h
  unfold trueItems recordedTrue
  split <;> rfl

omit [Sdk] in
private theorem readExtension_thirdPartyPayment (b : Option Bool) (e : CredExtensions) (h : e.thirdPartyPayment = none) :
    (trueItems "thirdPartyPayment" b).foldlM readExtension e = .ok { e with thirdPartyPayment := recordedTrue b } := by
  obtain ⟨_, _, _, _, _, _, _⟩ := e
  subst h
  unfold trueItems recordedTrue
  split <;> rfl

omit [Sdk] in
private theorem readExtensions (e : CredExtensions) :
    (extensionItems e).foldlM readExtension { Credential.empty.extensions with present := true } =
      .ok ⟨e.hmacSecret, e.credProtect, none, e.credBlob.filter fun blob => blob.length < maxCredblobLength, recordedTrue e.largeBlobKey,
        recordedTrue e.thirdPartyPayment, true⟩ := by
  simp only [extensionItems, List.foldlM_append]
  rw [readExtension_blob _ _ rfl]
  simp only [bind, Except.bind]
  rw [readExtension_protect _ _ rfl]
  simp only
  rw [readExtension_hmacSecret _ _ rfl]
  simp only
  rw [readExtension_largeBlobKey _ _ rfl]
  simp only
  rw [readExtension_thirdPartyPayment _ _ rfl]
  rfl

section
variable {cred : Credential}

omit [Sdk] in
private theorem reads_rpId (v : Option Bytes) (h : cred.rpId = none) : Reads (textItems 0x01 v) cred { cred with rpId := recordedText v } := by
  obtain ⟨_, _, _, _, _, _, _, _, _, _, _, _, _, _⟩ := cred
  subst h
  rcases v with _ | _ | _ <;> rfl

omit [Sdk] in
private theorem reads_userId (v : Option Bytes) (h : cred.userId = none) :
    Reads (bytesItems 0x03 v) cred { cred with userId := recordedBytes v } := by
  obtain ⟨_, _, _, _, _, _, _, _, _, _, _, _, _, _⟩ := cred
  subst h
  rcases v with _ | _ | _ <;> rfl

omit [Sdk] in
private theorem reads_userName (v : Option Bytes) (h : cred.userName = none) :
    Reads (textItems 0x04 v) cred { cred with userName := recordedText v } := by
  obtain ⟨_, _, _, _, _, _, _, _, _, _, _, _, _, _⟩ := cred
  subst h
  rcases v with _ | _ | _ <;> rfl

omit [Sdk] in
private theorem reads_userDisplayName (v : Option Bytes) (h : cred.userDisplayName = none) :
    Reads (textItems 0x05 v) cred { cred with userDisplayName := recordedText v } := by
  obtain ⟨_, _, _, _, _, _, _, _, _, _, _, _, _, _⟩ := cred
  subst h
  rcases v with _ | _ | _ <;> rfl

omit [Sdk] in
private theorem reads_extensions (e : CredExtensions) (h : cred.extensions = Credential.empty.extensions) :
    Reads (extensionsItems e) cred { cred with extensions := recordedExtensions e } := by
  obtain ⟨_, _, _, _, _, _, _, _, _, _, _, _, _, _⟩ := cred
  subst h
  unfold Reads extensionsItems recordedExtensions
  by_cases hpresent : e.present = true
  · simp only [if_pos hpresent, List.foldlM_cons, List.foldlM_nil, readCredentialEntry, itemUint, itemMap, bind, Except.bind]
    rw [readExtensions]
    rfl
  · simp only [if_neg hpresent]
    rfl

omit [Sdk] in
private theorem itemInt_intItem (i : Int) : itemInt (intItem i) = .ok i := by
  unfold intItem
  split
  · next h => rw [itemInt, Int.toNat_of_nonneg h]
  · next h => rw [itemInt, show (-(i.natAbs : Int)) = i by omega]

omit [Sdk] in
private theorem reads_algorithm (alg curve : Int) (halg : cred.alg = algEs256) (hcurve : cred.curve = curveP256) :
    Reads (algorithmItems alg curve) cred { cred with alg := alg, curve := curve } := by
  obtain ⟨_, _, _, _, _, _, _, _, _, _, _, _, _, _⟩ := cred
  subst halg hcurve
  unfold Reads algorithmItems
  by_cases h : alg ≠ algEs256 ∨ curve ≠ curveP256
  · simp only [if_pos h, List.foldlM_cons, List.foldlM_nil, readCredentialEntry, itemUint, bind, Except.bind, itemInt_intItem]
    rfl
  · rw [if_neg h]
    obtain ⟨rfl, rfl⟩ : alg = algEs256 ∧ curve = curveP256 := by simpa only [not_or, not_not] using h
    rfl

omit [Sdk] in
private theorem reads_options (o : CredOptions) (h : cred.opts = Credential.empty.opts) :
    Reads (optionItems o) cred { cred with opts := recordedOptions o } := by
  obtain ⟨_, _, _, _, _, _, _, _, _, _, _, _, _, _⟩ := cred
  subst h
  unfold Reads optionItems recordedOptions
  by_cases hpresent : o.present = true
  · simp only [if_pos hpresent]
    cases o.rk <;> rfl
  · simp only [if_neg hpresent]
    rfl

omit [Sdk] in
private theorem reads_time (time : Option Nat) (h : cred.rtcCreation = 0) :
    Reads (timeItems time) cred { cred with rtcCreation := time.getD 0 } := by
  obtain ⟨_, _, _, _, _, _, _, _, _, _, _, _, _, _⟩ := cred
  subst h
  cases time <;> rfl

end

theorem credentialItems_read (c : NewCredential) (rpIdHash : Block 32) (boardMillis : UInt32) :
    Reads (credentialItems c rpIdHash boardMillis) { Credential.empty with curve := curveP256, alg := algEs256 }
      (recorded c boardMillis) := by
  unfold credentialItems
  have hrpIdHash : ∀ cred : Credential, Reads [(.uint 0x02, .bytes rpIdHash.1)] cred cred := fun _ => rfl
  have hcreation : ∀ cred : Credential, Reads [(.uint 0x06, .uint boardMillis.toNat)] cred { cred with boardCreation := boardMillis.toNat } :=
    fun _ => rfl
  have hcounted : ∀ cred : Credential, Reads [(.uint 0x08, .bool c.useSignCount)] cred { cred with useSignCount := some c.useSignCount } :=
    fun _ => rfl
  have hrpId : Reads (textItems 0x01 c.rpId) { Credential.empty with curve := curveP256, alg := algEs256 } _ := reads_rpId c.rpId rfl
  have huser := (hrpId.append (hrpIdHash _)).append (reads_userId c.userId rfl)
  have hnames := (huser.append (reads_userName c.userName rfl)).append (reads_userDisplayName c.userDisplayName rfl)
  have hsigned := ((hnames.append (hcreation _)).append (reads_extensions c.extensions rfl)).append (hcounted _)
  exact ((hsigned.append (reads_algorithm c.alg c.curve rfl rfl)).append (reads_options c.opts rfl)).append (reads_time Sdk.rtcTime rfl)

/-- The map reads as the fields it was made from, whatever was encrypted along with it. -/
theorem readCredential_map (reads : CborReads) {c : NewCredential} (hc : Encodable c) {rpIdHash : Block 32} {boardMillis : UInt32}
    (hlength : (credentialMap c rpIdHash boardMillis).length < 2 ^ 64) (rest : Bytes) :
    readCredential (credentialMap c rpIdHash boardMillis ++ rest) = .ok (recorded c boardMillis) := by
  rw [readCredential, reads rest (credentialMap_encodes hc hlength)]
  exact credentialItems_read c rpIdHash boardMillis

/-! ### Resident ids -/

private theorem hmacChain_length (md : Md) {key : Bytes} (messages : List Bytes) (hkey : key.length = md.size) :
    (hmacChain md key messages).length = md.size := by
  unfold hmacChain
  induction messages generalizing key with
  | nil => exact hkey
  | cons m messages ih =>
    rw [List.foldl_cons]
    apply ih
    cases Sdk.mdHmac md (key.take 32) m with
    | none => exact hkey
    | some mac => exact mac.2

private theorem serial_length :
    (((Sdk.mdHmac .sha256 (List.replicate 32 0) Sdk.picoSerialId).map Subtype.val).getD (List.replicate 32 0)).length = 32 := by
  cases Sdk.mdHmac .sha256 (List.replicate 32 0) Sdk.picoSerialId with
  | none => rfl
  | some mac => exact mac.2

/-- A derived resident id names the protocol of stable keys behind its first four bytes. -/
private theorem deriveResident_parts (credId : Bytes) : ∃ serial digest : Bytes, serial.length = 4 ∧ digest.length = 32 ∧
    deriveResident credId = serial ++ credProto26 ++ [0, 0] ++ digest := by
  refine ⟨_, _, ?_, ?_, rfl⟩
  · rw [List.length_take, serial_length]
    rfl
  · refine hmacChain_length .sha256 _ ?_
    rw [List.length_append, List.length_drop, serial_length]
    rfl

theorem deriveResident_length (credId : Bytes) : (deriveResident credId).length = credResidentLen := by
  obtain ⟨serial, digest, hserial, hdigest, hparts⟩ := deriveResident_parts credId
  rw [hparts]
  simp only [List.length_append, hserial, hdigest]
  rfl

theorem deriveResident_proto (credId rest : Bytes) : ((deriveResident credId ++ rest).drop 4).take 4 = credProto26 := by
  obtain ⟨serial, digest, hserial, -, hparts⟩ := deriveResident_parts credId
  rw [hparts]
  simp only [List.append_assoc]
  rw [List.drop_left' hserial]
  rfl

theorem credentialIsResident_deriveResident (credId rest : Bytes) : credentialIsResident (deriveResident credId ++ rest) = true := by
  refine decide_eq_true ⟨?_, .inr (deriveResident_proto credId rest)⟩
  rw [List.length_append, deriveResident_length, credResidentLen]
  omega

theorem residentIdUsesStableKeys_deriveResident (credId : Bytes) : residentIdUsesStableKeys (deriveResident credId) = true := by
  have hproto := deriveResident_proto credId []
  rw [List.append_nil] at hproto
  exact decide_eq_true ⟨deriveResident_length credId, hproto⟩

/-! ### Opening an id on the device that sealed it -/

/-- The key of credential ids, as the master key is now. -/
def chachaKey (d : Device) (proto : Bytes) : Bytes :=
  match keydevValue d (.zero 32) with
  | .ok keydev => hmacChain .sha256 keydev.1 [slip0022, proto.take 4, Cbor.ascii "Encryption key"]
  | .error _ => (Block.zero 32).1

theorem SameMaster.chachaKey {d d' : Device} (h : SameMaster d d') (proto : Bytes) : chachaKey d' proto = chachaKey d proto := by
  rw [Ctap.chachaKey, Ctap.chachaKey, h]

theorem silentTag_take_length (certdev rpIdHash : Block 32) (credId : Bytes) :
    ((credentialSilentTag certdev credId rpIdHash).take credSilentTagLen).length = credSilentTagLen := by
  have hlength : (credentialSilentTag certdev credId rpIdHash).length = 32 := by
    unfold credentialSilentTag
    dsimp only
    cases hmac : Sdk.mdHmac .sha256 (silentTagKey certdev credId rpIdHash).1 (credId.take (credId.length - credSilentTagLen)) with
    | none => exact (silentTagKey certdev credId rpIdHash).2
    | some mac => exact mac.2
  rw [List.length_take, hlength]
  rfl

theorem openCredentialId_parts {iv cipher tag silent : Bytes} (hiv : iv.length = 12) (htag : tag.length = 16)
    (hsilent : silent.length = 16) (key : Bytes) (rpIdHash : Block 32) :
    openCredentialId key (credProto ++ iv ++ cipher ++ tag ++ silent) rpIdHash = chachapolyAuthDecrypt key iv rpIdHash.1 tag cipher := by
  have hproto : credProto.length = 4 := rfl
  have hhas : hasSilentTag (credProto ++ iv ++ cipher ++ tag ++ silent) = true := by
    simp [hasSilentTag, List.take_append, credProto, credProto25]
  have hlength : (credProto ++ iv ++ cipher ++ tag ++ silent).length = cipher.length + 48 := by
    simp only [List.length_append, hproto, hiv, htag, hsilent]
    omega
  have htrailer : credTagLen + credSilentTagLen = 32 := rfl
  have hheader : 4 + credIvLen = 16 := rfl
  have hnonce : ((credProto ++ iv ++ cipher ++ tag ++ silent).drop 4).take credIvLen = iv := by
    simp [List.append_assoc, hproto, credIvLen, hiv]
  have hcipher : ((credProto ++ iv ++ cipher ++ tag ++ silent).drop 16).take cipher.length = cipher := by
    simp [List.append_assoc, List.drop_append, hproto, hiv, List.take_append]
  have hdata : ((credProto ++ iv ++ cipher ++ tag ++ silent).drop (cipher.length + 16)).take credTagLen = tag := by
    have hdrop : (credProto ++ iv ++ cipher ++ tag ++ silent).drop (cipher.length + 16) = tag ++ silent := by
      rw [List.append_assoc, List.drop_left' (by simp only [List.length_append, hproto, hiv]; omega)]
    rw [hdrop]
    exact List.take_left' htag
  unfold openCredentialId
  simp only [hhas, if_true, hlength, htrailer, hheader, hnonce]
  rw [if_neg (by omega), show cipher.length + 48 - (16 + 32) = cipher.length by omega, hcipher,
    show cipher.length + 48 - 32 = cipher.length + 16 by omega, hdata]

/-- The key that seals a credential id opens it. -/
theorem openCredentialId_seal (certdev : Block 32) (key : Bytes) (iv : Block 12) (rpIdHash : Block 32) (payload : Bytes) :
    openCredentialId key (sealCredentialId certdev key iv rpIdHash payload) rpIdHash = some payload := by
  unfold sealCredentialId
  exact (openCredentialId_parts iv.2 (chachapolyEncryptAndTag key iv.1 rpIdHash.1 payload).2.2 (silentTag_take_length certdev rpIdHash _)
    key rpIdHash).trans (chachapoly_decrypt_encrypt key iv.1 rpIdHash.1 payload)

theorem sealCredentialId_proto (certdev : Block 32) (key : Bytes) (iv : Block 12) (rpIdHash : Block 32) (payload : Bytes) :
    (sealCredentialId certdev key iv rpIdHash payload).take 4 = credProto := by
  simp [sealCredentialId, credProto, credProto25]

theorem sealCredentialId_length (certdev : Block 32) (key : Bytes) (iv : Block 12) (rpIdHash : Block 32) (payload : Bytes) :
    (sealCredentialId certdev key iv rpIdHash payload).length = payload.length + 48 := by
  have hcipher : (chachapolyEncryptAndTag key iv.1 rpIdHash.1 payload).1.length = payload.length := xorStream_length key iv.1 payload
  unfold sealCredentialId
  simp only [List.length_append, silentTag_take_length, hcipher, iv.2, (chachapolyEncryptAndTag key iv.1 rpIdHash.1 payload).2.2]
  simp only [credProto, credProto25, List.length_cons, List.length_nil, credSilentTagLen]
  omega

section
variable [ciphers : Fact KeydevCiphers]

theorem chachaKeyOrZero_run (proto : Bytes) (d : Device) :
    ∃ d', (chachaKeyOrZero proto : Handler Device ε Bytes) d = (.ok (chachaKey d proto), d') ∧ SameLoads d d' := by
  obtain ⟨hanswer, hsame⟩ := loadKeydev_answers ciphers.out (.zero 32) d
  refine ⟨(loadKeydev (.zero 32) d).2, ?_, hsame⟩
  unfold chachaKeyOrZero deriveChachaKey chachaKey
  rw [← hanswer]
  rcases hload : loadKeydev (.zero 32) d with ⟨e | keydev, d'⟩
  · rw [bind_eq (show attempt _ d = (.ok (.error e), d') by rw [attempt, bind_run, hload])]
    rfl
  · rw [bind_eq (show attempt _ d = (.ok (.ok _), d') by rw [attempt, bind_eq hload]; rfl)]
    rfl

/-- A new credential id holds its fields, sealed under the key of the master key. -/
theorem credentialCreate_ok {c : NewCredential} {residue : Block 16} {d d' : Device} {credId : Bytes}
    (h : credentialCreate c residue d = (.ok credId, d')) :
    (credentialMap c (Sdk.sha256 (c.rpId.getD [])) d.boardMillis).length ≤ maxCredIdLength - (4 + credIvLen + credTagLen) ∧
      ∃ iv : Block 12, credId = sealCredentialId d.certdevSha256 (chachaKey d credProto) iv (Sdk.sha256 (c.rpId.getD []))
        (credentialMap c (Sdk.sha256 (c.rpId.getD [])) d.boardMillis ++ residue.1) := by
  unfold credentialCreate at h
  rw [bind_eq (get_run d)] at h
  obtain ⟨hlength, h⟩ := refuseIf_bind_ok h
  obtain ⟨d₁, hkey, -⟩ := chachaKeyOrZero_run (ε := CtapError) credProto d
  rw [bind_eq hkey] at h
  obtain ⟨iv, d₂, -, h⟩ := bind_ok h
  refine ⟨Nat.le_of_not_lt hlength, iv, ?_⟩
  exact (pure_ok h).1

/-- An id that the device makes is longer than a key handle. -/
theorem credentialCreate_length {c : NewCredential} {residue : Block 16} {d d' : Device} {credId : Bytes}
    (h : credentialCreate c residue d = (.ok credId, d')) : keyHandleLen < credId.length ∧ credId.length < 65536 := by
  obtain ⟨hlength, iv, rfl⟩ := credentialCreate_ok h
  have hsome : 0 < (credentialMap c (Sdk.sha256 (c.rpId.getD [])) d.boardMillis).length := by
    rw [credentialMap, Cbor.openMap]
    exact Nat.succ_pos _
  rw [sealCredentialId_length, List.length_append, residue.2]
  simp only [maxCredIdLength, keyHandleLen] at hlength ⊢
  omega

/-- An id sealed under the master key loads with the fields it was made from. -/
theorem credentialLoad_sealed (reads : CborReads) {c : NewCredential} (hc : Encodable c) {rpIdHash certdev : Block 32} {boardMillis : UInt32}
    (hlength : (credentialMap c rpIdHash boardMillis).length < 2 ^ 64) (iv : Block 12) (residue : Bytes) (d : Device) :
    (credentialLoad (sealCredentialId certdev (chachaKey d credProto) iv rpIdHash (credentialMap c rpIdHash boardMillis ++ residue))
      rpIdHash d).1 = .ok { recorded c boardMillis with
        id := some (sealCredentialId certdev (chachaKey d credProto) iv rpIdHash (credentialMap c rpIdHash boardMillis ++ residue))
        present := true } := by
  have hlong := sealCredentialId_length certdev (chachaKey d credProto) iv rpIdHash (credentialMap c rpIdHash boardMillis ++ residue)
  have hproto := sealCredentialId_proto certdev (chachaKey d credProto) iv rpIdHash (credentialMap c rpIdHash boardMillis ++ residue)
  have hopen := openCredentialId_seal certdev (chachaKey d credProto) iv rpIdHash (credentialMap c rpIdHash boardMillis ++ residue)
  generalize sealCredentialId certdev (chachaKey d credProto) iv rpIdHash (credentialMap c rpIdHash boardMillis ++ residue) = credId at *
  obtain ⟨d', hkey, -⟩ := chachaKeyOrZero_run (ε := CtapError) credId d
  have hsame : chachaKey d credId = chachaKey d credProto := by
    unfold chachaKey
    rw [hproto]
    rfl
  have hverify : (credentialVerify credId rpIdHash : CtapOp (Option Bytes)) d = (.ok (some (credentialMap c rpIdHash boardMillis ++ residue)), d') := by
    unfold credentialVerify
    rw [if_neg (by simp only [credIvLen, credTagLen]; omega), bind_eq hkey, hsame, hopen]
    rfl
  unfold credentialLoad
  rw [bind_eq hverify]
  simp only [readCredential_map reads hc hlength, ofExcept_ok_bind, pure_run]

/-- A new credential id loads with its fields as long as the master key stays the same. -/
theorem credentialLoad_created (reads : CborReads) {c : NewCredential} (hc : Encodable c) {residue : Block 16} {d d' d₁ : Device}
    {credId : Bytes} (h : credentialCreate c residue d = (.ok credId, d')) (hmaster : SameMaster d d₁) :
    (credentialLoad credId (Sdk.sha256 (c.rpId.getD [])) d₁).1 =
      .ok { recorded c d.boardMillis with id := some credId, present := true } := by
  obtain ⟨hlength, iv, rfl⟩ := credentialCreate_ok h
  rw [← hmaster.chachaKey credProto]
  exact credentialLoad_sealed reads hc (Nat.lt_of_le_of_lt hlength (by simp only [maxCredIdLength]; omega)) iv residue.1 d₁

end

end

/-! ### The plain SDK with a decoder -/

section Plain
attribute [local instance] cborSdk

theorem cborSdk_ciphers : KeydevCiphers where
  encrypt session nonce data := by
    have hlength : (nonce.1 ++ data ++ session.1.take 16).length = data.length + 28 := by
      rw [List.length_append, List.length_append, List.length_take, nonce.2, session.2]
      omega
    have hdrop : (nonce.1 ++ data ++ session.1.take 16).drop (data.length + 12) = session.1.take 16 :=
      List.drop_left' (by rw [List.length_append, nonce.2, Nat.add_comm])
    have hplain : ((nonce.1 ++ data ++ session.1.take 16).drop 12).take data.length = data := by
      rw [List.append_assoc, List.drop_left' nonce.2, List.take_left' rfl]
    refine ⟨nonce.1 ++ data ++ session.1.take 16, rfl, hlength, ?_⟩
    show (if 28 ≤ _ ∧ _ then _ else _) = _
    rw [hlength, Nat.add_sub_cancel, show data.length + 28 - 16 = data.length + 12 by omega, hdrop, hplain]
    exact if_pos ⟨by omega, rfl⟩

instance cborSdkCiphers : Fact KeydevCiphers := ⟨cborSdk_ciphers⟩

end Plain
end FidoTouch.Ctap
