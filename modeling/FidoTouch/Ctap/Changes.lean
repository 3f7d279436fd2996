import FidoTouch.Ctap.Authenticator
import FidoTouch.Ctap.Frame

/-! The changes that commands make to the pinUvAuthToken and to the kept assertions, kind by kind. A relation
that admits the kinds a command is made of is kept by the command. -/
namespace FidoTouch.Ctap
open FidoTouch.Program Handler FidoTouch.Storage

/-- The kinds of change; `other` leaves the token and the kept assertions alone. -/
inductive Change where
  | other | load | lower | stop | reset | clear | bind | issue | keep | powerUp

/-- What a change of each kind does to the token; `clear` assigns the permission, whether it had it or not. -/
def Change.Token : Change → PinUvAuthToken → PinUvAuthToken → Prop
  | .other, t, t' => t' = t
  | .load, t, t' => ∃ data, t' = { t with data := data }
  | .lower, t, t' => ∃ up uv, (uv = true → t.userVerified = true) ∧ t' = { t with userPresent := up, userVerified := uv }
  | .stop, t, t' => t' = ⟨t.data, false, 0, .zero 32, false, false, false⟩
  | .reset, t, t' => ∃ data, t' = { t with permissions := 0, data := data }
  | .clear, t, t' => t.inUse = true ∧ t' = { t with permissions := permissionLbw }
  | .bind, t, t' => t.hasRpId = false ∧ ∃ rpIdHash, t' = { t with rpIdHash := rpIdHash, hasRpId := true }
  | .issue, _, t' => t'.inUse = true
  | .keep, t, t' => t' = t
  | .powerUp, _, t' => t' = ⟨[], false, 0, .zero 32, false, false, false⟩

/-- Two kinds touch the kept assertions. -/
structure Change.Makes (k : Change) (d d' : Device) : Prop where
  token : k.Token d.paut d'.paut
  gna : k ≠ .keep → k ≠ .powerUp → d'.gna = d.gna

/-- Every change of the kind relates the state before to the state after. -/
class Admits (R : Device → Device → Prop) (k : Change) : Prop where
  rel : ∀ {d d'}, k.Makes d d' → R d d'

instance : Fact (Change.other ≠ .issue) := ⟨by simp⟩
instance : Fact (Change.load ≠ .issue) := ⟨by simp⟩
instance : Fact (Change.lower ≠ .issue) := ⟨by simp⟩
instance : Fact (Change.stop ≠ .issue) := ⟨by simp⟩
instance : Fact (Change.reset ≠ .issue) := ⟨by simp⟩
instance : Fact (Change.clear ≠ .issue) := ⟨by simp⟩
instance : Fact (Change.bind ≠ .issue) := ⟨by simp⟩
instance : Fact (Change.keep ≠ .issue) := ⟨by simp⟩
instance : Fact (Change.powerUp ≠ .issue) := ⟨by simp⟩

instance : Fact (Change.other ≠ .clear) := ⟨by simp⟩
instance : Fact (Change.load ≠ .clear) := ⟨by simp⟩
instance : Fact (Change.lower ≠ .clear) := ⟨by simp⟩
instance : Fact (Change.stop ≠ .clear) := ⟨by simp⟩
instance : Fact (Change.reset ≠ .clear) := ⟨by simp⟩
instance : Fact (Change.bind ≠ .clear) := ⟨by simp⟩
instance : Fact (Change.keep ≠ .clear) := ⟨by simp⟩
instance : Fact (Change.powerUp ≠ .clear) := ⟨by simp⟩

instance : Fact (Change.other ≠ .reset) := ⟨by simp⟩
instance : Fact (Change.lower ≠ .reset) := ⟨by simp⟩
instance : Fact (Change.clear ≠ .reset) := ⟨by simp⟩
instance : Fact (Change.bind ≠ .reset) := ⟨by simp⟩
instance : Fact (Change.keep ≠ .reset) := ⟨by simp⟩

variable {R : Device → Device → Prop} {ε α : Type}

theorem keeps_of_makes (k : Change) [hk : Admits R k] {x : Handler Device ε α} (h : ∀ d, k.Makes d (x d).2) : Keeps R x :=
  ⟨fun d => hk.rel (h d)⟩

/-- An invariant of the token that the changes of a kind keep. -/
theorem admits_preserves {k : Change} {I : PinUvAuthToken → Prop} (h : ∀ t t', k.Token t t' → I t → I t') :
    Admits (Preserves fun d => I d.paut) k := ⟨fun hmakes => h _ _ hmakes.token⟩

/-! ### Finer kinds -/

/-- What commands do not change in passing: files, the two copies of the master key's state, the token, the guards of
the PIN, the kept assertions and the upload of large blobs. -/
def Device.core (d : Device) : Device :=
  { d with
    sessionPin := .zero 32, certdevSha256 := .zero 32, ppaut := ⟨[], 0⟩, usageTimer := 0, initialUsageTimeLimit := 0
    userPresentTimeLimit := 0, hkey := none, mse := ⟨[], .zero 44, false⟩, enumeration := ⟨0, 0, 0, 0, none⟩
    sessionEpoch := 0, boardMillis := 0, presses := fun _ => .timeout, entropy := fun _ => 0, checks := [] }

/-- The persistent token and the epoch stand here, too. -/
def Device.others (d : Device) : Device := { d.core with ppaut := d.ppaut, sessionEpoch := d.sessionEpoch }

/-- The relation respects an update of the other globals. -/
class AdmitsGlobals (R : Device → Device → Prop) : Prop where
  rel : ∀ {d d'}, d'.core = d.core → R d d'

/-- The relation respects an update of the other globals but the persistent token and the epoch. -/
class AdmitsOthers (R : Device → Device → Prop) : Prop where
  rel : ∀ {d d'}, d'.others = d.others → R d d'

instance [hglobals : AdmitsGlobals R] : AdmitsOthers R := ⟨fun h => hglobals.rel (congrArg Device.core h :)⟩

class AdmitsToken (R : Device → Device → Prop) (k : Change) : Prop where
  rel : ∀ d t, k.Token d.paut t → R d { d with paut := t }

class AdmitsAssertions (R : Device → Device → Prop) : Prop where
  rel : ∀ d gna, R d { d with gna := gna }

class AdmitsUpload (R : Device → Device → Prop) : Prop where
  rel : ∀ d blobs, R d { d with largeBlobs := blobs }

class AdmitsPinGuard (R : Device → Device → Prop) : Prop where
  rel : ∀ d cycle mismatches, R d { d with needsPowerCycle := cycle, newPinMismatches := mismatches }

class AdmitsKeydev (R : Device → Device → Prop) : Prop where
  rel : ∀ d has keydev, R d { d with hasKeydevDec := has, keydevDec := keydev }

section
variable [hother : Admits R .other]

instance : AdmitsGlobals R :=
  ⟨fun h => hother.rel ⟨(congrArg Device.paut h :), fun _ _ => (congrArg Device.gna h :)⟩⟩

instance : AdmitsUpload R := ⟨fun _ _ => hother.rel ⟨rfl, fun _ _ => rfl⟩⟩

instance : AdmitsPinGuard R := ⟨fun _ _ _ => hother.rel ⟨rfl, fun _ _ => rfl⟩⟩

instance : AdmitsKeydev R := ⟨fun _ _ _ => hother.rel ⟨rfl, fun _ _ => rfl⟩⟩

instance [hrefl : Std.Refl R] [htrans : IsTrans Device R] : Spares R NoFile where
  refl := hrefl.refl
  trans := htrans.trans _ _ _
  sync _ := hother.rel ⟨rfl, fun _ _ => rfl⟩
  fates _ := hother.rel ⟨rfl, fun _ _ => rfl⟩
  set _ _ _ _ := hother.rel ⟨rfl, fun _ _ => rfl⟩
  entropy _ _ := hother.rel ⟨rfl, fun _ _ => rfl⟩

end

instance (k : Change) [hk : Admits R k] : AdmitsToken R k := ⟨fun _ _ h => hk.rel ⟨h, fun _ _ => rfl⟩⟩

instance [hk : Admits R .keep] : AdmitsAssertions R := ⟨fun _ _ => hk.rel ⟨rfl, fun h => absurd rfl h⟩⟩

variable {P : Nat → Prop} [hR : Spares R P]

section
variable [hglobals : AdmitsGlobals R]

include hR in
/-- A change of the token may go with an update of the other globals. -/
theorem keeps_of_token (k : Change) [hk : AdmitsToken R k] {x : Handler Device ε α}
    (h : ∀ d, k.Token d.paut (x d).2.paut ∧ (x d).2.core = { d with paut := (x d).2.paut }.core) : Keeps R x :=
  ⟨fun d => hR.trans (hk.rel d _ (h d).1) (hglobals.rel (h d).2)⟩

/-- An update of the other globals. -/
instance (sessionPin certdevSha256 : Device → Block 32) (ppaut : Device → PersistentPinUvAuthToken)
    (usageTimer initialUsageTimeLimit userPresentTimeLimit : Device → UInt32) (hkey : Device → Option (Block 32))
    (mse : Device → Mse) (enumeration : Device → Enumeration)
    (sessionEpoch boardMillis : Device → UInt32) (presses : Device → Nat → Press) (entropy : Device → Entropy)
    (checks : Device → List Bool) :
    Keeps R (modify fun d => ⟨d.store, d.hasKeydevDec, d.keydevDec, sessionPin d, certdevSha256 d, d.paut, ppaut d,
      usageTimer d, initialUsageTimeLimit d, userPresentTimeLimit d, d.needsPowerCycle, d.newPinMismatches, hkey d,
      mse d, enumeration d, d.gna, d.largeBlobs, sessionEpoch d, boardMillis d, presses d, entropy d, checks d⟩ :
      Handler Device ε Unit) := ⟨fun _ => hglobals.rel rfl⟩

end

instance [hothers : AdmitsOthers R] (sessionPin certdevSha256 : Device → Block 32)
    (usageTimer initialUsageTimeLimit userPresentTimeLimit : Device → UInt32) (hkey : Device → Option (Block 32))
    (mse : Device → Mse) (enumeration : Device → Enumeration) (boardMillis : Device → UInt32)
    (presses : Device → Nat → Press) (entropy : Device → Entropy) (checks : Device → List Bool) :
    Keeps R (modify fun d => ⟨d.store, d.hasKeydevDec, d.keydevDec, sessionPin d, certdevSha256 d, d.paut, d.ppaut,
      usageTimer d, initialUsageTimeLimit d, userPresentTimeLimit d, d.needsPowerCycle, d.newPinMismatches, hkey d,
      mse d, enumeration d, d.gna, d.largeBlobs, d.sessionEpoch, boardMillis d, presses d, entropy d, checks d⟩ :
      Handler Device ε Unit) := ⟨fun _ => hothers.rel rfl⟩

instance [hpin : AdmitsPinGuard R] (cycle : Device → Bool) (mismatches : Device → UInt8) :
    Keeps R (modify fun d => { d with needsPowerCycle := cycle d, newPinMismatches := mismatches d } : Handler Device ε Unit) :=
  ⟨fun d => hpin.rel d _ _⟩

instance [hkeydev : AdmitsKeydev R] (has : Device → Bool) (keydev : Device → Block 32) :
    Keeps R (modify fun d => { d with hasKeydevDec := has d, keydevDec := keydev d } : Handler Device ε Unit) :=
  ⟨fun d => hkeydev.rel d _ _⟩

instance [hupload : AdmitsUpload R] (blobs : Device → LargeBlobs) :
    Keeps R (modify fun d => { d with largeBlobs := blobs d } : Handler Device ε Unit) := ⟨fun d => hupload.rel d _⟩

instance [hgna : AdmitsAssertions R] (gna : Device → GnaState) :
    Keeps R (modify fun d => { d with gna := gna d } : Handler Device ε Unit) := ⟨fun d => hgna.rel d _⟩

/-! ### Flags -/

section
variable [hothers : AdmitsOthers R]

instance : Keeps R (waitButtonPressed : Handler Device ε Press) := keeps_of fun _ => hothers.rel rfl

include hR in
instance : Keeps R (checkUserPresence : Handler Device ε Bool) := by
  unfold checkUserPresence
  infer_instance

end

section
variable [hglobals : AdmitsGlobals R]

instance : Keeps R (sessionInvalidate : Handler Device ε Unit) := by
  unfold sessionInvalidate
  infer_instance

include hR

instance [AdmitsToken R .lower] : Keeps R (clearUserPresentFlag : Handler Device ε Unit) := by
  unfold clearUserPresentFlag
  have : Keeps R (modifyPaut fun t => { t with userPresent := false } : Handler Device ε Unit) :=
    keeps_of_token .lower fun d => ⟨⟨false, d.paut.userVerified, id, rfl⟩, rfl⟩
  infer_instance

instance [AdmitsToken R .lower] : Keeps R (clearUserVerifiedFlag : Handler Device ε Unit) := by
  unfold clearUserVerifiedFlag
  have : Keeps R (modifyPaut fun t => { t with userVerified := false } : Handler Device ε Unit) :=
    keeps_of_token .lower fun d => ⟨⟨d.paut.userPresent, false, fun h => absurd h (by simp), rfl⟩, rfl⟩
  infer_instance

instance [AdmitsToken R .lower] : Keeps R (getUserPresentFlagValue : Handler Device ε Bool) :=
  keeps_of_token .lower fun d => ⟨⟨_, d.paut.userVerified, id, rfl⟩, rfl⟩

instance [AdmitsToken R .lower] : Keeps R (getUserVerifiedFlagValue : Handler Device ε Bool) :=
  keeps_of_token .lower fun d => ⟨⟨d.paut.userPresent, _, fun h => (Bool.and_eq_true _ _ ▸ h).2, rfl⟩, rfl⟩

instance [hclear : AdmitsToken R .clear] : Keeps R (clearPinUvAuthTokenPermissionsExceptLbw : Handler Device ε Unit) := keeps_of fun d => by
  by_cases h : d.paut.inUse = true ∧ d.paut.permissions ≠ permissionLbw
  · have hrun : (clearPinUvAuthTokenPermissionsExceptLbw : Handler Device ε Unit) d =
        (sessionInvalidate : Handler Device ε Unit) { d with paut := { d.paut with permissions := permissionLbw } } := by
      simp only [clearPinUvAuthTokenPermissionsExceptLbw, bind_run, get_run, runIf_true h, modifyPaut, modify_run]
    rw [hrun]
    exact hR.trans (hclear.rel d _ ⟨h.1, rfl⟩) (Keeps.rel _)
  · have hrun : (clearPinUvAuthTokenPermissionsExceptLbw : Handler Device ε Unit) d = (.ok (), d) := by
      simp only [clearPinUvAuthTokenPermissionsExceptLbw, bind_run, get_run, runIf_false h, pure_run]
    rw [hrun]
    exact hR.refl d

instance [AdmitsToken R .stop] : Keeps R (stopUsingPinUvAuthToken : Handler Device ε Unit) := by
  unfold stopUsingPinUvAuthToken
  exact .bind inferInstance fun _ => .bind (keeps_of_token .stop fun _ => ⟨rfl, rfl⟩) fun _ => inferInstance

instance [AdmitsToken R .lower] [AdmitsToken R .stop] : Keeps R (pinUvAuthTokenTick : Handler Device ε Unit) := by
  unfold pinUvAuthTokenTick
  infer_instance

end
end FidoTouch.Ctap
