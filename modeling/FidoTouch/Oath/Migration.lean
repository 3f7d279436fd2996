import Mathlib.Data.List.Nodup
import FidoTouch.Oath.Effects

/-! The migration of the secrets, which a selection runs once after power-up: each record whose key is in clear is stored
again, then the access code. -/
namespace FidoTouch.Oath
open FidoTouch.Program Handler FidoTouch.Storage

section
variable [Sdk]

/-- A file that holds a record has it stored again. -/
def Restored (file file' : Option Bytes) : Prop := ∃ data record, file = some data ∧ StoredAs data record ∧ file' = some record

/-- Each record of a credential is left as it is, or stored again. -/
def Migrates (s s' : Store Nat UInt8) : Prop := ∀ k, CredFile k → s'.view k = s.view k ∨ Restored (s.view k) (s'.view k)

/-- One record is migrated, and no other file is touched. -/
theorem oathMigrateCredential_run (fid : Nat) (s : OathState) :
    (∀ k, k ≠ fid → (oathMigrateCredential fid s).2.store.view k = s.store.view k) ∧
      ((oathMigrateCredential fid s).2.store.view fid = s.store.view fid ∨
        Restored (s.store.view fid) ((oathMigrateCredential fid s).2.store.view fid)) ∧
      ∀ changed, (oathMigrateCredential fid s).1 = .ok changed → ∀ data, fileData s.store.view fid = some data →
        ∃ record, (oathMigrateCredential fid s).2.store.view fid = some record ∧ StoredAs data record := by
  unfold oathMigrateCredential
  rw [bind_eq (getFiles_run s)]
  rcases hdata : fileData s.store.view fid with _ | data
  · exact ⟨fun _ _ => rfl, .inl rfl, nofun⟩
  have hfile := (fileData_some.mp hdata).1
  have hkept : (∀ key, Sdk.tlvFindTag data tagKey = some key → oathKeyIsSecure key.data = true) →
      ∀ data', some data = some data' → ∃ record, s.store.view fid = some record ∧ StoredAs data' record := by
    intro h data' heq
    rw [← Option.some.inj heq]
    exact ⟨data, hfile, .kept h⟩
  dsimp only
  rcases hkey : Sdk.tlvFindTag data tagKey with _ | key
  · exact ⟨fun _ _ => rfl, .inl rfl, fun _ _ => hkept fun key h => by rw [hkey] at h; cases h⟩
  dsimp only
  cases hsecure : oathKeyIsSecure key.data with
  | true => exact ⟨fun _ _ => rfl, .inl rfl, fun _ _ => hkept fun key' h => by rw [hkey] at h; cases h; exact hsecure⟩
  | false =>
    have houtcome := oathPutCredentialData_outcome fid data s
    rw [if_neg (by simp), bind_run]
    rcases hrun : oathPutCredentialData fid data s with ⟨r, s'⟩
    rw [hrun] at houtcome
    cases houtcome with
    | failed h => exact ⟨fun k _ => congrFun h k, .inl (congrFun h fid), nofun⟩
    | @stored _ record hrecord h =>
      have hself : s'.store.view fid = some record := by rw [h, Function.update_self]
      refine ⟨fun k hk => by simp only [pure_run, h, Function.update_of_ne hk], .inr ⟨data, record, hfile, hrecord, hself⟩, ?_⟩
      intro _ _ data' heq
      rw [← Option.some.inj heq]
      exact ⟨record, hself, hrecord⟩

/-- The loop over the records. -/
def migrateStep (changed : Bool) (fid : Nat) : OathIo Bool := do
  let rewritten ← oathMigrateCredential fid
  return changed || rewritten

theorem migrateStep_run (changed : Bool) (fid : Nat) (s : OathState) :
    (migrateStep changed fid s).2 = (oathMigrateCredential fid s).2 ∧
      ∀ b, (migrateStep changed fid s).1 = .ok b → ∃ rewritten, (oathMigrateCredential fid s).1 = .ok rewritten := by
  unfold migrateStep
  rw [bind_run]
  rcases oathMigrateCredential fid s with ⟨e | rewritten, s'⟩
  · exact ⟨rfl, nofun⟩
  · exact ⟨rfl, fun _ _ => ⟨rewritten, rfl⟩⟩

/-- Each record of a list is migrated at most once, and once where the loop comes to its end. -/
theorem migrateLoop_run {fids : List Nat} (hnodup : fids.Nodup) (changed : Bool) (s : OathState) :
    (∀ k, k ∉ fids → (foldFor fids changed migrateStep s).2.store.view k = s.store.view k) ∧
      (∀ k ∈ fids, (foldFor fids changed migrateStep s).2.store.view k = s.store.view k ∨
        Restored (s.store.view k) ((foldFor fids changed migrateStep s).2.store.view k)) ∧
      ∀ b, (foldFor fids changed migrateStep s).1 = .ok b → ∀ k ∈ fids, ∀ data, fileData s.store.view k = some data →
        ∃ record, (foldFor fids changed migrateStep s).2.store.view k = some record ∧ StoredAs data record := by
  induction fids generalizing changed s with
  | nil => exact ⟨fun _ _ => rfl, by simp, by simp⟩
  | cons fid fids ih =>
    obtain ⟨hfid, hnodup⟩ := List.nodup_cons.mp hnodup
    obtain ⟨hother, hself, hdone⟩ := oathMigrateCredential_run fid s
    obtain ⟨hstate, hyields⟩ := migrateStep_run changed fid s
    rw [← hstate] at hother hself hdone
    rw [foldFor, bind_run]
    rcases hrun : migrateStep changed fid s with ⟨e | next, t⟩ <;> rw [hrun] at hother hself hdone hyields
    · refine ⟨fun k hk => hother k (List.ne_of_not_mem_cons hk), fun k hk => ?_, fun _ hb => by cases hb⟩
      rcases List.mem_cons.mp hk with rfl | hk
      · exact hself
      · exact .inl (hother k fun h => hfid (h ▸ hk))
    · obtain ⟨hrest, hin, hall⟩ := ih hnodup next t
      refine ⟨fun k hk => ?_, fun k hk => ?_, fun b hb k hk data hdata => ?_⟩
      · exact (hrest k (List.not_mem_of_not_mem_cons hk)).trans (hother k (List.ne_of_not_mem_cons hk))
      · rcases List.mem_cons.mp hk with rfl | hk
        · rw [hrest k hfid]
          exact hself
        · rw [← hother k fun h => hfid (h ▸ hk)]
          exact hin k hk
      · rcases List.mem_cons.mp hk with rfl | hk
        · rw [hrest k hfid]
          obtain ⟨rewritten, hrewritten⟩ := hyields next rfl
          exact hdone rewritten hrewritten data hdata
        · refine hall b hb k hk data ?_
          have hsame := hother k fun h => hfid (h ▸ hk)
          rwa [fileData, hsame]

omit [Sdk] in
theorem present_nodup (files : Files) : (presentOathCredFids files).Nodup :=
  (List.Nodup.map (fun _ _ h => Nat.add_left_cancel h) List.nodup_range).filter _

/-- What is stored for an access code: a code in clear is encrypted. -/
inductive CodeStoredAs (code : Bytes) : Bytes → Prop
  | kept (h : oathKeyIsSecure code = true) : CodeStoredAs code code
  | encrypted {encrypted : Bytes} (hclear : oathKeyIsSecure code = false) (h : Encrypts code encrypted) : CodeStoredAs code encrypted

/-- The code is stored encrypted, or nothing is. -/
theorem oathPutCodeKey_run (fid : Nat) (key : Bytes) (s : OathState) :
    (∀ k, k ≠ fid → (oathPutCodeKey fid key s).2.store.view k = s.store.view k) ∧
      ∀ u, (oathPutCodeKey fid key s).1 = .ok u → ∃ stored, (oathPutCodeKey fid key s).2.store.view fid = some stored ∧ CodeStoredAs key stored := by
  have hput : ∀ (stored : Bytes) (t : OathState), t.store = s.store → CodeStoredAs key stored →
      (∀ k, k ≠ fid → (putFile fid stored t).2.store.view k = s.store.view k) ∧
        ∀ u, (putFile fid stored t).1 = .ok u → ∃ stored', (putFile fid stored t).2.store.view fid = some stored' ∧ CodeStoredAs key stored' := by
    intro stored t ht hstored
    rcases putFile_run fid stored t with hrun | ⟨hrun, -⟩ <;> rw [hrun]
    · exact ⟨fun k hk => (Function.update_of_ne hk ..).trans (by rw [ht]), fun _ _ => ⟨stored, Function.update_self .., hstored⟩⟩
    · exact ⟨fun k _ => by rw [← ht], nofun⟩
  unfold oathPutCodeKey
  cases hsecure : oathKeyIsSecure key with
  | true => exact hput key s rfl (.kept hsecure)
  | false =>
    obtain ⟨hstore, hencrypts⟩ := oathEncryptKey_run key s
    rw [if_neg (by simp), bind_run]
    rcases hrun : oathEncryptKey key s with ⟨e | encrypted, t⟩ <;> rw [hrun] at hstore hencrypts
    · exact ⟨fun k _ => congrArg (fun store => Store.view store k) hstore, nofun⟩
    · exact hput encrypted t hstore (.encrypted hsecure (hencrypts _ rfl))

theorem oathMigrateCode_run (s : OathState) : (∀ k, k ≠ efOathCode → (oathMigrateCode s).2.store.view k = s.store.view k) ∧
    (fileData s.store.view efOathCode = none → (oathMigrateCode s).2.store.view efOathCode = s.store.view efOathCode) ∧
    ∀ b, (oathMigrateCode s).1 = .ok b → ∀ code, fileData s.store.view efOathCode = some code →
      ∃ stored, (oathMigrateCode s).2.store.view efOathCode = some stored ∧ CodeStoredAs code stored := by
  unfold oathMigrateCode
  rw [bind_eq (getFiles_run s)]
  rcases hcode : fileData s.store.view efOathCode with _ | code
  · exact ⟨fun _ _ => rfl, fun _ => rfl, nofun⟩
  dsimp only
  cases hsecure : oathKeyIsSecure code with
  | true =>
    refine ⟨fun _ _ => rfl, nofun, fun _ _ code' heq => ?_⟩
    rw [← Option.some.inj heq]
    exact ⟨code, (fileData_some.mp hcode).1, .kept hsecure⟩
  | false =>
    obtain ⟨hother, hstored⟩ := oathPutCodeKey_run efOathCode code s
    rw [if_neg (by simp), bind_run]
    rcases hrun : oathPutCodeKey efOathCode code s with ⟨e | u, t⟩ <;> rw [hrun] at hother hstored
    · exact ⟨hother, nofun, nofun⟩
    · refine ⟨hother, nofun, fun _ _ code' heq => ?_⟩
      rw [← Option.some.inj heq]
      exact hstored u rfl

/-- Everything that was stored is stored again where the migration comes to its end. -/
structure Migrated (s s' : OathState) : Prop where
  records : ∀ fid, CredFile fid → ∀ data, fileData s.store.view fid = some data → ∃ record, s'.store.view fid = some record ∧ StoredAs data record
  code : ∀ code, fileData s.store.view efOathCode = some code → ∃ stored, s'.store.view efOathCode = some stored ∧ CodeStoredAs code stored
  noCode : fileData s.store.view efOathCode = none → s'.store.view efOathCode = s.store.view efOathCode

theorem oathMigrateSecrets_run (s : OathState) : Migrates s.store (oathMigrateSecrets s).2.store ∧
    (s.migrationDone = false → ∀ u, (oathMigrateSecrets s).1 = .ok u → Migrated s (oathMigrateSecrets s).2) := by
  unfold oathMigrateSecrets
  rw [bind_eq (get_run s)]
  cases hdone : s.migrationDone with
  | true => exact ⟨fun _ _ => .inl rfl, nofun⟩
  | false =>
    have hnotCode : ∀ k, CredFile k → k ≠ efOathCode := fun k hk h => (Fact.out : ¬ CredFile efOathCode) (h ▸ hk)
    obtain ⟨hother, hin, hall⟩ := migrateLoop_run (present_nodup s.store.view) false s
    have hloop : ∀ k, CredFile k → (foldFor (presentOathCredFids s.store.view) false migrateStep s).2.store.view k = s.store.view k ∨
        Restored (s.store.view k) ((foldFor (presentOathCredFids s.store.view) false migrateStep s).2.store.view k) := by
      intro k _
      by_cases hmem : k ∈ presentOathCredFids s.store.view
      · exact hin k hmem
      · exact .inl (hother k hmem)
    change Migrates s.store ((foldFor (presentOathCredFids s.store.view) false migrateStep >>= _) s).2.store ∧
      (_ → ∀ u, ((foldFor (presentOathCredFids s.store.view) false migrateStep >>= _) s).1 = .ok u → Migrated s
        ((foldFor (presentOathCredFids s.store.view) false migrateStep >>= _) s).2)
    rw [bind_run]
    rcases hrun : foldFor (presentOathCredFids s.store.view) false migrateStep s with ⟨e | changed, t⟩ <;>
      rw [hrun] at hother hloop hall
    · exact ⟨hloop, fun _ => nofun⟩
    obtain ⟨hsame, hnoCode, hcode⟩ := oathMigrateCode_run t
    dsimp only
    rw [bind_run]
    rcases hcodeRun : oathMigrateCode t with ⟨e | codeChanged, w⟩ <;> rw [hcodeRun] at hsame hnoCode hcode
    · exact ⟨fun k hk => by rw [hsame k (hnotCode k hk)]; exact hloop k hk, fun _ => nofun⟩
    have hend : ∃ w', ((runIf (changed || codeChanged) (onStore flashCommit) >>= fun _ => setMigrationDone) w : Except PicoError Unit × OathState) =
        (.ok (), w') ∧ w'.store.view = w.store.view := by
      cases changed || codeChanged
      · exact ⟨_, rfl, rfl⟩
      · exact ⟨_, rfl, rfl⟩
    obtain ⟨w', hend, hview⟩ := hend
    dsimp only
    rw [hend]
    have hcodeKept : t.store.view efOathCode = s.store.view efOathCode :=
      hother efOathCode fun hmem => hnotCode _ (mem_present.mp hmem).1 rfl
    refine ⟨fun k hk => ?_, fun _ _ _ => ⟨fun fid hfid data hdata => ?_, fun code hcodeData => ?_, fun hnone => ?_⟩⟩
    · rw [hview, hsame k (hnotCode k hk)]
      exact hloop k hk
    · rw [hview, hsame fid (hnotCode fid hfid)]
      refine hall changed rfl fid (mem_present.mpr ⟨hfid, ?_⟩) data hdata
      rw [(fileData_some.mp hdata).1]
      rfl
    · rw [hview]
      exact hcode codeChanged rfl code (by rwa [fileData, hcodeKept])
    · rw [hview, hnoCode (by rwa [fileData, hcodeKept]), hcodeKept]

/-- A selection migrates the records, and does nothing else to them. -/
theorem oathSelect_migrates (s : OathState) : Migrates s.store (oathSelect s).2.store := by
  unfold oathSelect
  rw [bind_eq (getFiles_run s)]
  by_cases hcap : capSupported s.store.view capOath = false
  · rw [refuseIf_true hcap]
    exact fun _ _ => .inl rfl
  rw [refuseIf_false hcap, pure_bind, bind_eq (rfl : setValidated _ s = (.ok (), { s with validated := !secretStored s.store.view }))]
  unfold selectAnswer
  rw [bind_run]
  obtain ⟨hmigrates, -⟩ := oathMigrateSecrets_run { s with validated := !secretStored s.store.view }
  rcases hrun : oathMigrateSecrets { s with validated := !secretStored s.store.view } with ⟨e | u, t⟩ <;> rw [hrun] at hmigrates
  · exact hmigrates
  have hrest : Keeps (InStore (SameOn CredFile)) (do
      clearResponse
      respond ([UInt8.ofNat tagTVersion, 3, Sdk.picoFidoVersionMajor, Sdk.picoFidoVersionMinor, 0, UInt8.ofNat tagName, 8] ++ Sdk.picoSerialStr.1)
      selectChallenge
      runIf Sdk.isNk selectNitrokey : OathIo Unit) := inferInstance
  intro k hk
  have hkept := hrest.rel t k hk
  dsimp only
  rw [hkept]
  exact hmigrates k hk

end
end FidoTouch.Oath
