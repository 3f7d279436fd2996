import FidoTouch.Resident.Seals
import FidoTouch.Resident.Writes

/-! Sequences of container calls on any slots, with operations failing and power lost anywhere. Two seals share a
nonce only across a deletion of the container or an update that was not committed. -/
namespace FidoTouch.Resident
open FidoTouch.Program Handler FidoTouch.Storage

-- The search for `Keeps` follows whole commands.
set_option synthInstance.maxSize 4096

variable {o : ObjectStore} {slot slot' : Slot} {g : Nat} {call : SlotCall}

/-! ### The files of one slot -/

private theorem SlotFile.mod {fid : Nat} (h : SlotFile slot fid) : fid % 256 = slot := by
  rcases h with ⟨m, rfl⟩ | ⟨m, t, -, rfl⟩ | rfl
  · cases m <;> simp only [residentManifestFid] <;> omega
  · cases m <;> simp only [residentRecordFid] <;> omega
  · simp only [efCred]
    omega

private theorem not_slotFile {fid : Nat} (hne : slot' ≠ slot) (h : fid % 256 = slot') : ¬ SlotFile slot fid :=
  fun hfile => hne (Fin.ext (h.symm.trans hfile.mod))

instance (m : ManifestSlot) [h : Fact (slot' ≠ slot)] : Fact (¬ SlotFile slot (residentManifestFid slot' m)) :=
  ⟨not_slotFile h.out (by cases m <;> simp only [residentManifestFid] <;> omega)⟩

instance (m : ManifestSlot) (t : Nat) [h : Fact (slot' ≠ slot)] : Fact (¬ SlotFile slot (residentRecordFid slot' m t)) :=
  ⟨not_slotFile h.out (by cases m <;> simp only [residentRecordFid] <;> omega)⟩

instance [h : Fact (slot' ≠ slot)] : Fact (¬ SlotFile slot (efCred + slot')) :=
  ⟨not_slotFile h.out (by simp only [efCred]; omega)⟩

section Commands
variable {S : Store Nat UInt8 → Store Nat UInt8 → Prop} {P : Nat → Prop} [hS : Sees S P]
include hS

variable [∀ m, Fact (¬ P (residentManifestFid slot m))] [∀ m t, Fact (¬ P (residentRecordFid slot m t))]

instance (p : Pending) : Keeps S (call.install o slot p) := by
  unfold SlotCall.install residentInstall
  infer_instance

instance : Keeps S (call.begin o slot) := by
  unfold SlotCall.begin
  infer_instance

instance : Keeps S (call.switch o slot) := by
  unfold SlotCall.switch
  infer_instance

variable [Fact (¬ P (efCred + slot))]

instance (target : ManifestSlot) (next : Manifest) : Keeps S (residentSettle slot target next) := by
  unfold residentSettle
  infer_instance

instance : Keeps S (call.run (some o) slot) := by
  rw [SlotCall.run_eq]
  infer_instance

end Commands

/-! ### Steps -/

/-- What a call seals: the CREDENTIAL, when the call gets that far. -/
def SlotCall.seal (o : ObjectStore) (slot : Slot) (call : SlotCall) (s : Store Nat UInt8) : Option CredentialSeal :=
  match (call.begin o slot s).1 with
  | .ok p => p.seal o slot call.credential
  | .error _ => none

/-- The call's manifest is written and committed. -/
def SlotCall.commits (o : ObjectStore) (slot : Slot) (call : SlotCall) (s : Store Nat UInt8) : Bool :=
  (call.switch o slot s).1.toBool

/-- The guards of the deletion let it through. -/
def residentContainerDeletes (o : ObjectStore) (slot : Slot) (files : Files) : Bool :=
  residentContainerIsMarker files (efCred + slot) && (residentManifestLoad o slot files).toBool

/-- What a step shows of itself. -/
structure Made where
  slot : Slot
  sealed : Option CredentialSeal
  committed : Bool
  deleted : Bool

/-- A call runs to its end, with whatever operations failing, or power is lost before its seal, after it, or after its
manifest was committed; then the store comes back with what was durable, and any operations may fail again. -/
inductive CallStep (o : ObjectStore) : Store Nat UInt8 → Made → Store Nat UInt8 → Prop
  | completes (slot : Slot) (call : SlotCall) (s : Store Nat UInt8) :
    CallStep o s ⟨slot, call.seal o slot s, call.commits o slot s, false⟩ (call.run (some o) slot s).2
  | cutBefore (slot : Slot) (call : SlotCall) {s : Store Nat UInt8} {im : Files} (fates : List Bool)
    (lost : s.CrashImage (call.begin o slot s).2 im) : CallStep o s ⟨slot, none, false, false⟩ (.powerUp im fates)
  | cutSealed (slot : Slot) (call : SlotCall) {s s' : Store Nat UInt8} {p : Pending} {im : Files} (fates : List Bool)
    (begun : call.begin o slot s = (.ok p, s')) (lost : s'.CrashImage (call.install o slot p s').2 im) :
    CallStep o s ⟨slot, p.seal o slot call.credential, false, false⟩ (.powerUp im fates)
  | cutCommitted (slot : Slot) (call : SlotCall) {s s' : Store Nat UInt8} {switched : ManifestSlot × Manifest} {im : Files}
    (fates : List Bool) (done : call.switch o slot s = (.ok switched, s'))
    (lost : s'.CrashImage (call.run (some o) slot s).2 im) :
    CallStep o s ⟨slot, call.seal o slot s, true, false⟩ (.powerUp im fates)
  | deletes (slot : Slot) (s : Store Nat UInt8) :
    CallStep o s ⟨slot, none, false, residentContainerDeletes o slot s.view⟩ (residentContainerDelete (some o) slot s).2
  | cutDelete (slot : Slot) {s : Store Nat UInt8} {im : Files} (fates : List Bool)
    (lost : s.CrashImage (residentContainerDelete (some o) slot s).2 im) :
    CallStep o s ⟨slot, none, false, residentContainerDeletes o slot s.view⟩ (.powerUp im fates)
  | powerLoss (slot : Slot) (s : Store Nat UInt8) (fates : List Bool) :
    CallStep o s ⟨slot, none, false, false⟩ (.powerUp s.durable fates)

/-- An invariant of what is seen and of what a power loss would leave. -/
def Holds (I : Files → Prop) (s : Store Nat UInt8) : Prop := I s.view ∧ I s.durable

theorem Holds.powerUp {I : Files → Prop} {im : Files} (h : I im) (fates : List Bool) : Holds I (.powerUp im fates) := ⟨h, h⟩

private theorem Holds.carried {I : Files → Prop} {s s' : Store Nat UInt8} (h : Holds I s) (hc : Carries I s s') : Holds I s' :=
  ⟨hc.view h.1, hc.durable h.1 h.2⟩

section Invariant
variable {I : Files → Prop} [ReadsOnly I (SlotFile slot)]

/-- A call's own slot and any other. -/
theorem SlotCall.run_carries (hrun : ∀ call : SlotCall, Triple I (call.run (some o) slot) (fun _ => I) I) (slot' : Slot)
    (call : SlotCall) : Keeps (Carries I) (call.run (some o) slot') := by
  rcases eq_or_ne slot' slot with rfl | hne
  · exact (hrun call).carries
  · have : Fact (slot' ≠ slot) := ⟨hne⟩
    infer_instance

private theorem residentContainerDelete_refused {s : Store Nat UInt8} (h : residentContainerDeletes o slot s.view = false) :
    (residentContainerDelete (some o) slot s).2 = s := by
  have hrefuses : Refuses (residentContainerDelete (some o) slot) s := by
    unfold residentContainerDelete
    refine refuses_gets (refuses_guarded fun hm => ?_)
    rw [Bool.not_eq_false] at hm
    simp only [residentContainerDeletes, hm, Bool.true_and] at h
    rw [orFail_some_bind]
    cases hl : residentManifestLoad o slot s.view with
    | error e => exact ⟨e, rfl⟩
    | ok found => rw [hl] at h; cases h
  obtain ⟨e, h⟩ := hrefuses
  rw [h]

private theorem residentContainerDelete_carries {s : Store Nat UInt8} (slot' : Slot)
    (hdelete : slot' = slot → residentContainerDeletes o slot' s.view = true → Carries I s (residentContainerDelete (some o) slot s).2) :
    Carries I s (residentContainerDelete (some o) slot' s).2 := by
  rcases eq_or_ne slot' slot with rfl | hne
  · by_cases hdeletes : residentContainerDeletes o slot' s.view = true
    · exact hdelete rfl hdeletes
    · rw [residentContainerDelete_refused (Bool.eq_false_iff.mpr hdeletes)]
      exact .refl s
  · have : Fact (slot' ≠ slot) := ⟨hne⟩
    exact (inferInstance : Keeps (Carries I) (residentContainerDelete (some o) slot')).rel s

private theorem SlotCall.image_of_begin {s : Store Nat UInt8} {im : Files} (h : s.CrashImage (call.begin o slot s).2 im) :
    s.CrashImage (call.run (some o) slot s).2 im := by
  rw [run_eq]
  unfold switch
  rw [bind_assoc]
  exact image_first h

private theorem SlotCall.image_of_install {s s' : Store Nat UInt8} {p : Pending} {im : Files}
    (hp : call.begin o slot s = (.ok p, s')) (h : s'.CrashImage (call.install o slot p s').2 im) :
    s.CrashImage (call.run (some o) slot s).2 im := by
  rw [run_eq]
  unfold switch
  simp only [bind_assoc]
  exact image_rest hp (image_first h)

/-- What every call on the slot keeps, and a deletion of it where there is one, a step keeps, whatever fails and wherever
power is lost. -/
theorem CallStep.keeps_where (hrun : ∀ call : SlotCall, Triple I (call.run (some o) slot) (fun _ => I) I) {s s' : Store Nat UInt8}
    {made : Made} (h : CallStep o s made s')
    (hdelete : made.slot = slot → made.deleted = true → Carries I s (residentContainerDelete (some o) slot s).2) (hs : Holds I s) :
    Holds I s' := by
  have run : ∀ call slot', Carries I s (SlotCall.run (some o) slot' call s).2 :=
    fun call slot' => (SlotCall.run_carries hrun slot' call).rel s
  cases h with
  | completes slot' call => exact hs.carried (run call slot')
  | cutBefore slot' call fates lost => exact .powerUp ((run call slot').crash hs.1 hs.2 (SlotCall.image_of_begin lost)) fates
  | cutSealed slot' call fates begun lost =>
    exact .powerUp ((run call slot').crash hs.1 hs.2 (SlotCall.image_of_install begun lost)) fates
  | cutCommitted slot' call fates done lost =>
    refine .powerUp ((run call slot').crash hs.1 hs.2 ?_) fates
    rw [SlotCall.run_eq] at lost ⊢
    rw [bind_eq done] at lost
    exact image_rest done lost
  | deletes slot' => exact hs.carried (residentContainerDelete_carries slot' hdelete)
  | cutDelete slot' fates lost =>
    exact .powerUp ((residentContainerDelete_carries slot' hdelete).crash hs.1 hs.2 lost) fates
  | powerLoss slot' s fates => exact .powerUp hs.2 fates

/-- The same for a step that deletes nothing of the slot. -/
theorem CallStep.keeps_of (hrun : ∀ call : SlotCall, Triple I (call.run (some o) slot) (fun _ => I) I) {s s' : Store Nat UInt8}
    {made : Made} (h : CallStep o s made s') (hno : ¬ (made.slot = slot ∧ made.deleted = true)) (hs : Holds I s) : Holds I s' :=
  h.keeps_where hrun (fun hslot hdeleted => absurd ⟨hslot, hdeleted⟩ hno) hs

end Invariant

theorem CallStep.keeps (law : o.Lawful) {s s' : Store Nat UInt8} {made : Made} (h : CallStep o s made s')
    (hno : ¬ (made.slot = slot ∧ made.deleted = true)) (hs : Holds (AtLeast o slot g) s) : Holds (AtLeast o slot g) s' :=
  h.keeps_of (fun _ => SlotCall.run_triple law) hno hs

/-! ### Seals -/

private theorem Pending.seal_eq {p : Pending} {credential : Bytes} {k : CredentialSeal} (hk : p.seal o slot credential = some k) :
    k = ⟨⟨residentRecordFid slot p.target fidoResidentObjectCredential, credentialGeneration p.next.objects + 1⟩, credential⟩ := by
  unfold Pending.seal at hk
  dsimp only at hk
  split at hk
  · cases hk
  · split at hk
    · exact (Option.some.inj hk).symm
    · cases hk

private theorem SlotCall.seal_begun {s : Store Nat UInt8} {k : CredentialSeal} (hk : call.seal o slot s = some k) :
    ∃ p s', call.begin o slot s = (.ok p, s') ∧ p.seal o slot call.credential = some k := by
  unfold SlotCall.seal at hk
  cases hp : (call.begin o slot s).1 with
  | error e => rw [hp] at hk; cases hk
  | ok p =>
    rw [hp] at hk
    exact ⟨p, _, run_of_ok hp, hk⟩

/-- The call a step's seal comes from. -/
private theorem CallStep.sealed_begun {s s' : Store Nat UInt8} {made : Made} {k : CredentialSeal} (h : CallStep o s made s')
    (hk : made.sealed = some k) :
    ∃ call p s₁, SlotCall.begin o made.slot call s = (.ok p, s₁) ∧ p.seal o made.slot call.credential = some k := by
  cases h with
  | completes slot call | cutCommitted slot call => exact ⟨call, SlotCall.seal_begun hk⟩
  | cutSealed slot call fates begun => exact ⟨call, _, _, begun, hk⟩
  | cutBefore | deletes | cutDelete | powerLoss => cases hk

/-- A record id tells the slot. -/
theorem CallStep.sealed_slot {s s' t t' : Store Nat UInt8} {made made' : Made} {k k' : CredentialSeal}
    (h : CallStep o s made s') (h' : CallStep o t made' t') (hk : made.sealed = some k) (hk' : made'.sealed = some k')
    (hid : k.nonce.recordId = k'.nonce.recordId) : made.slot = made'.slot := by
  obtain ⟨_, _, _, -, hp⟩ := h.sealed_begun hk
  obtain ⟨_, _, _, -, hp'⟩ := h'.sealed_begun hk'
  rw [Pending.seal_eq hp, Pending.seal_eq hp'] at hid
  exact (residentRecordFid_inj (by decide) (by decide) hid).1

/-- A seal is newer than all that the slot goes on from. -/
theorem CallStep.sealed_newer (law : o.Lawful) {s s' : Store Nat UInt8} {made : Made} {k : CredentialSeal}
    (h : CallStep o s made s') (hk : made.sealed = some k) (hs : AtLeast o made.slot g s.view) : g < k.nonce.generation := by
  obtain ⟨call, p, s₁, hbegin, hp⟩ := h.sealed_begun hk
  have hat := (SlotCall.begin_triple law).ok hs (congrArg Prod.fst hbegin)
  rw [Pending.seal_eq hp]
  exact hat.lt

private theorem SlotCall.switch_settles (law : o.Lawful) {s s₁ : Store Nat UInt8} {switched : ManifestSlot × Manifest}
    {k : CredentialSeal} (hs : AtLeast o slot g s.view) (hk : call.seal o slot s = some k)
    (hdone : call.switch o slot s = (.ok switched, s₁)) :
    s₁.durable = s₁.view ∧ (∃ c, Live o slot switched.1 switched.2 c s₁.view) ∧
      k.nonce.generation ≤ credentialGeneration switched.2.objects := by
  obtain ⟨p, s₂, hbegin, hp⟩ := seal_begun hk
  have hat := (SlotCall.begin_triple law).ok hs (congrArg Prod.fst hbegin)
  rw [hbegin] at hat
  unfold switch at hdone
  rw [bind_eq hbegin] at hdone
  obtain ⟨next, s₃, hinstall, hrest⟩ := bind_ok hdone
  have hlive := (SlotCall.install_triple law).ok hat (congrArg Prod.fst hinstall)
  rw [hinstall] at hlive
  obtain ⟨committed, s₄, hcommit, hrest⟩ := bind_ok hrest
  obtain ⟨hcommitted, hrest⟩ := refuseIf_bind_ok hrest
  obtain ⟨rfl, rfl⟩ := pure_ok hrest
  rw [Pending.seal_eq hp]
  refine ⟨flashCommitSync_durable hcommit hcommitted, ?_⟩
  unfold flashCommitSync tryOp at hcommit
  split at hcommit <;> cases hcommit
  · exact hlive
  · exact hlive
  · exact absurd rfl hcommitted

/-- Once the manifest is committed the slot goes on from the seal. -/
theorem CallStep.committed_settles (law : o.Lawful) {s s' : Store Nat UInt8} {made : Made} {k : CredentialSeal}
    (h : CallStep o s made s') (hk : made.sealed = some k) (hcommitted : made.committed = true)
    (hs : AtLeast o made.slot g s.view) : Holds (AtLeast o made.slot k.nonce.generation) s' := by
  have settles : ∀ {slot call switched s₁}, AtLeast o slot g s.view → SlotCall.seal o slot call s = some k →
      call.switch o slot s = (.ok switched, s₁) → Holds (AtLeast o slot k.nonce.generation) s₁ ∧
        Carries (AtLeast o slot k.nonce.generation) s₁ (call.run (some o) slot s).2 := by
    intro slot call switched s₁ hs hk hdone
    obtain ⟨hdurable, ⟨c, hlive⟩, hg⟩ := SlotCall.switch_settles law hs hk hdone
    have hat : AtLeast o slot k.nonce.generation s₁.view := .inr ⟨_, _, c, hlive.newest, hg⟩
    refine ⟨⟨hat, hdurable ▸ hat⟩, ?_⟩
    rw [SlotCall.run_eq, bind_eq hdone]
    exact ((residentSettle_triple fun _ h => h).carries.rel s₁).mono hlive fun im h => .inr ⟨_, _, c, h.newest, hg⟩
  cases h with
  | completes slot call =>
    obtain ⟨switched, hdone⟩ := exists_ok hcommitted
    obtain ⟨hs₁, hrest⟩ := settles hs hk (run_of_ok hdone)
    exact hs₁.carried hrest
  | cutCommitted slot call fates done lost =>
    obtain ⟨hs₁, hrest⟩ := settles hs hk done
    exact .powerUp (hrest.crash hs₁.1 hs₁.2 lost) fates
  | cutBefore | cutSealed | deletes | cutDelete | powerLoss => cases hcommitted

/-! ### Whole sequences -/

/-- No two seals of different bytes have the same nonce. -/
def NoncesUnique (ts : List (Step (Store Nat UInt8) Made)) : Prop :=
  ∀ l t mid u r, ts = l ++ t :: (mid ++ u :: r) → ∀ k k', t.shown.sealed = some k → u.shown.sealed = some k' →
    k.nonce = k'.nonce → k.data = k'.data

/-- Between seals of different bytes on a slot nothing was undone: the first call committed its manifest, and no
container of the slot was deleted. -/
def NothingUndone (ts : List (Step (Store Nat UInt8) Made)) : Prop :=
  ∀ l t mid u r, ts = l ++ t :: (mid ++ u :: r) → ∀ k k', t.shown.sealed = some k → u.shown.sealed = some k' →
    t.shown.slot = u.shown.slot → k.data ≠ k'.data →
      t.shown.committed = true ∧ ∀ w ∈ l ++ t :: mid, ¬ (w.shown.slot = u.shown.slot ∧ w.shown.deleted = true)

/-- From empty slots, every sequence in which nothing is undone keeps its nonces apart. -/
theorem container_nonces_unique (law : o.Lawful) {s : Store Nat UInt8} {ts : List (Step (Store Nat UInt8) Made)}
    (empty : ∀ slot, Vacant slot s.view ∧ Vacant slot s.durable) (run : Run (CallStep o) s ts) (undone : NothingUndone ts) :
    NoncesUnique ts := by
  rintro l t mid u r rfl k k' hk hk' hnonce
  by_contra hne
  have step : ∀ g (t : Step (Store Nat UInt8) Made), CallStep o t.before t.shown t.after →
      ¬ (t.shown.slot = u.shown.slot ∧ t.shown.deleted = true) →
      Holds (AtLeast o u.shown.slot g) t.before → Holds (AtLeast o u.shown.slot g) t.after :=
    fun g t h hno hs => h.keeps law hno hs
  have steps := run.invariant (I := fun _ => True) (A := fun _ => True) (fun _ _ _ _ => trivial) (fun _ _ => trivial) trivial
  have hstep := (steps t (by simp)).1
  have hstep' := (steps u (by simp)).1
  have hslot := hstep.sealed_slot hstep' hk hk' (congrArg RecordNonce.recordId hnonce)
  obtain ⟨hcommitted, hno⟩ := undone l t mid u r rfl k k' hk hk' hslot hne
  -- up to the first seal the slot goes on from whatever is there; from then on from that seal
  obtain ⟨s₁, hs₁, run₁⟩ := run.suffix (step 0) (fun w hw => hno w (by simp [hw]))
    ⟨.inl ⟨rfl, (empty u.shown.slot).1⟩, .inl ⟨rfl, (empty u.shown.slot).2⟩⟩
  cases run₁ with
  | cons _ run₂ =>
    have hs₂ := hstep.committed_settles law hk hcommitted (hslot ▸ hs₁.1)
    rw [hslot] at hs₂
    obtain ⟨s₃, hs₃, run₃⟩ := run₂.suffix (step k.nonce.generation) (fun w hw => hno w (by simp [hw])) hs₂
    cases run₃ with
    | cons _ _ =>
      have hnewer := hstep'.sealed_newer law hk' hs₃.1
      rw [hnonce] at hnewer
      exact Nat.lt_irrefl _ hnewer

/-! ### Sequences over the plain store -/

section Plain

/-- A call on the plain store that runs to its end. -/
def callStep (call : SlotCall) (s : Store Nat UInt8) : Step (Store Nat UInt8) Made :=
  ⟨s, ⟨plainSlot, call.seal plainStore plainSlot s, call.commits plainStore plainSlot s, false⟩,
    (call.run (some plainStore) plainSlot s).2⟩

def deleteStep (s : Store Nat UInt8) : Step (Store Nat UInt8) Made :=
  ⟨s, ⟨plainSlot, none, false, residentContainerDeletes plainStore plainSlot s.view⟩,
    (residentContainerDelete (some plainStore) plainSlot s).2⟩

private theorem call_cons (call : SlotCall) (s : Store Nat UInt8) {ts : List (Step (Store Nat UInt8) Made)}
    (h : Run (CallStep plainStore) (callStep call s).after ts) : Run (CallStep plainStore) s (callStep call s :: ts) :=
  .cons (.completes plainSlot call s) h

private theorem delete_cons (s : Store Nat UInt8) {ts : List (Step (Store Nat UInt8) Made)}
    (h : Run (CallStep plainStore) (deleteStep s).after ts) : Run (CallStep plainStore) s (deleteStep s :: ts) :=
  .cons (.deletes plainSlot s) h

private theorem blankStore_vacant (slot : Slot) : Vacant slot blankStore.view ∧ Vacant slot blankStore.durable :=
  ⟨fun _ => rfl, fun _ => rfl⟩

def registration : Step (Store Nat UInt8) Made := callStep (.create firstContents) blankStore

/-- A registration and an update of its credential. -/
def updateRun : List (Step (Store Nat UInt8) Made) := [registration, callStep (.updateCredential [9]) registration.after]

private theorem updateRun_run : Run (CallStep plainStore) blankStore updateRun :=
  call_cons _ _ (call_cons _ _ (.nil _))

private theorem registration_committed : registration.shown.committed = true := by decide +kernel

theorem updateRun_nonces_unique : (∀ t ∈ updateRun, t.shown.sealed ≠ none) ∧ NoncesUnique updateRun := by
  refine ⟨?_, container_nonces_unique PlainStore.lawful blankStore_vacant updateRun_run fun l t mid u r hts _ _ _ _ _ _ => ?_⟩
  · decide +kernel
  · rcases l with _ | ⟨_, _ | ⟨_, _⟩⟩ <;> rcases mid with _ | ⟨_, _⟩ <;>
      simp only [updateRun, List.nil_append, List.cons_append, List.cons.injEq, List.nil_eq, reduceCtorEq, and_false,
        List.append_eq_nil_iff] at hts
    obtain ⟨rfl, rfl, -⟩ := hts
    refine ⟨registration_committed, fun w hw => ?_⟩
    obtain rfl := List.mem_singleton.mp hw
    simp [registration, callStep]

private theorem secondContents_size : (List.replicate 32 1 : Bytes).length = 32 := rfl

def secondContents : Contents := ⟨List.replicate 32 1, [2], [5], [4], secondContents_size⟩

def removal : Step (Store Nat UInt8) Made := deleteStep registration.after

/-- A registration, its deletion, and a second registration on the same slot. -/
def recreateRun : List (Step (Store Nat UInt8) Made) :=
  [registration, removal, callStep (.create secondContents) removal.after]

private theorem recreateRun_run : Run (CallStep plainStore) blankStore recreateRun :=
  call_cons _ _ (delete_cons _ (call_cons _ _ (.nil _)))

private theorem registration_sealed : registration.shown.sealed =
    some ⟨⟨residentRecordFid plainSlot .slot0 fidoResidentObjectCredential, 1⟩, [3]⟩ := by decide +kernel

/-- After a deletion the generations start again: the second CREDENTIAL is sealed under the nonce of the first. -/
theorem recreateRun_nonce_returns : plainStore.Lawful ∧ (∀ slot, Vacant slot blankStore.view ∧ Vacant slot blankStore.durable) ∧
    Run (CallStep plainStore) blankStore recreateRun ∧ ¬ NoncesUnique recreateRun := by
  refine ⟨PlainStore.lawful, blankStore_vacant, recreateRun_run, fun hunique => ?_⟩
  have second : (callStep (.create secondContents) removal.after).shown.sealed =
      some ⟨⟨residentRecordFid plainSlot .slot0 fidoResidentObjectCredential, 1⟩, [5]⟩ := by decide +kernel
  have hdata := hunique [] _ [_] _ [] rfl _ _ registration_sealed second rfl
  cases hdata

/-- A call that loses power once its CREDENTIAL is sealed. -/
def lostStep (call : SlotCall) (s : Store Nat UInt8) : Step (Store Nat UInt8) Made :=
  ⟨s, ⟨plainSlot, call.seal plainStore plainSlot s, false, false⟩,
    .powerUp (call.begin plainStore plainSlot s).2.durable []⟩

private theorem lost_cons (call : SlotCall) (s : Store Nat UInt8) {ts : List (Step (Store Nat UInt8) Made)}
    (hbegin : (call.begin plainStore plainSlot s).1.toBool = true) (h : Run (CallStep plainStore) (lostStep call s).after ts) :
    Run (CallStep plainStore) s (lostStep call s :: ts) := by
  obtain ⟨p, hp⟩ := exists_ok hbegin
  have hseal : call.seal plainStore plainSlot s = p.seal plainStore plainSlot call.credential := by
    unfold SlotCall.seal
    rw [hp]
  refine .cons ?_ h
  rw [hseal]
  exact .cutSealed plainSlot call [] (run_of_ok hp) (.inl rfl)

def lostUpdate : Step (Store Nat UInt8) Made := lostStep (.updateCredential [9]) registration.after

/-- A registration, an update that loses power, and the update that is made instead. -/
def retryRun : List (Step (Store Nat UInt8) Made) :=
  [registration, lostUpdate, callStep (.updateCredential [8]) lostUpdate.after]

private theorem lostUpdate_begins :
    ((SlotCall.updateCredential [9]).begin plainStore plainSlot registration.after).1.toBool = true := by decide +kernel

private theorem retryRun_run : Run (CallStep plainStore) blankStore retryRun :=
  call_cons _ _ (lost_cons _ _ lostUpdate_begins (call_cons _ _ (.nil _)))

/-- An update that was not committed leaves its generation to the next one. -/
theorem retryRun_nonce_returns : Run (CallStep plainStore) blankStore retryRun ∧ ¬ NoncesUnique retryRun := by
  refine ⟨retryRun_run, fun hunique => ?_⟩
  have first : lostUpdate.shown.sealed =
      some ⟨⟨residentRecordFid plainSlot .slot1 fidoResidentObjectCredential, 2⟩, [9]⟩ := by decide +kernel
  have second : (callStep (.updateCredential [8]) lostUpdate.after).shown.sealed =
      some ⟨⟨residentRecordFid plainSlot .slot1 fidoResidentObjectCredential, 2⟩, [8]⟩ := by decide +kernel
  have hdata := hunique [_] _ [] _ [] rfl _ _ first second rfl
  cases hdata

end Plain

end FidoTouch.Resident
