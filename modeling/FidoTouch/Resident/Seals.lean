import FidoTouch.Program.Runs
import FidoTouch.Resident.Newest

/-! The AEAD seals of CREDENTIAL objects over any sequence of container calls. A nonce comes back where the
generation of the object does: after a deletion, or where the last update was not committed. -/
namespace FidoTouch.Resident
open FidoTouch.Program Handler FidoTouch.Storage

variable {o : ObjectStore} {slot slot' : Slot} {g : Nat}

/-! ### One call, up to its seal and beyond -/

/-- What the SDK builds the nonce of a record from; the record key is the same in all calls. -/
structure RecordNonce where
  recordId : Nat
  generation : Nat
  deriving DecidableEq

/-- A CREDENTIAL object given to the AEAD. -/
structure CredentialSeal where
  nonce : RecordNonce
  data : Bytes
  deriving DecidableEq

def credentialWrite (credential : Bytes) : Write := ⟨fidoResidentObjectCredential, credential, .aeadSecret, credentialFlags⟩

namespace SlotCall

def credential : SlotCall → Bytes
  | .create contents => contents.credential
  | .updateCredential credential => credential

/-- The records that come before the CREDENTIAL. -/
def writesBefore : SlotCall → List Write
  | .create contents => [⟨fidoResidentObjectRpIdHash, contents.rpIdHash, .authenticatedPublic, publicFlags⟩,
    ⟨fidoResidentObjectClientId, contents.clientId, .authenticatedPublic, publicFlags⟩]
  | .updateCredential _ => []

def writesAfter : SlotCall → List Write
  | .create contents => [⟨fidoResidentObjectPublicKey, contents.publicKey, .authenticatedPublic, publicFlags⟩]
  | .updateCredential _ => []

/-- The length checks of the two entry points. -/
def oversized : SlotCall → Prop
  | .create c => c.clientId.length > uint32Max ∨ c.credential.length > uint32Max ∨ c.publicKey.length > uint32Max
  | .updateCredential credential => credential.length > uint32Max

instance (call : SlotCall) : Decidable call.oversized := by cases call <;> (unfold oversized; infer_instance)

theorem writes_eq (call : SlotCall) :
    call.writes = call.writesBefore ++ credentialWrite call.credential :: call.writesAfter := by
  cases call <;> rfl

end SlotCall

/-- An update that has come to its CREDENTIAL. -/
structure Pending where
  target : ManifestSlot
  seen : List Nat
  next : Manifest

/-- What the update's turn on the CREDENTIAL seals; nothing when the turn refuses before it has a record. -/
def Pending.seal (o : ObjectStore) (slot : Slot) (credential : Bytes) (p : Pending) : Option CredentialSeal :=
  let object := residentRecordDescriptor slot p.target (credentialWrite credential) (credentialGeneration p.next.objects + 1)
  if credentialGeneration p.next.objects = uint32Max then none
  else match residentRecordSeal o slot p.next.generation object credential with
    | .ok _ => some ⟨⟨object.recordId, object.generation⟩, credential⟩
    | .error _ => none

namespace SlotCall

/-- A call up to where its loop over the writes comes to the CREDENTIAL. -/
def begin (o : ObjectStore) (slot : Slot) (call : SlotCall) : FileOp Pending := do
  refuseIf call.oversized .nullParam
  refuseIf (call.writes = [] ∨ call.writes.length > o.manifestMaxObjects) .nullParam
  let files ← gets Store.view
  let base ← ofExcept (residentUpdateStart o slot files)
  let next ← ofExcept (residentNextManifest slot base)
  let next ← residentUpdateObjects o slot (residentTargetSlot base) [] next call.writesBefore
  return ⟨residentTargetSlot base, (call.writesBefore.map Write.objectType).reverse, next⟩

/-- A call from its CREDENTIAL until its manifest is written. -/
def install (o : ObjectStore) (slot : Slot) (call : SlotCall) (p : Pending) : FileOp Manifest :=
  residentInstall o slot p.target p.seen p.next (credentialWrite call.credential :: call.writesAfter)

/-- A call until its manifest is committed. -/
def switch (o : ObjectStore) (slot : Slot) (call : SlotCall) : FileOp (ManifestSlot × Manifest) := do
  let p ← call.begin o slot
  let next ← call.install o slot p
  let committed ← flashCommitSync
  refuseIf (committed = false) .memoryFatal
  return (p.target, next)

end SlotCall

private theorem residentUpdateObjects_append {target : ManifestSlot} {seen : List Nat} {next : Manifest} {ws ws' : List Write} :
    residentUpdateObjects o slot target seen next (ws ++ ws') = (do
      let next ← residentUpdateObjects o slot target seen next ws
      residentUpdateObjects o slot target ((ws.map Write.objectType).reverse ++ seen) next ws') := by
  induction ws generalizing seen next with
  | nil => rfl
  | cons w ws ih =>
    simp only [List.cons_append, residentUpdateObjects, bind_assoc, List.map_cons, List.reverse_cons, List.append_assoc,
      List.nil_append]
    apply bind_congr
    intro next
    exact ih

private theorem residentInstall_append {target : ManifestSlot} {seen : List Nat} {next : Manifest} {ws ws' : List Write} :
    residentInstall o slot target seen next (ws ++ ws') = (do
      let next ← residentUpdateObjects o slot target seen next ws
      residentInstall o slot target ((ws.map Write.objectType).reverse ++ seen) next ws') := by
  unfold residentInstall
  simp only [residentUpdateObjects_append, bind_assoc]

/-- A call is its switch and what it does once the manifest is committed. -/
theorem SlotCall.run_eq (o : ObjectStore) (slot : Slot) (call : SlotCall) :
    call.run (some o) slot = (do
      let switched ← call.switch o slot
      residentSettle slot switched.1 switched.2) := by
  have hrun : call.run (some o) slot = (do
      refuseIf call.oversized .nullParam
      residentContainerUpdate (some o) slot call.writes) := by cases call <;> rfl
  rw [hrun]
  unfold residentContainerUpdate switch begin install
  simp only [orFail_some_bind, residentUpdateInto_eq, bind_assoc, pure_bind]
  refine bind_congr fun _ => bind_congr fun _ => bind_congr fun _ => bind_congr fun _ => bind_congr fun _ => ?_
  conv_lhs => rw [call.writes_eq, residentInstall_append]
  simp only [bind_assoc, List.append_nil]

private theorem residentManifestFind_full (objects : List Descriptor) :
    (∃ found ∈ residentManifestFind objects fidoResidentObjectCredential, found.generation = uint32Max) ↔
      credentialGeneration objects = uint32Max := by
  unfold credentialGeneration
  cases residentManifestFind objects fidoResidentObjectCredential with
  | none => simp [uint32Max]
  | some found => simp

/-- The turn on the CREDENTIAL gives the AEAD exactly what `Pending.seal` says. -/
theorem Pending.turn_eq (o : ObjectStore) (slot : Slot) (credential : Bytes) (p : Pending)
    (hnew : fidoResidentObjectCredential ∉ p.seen) :
    residentUpdateObject o slot p.target p.seen p.next (credentialWrite credential) = (do
      refuseIf (credentialGeneration p.next.objects = uint32Max) .wrongData
      let object := residentRecordDescriptor slot p.target (credentialWrite credential) (credentialGeneration p.next.objects + 1)
      let record ← ofExcept (residentRecordSeal o slot p.next.generation object credential)
      residentReplaceFile object.recordId record
      if (residentManifestFind p.next.objects fidoResidentObjectCredential).isSome then
        return { p.next with objects := residentManifestReplace object p.next.objects }
      else
        refuseIf (¬ p.next.objects.length < o.manifestMaxObjects) .noMemory
        return { p.next with objects := p.next.objects ++ [object] }) := by
  have hvalid : ¬ (residentObjectTypeValid (credentialWrite credential).objectType = false ∨
      (credentialWrite credential).flags.inline) := by simp [credentialWrite, credentialFlags]; decide
  have htype : (credentialWrite credential).objectType = fidoResidentObjectCredential := rfl
  unfold residentUpdateObject residentRecordWrite
  rw [refuseIf_false hvalid, pure_bind, refuseIf_false (htype ▸ hnew), pure_bind]
  have hguard : (refuseIf (∃ found ∈ residentManifestFind p.next.objects fidoResidentObjectCredential,
      found.generation = uint32Max) .wrongData : FileOp Unit) =
      refuseIf (credentialGeneration p.next.objects = uint32Max) .wrongData := by
    unfold refuseIf
    exact if_congr (residentManifestFind_full _) rfl rfl
  simp only [bind_assoc, pure_bind]
  refine (congrArg (· >>= _) hguard).trans (bind_congr fun _ => ?_)
  unfold credentialGeneration
  rw [htype]
  cases residentManifestFind p.next.objects fidoResidentObjectCredential <;> rfl

/-! ### The generation a call seals under -/

/-- An update writes over the objects of `base`; until its manifest is there the slot goes on from them. -/
structure GoesOn (o : ObjectStore) (slot : Slot) (g : Nat) (target : ManifestSlot) (base : List Descriptor)
    (F : Files → Prop) : Prop where
  outdate : ∀ t, residentObjectTypeValid t = true → ∀ v x, Outdates o slot base t x → F v →
    F (Function.update v (residentRecordFid slot target t) x)
  empty : ∀ v x, hasData x = false → F v → F (Function.update v (residentManifestFid slot target) x)
  atLeast : ∀ v, F v → AtLeast o slot g v
  le : g ≤ credentialGeneration base

private theorem Vacant.goesOn : GoesOn o slot 0 .slot0 [] (Vacant slot) where
  outdate _ ht _ _ _ h := h.record ht
  empty _ _ hx h := h.empty hx
  atLeast _ h := .inl ⟨rfl, h⟩
  le := Nat.zero_le _

private theorem Newest.goesOn (law : o.Lawful) {m : ManifestSlot} {M : Manifest} {c : Nat → Bytes}
    (hg : g ≤ credentialGeneration M.objects) : GoesOn o slot g m.other M.objects (Newest o slot m M c) where
  outdate _ ht _ _ hx h := h.outdate law ht hx
  empty _ _ hx h := h.empty_other hx
  atLeast _ h := .inr ⟨m, M, c, h, hg⟩
  le := hg

section Progress
variable {target : ManifestSlot} {base : List Descriptor} {generation : Nat} {done : List Nat} {next : Manifest}

/-- The CREDENTIAL object of a list is the one of its type. -/
private theorem credentialGeneration_eq {objects : List Descriptor} {d : Descriptor}
    (hdistinct : (objects.map Descriptor.objectType).Nodup) (htag : ∀ x ∈ objects, x.objectTag = 0) (hd : d ∈ objects)
    (ht : d.objectType = fidoResidentObjectCredential) : credentialGeneration objects = d.generation := by
  unfold credentialGeneration
  rcases residentManifestFind_eq htag fidoResidentObjectCredential with ⟨f, hf, hft, hfind⟩ | ⟨hno, -⟩
  · rw [hfind, List.inj_on_of_nodup_map hdistinct hf hd (hft.trans ht.symm)]
  · exact absurd ht (hno d hd)

private theorem credentialGeneration_base (base : List Descriptor) :
    (∃ d ∈ base, d.objectType = fidoResidentObjectCredential ∧ credentialGeneration base = d.generation) ∨
      (∀ d ∈ base, d.objectType = fidoResidentObjectCredential → d.objectTag ≠ 0) ∧ credentialGeneration base = 0 := by
  unfold credentialGeneration residentManifestFind
  cases hf : base.find? (fun o => o.objectType = fidoResidentObjectCredential ∧ o.objectTag = 0) with
  | some d =>
    have hd := List.find?_some hf
    simp only [Bool.decide_and, Bool.and_eq_true, decide_eq_true_eq] at hd
    exact .inl ⟨d, List.mem_of_find?_eq_some hf, hd.1, rfl⟩
  | none =>
    rw [List.find?_eq_none] at hf
    refine .inr ⟨fun d hd ht htag => hf d hd ?_, rfl⟩
    simp [ht, htag]

/-- Up to its CREDENTIAL an update leaves the generation of that object alone. -/
theorem Progress.credentialGeneration_pending (hp : Progress slot target base generation done next)
    (hnew : fidoResidentObjectCredential ∉ done) : credentialGeneration next.objects = credentialGeneration base := by
  have kept : ∀ d ∈ base, d.objectType = fidoResidentObjectCredential → d ∈ next.objects :=
    fun d hd ht => hp.pending d hd (ht ▸ hnew)
  rcases credentialGeneration_base base with ⟨d, hd, ht, hbase⟩ | ⟨hno, hbase⟩
  · rw [hbase]
    exact credentialGeneration_eq hp.formed.distinct hp.formed.object_tag (kept d hd ht) ht
  · rw [hbase]
    unfold credentialGeneration
    rcases residentManifestFind_eq hp.formed.object_tag fidoResidentObjectCredential with ⟨f, hf, hft, -⟩ | ⟨-, hfind⟩
    · rcases hp.origin f hf with hb | ⟨hdone, -⟩
      · exact absurd (hp.formed.object_tag f hf) (hno f hb hft)
      · exact absurd (hft ▸ hdone) hnew
    · rw [hfind]

/-- An update that wrote the CREDENTIAL has moved its generation on. -/
theorem Progress.credentialGeneration_done (hp : Progress slot target base generation done next)
    (hdone : fidoResidentObjectCredential ∈ done) : credentialGeneration base + 1 ≤ credentialGeneration next.objects := by
  obtain ⟨d, hd, ht, -, hgen⟩ := hp.written _ hdone
  rw [credentialGeneration_eq hp.formed.distinct hp.formed.object_tag hd ht]
  rcases credentialGeneration_base base with ⟨f, hf, hft, hbase⟩ | ⟨hno, hbase⟩
  · exact Nat.le_of_eq (by rw [hbase, hgen f hf hft])
  · rw [hbase]
    rcases hp.counted d hd with hb | hpos
    · exact absurd (hp.formed.object_tag d hd) (hno d hb ht)
    · exact hpos

end Progress

/-- Where a call stands before it seals its CREDENTIAL. -/
def Pending.At (o : ObjectStore) (slot : Slot) (g : Nat) (p : Pending) (v : Files) : Prop :=
  fidoResidentObjectCredential ∉ p.seen ∧ ∃ base generation F c, GoesOn o slot g p.target base F ∧
    Progress slot p.target base generation p.seen p.next ∧ Records o slot c v p.next.objects ∧
    Prior o slot p.target base generation v ∧ F v

theorem Pending.At.lt {p : Pending} {v : Files} (h : p.At o slot g v) : g < credentialGeneration p.next.objects + 1 := by
  obtain ⟨hnew, _, _, _, _, hF, hp, -⟩ := h
  rw [hp.credentialGeneration_pending hnew]
  exact Nat.lt_succ_of_le hF.le

theorem Pending.At.atLeast {p : Pending} {v : Files} (h : p.At o slot g v) : AtLeast o slot g v := by
  obtain ⟨-, _, _, _, _, hF, -, -, -, hv⟩ := h
  exact hF.atLeast v hv

namespace SlotCall
variable {call : SlotCall}

theorem writesBefore_valid (call : SlotCall) : ∀ write ∈ call.writesBefore, residentObjectTypeValid write.objectType = true :=
  fun write hw => call.writes_valid.2 write (call.writes_eq ▸ List.mem_append_left _ hw)

theorem credential_not_mem (call : SlotCall) :
    fidoResidentObjectCredential ∉ (call.writesBefore.map Write.objectType).reverse := by
  cases call with
  | create contents => simp [writesBefore]; decide
  | updateCredential credential => simp [writesBefore]

private theorem begin_from {target : ManifestSlot} {base : List Descriptor} {generation : Nat} {next : Manifest}
    {F : Files → Prop} {c : Nat → Bytes} (hF : GoesOn o slot g target base F) (hp : Progress slot target base generation [] next) :
    Triple (fun v => Records o slot c v next.objects ∧ Prior o slot target base generation v ∧ F v)
      (do
        let next ← residentUpdateObjects o slot target [] next call.writesBefore
        return ⟨target, (call.writesBefore.map Write.objectType).reverse, next⟩)
      (Pending.At o slot g) (AtLeast o slot g) := by
  have hvalid := call.writesBefore_valid
  have frame : ∀ write ∈ call.writesBefore, ∀ v x, Outdates o slot base write.objectType x →
      Prior o slot target base generation v ∧ F v →
      Prior o slot target base generation (Function.update v (residentRecordFid slot target write.objectType) x) ∧
        F (Function.update v (residentRecordFid slot target write.objectType) x) := by
    intro write hw v x hx h
    refine ⟨h.1.congr (Function.update_of_ne ?_ _ _), hF.outdate _ (hvalid write hw) v x hx h.2⟩
    exact residentManifestFid_ne_record (hvalid write hw)
  refine .bind ((residentUpdateObjects_triple frame hp).conseq (fun _ h => h) (fun _ _ h => h) fun v h => hF.atLeast v h.2)
    fun next' => .pure _ fun v h => ?_
  obtain ⟨hp', hrec, hprior, hv⟩ := h
  rw [List.append_nil] at hp'
  exact ⟨call.credential_not_mem, base, generation, F, _, hF, hp', hrec, hprior, hv⟩

theorem begin_triple (law : o.Lawful) :
    Triple (AtLeast o slot g) (call.begin o slot) (Pending.At o slot g) (AtLeast o slot g) := by
  unfold begin
  refine .bind (.refuseIf _ fun _ _ h => h) fun _ => .bind (.refuseIf _ fun _ _ h => h.2) fun _ =>
    .bind .view fun files => .of_pre fun v₀ h₀ => ?_
  obtain ⟨rfl, -, -, hat⟩ := h₀
  refine .bind (.ofExcept _ fun _ _ v h => h ▸ hat) fun start => .of_pre fun v₁ h₁ => ?_
  obtain ⟨hstart, rfl⟩ := h₁
  refine .bind (.ofExcept _ fun _ _ v h => h ▸ hat) fun next => .of_pre fun v₂ h₂ => ?_
  obtain ⟨hnext, rfl⟩ := h₂
  rcases hat with ⟨rfl, hvacant⟩ | ⟨m, M, c, hnewest, hg⟩
  · rcases hvacant.updateStart (o := o) with h | h <;> rw [h] at hstart <;> cases hstart
    cases hnext
    refine (begin_from (c := fun _ => []) Vacant.goesOn Progress.ofEmpty).pre fun v h => ?_
    subst h
    exact ⟨by intro d hd; simp at hd, hvacant.prior, hvacant⟩
  · rcases hnewest.live_or_refused with hlive | ⟨e, he⟩
    · rw [hlive.updateStart law] at hstart
      cases hstart
      unfold residentNextManifest at hnext
      dsimp only at hnext
      split at hnext <;> cases hnext
      refine (begin_from (c := c) (Newest.goesOn (c := c) law hg) (.ofLive hlive)).pre fun v h => ?_
      subst h
      exact ⟨hlive.records, .ofLive hlive, hnewest⟩
    · rw [he] at hstart
      cases hstart

theorem install_triple (law : o.Lawful) {p : Pending} :
    Triple (p.At o slot g) (call.install o slot p)
      (fun next v => (∃ c, Live o slot p.target next c v) ∧
        credentialGeneration p.next.objects + 1 ≤ credentialGeneration next.objects) (AtLeast o slot g) := by
  refine .of_pre fun v₀ hat => ?_
  obtain ⟨hnew, base, generation, F, c, hF, hp, hrec, hprior, hv⟩ := hat
  unfold install
  have hvalid : ∀ write ∈ credentialWrite call.credential :: call.writesAfter, residentObjectTypeValid write.objectType = true :=
    fun write hw => call.writes_valid.2 write (call.writes_eq ▸ List.mem_append_right _ hw)
  refine (residentInstall_triple (c := c) law (List.cons_ne_nil _ _)
    (fun w hw => ⟨hvalid w hw, hF.outdate _ (hvalid w hw)⟩) hF.empty hp).conseq (fun v h => ?_)
    (fun next v h => ⟨⟨_, h.2⟩, ?_⟩) hF.atLeast
  · subst h
    exact ⟨hrec, hprior, hv⟩
  rw [hp.credentialGeneration_pending hnew]
  exact h.1.credentialGeneration_done (by simp [credentialWrite])

/-- Once a manifest is committed the slot goes on from it, also after a power loss. -/
theorem settle_triple {m : ManifestSlot} {M : Manifest} (hg : g ≤ credentialGeneration M.objects) :
    Triple (fun v => ∃ c, Live o slot m M c v) (residentSettle slot m M) (fun _ => AtLeast o slot g) (AtLeast o slot g) := by
  refine .of_pre fun v₀ hlive => ?_
  obtain ⟨c, hlive⟩ := hlive
  have atLeast : ∀ v, Live o slot m M c v → AtLeast o slot g v := fun v h => .inr ⟨m, M, c, h.newest, hg⟩
  exact (residentSettle_triple atLeast).conseq (fun v h => h ▸ hlive) (fun _ => atLeast) fun _ h => h

theorem switch_triple (law : o.Lawful) :
    Triple (AtLeast o slot g) (call.switch o slot)
      (fun switched v => (∃ c, Live o slot switched.1 switched.2 c v) ∧ g ≤ credentialGeneration switched.2.objects)
      (AtLeast o slot g) := by
  unfold switch
  refine .bind (begin_triple law) fun p => .of_pre fun v₀ hat => ?_
  refine .bind ((install_triple law).pre fun v h => h ▸ hat) fun next => .of_pre fun v₁ hnext => ?_
  obtain ⟨hlive, hg⟩ := hnext
  have hle : g ≤ credentialGeneration next.objects := Nat.le_trans (Nat.le_of_lt hat.lt) hg
  have atLeast : ∀ v, v = v₁ → AtLeast o slot g v := fun v h => by
    obtain ⟨c, hlive⟩ := hlive
    exact .inr ⟨_, next, c, h ▸ hlive.newest, hle⟩
  refine .bind (.commitSync atLeast) fun _ => .bind (.refuseIf _ fun _ => atLeast) fun _ => .pure _ fun v h => ?_
  exact ⟨h.2 ▸ hlive, hle⟩

theorem run_triple (law : o.Lawful) :
    Triple (AtLeast o slot g) (call.run (some o) slot) (fun _ => AtLeast o slot g) (AtLeast o slot g) := by
  rw [run_eq]
  refine .bind (switch_triple law) fun switched => .of_pre fun v₀ h₀ => ?_
  exact (settle_triple h₀.2).pre fun v h => h ▸ h₀.1

end SlotCall
end FidoTouch.Resident
