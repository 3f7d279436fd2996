import Mathlib.Data.List.Nodup
import Mathlib.Data.List.Perm.Basic
import Mathlib.Data.List.Range
import FidoTouch.Ctap.GetAssertion
import FidoTouch.Ctap.PlainDevice
import FidoTouch.Program.Ghost

/-! Who frees the buffers of a loaded credential: each load makes an owner, a copied struct is a second holder of the same
owner, and `credential_free` releases the owner that a slot holds. -/
namespace FidoTouch.Ctap
open FidoTouch.Program Handler FidoTouch.Storage FidoTouch.Resident

variable {ε α β : Type}

/-! ### Slots -/

/-- A loaded credential and the owner of its buffers. -/
structure Owned where
  owner : Nat
  cred : Credential

/-- What the slots hold; a slot without buffers holds nothing. -/
def owners (slots : List (Option Owned)) : List Nat := slots.filterMap fun slot => slot.map Owned.owner

/-- The two arrays, and what was released and loaded so far; `creds` and `numberOfCredentials` are those of the call. -/
structure Heap where
  creds : List (Option Owned)
  numberOfCredentials : Nat
  asserted : Bool
  credsx : List (Option Owned)
  released : List Nat
  loads : Nat

namespace Heap

def empty : Heap := ⟨[], 0, false, [], [], 0⟩

/-- The locals of a call. -/
def enter (h : Heap) : Heap := { h with creds := [], numberOfCredentials := 0, asserted := false }

/-- `credential_load(…, &creds[creds_len])`, with `creds_len++` -/
def load (h : Heap) (cred : Credential) : Heap := { h with creds := h.creds ++ [some ⟨h.loads, cred⟩], loads := h.loads + 1 }

/-- `credential_free(&creds[i])` -/
def free (h : Heap) (i : Nat) : Heap := { h with creds := h.creds.set i none, released := owners [(h.creds[i]?).join] ++ h.released }

/-- One turn of the filter: the credential is freed, or copied down to the next place. -/
def filterStep (shown : Credential → Bool) (h : Heap) (i : Nat) : Heap :=
  match (h.creds[i]?).join with
  | none => h
  | some o =>
    if o.cred.present = false then h
    else if shown o.cred = false then h.free i
    else
      { h with
        creds := if h.numberOfCredentials ≠ i then h.creds.set h.numberOfCredentials (some o) else h.creds
        numberOfCredentials := h.numberOfCredentials + 1 }

/-- The loop over `creds[0..creds_len)` that hides what `credProtect` hides. -/
def filterCreds (h : Heap) (shown : Credential → Bool) : Heap :=
  (List.range h.creds.length).foldl (filterStep shown) h

end Heap

/-- One turn of the outer loop of the sort, on slots. -/
def exchangeSlots (front : Option Owned) : List (Option Owned) → Option Owned × List (Option Owned)
  | [] => (front, [])
  | slot :: slots =>
    if (front.elim 0 fun o => o.cred.boardCreation) < slot.elim 0 fun o => o.cred.boardCreation then
      ((exchangeSlots slot slots).1, front :: (exchangeSlots slot slots).2)
    else ((exchangeSlots front slots).1, slot :: (exchangeSlots front slots).2)

def sortSlots : (turns : Nat) → List (Option Owned) → List (Option Owned)
  | turns + 1, slot :: slots => (exchangeSlots slot slots).1 :: sortSlots turns (exchangeSlots slot slots).2
  | _, slots => slots

namespace Heap

def sort (h : Heap) : Heap :=
  { h with creds := sortSlots h.numberOfCredentials (h.creds.take h.numberOfCredentials) ++ h.creds.drop h.numberOfCredentials }

/-- The sort of a request that is not silent. -/
def sortUnless (silent : Bool) (h : Heap) : Heap := if silent then h else h.sort

/-- The credentials are copied to `credsx`; whose owners were there before are released. -/
def keep (h : Heap) : Heap :=
  { h with
    asserted := true
    credsx := h.creds.take h.numberOfCredentials
    released := owners h.credsx ++ h.released }

/-- The exit of a call: unless they were copied to `credsx`, all slots of `creds` are freed. -/
def leave (h : Heap) : Heap :=
  { h with creds := [], released := if h.asserted then h.released else owners h.creds ++ h.released }

/-- `reset_gna_state` -/
def forget (h : Heap) : Heap := { h with credsx := [], released := owners h.credsx ++ h.released }

end Heap

/-! ### What the operations do to the owners -/

@[simp] theorem owners_nil : owners [] = [] := rfl
@[simp] theorem owners_append (xs ys : List (Option Owned)) : owners (xs ++ ys) = owners xs ++ owners ys :=
  List.filterMap_append

@[simp] theorem owners_some (os : List Owned) : owners (os.map some) = os.map Owned.owner := by
  simp [owners, List.filterMap_map]

theorem owners_perm {xs ys : List (Option Owned)} (h : xs.Perm ys) : (owners xs).Perm (owners ys) := h.filterMap _

private theorem exchangeSlots_perm (front : Option Owned) (slots : List (Option Owned)) :
    ((exchangeSlots front slots).1 :: (exchangeSlots front slots).2).Perm (front :: slots) := by
  induction slots generalizing front with
  | nil => exact .refl _
  | cons slot slots ih =>
    unfold exchangeSlots
    split
    · exact (List.Perm.swap _ _ _).trans ((ih slot).cons front)
    · exact ((List.Perm.swap _ _ _).trans ((ih front).cons slot)).trans (List.Perm.swap _ _ _)

theorem sortSlots_perm (turns : Nat) (slots : List (Option Owned)) : (sortSlots turns slots).Perm slots := by
  induction turns generalizing slots with
  | zero => exact .refl _
  | succ turns ih =>
    cases slots with
    | nil => exact .refl _
    | cons slot slots => exact ((ih _).cons _).trans (exchangeSlots_perm slot slots)

namespace Heap

/-- Every owner the heap still answers for: released, or kept for the assertions to come. -/
def held (h : Heap) : List Nat := h.released ++ owners h.credsx

/-- A slot the filter has been through without copying over it. -/
def passed (shown : Credential → Bool) (o : Owned) : Option Owned := if shown o.cred then some o else none

/-- The owners that the filter left in a second slot. -/
def stale (shown : Credential → Bool) (os : List Owned) : List Owned :=
  (os.drop (os.filter fun o => shown o.cred).length).filter fun o => shown o.cred

theorem owners_passed (shown : Credential → Bool) (os : List Owned) :
    owners (os.map (passed shown)) = (os.filter fun o => shown o.cred).map Owned.owner := by
  induction os with
  | nil => rfl
  | cons o os ih =>
    by_cases h : shown o.cred <;> simp_all [owners, passed]

/-- One turn, where `done` are the credentials kept so far and `passedBy` the slots after them. -/
private theorem filterStep_run {shown : Credential → Bool} {h : Heap} {done passedBy rest : List (Option Owned)} {o : Owned}
    (hcreds : h.creds = done ++ passedBy ++ some o :: rest) (hnumber : h.numberOfCredentials = done.length)
    (hpresent : o.cred.present = true) :
    filterStep shown h (done.length + passedBy.length) =
      if shown o.cred then
        { h with creds := done ++ [some o] ++ (passedBy ++ [some o]).drop 1 ++ rest, numberOfCredentials := done.length + 1 }
      else { h with creds := done ++ (passedBy ++ [none]) ++ rest, released := o.owner :: h.released } := by
  have hget : h.creds[done.length + passedBy.length]? = some (some o) := by simp [hcreds]
  simp only [filterStep, hget, Option.join_some, hpresent, Bool.true_eq_false, if_false]
  by_cases hs : shown o.cred
  · simp only [hs, Bool.true_eq_false, if_false, if_true, hnumber]
    cases passedBy with
    | nil => simp [hcreds]
    | cons m passedBy => simp [hcreds]
  · simp [hs, free, hcreds, owners]

/-- The loop from a place on: the shown credentials follow those kept, and the slots they were copied from stay. -/
private theorem filterFrom_run (shown : Credential → Bool) (os : List Owned) (hpresent : ∀ o ∈ os, o.cred.present = true)
    (h : Heap) (done passedBy : List (Option Owned)) (hcreds : h.creds = done ++ passedBy ++ os.map some)
    (hnumber : h.numberOfCredentials = done.length) :
    (List.range' (done.length + passedBy.length) os.length).foldl (filterStep shown) h =
      { h with
        creds := done ++ (os.filter fun o => shown o.cred).map some ++
          (passedBy ++ os.map (passed shown)).drop (os.filter fun o => shown o.cred).length
        numberOfCredentials := done.length + (os.filter fun o => shown o.cred).length
        released := ((os.filter fun o => !shown o.cred).map Owned.owner).reverse ++ h.released } := by
  induction os generalizing h done passedBy with
  | nil =>
    have hslots : done ++ passedBy = h.creds := by simpa using hcreds.symm
    simp [← hnumber, hslots]
  | cons o os ih =>
    rw [List.length_cons, List.range'_succ, List.foldl_cons,
      filterStep_run hcreds hnumber (hpresent o (List.mem_cons_self ..))]
    have hrest : ∀ o ∈ os, o.cred.present = true := fun o ho => hpresent o (List.mem_cons_of_mem _ ho)
    by_cases hs : shown o.cred
    · rw [if_pos hs]
      have hlen : (done ++ [some o]).length + ((passedBy ++ [some o]).drop 1).length = done.length + passedBy.length + 1 := by
        simp; omega
      rw [← hlen, ih hrest _ (done ++ [some o]) ((passedBy ++ [some o]).drop 1) rfl (by simp)]
      cases passedBy <;> simp [hs, passed] <;> omega
    · rw [if_neg hs]
      have hlen : done.length + (passedBy ++ [none]).length = done.length + passedBy.length + 1 := by simp; omega
      rw [← hlen, ih hrest _ done (passedBy ++ [none]) rfl (by simpa using hnumber)]
      simp [hs, passed]

/-- The filter frees what it hides; what it shows comes first, and again in the slots that it was copied from. -/
theorem filterCreds_run (shown : Credential → Bool) (h : Heap) (os : List Owned) (hpresent : ∀ o ∈ os, o.cred.present = true)
    (hcreds : h.creds = os.map some) (hnumber : h.numberOfCredentials = 0) :
    h.filterCreds shown =
      { h with
        creds := (os.filter fun o => shown o.cred).map some ++
          (os.map (passed shown)).drop (os.filter fun o => shown o.cred).length
        numberOfCredentials := (os.filter fun o => shown o.cred).length
        released := ((os.filter fun o => !shown o.cred).map Owned.owner).reverse ++ h.released } := by
  have hrun := filterFrom_run shown os hpresent h [] [] (by simpa using hcreds) (by simpa using hnumber)
  simpa [filterCreds, hcreds, List.range_eq_range'] using hrun

/-- Nothing is left twice exactly when no hidden credential stands before a shown one. -/
theorem stale_eq_nil_iff (shown : Credential → Bool) (os : List Owned) :
    stale shown os = [] ↔ os.Pairwise fun a b => shown b.cred = true → shown a.cred = true := by
  induction os with
  | nil => simp [stale]
  | cons o os ih =>
    by_cases hs : shown o.cred
    · simpa [stale, hs] using ih
    · by_cases hnone : os.filter (fun o => shown o.cred) = []
      · have hhidden : ∀ b ∈ os, shown b.cred = false := by simpa using hnone
        have hpairs : os.Pairwise fun a b => shown b.cred = true → shown a.cred = true :=
          List.Pairwise.imp_of_mem (fun _ hb _ h => by simp [hhidden _ hb] at h)
            (List.pairwise_of_forall (R := fun _ _ => True) fun _ _ => trivial)
        simpa [stale, hs, hnone, hpairs] using hhidden
      · refine iff_of_false (fun hstale => ?_) fun hpairs => ?_
        · have hsplit := List.take_append_drop ((os.filter fun o => shown o.cred).length - 1) os
          have hlen := congrArg (fun l => (l.filter fun o => shown o.cred).length) hsplit
          have hpos := List.length_pos_iff.2 hnone
          have hdrop : (os.drop ((os.filter fun o => shown o.cred).length - 1)).filter (fun o => shown o.cred) = [] := by
            obtain ⟨n, hn⟩ : ∃ n, (os.filter fun o => shown o.cred).length = n + 1 := ⟨_, (Nat.sub_add_cancel hpos).symm⟩
            simpa [stale, hs, hn] using hstale
          have htake := List.length_filter_le (fun o => shown o.cred) (os.take ((os.filter fun o => shown o.cred).length - 1))
          simp only [List.filter_append, List.length_append, hdrop, List.length_nil] at hlen
          simp only [List.length_take] at htake
          omega
        · obtain ⟨b, hb⟩ := List.exists_mem_of_ne_nil _ hnone
          obtain ⟨hmem, hb⟩ := List.mem_filter.1 hb
          exact hs (List.rel_of_pairwise_cons hpairs hmem hb)

theorem sortUnless_perm (silent : Bool) (h : Heap) : (h.sortUnless silent).creds.Perm h.creds := by
  cases silent with
  | true => exact .refl _
  | false =>
    refine ((sortSlots_perm _ _).append_right _).trans ?_
    rw [List.take_append_drop]

theorem sortUnless_take (silent : Bool) (h : Heap) (hk : h.numberOfCredentials ≤ h.creds.length) :
    ((h.sortUnless silent).creds.take h.numberOfCredentials).Perm (h.creds.take h.numberOfCredentials) := by
  cases silent with
  | true => exact .refl _
  | false =>
    have hperm := sortSlots_perm h.numberOfCredentials (h.creds.take h.numberOfCredentials)
    have hlen : h.numberOfCredentials = (sortSlots h.numberOfCredentials (h.creds.take h.numberOfCredentials)).length := by
      rw [hperm.length_eq, List.length_take, Nat.min_eq_left hk]
    have htake : (h.sortUnless false).creds.take h.numberOfCredentials =
        sortSlots h.numberOfCredentials (h.creds.take h.numberOfCredentials) := List.take_left' hlen.symm
    rw [htake]
    exact hperm

@[simp] theorem leave_loads (h : Heap) : h.leave.loads = h.loads := rfl
@[simp] theorem keep_loads (h : Heap) : h.keep.loads = h.loads := rfl
@[simp] theorem sortUnless_number (silent : Bool) (h : Heap) : (h.sortUnless silent).numberOfCredentials = h.numberOfCredentials := by
  cases silent <;> rfl
@[simp] theorem sortUnless_asserted (silent : Bool) (h : Heap) : (h.sortUnless silent).asserted = h.asserted := by
  cases silent <;> rfl
@[simp] theorem sortUnless_loads (silent : Bool) (h : Heap) : (h.sortUnless silent).loads = h.loads := by cases silent <;> rfl
@[simp] theorem sortUnless_held (silent : Bool) (h : Heap) : (h.sortUnless silent).held = h.held := by cases silent <;> rfl

/-- Without a copy in `credsx` the exit of the call releases every slot. -/
theorem leave_held {h : Heap} (hasserted : h.asserted = false) : h.leave.held.Perm (owners h.creds ++ h.held) := by
  simp [held, leave, hasserted]

theorem leave_keep_held (h : Heap) : h.keep.leave.held.Perm (owners (h.creds.take h.numberOfCredentials) ++ h.held) := by
  simp only [held, leave, keep, if_true]
  refine List.perm_append_comm.trans ?_
  exact List.Perm.append_left _ List.perm_append_comm

@[simp] theorem held_forget (h : Heap) : h.forget.held.Perm h.held := by
  simp only [held, forget, owners_nil, List.append_nil]
  exact List.perm_append_comm

/-- The heap of a request that has loaded the credentials and done nothing else since it was called. -/
structure Loaded (before h : Heap) (os : List Owned) : Prop where
  creds : h.creds = os.map some
  fresh : os.map Owned.owner = List.range' before.loads os.length
  present : ∀ o ∈ os, o.cred.present = true
  number : h.numberOfCredentials = 0
  asserted : h.asserted = false
  credsx : h.credsx = before.credsx
  released : h.released = before.released
  loads : h.loads = before.loads + os.length

theorem loaded_enter (h : Heap) : Loaded h h.enter [] := ⟨rfl, rfl, by simp, rfl, rfl, rfl, rfl, rfl⟩

/-- The owners that a list of loads makes. -/
theorem Loaded.load {before h : Heap} {os : List Owned} (hl : Loaded before h os) (new : List Credential)
    (hnew : ∀ cred ∈ new, cred.present = true) :
    ∃ os', Loaded before (new.foldl Heap.load h) os' ∧ os'.map Owned.cred = os.map Owned.cred ++ new := by
  induction new generalizing h os with
  | nil => exact ⟨os, hl, by simp⟩
  | cons cred new ih =>
    have hone : Loaded before (h.load cred) (os ++ [⟨h.loads, cred⟩]) := by
      refine ⟨by simp [Heap.load, hl.creds], ?_, ?_, hl.number, hl.asserted, hl.credsx, hl.released, ?_⟩
      · simp [hl.fresh, hl.loads, List.range'_concat]
      · intro o ho
        rcases List.mem_append.1 ho with ho | ho
        · exact hl.present o ho
        · rw [List.mem_singleton.1 ho]
          exact hnew cred (List.mem_cons_self ..)
      · simp [Heap.load, hl.loads]; omega
    obtain ⟨os', hos', hcreds⟩ := ih hone fun c hc => hnew c (List.mem_cons_of_mem _ hc)
    exact ⟨os', hos', by simp [hcreds]⟩

/-- The heap after a request that started from `before`: it made an owner for each load and answers for each once; for
some of them it answers a second time, unless the request was orderly. -/
def Settles (before h : Heap) (orderly : Prop) : Prop :=
  ∃ os extra : List Owned,
    os.map Owned.owner = List.range' before.loads os.length ∧ h.loads = before.loads + os.length ∧
    h.held.Perm (os.map Owned.owner ++ extra.map Owned.owner ++ before.held) ∧ (∀ o ∈ extra, o ∈ os) ∧ (extra = [] ↔ orderly)

theorem Settles.forget {before h : Heap} {orderly : Prop} : Settles before h orderly → Settles before h.forget orderly
  | ⟨os, extra, howner, hloads, hheld, hextra, hiff⟩ =>
    ⟨os, extra, howner, hloads, (held_forget h).trans hheld, hextra, hiff⟩

theorem Settles.congr {before h : Heap} {P Q : Prop} : Settles before h P → (P ↔ Q) → Settles before h Q
  | ⟨os, extra, howner, hloads, hheld, hextra, hiff⟩, hPQ => ⟨os, extra, howner, hloads, hheld, hextra, hiff.trans hPQ⟩

/-- The exit of a request that only loaded. -/
theorem Loaded.settles {before h : Heap} {os : List Owned} (hl : Loaded before h os) {orderly : Prop} (horderly : orderly) :
    Settles before h.leave orderly := by
  refine ⟨os, [], hl.fresh, hl.loads, (leave_held hl.asserted).trans ?_, by simp, iff_of_true rfl horderly⟩
  simp [hl.creds, held, hl.credsx, hl.released]

end Heap

/-! ### The commands with their owners -/

section
variable [Sdk] [ObjectLibrary]

/-- A device and the heap of its two arrays. -/
abbrev Owning := Ghosted Device Heap

/-- A step of the search, with the loads that succeeded in it; a load that fails is freed on the spot. -/
def loading (step : Selection → β → CtapOp Selection) (found : Selection) (b : β) : Handler Owning CtapError Selection := do
  let found' ← onState (step found b)
  onGhost fun h => (found'.creds.drop found.creds.length).foldl Heap.load h
  return found'

def ownedFind (p : GetAssertionParams) : Handler Owning CtapError Selection :=
  if p.allowList = [] then do
    let found ← foldFor slots ⟨[], false, p.silent, false⟩ (loading (discoverStep p.rpIdHash))
    return { found with resident := true }
  else foldFor p.allowList ⟨[], false, p.silent, false⟩ (loading (allowStep p.rpIdHash))

/-- The checks of a request, up to the flag of user verification. -/
def gaChecked (request : Parsed GetAssertionParams) : CtapOp (GetAssertionParams × UInt8) := do
  let p ← ofExcept request.result
  ofExcept (gaRequired p)
  pinUvAuthParamChecks p.pinUvAuthParam p.pinUvAuthProtocol
  ofExcept (gaOptionChecks p)
  let uv ← gaVerifyParam p
  ofExcept (gaHmacSecretChecks p)
  return (p, uv)

def gaCounted (p : GetAssertionParams) (found : Selection) (creds : List Credential) : CtapOp Nat := do
  let count ← countCredentials p found creds
  refuseIf (count = 0) .noCredentials
  return count

/-- The last checks before a credential is chosen. -/
def gaAllowed (p : GetAssertionParams) : CtapOp UInt8 := do
  let up ← gaUserPresence p
  refuseIf (p.extensions.largeBlobKey = some false) .invalidOption
  return up

/-- Whether the credentials of this request are kept for the assertions to come. -/
def keeps (p : GetAssertionParams) (found : Selection) (number : Nat) : Bool :=
  !(found.silent && !found.resident) && !(found.resident && decide (1 < p.allowList.length)) && decide (1 < number)

/-- A request from the filter on. -/
def ownedAssert (p : GetAssertionParams) (uv : UInt8) (found : Selection) : Handler Owning CtapError GetAssertionAnswer := do
  onGhost fun h => h.filterCreds (offered p uv)
  let shown := found.creds.filter (offered p uv)
  let count ← onState (gaCounted p found shown)
  onGhost (Heap.sortUnless found.silent)
  let creds := if found.silent then shown else exchangeSort shown.length shown
  let up ← onState (gaAllowed p)
  onGhost fun h => if keeps p found h.numberOfCredentials then h.keep else h
  onState do
    let choice ← chooseCredential p found creds count (uv ||| up)
    makeAssertion p choice (uv ||| up)

def ownedFirst (request : Parsed GetAssertionParams) : Handler Owning CtapError GetAssertionAnswer := do
  let (p, uv) ← onState (gaChecked request)
  let found ← ownedFind p
  ownedAssert p uv found

def ownedGetAssertion (request : Parsed GetAssertionParams) : Handler Owning CtapError GetAssertionAnswer := do
  onGhost Heap.enter
  let answer ← attempt (ownedFirst request)
  onGhost Heap.leave
  match answer with
  | .ok answer => return answer
  | .error e => do
    onState resetGnaState
    onGhost Heap.forget
    fail e

def ownedGetNextAssertion : Handler Owning CtapError GetAssertionAnswer := do
  let answer ← attempt (onState nextAssertion)
  let s ← get
  match answer with
  | .ok answer => do
    runIf (s.state.gna.credentialCounter = s.state.gna.numberOfCredentialsx) do
      onState resetGnaState
      onGhost Heap.forget
    return answer
  | .error e => do
    onState resetGnaState
    onGhost Heap.forget
    fail e

/-! ### The commands do what they do without owners -/

omit [Sdk] [ObjectLibrary] in
theorem shadows_loading (step : Selection → β → CtapOp Selection) (found : Selection) (b : β) :
    Shadows (loading step found b) (step found b) := by
  intro s
  simp only [loading, onState, onGhost, bind_run, zoom_run]
  rcases step found b s.state with ⟨_ | found', d⟩ <;> rfl

theorem shadows_ownedFind (p : GetAssertionParams) : Shadows (ownedFind p) (findCredentials p) := by
  unfold ownedFind findCredentials
  split
  · exact (shadows_foldFor (shadows_loading _) _ _).bind fun _ => shadows_pure _
  · exact shadows_foldFor (shadows_loading _) _ _

private theorem firstAssertion_parts (request : Parsed GetAssertionParams) :
    firstAssertion request = gaChecked request >>= fun (p, uv) => findCredentials p >>= fun found =>
      gaCounted p found (found.creds.filter (offered p uv)) >>= fun count => gaAllowed p >>= fun up =>
      chooseCredential p found (if found.silent then found.creds.filter (offered p uv)
        else exchangeSort (found.creds.filter (offered p uv)).length (found.creds.filter (offered p uv))) count (uv ||| up) >>=
      fun choice => makeAssertion p choice (uv ||| up) := by
  simp [firstAssertion, gaChecked, gaCounted, gaAllowed, gaPrepare]

theorem shadows_ownedFirst (request : Parsed GetAssertionParams) : Shadows (ownedFirst request) (firstAssertion request) := by
  rw [firstAssertion_parts]
  refine (shadows_onState _).bind fun (p, uv) => (shadows_ownedFind p).bind fun found => .ghost ?_
  refine (shadows_onState _).bind fun count => .ghost ?_
  exact (shadows_onState _).bind fun up => .ghost (shadows_onState _)

/-- The command with owners is the command of the device. -/
theorem shadows_ownedGetAssertion (request : Parsed GetAssertionParams) :
    Shadows (ownedGetAssertion request) (cborGetAssertion request) := by
  refine .ghost ((shadows_ownedFirst request).attempt.bind fun answer => .ghost ?_)
  cases answer with
  | ok answer => exact shadows_pure answer
  | error e => exact (shadows_onState _).bind fun _ => .ghost (shadows_fail e)

omit [ObjectLibrary] in
theorem shadows_ownedGetNextAssertion : Shadows ownedGetNextAssertion cborGetNextAssertion := by
  refine (shadows_onState _).attempt.bind fun answer s => ?_
  cases answer with
  | ok answer =>
    by_cases h : s.state.gna.credentialCounter = s.state.gna.numberOfCredentialsx
    · simp [bind_run, h]; rfl
    · simp [bind_run, h]
  | error e => rfl

/-- A request up to the filter. -/
def gaFound (request : Parsed GetAssertionParams) : CtapOp (GetAssertionParams × UInt8 × Selection) := do
  let (p, uv) ← gaChecked request
  let found ← findCredentials p
  return (p, uv, found)

/-! ### The credentials of a request have one owner each -/

/-- What a search step has loaded comes after what was there, and is all present. -/
def Extends (found found' : Selection) : Prop :=
  ∃ new, found'.creds = found.creds ++ new ∧ ∀ cred ∈ new, cred.present = true

omit [Sdk] [ObjectLibrary] in
private theorem extends_self {found found' : Selection} (h : found'.creds = found.creds) : Extends found found' :=
  ⟨[], by simp [h], by simp⟩

omit [Sdk] [ObjectLibrary] in
private theorem extends_one {found found' : Selection} {cred : Credential} (hpresent : cred.present = true)
    (h : found'.creds = found.creds ++ [cred]) : Extends found found' :=
  ⟨[cred], h, by simpa using hpresent⟩

private theorem discoverStep_extends (rpIdHash : Block 32) (found : Selection) (slot : Slot) :
    Yields (Extends found) (discoverStep rpIdHash found slot) := by
  refine yields_after fun d => ?_
  split
  · exact yields_pure (extends_self rfl)
  · refine (loadResident_present slot rpIdHash).attempt.bind fun loaded h => ?_
    cases loaded with
    | error e => exact yields_pure (extends_self rfl)
    | ok cred => exact yields_pure (extends_one (h cred rfl) rfl)

private theorem loadMatching_extends (rpIdHash : Block 32) (id : Bytes) (found : Selection) (pair : Selection × Bool) (slot : Slot)
    (h : Extends found pair.1 ∧ (pair.2 = false → pair.1 = found)) :
    Yields (fun pair => Extends found pair.1 ∧ (pair.2 = false → pair.1 = found)) (loadMatching rpIdHash id pair slot) := by
  refine yields_after fun d => ?_
  split
  · exact yields_pure h
  · rename_i hgo
    have hfound : pair.1 = found := h.2 (by simpa using fun hleft => hgo (.inl hleft))
    refine (loadResident_present slot rpIdHash).attempt.bind fun loaded hloaded => ?_
    cases loaded with
    | error e => exact yields_pure h
    | ok cred => exact yields_pure ⟨extends_one (hloaded cred rfl) (by rw [hfound]), by simp⟩

private theorem allowStep_extends (rpIdHash : Block 32) (found : Selection) (entry : Option Bytes × Option Bytes) :
    Yields (Extends found) (allowStep rpIdHash found entry) := by
  unfold allowStep
  split
  · exact yields_pure (extends_self rfl)
  · split
    · rename_i type id
      split
      · exact yields_pure (extends_self rfl)
      · split
        · refine (yields_foldFor (loadMatching_extends rpIdHash id found) slots ⟨extends_self rfl, fun _ => rfl⟩).bind ?_
          exact fun pair h => yields_pure h.1
        · refine (credentialLoad_present id rpIdHash).attempt.bind fun loaded h => ?_
          cases loaded with
          | error e => exact yields_pure (extends_self rfl)
          | ok cred =>
            refine yields_after fun d => yields_pure (extends_one (h cred rfl) ?_)
            split <;> rfl
    · exact yields_fail _

omit [Sdk] [ObjectLibrary] in
/-- A search loads what it finds, and on an error exit what it has found by then. -/
private theorem loading_foldFor {step : Selection → β → CtapOp Selection} (hstep : ∀ found b, Yields (Extends found) (step found b))
    (bs : List β) (found : Selection) {before : Heap} {os : List Owned} {s : Owning} (hl : before.Loaded s.ghost os)
    (hos : os.map Owned.cred = found.creds) :
    ∃ os', before.Loaded (foldFor bs found (loading step) s).2.ghost os' ∧
      ∀ found', (foldFor bs found (loading step) s).1 = .ok found' → os'.map Owned.cred = found'.creds := by
  induction bs generalizing found os s with
  | nil =>
    refine ⟨os, hl, fun found' h => ?_⟩
    simp only [foldFor, pure_run, Except.ok.injEq] at h
    rw [hos, h]
  | cons b bs ih =>
    rw [foldFor, bind_run]
    rcases hrun : step found b s.state with ⟨e | found', d⟩
    · have hfail : loading step found b s = (.error e, { s with state := d }) := by simp [loading, onState, bind_run, hrun]
      rw [hfail]
      exact ⟨os, hl, by simp⟩
    · obtain ⟨new, hcreds, hnew⟩ := hstep found b _ _ _ hrun
      have hok : loading step found b s = (.ok found', ⟨d, new.foldl Heap.load s.ghost⟩) := by
        simp [loading, onState, onGhost, bind_run, map_run, hrun, hcreds]
      rw [hok]
      obtain ⟨os', hl', hos'⟩ := hl.load new hnew
      exact ih found' hl' (by rw [hos', hos, hcreds])

private theorem ownedFind_loaded (p : GetAssertionParams) {before : Heap} {s : Owning} (hl : before.Loaded s.ghost []) :
    ∃ os, before.Loaded (ownedFind p s).2.ghost os ∧
      ∀ found, (ownedFind p s).1 = .ok found → os.map Owned.cred = found.creds := by
  unfold ownedFind
  split
  · obtain ⟨os, hos, hcreds⟩ := loading_foldFor (discoverStep_extends p.rpIdHash) slots ⟨[], false, p.silent, false⟩ hl rfl
    rw [bind_run]
    rcases hrun : foldFor slots ⟨[], false, p.silent, false⟩ (loading (discoverStep p.rpIdHash)) s with ⟨e | found, s'⟩
    · rw [hrun] at hos ⊢
      exact ⟨os, hos, by simp⟩
    · rw [hrun] at hos hcreds ⊢
      refine ⟨os, hos, fun found' h => ?_⟩
      simp only [pure_run, Except.ok.injEq] at h
      rw [← h]
      exact hcreds found rfl
  · exact loading_foldFor (allowStep_extends p.rpIdHash) p.allowList _ hl rfl

/-! ### Where the filter leaves a second copy -/

/-- No credential that the filter hides stands before one that it shows. -/
def InOrder (shown : Credential → Bool) (creds : List Credential) : Prop :=
  creds.Pairwise fun a b => shown b = true → shown a = true

/-- The request hands the credentials it shows on to `credsx`. -/
def HandsOn (p : GetAssertionParams) (found : Selection) (number : Nat) (d : Device) : Prop :=
  keeps p found number = true ∧ ∃ up d', gaAllowed p d = (.ok up, d')

private theorem ownedAssert_run (p : GetAssertionParams) (uv : UInt8) (found : Selection) (s : Owning) :
    (ownedAssert p uv found s).2.ghost =
      match gaCounted p found (found.creds.filter (offered p uv)) s.state with
      | (.error _, _) => s.ghost.filterCreds (offered p uv)
      | (.ok _, d) => match gaAllowed p d with
        | (.error _, _) => (s.ghost.filterCreds (offered p uv)).sortUnless found.silent
        | (.ok _, _) =>
          let h := (s.ghost.filterCreds (offered p uv)).sortUnless found.silent
          if keeps p found h.numberOfCredentials then h.keep else h := by
  simp only [ownedAssert, onState, onGhost, bind_run, modify_run, zoom_run]
  rcases gaCounted p found (found.creds.filter (offered p uv)) s.state with ⟨_ | count, d⟩
  · rfl
  · dsimp only
    rcases gaAllowed p d with ⟨_ | up, d'⟩ <;> rfl

/-- With a credential to show, the count is right and nothing has changed. -/
private theorem gaCounted_shown (p : GetAssertionParams) (found : Selection) {creds : List Credential} (hcreds : creds ≠ [])
    (d : Device) : gaCounted p found creds d = (.ok creds.length, d) := by
  have hpos : ¬ creds.length = 0 := by simpa using hcreds
  simp [gaCounted, countCredentials, hcreds, bind_run]

private theorem ownedAssert_exit (p : GetAssertionParams) (uv : UInt8) (found : Selection) (s : Owning) :
    (∃ silent, (ownedAssert p uv found s).2.ghost = (s.ghost.filterCreds (offered p uv)).sortUnless silent) ∨
      ∃ silent, (ownedAssert p uv found s).2.ghost = ((s.ghost.filterCreds (offered p uv)).sortUnless silent).keep := by
  rw [ownedAssert_run]
  rcases gaCounted p found (found.creds.filter (offered p uv)) s.state with ⟨_ | count, d⟩
  · exact .inl ⟨true, rfl⟩
  · dsimp only
    rcases gaAllowed p d with ⟨_ | up, d'⟩
    · exact .inl ⟨found.silent, rfl⟩
    · dsimp only
      split
      · exact .inr ⟨found.silent, rfl⟩
      · exact .inl ⟨found.silent, rfl⟩

/-- With a credential to show, the slots are copied exactly when they are handed on. -/
private theorem ownedAssert_shows (p : GetAssertionParams) (uv : UInt8) (found : Selection) (s : Owning)
    (hshown : found.creds.filter (offered p uv) ≠ [])
    (hnumber : (s.ghost.filterCreds (offered p uv)).numberOfCredentials = (found.creds.filter (offered p uv)).length) :
    let h := s.ghost.filterCreds (offered p uv)
    let handsOn := HandsOn p found (found.creds.filter (offered p uv)).length s.state
    (handsOn → (ownedAssert p uv found s).2.ghost = (h.sortUnless found.silent).keep) ∧
      (¬ handsOn → ∃ silent, (ownedAssert p uv found s).2.ghost = h.sortUnless silent) := by
  rw [ownedAssert_run, gaCounted_shown p found hshown]
  rcases hallowed : gaAllowed p s.state with ⟨_ | up, d⟩
  · refine ⟨fun hhands => ?_, fun _ => ⟨found.silent, by simp only [hallowed]⟩⟩
    obtain ⟨-, up, d', hok⟩ := hhands
    rw [hallowed] at hok
    cases hok
  · simp only [Heap.sortUnless_number, hnumber, HandsOn, hallowed]
    by_cases hkeeps : keeps p found (found.creds.filter (offered p uv)).length = true
    · simp [hkeeps]
    · exact ⟨fun hhands => absurd hhands.1 hkeeps, fun _ => ⟨found.silent, if_neg hkeeps⟩⟩

/-- What a request comes to hold, by the order in which it found the credentials. -/
private theorem ownedAssert_settles (p : GetAssertionParams) (uv : UInt8) {found : Selection} {s : Owning} {before : Heap}
    {os : List Owned} (hl : before.Loaded s.ghost os) (hos : os.map Owned.cred = found.creds) :
    before.Settles (ownedAssert p uv found s).2.ghost.leave (InOrder (offered p uv) found.creds ∨
      HandsOn p found (found.creds.filter (offered p uv)).length s.state) := by
  have hfilter := Heap.filterCreds_run (offered p uv) s.ghost os hl.present hl.creds hl.number
  generalize hh : s.ghost.filterCreds (offered p uv) = h at hfilter
  have horder : Heap.stale (offered p uv) os = [] ↔ InOrder (offered p uv) found.creds := by
    rw [Heap.stale_eq_nil_iff, InOrder, ← hos, List.pairwise_map]
  have hlen : (found.creds.filter (offered p uv)).length = (os.filter fun o => offered p uv o.cred).length := by
    simp [← hos, List.filter_map, Function.comp_def]
  have hheld : h.held.Perm ((os.filter fun o => !offered p uv o.cred).map Owned.owner ++ before.held) := by
    simp only [Heap.held, hfilter, hl.credsx, hl.released, List.append_assoc]
    exact (List.reverse_perm _).append_right _
  have hsplit : ((os.filter fun o => offered p uv o.cred).map Owned.owner ++
      (os.filter fun o => !offered p uv o.cred).map Owned.owner).Perm (os.map Owned.owner) := by
    rw [← List.map_append]
    exact (List.filter_append_perm _ _).map _
  have howners : owners h.creds = (os.filter fun o => offered p uv o.cred).map Owned.owner ++
      (Heap.stale (offered p uv) os).map Owned.owner := by
    simp [hfilter, Heap.stale, ← List.map_drop, Heap.owners_passed]
  have hasserted : h.asserted = false := by rw [hfilter, hl.asserted]
  have hloads : h.loads = before.loads + os.length := by rw [hfilter, hl.loads]
  have hnumber : h.numberOfCredentials = (found.creds.filter (offered p uv)).length := by rw [hlen, hfilter]
  have hk : h.numberOfCredentials ≤ h.creds.length := by simp [hfilter]
  have htake : h.creds.take h.numberOfCredentials = (os.filter fun o => offered p uv o.cred).map some := by
    rw [hfilter]
    exact List.take_left' (by simp)
  -- the two ways out: every slot is freed, or the shown credentials went to `credsx`
  have hfreed : ∀ silent, (h.sortUnless silent).leave.held.Perm
      (os.map Owned.owner ++ (Heap.stale (offered p uv) os).map Owned.owner ++ before.held) := by
    intro silent
    refine (Heap.leave_held (Heap.sortUnless_asserted silent h ▸ hasserted)).trans ?_
    refine ((owners_perm (Heap.sortUnless_perm silent h)).append ((Heap.sortUnless_held silent h) ▸ hheld)).trans ?_
    rw [howners, List.append_assoc, ← List.append_assoc (List.map _ (Heap.stale _ _))]
    refine (List.Perm.append_left _ (List.perm_append_comm.append_right _)).trans ?_
    simp only [← List.append_assoc]
    exact (hsplit.append_right _).append_right _
  have hkept : ∀ silent, (h.sortUnless silent).keep.leave.held.Perm (os.map Owned.owner ++ [] ++ before.held) := by
    intro silent
    refine (Heap.leave_keep_held _).trans ?_
    rw [Heap.sortUnless_number, Heap.sortUnless_held]
    refine ((owners_perm (Heap.sortUnless_take silent h hk)).append hheld).trans ?_
    rw [htake, owners_some, ← List.append_assoc, List.append_nil]
    exact hsplit.append_right _
  have hexit := ownedAssert_exit p uv found s
  rw [hh] at hexit
  by_cases hshown : found.creds.filter (offered p uv) = []
  · have hhidden : ∀ cred ∈ found.creds, offered p uv cred = false := by simpa using hshown
    have hin : InOrder (offered p uv) found.creds :=
      List.pairwise_of_forall_mem_list fun a _ b hb h => absurd h (by simp [hhidden b hb])
    have hnil := horder.2 hin
    rcases hexit with ⟨silent, hexit⟩ | ⟨silent, hexit⟩ <;> rw [hexit]
    · exact ⟨os, [], hl.fresh, by simp [hloads], by simpa [hnil] using hfreed silent, by simp, iff_of_true rfl (.inl hin)⟩
    · exact ⟨os, [], hl.fresh, by simp [hloads], hkept silent, by simp, iff_of_true rfl (.inl hin)⟩
  · have hshows := ownedAssert_shows p uv found s hshown (by rw [hh, hnumber])
    rw [hh] at hshows
    by_cases hhands : HandsOn p found (found.creds.filter (offered p uv)).length s.state
    · rw [hshows.1 hhands]
      exact ⟨os, [], hl.fresh, by simp [hloads], hkept found.silent, by simp, iff_of_true rfl (.inr hhands)⟩
    · obtain ⟨silent, hexit⟩ := hshows.2 hhands
      rw [hexit]
      refine ⟨os, Heap.stale (offered p uv) os, hl.fresh, by simp [hloads], hfreed silent, fun o ho => ?_, ?_⟩
      · exact List.mem_of_mem_drop (List.mem_filter.1 ho).1
      · exact horder.trans (or_iff_left hhands).symm

/-- What a request that gets as far as the filter needs in order to release each credential once. -/
def Orderly (request : Parsed GetAssertionParams) (d : Device) : Prop :=
  ∀ p uv found d', gaFound request d = (.ok (p, uv, found), d') →
    InOrder (offered p uv) found.creds ∨ HandsOn p found (found.creds.filter (offered p uv)).length d'

private theorem orderly_of_error {request : Parsed GetAssertionParams} {d d' : Device} {e : CtapError}
    (h : gaFound request d = (.error e, d')) : Orderly request d := by
  intro p uv found d'' hrun
  rw [h] at hrun
  cases hrun

private theorem orderly_of_ok {request : Parsed GetAssertionParams} {d d' : Device} {p : GetAssertionParams} {uv : UInt8}
    {found : Selection} (h : gaFound request d = (.ok (p, uv, found), d')) :
    InOrder (offered p uv) found.creds ∨ HandsOn p found (found.creds.filter (offered p uv)).length d' ↔ Orderly request d := by
  refine ⟨fun hin p' uv' found' d'' hrun => ?_, fun horderly => horderly p uv found d' h⟩
  rw [h] at hrun
  cases hrun
  exact hin

private theorem ownedFirst_settles (request : Parsed GetAssertionParams) {before : Heap} {s : Owning}
    (hl : before.Loaded s.ghost []) : before.Settles (ownedFirst request s).2.ghost.leave (Orderly request s.state) := by
  simp only [ownedFirst, onState, bind_run, zoom_run]
  rcases hchecked : gaChecked request s.state with ⟨e | ⟨p, uv⟩, d⟩
  · have hfound : gaFound request s.state = (.error e, d) := by rw [gaFound, bind_run, hchecked]
    exact hl.settles (orderly_of_error hfound)
  · obtain ⟨os, hos, hcreds⟩ := ownedFind_loaded p (s := { s with state := d }) hl
    have hfind := shadows_ownedFind p { s with state := d }
    have hgo : gaFound request s.state = (findCredentials p >>= fun found => pure (p, uv, found)) d := by
      rw [gaFound, bind_eq hchecked]
    dsimp only at hfind ⊢
    rcases hrun : ownedFind p { s with state := d } with ⟨e | found, s'⟩ <;> rw [hrun] at hos hcreds hfind
    · have hfound : gaFound request s.state = (.error e, s'.state) := by rw [hgo, bind_run, hfind]
      exact hos.settles (orderly_of_error hfound)
    · have hfound : gaFound request s.state = (.ok (p, uv, found), s'.state) := by
        rw [hgo, bind_eq hfind, pure_run]
      exact (ownedAssert_settles p uv hos (hcreds found rfl)).congr (orderly_of_ok hfound)

private theorem ownedGetAssertion_settles (request : Parsed GetAssertionParams) (s : Owning) :
    s.ghost.Settles (ownedGetAssertion request s).2.ghost (Orderly request s.state) := by
  have hfirst := ownedFirst_settles request (s := { s with ghost := s.ghost.enter }) s.ghost.loaded_enter
  simp only [ownedGetAssertion, onGhost, onState, bind_run, attempt_run, modify_run]
  rcases hrun : ownedFirst request { s with ghost := s.ghost.enter } with ⟨e | answer, s'⟩ <;> rw [hrun] at hfirst
  · exact hfirst.forget
  · exact hfirst

/-! ### Released once -/

/-- What may follow a request. -/
inductive FollowUp where
  | getNextAssertion
  | elapse (ms : UInt32)
  | resetGnaState

def FollowUp.after (s : Owning) : FollowUp → Owning
  | .getNextAssertion => (ownedGetNextAssertion s).2
  | .elapse ms => { s with state := { s.state with boardMillis := s.state.boardMillis + ms } }
  | .resetGnaState => ⟨((Ctap.resetGnaState : CtapOp Unit) s.state).2, s.ghost.forget⟩

/-- Whatever follows the request, a credential that it loaded is released once or waits in `credsx`, and after a reset it
is released once. -/
def ReleasesOnce (request : Parsed GetAssertionParams) (s : Owning) : Prop :=
  ∀ (followUps : List FollowUp) (t : Nat), s.ghost.loads ≤ t → t < (ownedGetAssertion request s).2.ghost.loads →
    let h := (followUps.foldl FollowUp.after (ownedGetAssertion request s).2).ghost
    h.released.count t + (owners h.credsx).count t = 1 ∧ h.forget.released.count t = 1

/-- No credential yet to be loaded has an owner. -/
def Heap.Fresh (h : Heap) : Prop := ∀ t ∈ h.held, t < h.loads

omit [ObjectLibrary] in
private theorem followUp_held (followUp : FollowUp) (s : Owning) : (FollowUp.after s followUp).ghost.held.Perm s.ghost.held := by
  cases followUp with
  | elapse ms => exact .refl _
  | resetGnaState => exact Heap.held_forget _
  | getNextAssertion =>
    simp only [FollowUp.after, ownedGetNextAssertion, onState, onGhost, bind_run, attempt_run, get_run, zoom_run]
    rcases nextAssertion s.state with ⟨e | answer, d⟩
    · exact Heap.held_forget _
    · by_cases h : d.gna.credentialCounter = d.gna.numberOfCredentialsx
      · simp only [runIf_true h]
        exact Heap.held_forget _
      · simp only [runIf_false h]
        exact .refl _

omit [ObjectLibrary] in
private theorem followUps_held (followUps : List FollowUp) (s : Owning) :
    (followUps.foldl FollowUp.after s).ghost.held.Perm s.ghost.held := by
  induction followUps generalizing s with
  | nil => exact .refl _
  | cons followUp followUps ih => exact (ih _).trans (followUp_held followUp s)

/-- A request releases each credential once exactly when it finds no hidden credential before a shown one, or else hands
the shown ones on. -/
theorem released_once_iff (request : Parsed GetAssertionParams) (s : Owning) (hs : s.ghost.Fresh) :
    ReleasesOnce request s ↔ Orderly request s.state := by
  obtain ⟨os, extra, howner, hloads, hheld, hextra, hiff⟩ := ownedGetAssertion_settles request s
  rw [← hiff]
  have hcount : ∀ (followUps : List FollowUp) (t : Nat),
      (followUps.foldl FollowUp.after (ownedGetAssertion request s).2).ghost.held.count t =
        (os.map Owned.owner).count t + (extra.map Owned.owner).count t + s.ghost.held.count t := by
    intro followUps t
    rw [((followUps_held followUps _).trans hheld).count_eq, List.count_append, List.count_append]
  have hnew : ∀ t, s.ghost.loads ≤ t → t < s.ghost.loads + os.length →
      (os.map Owned.owner).count t = 1 ∧ s.ghost.held.count t = 0 := by
    intro t hlo hhi
    refine ⟨?_, List.count_eq_zero.2 fun hmem => Nat.not_lt.2 hlo (hs t hmem)⟩
    rw [howner]
    exact List.count_eq_one_of_mem (List.nodup_range' ..) (by simp [List.mem_range'_1]; omega)
  constructor
  · intro honce
    refine List.eq_nil_iff_forall_not_mem.2 fun o ho => ?_
    have hmem : o.owner ∈ List.range' s.ghost.loads os.length := howner ▸ List.mem_map_of_mem (hextra o ho)
    rw [List.mem_range'_1] at hmem
    have h := (honce [] o.owner hmem.1 (by omega)).1
    have htwice := hcount [] o.owner
    have hpos : 0 < (extra.map Owned.owner).count o.owner := List.count_pos_iff.2 (List.mem_map_of_mem ho)
    obtain ⟨hone, hzero⟩ := hnew _ hmem.1 hmem.2
    rw [Heap.held, List.count_append] at htwice
    simp only [List.foldl_nil] at h htwice
    omega
  · intro hnil followUps t hlo hhi
    obtain ⟨hone, hzero⟩ := hnew t hlo (by omega)
    have h := hcount followUps t
    rw [hnil, List.map_nil, List.count_nil, hone, hzero, Heap.held, List.count_append] at h
    refine ⟨h, ?_⟩
    rw [Heap.forget, List.count_append]
    omega

end

section Plain

/-- The map of a credential whose credProtect is `userVerificationRequired`. -/
private def protectedMap : Bytes :=
  Cbor.openMap (Cbor.uint 0x07 ++ Cbor.openMap (Cbor.text "credProtect" ++ Cbor.uint credProtUvRequired))

private def emptyMap : Bytes := Cbor.openMap []

/-- A decoder that knows these two maps. -/
@[reducible] private def readingSdk : Sdk :=
  { plainSdk with
    cborDecode := fun payload =>
      if payload = protectedMap then
        .ok (.map [(.uint 0x07, .map [(.text (Cbor.ascii "credProtect"), .uint credProtUvRequired)])])
      else if payload = emptyMap then .ok (.map [])
      else .error 1 }

attribute [local instance] readingSdk plainLibrary

private def twoIds : Device := plainDevice [(efKeyDev, plainKeydev)]

private def sealedMap (payload : Bytes) : Bytes :=
  match (chachaKeyOrZero credProto twoIds : Except CtapError Bytes × Device).1 with
  | .ok key => sealCredentialId (.zero 32) key (.zero 12) (Sdk.sha256 [0x61]) payload
  | .error _ => []

/-- A list of two ids, the first of a credential that needs user verification. -/
private def listed : GetAssertionParams :=
  { plainGetAssertion [] with
    allowList := [(some publicKeyType, some (sealedMap protectedMap)), (some publicKeyType, some (sealedMap emptyMap))] }

/-- The hidden credential is freed, the shown one moves down to its slot, and the exit frees both of its copies. -/
theorem shown_credential_released_twice :
    let s : Owning := ⟨twoIds, Heap.empty⟩
    (ownedGetAssertion (.params listed) s).1.toBool = true ∧ (ownedGetAssertion (.params listed) s).2.ghost.released = [1, 1, 0] ∧
      ¬ ReleasesOnce (.params listed) s := by
  have hrun : (ownedGetAssertion (.params listed) ⟨twoIds, Heap.empty⟩).1.toBool = true ∧
      (ownedGetAssertion (.params listed) ⟨twoIds, Heap.empty⟩).2.ghost.released = [1, 1, 0] ∧
      1 < (ownedGetAssertion (.params listed) ⟨twoIds, Heap.empty⟩).2.ghost.loads := by decide +kernel
  refine ⟨hrun.1, hrun.2.1, fun honce => ?_⟩
  have htwice := (honce [] 1 (Nat.zero_le 1) hrun.2.2).1
  rw [List.foldl_nil, hrun.2.1, List.count_cons_self, List.count_cons_self] at htwice
  omega

/-- The same ids the other way round. -/
private def listedBack : GetAssertionParams := { listed with allowList := listed.allowList.reverse }

private def orderShown (request : Parsed GetAssertionParams) (d : Device) : List Bool :=
  match (gaFound request d).1 with
  | .ok (p, uv, found) => found.creds.map (offered p uv)
  | .error _ => []

private theorem orderShown_ok {request : Parsed GetAssertionParams} {d d' : Device} {p : GetAssertionParams} {uv : UInt8}
    {found : Selection} (h : gaFound request d = (.ok (p, uv, found), d')) :
    orderShown request d = found.creds.map (offered p uv) := by
  rw [orderShown, h]

theorem shown_first_released_once : ReleasesOnce (.params listedBack) ⟨twoIds, Heap.empty⟩ := by
  refine (released_once_iff (.params listedBack) ⟨twoIds, Heap.empty⟩ fun t ht => nomatch ht).2 fun p uv found d hrun => .inl ?_
  have hshown : orderShown (.params listedBack) twoIds = [true, false] := by decide +kernel
  have hpairs : (found.creds.map (offered p uv)).Pairwise fun a b => b = true → a = true := by
    rw [← orderShown_ok hrun, hshown]
    decide
  exact List.pairwise_map.1 hpairs

end Plain
end FidoTouch.Ctap
