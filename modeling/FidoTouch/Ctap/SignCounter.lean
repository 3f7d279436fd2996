import FidoTouch.Ctap.Commands
import FidoTouch.Ctap.PlainDevice
import FidoTouch.Ctap.U2f
import FidoTouch.Ctap.Verification
import FidoTouch.Storage.Course

/-! The signature counter: every answer with one takes the next number, whatever the credential, the RP and the protocol,
and nothing else but a reset touches the file. -/
namespace FidoTouch.Ctap
open FidoTouch.Program Handler FidoTouch.Storage FidoTouch.Resident

-- The search for `Keeps` follows whole commands.
set_option synthInstance.maxSize 4096

variable {ε α β : Type}

/-! ### The file -/

/-- The counter file has the data, durably too, and no write to come fails. -/
structure CounterHolds (data : Bytes) (s : Store Nat UInt8) : Prop where
  steady : Steady s
  nonempty : data ≠ []
  view : s.view efCounter = some data
  durable : s.durable efCounter = some data

/-- Where no write fails, the counter file is as it was. -/
def KeepsCounter (d d' : Device) : Prop := ∀ data, CounterHolds data d.store → CounterHolds data d'.store

/-- Just the counter file. -/
def IsCounter (fid : Nat) : Prop := fid = efCounter

instance : DecidablePred IsCounter := fun fid => inferInstanceAs (Decidable (fid = efCounter))

instance : Ordinary IsCounter where
  cred slot := by simp only [IsCounter, efCred, efCounter]; omega
  manifest slot m := by cases m <;> simp only [IsCounter, residentManifestFid, efCounter] <;> omega
  record slot m t := by cases m <;> simp only [IsCounter, residentRecordFid, efCounter] <;> omega
  rp slot := by simp only [IsCounter, rpFid, efRp, efCounter]; omega
  single := by decide

instance : Fact (¬ IsCounter efPin) := ⟨by decide⟩
instance : Fact (¬ IsCounter efLargeblob) := ⟨by decide⟩
instance : Fact (¬ IsCounter efKeyDev) := ⟨by decide⟩
instance : Fact (¬ IsCounter efKeyDevEnc) := ⟨by decide⟩
instance : Fact (¬ IsCounter efMinpinlen) := ⟨by decide⟩

instance : Spares KeepsCounter IsCounter where
  refl _ _ h := h
  trans h h' data hd := h' data (h data hd)
  sync d data h := ⟨h.steady, h.nonempty, h.view, h.view⟩
  fates d data h := ⟨fun done hdone => h.steady done (List.mem_of_mem_tail hdone), h.nonempty, h.view, h.durable⟩
  set d fid v hfid data h := by
    refine ⟨h.steady, h.nonempty, ?_, h.durable⟩
    rw [Store.set_view, Function.update_of_ne (fun hsame : efCounter = fid => hfid hsame.symm), h.view]
  entropy _ _ _ h := h

instance : AdmitsGlobals KeepsCounter where
  rel {d d'} h data hd := by
    have hsame : d'.store = d.store := (congrArg Device.store h :)
    rwa [hsame]

instance (k : Change) : AdmitsToken KeepsCounter k := ⟨fun _ _ _ _ h => h⟩
instance : AdmitsUpload KeepsCounter := ⟨fun _ _ _ h => h⟩
instance : AdmitsAssertions KeepsCounter := ⟨fun _ _ _ h => h⟩
instance : AdmitsPinGuard KeepsCounter := ⟨fun _ _ _ _ h => h⟩
instance : AdmitsKeydev KeepsCounter := ⟨fun _ _ _ _ h => h⟩

section
variable [Sdk]

/-- `get_sign_counter` on the data of the file -/
def counterOf (data : Bytes) : UInt32 := UInt32.ofNat (leNat (readPast 4 data))

omit [Sdk] in
theorem leNat_le32 (n : UInt32) : leNat (le32 n) = n.toNat := by
  simp only [leNat, le32, beNat, List.reverse_cons, List.reverse_nil, List.nil_append, List.cons_append, List.foldl_cons, List.foldl_nil,
    UInt32.toNat_toUInt8, UInt32.toNat_shiftRight, Nat.shiftRight_eq_div_pow]
  have := n.toNat_lt
  simp
  omega

/-- The counter is read as it was written. -/
@[simp] theorem counterOf_le32 (n : UInt32) : counterOf (le32 n) = n := by
  have hread : readPast 4 (le32 n) = le32 n := by simp [readPast, le32]
  rw [counterOf, hread, leNat_le32, UInt32.ofNat_toNat]

theorem signCounter_eq {data : Bytes} {d : Device} (h : CounterHolds data d.store) : signCounter d.files = counterOf data := by
  rw [signCounter, Device.files_eq, h.view]
  rfl

/-! ### Commands that count -/

/-- The number an answer gives out, if it gives out one. -/
def given (number : α → Option UInt32) : Except ε α → Option UInt32
  | .ok a => number a
  | .error _ => none

/-- An answer that gives out a number gives out the counter and leaves the next one; any other leaves the file. -/
structure Counts (number : α → Option UInt32) (data : Bytes) (x : Handler Device ε α) : Prop where
  ends : ∀ d, CounterHolds data d.store → given number (x d).1 = none ∧ CounterHolds data (x d).2.store ∨
    given number (x d).1 = some (counterOf data) ∧ CounterHolds (le32 (counterOf data + 1)) (x d).2.store

namespace Counts
variable {number : α → Option UInt32} {data : Bytes}

/-- What comes first keeps the counter. -/
theorem after {x : Handler Device ε β} {f : β → Handler Device ε α} [hx : Keeps KeepsCounter x]
    (hf : ∀ b, Counts number data (f b)) : Counts number data (x >>= f) := by
  refine ⟨fun d hd => ?_⟩
  have hkept := hx.rel d data hd
  rw [bind_run]
  rcases hrun : x d with ⟨e | b, s⟩ <;> rw [hrun] at hkept
  · exact .inl ⟨rfl, hkept⟩
  · exact (hf b).ends s hkept

/-- The counter that is read is that of the file. -/
theorem read {f : Files → Handler Device ε α} (hf : ∀ files, signCounter files = counterOf data → Counts number data (f files)) :
    Counts number data (getFiles >>= f) := by
  refine ⟨fun d hd => ?_⟩
  rw [bind_eq (getFiles_run d)]
  exact (hf d.files (signCounter_eq hd)).ends d hd

/-- The counter is written last. -/
theorem write {a : α} (ha : number a = some (counterOf data)) :
    Counts number data (setSignCounter (counterOf data + 1) >>= fun _ => (pure a : Handler Device ε α)) := by
  refine ⟨fun d hd => .inr ?_⟩
  obtain ⟨hsteady, -, -, -⟩ := hd
  have hput : (setSignCounter (counterOf data + 1) : Handler Device ε Unit) d =
      (.ok (), { d with store :=
        (({ d.store with fates := d.store.fates.tail }).set efCounter (some (le32 (counterOf data + 1)))).sync }) := by
    unfold setSignCounter
    obtain ⟨store, hrun, rfl | ⟨-, hfate⟩⟩ := putFile_cases (ε := ε) efCounter (le32 (counterOf data + 1)) d
    · rw [bind_eq hrun]
      rfl
    · exact absurd (hsteady false (List.mem_of_mem_head? hfate)) (by simp)
  rw [bind_eq hput]
  exact ⟨ha, fun done hdone => hsteady done (List.mem_of_mem_tail hdone), by simp [le32], by simp, by simp⟩

/-- What comes after a success keeps the file and the number. -/
theorem bind {number' : β → Option UInt32} {x : Handler Device ε β} {f : β → Handler Device ε α} (hx : Counts number' data x)
    (hf : ∀ b d, ∃ a s, f b d = (.ok a, s) ∧ s.store = d.store ∧ number a = number' b) : Counts number data (x >>= f) := by
  refine ⟨fun d hd => ?_⟩
  have hstep := hx.ends d hd
  rcases hrun : x d with ⟨e | b, s⟩ <;> rw [hrun] at hstep
  · rw [bind_run, hrun]
    exact hstep
  · obtain ⟨a, s', hnext, hstore, ha⟩ := hf b s
    rw [bind_eq hrun, hnext, hstore]
    dsimp only [given] at hstep ⊢
    rwa [ha]

theorem map {number' : β → Option UInt32} {x : Handler Device ε β} {f : β → α} (hx : Counts number' data x)
    (hf : ∀ b, number (f b) = number' b) : Counts number data (f <$> x) :=
  hx.bind fun b d => ⟨f b, d, rfl, rfl, hf b⟩

/-- An answer without a number, after what keeps the counter. -/
theorem without {x : Handler Device ε β} {f : β → α} [Keeps KeepsCounter x] (hf : ∀ b, number (f b) = none) :
    Counts number data (f <$> x) :=
  after (f := fun b => pure (f b)) fun b => ⟨fun _ hd => .inl ⟨hf b, hd⟩⟩

end Counts

/-! ### The commands -/

/-- The counter in an answer. -/
def Response.counter : Response → Option UInt32
  | .makeCredential a => some a.authData.counter
  | .getAssertion a => some a.authData.counter
  | _ => none

private theorem cmdAuthenticate_counts (apdu : U2fApdu) (data : Bytes) :
    Counts (fun a => some a.counter) data (cmdAuthenticate apdu) := by
  unfold cmdAuthenticate
  refine .after fun _ => .after fun _ => .after fun _ => .after fun key => .after fun _ => .read fun files hfiles => .after fun sig =>
    .after fun sig => ?_
  rw [hfiles]
  exact .write rfl

private theorem makeAssertion_counts (p : GetAssertionParams) (c : Choice) (flags : UInt8) (data : Bytes) :
    Counts (fun a => some a.authData.counter) data (makeAssertion p c flags) := by
  unfold makeAssertion
  refine .after fun _ => .after fun _ => .read fun files hfiles => .after fun sig => .after fun _ => ?_
  rw [hfiles]
  exact .write rfl

variable [ObjectLibrary]

private theorem cborMakeCredential_counts (request : Parsed MakeCredentialParams) (data : Bytes) :
    Counts (fun a => some a.authData.counter) data (cborMakeCredential request) := by
  unfold cborMakeCredential
  refine .after fun p => .after fun prepared => .after fun up => ?_
  unfold attest
  refine .after fun created => .after fun verified => .after fun ext => .after fun key => .read fun files hfiles => .after fun sig =>
    .after fun largeBlobKey => .after fun files => .after fun _ => .after fun _ => ?_
  rw [hfiles]
  exact .write rfl

private theorem cborGetAssertion_counts (request : Parsed GetAssertionParams) (data : Bytes) :
    Counts (fun a => some a.authData.counter) data (cborGetAssertion request) := by
  refine ⟨fun d hd => ?_⟩
  have hfirst : Counts (fun a => some a.authData.counter) data (firstAssertion request) := by
    unfold firstAssertion
    exact .after fun p => .after fun prepared => .after fun up => .after fun _ => .after fun choice => makeAssertion_counts p choice _ data
  have hstep := hfirst.ends d hd
  rw [cborGetAssertion_run]
  rcases hrun : firstAssertion request d with ⟨e | a, s⟩ <;> rw [hrun] at hstep <;> exact hstep

omit [ObjectLibrary] in
private theorem cborGetNextAssertion_counts (data : Bytes) :
    Counts (fun a => some a.authData.counter) data cborGetNextAssertion := by
  refine ⟨fun d hd => ?_⟩
  have hnext : Counts (fun a => some a.authData.counter) data nextAssertion := by
    unfold nextAssertion
    exact .after fun s => .after fun _ => .after fun _ => .after fun p => .after fun _ =>
      (makeAssertion_counts p _ _ data).bind fun a s => ⟨a, _, rfl, rfl, rfl⟩
  have hstep := hnext.ends d hd
  rw [cborGetNextAssertion_run]
  rcases hrun : nextAssertion d with ⟨e | a, s⟩ <;> rw [hrun] at hstep
  · exact hstep
  · dsimp only
    split <;> exact hstep

private theorem cborCommand_counts {r : Request} (hr : r ≠ .reset) (data : Bytes) : Counts Response.counter data (cborCommand r) := by
  unfold cborCommand
  split
  case h_1 request => exact (cborMakeCredential_counts request data).map fun _ => rfl
  case h_2 request => exact (cborGetAssertion_counts request data).map fun _ => rfl
  case h_3 => exact (cborGetNextAssertion_counts data).map fun _ => rfl
  case h_6 request => exact Counts.without (f := fun _ => Response.done) fun _ => rfl
  case h_8 => exact ⟨fun _ hd => .inl ⟨rfl, hd⟩⟩
  case h_9 => exact absurd rfl hr
  case h_10 => exact Counts.without (f := fun _ => Response.done) fun _ => rfl
  case h_11 => exact ⟨fun _ hd => .inl ⟨rfl, hd⟩⟩
  all_goals exact .without fun _ => rfl

/-! ### Starting up -/

private instance : Keeps KeepsCounter (putIfEmpty efCounter [0, 0, 0, 0] : Handler Device ε Unit) where
  rel d data hd := by
    have hdata : fileData d.files efCounter ≠ none := by
      obtain ⟨b, bs, rfl⟩ := List.exists_cons_of_ne_nil hd.nonempty
      simp [fileData, Device.files_eq, hd.view]
    unfold putIfEmpty
    rw [bind_eq (getFiles_run d), runIf_false hdata]
    exact hd

private instance : Keeps KeepsCounter (initFido : Handler Device ε Unit) := by
  have : Keeps KeepsCounter scanFilesFido := by
    unfold scanFilesFido
    exact .bind inferInstance fun _ => .bind inferInstance fun _ => .bind inferInstance fun _ => .bind inferInstance fun _ =>
      .bind (keeps_of_token .load fun _ => ⟨⟨_, rfl⟩, rfl⟩) fun _ => inferInstance
  unfold initFido
  infer_instance

omit [ObjectLibrary] in
private theorem boot_counter {data : Bytes} {d : Device} (h : CounterHolds data d.store) : CounterHolds data d.boot.store := by
  have hon : CounterHolds data d.powerUp.store := ⟨h.steady, h.nonempty, h.durable, h.durable⟩
  exact (inferInstance : Keeps KeepsCounter (initFido : Handler Device PicoError Unit)).rel d.powerUp data hon

/-! ### Runs -/

def Outcome.counter : Outcome → Option UInt32
  | .ctap2 (.ok response) => response.bind Response.counter
  | .u2f (.ok a) => some a.counter
  | _ => none

/-- A factory reset starts the counter anew. -/
def Command.resets : Command → Bool
  | .ctap2 (.cbor .reset) => true
  | _ => false

private theorem authenticate_counts {i : Input} (hi : i ≠ .cbor .reset) (data : Bytes) :
    Counts (fun response => response.bind Response.counter) data (authenticate i) := by
  cases i with
  | cbor r =>
    have hr : r ≠ .reset := fun h => hi (h ▸ rfl)
    unfold authenticate cborParse
    exact Counts.map (.after fun _ => .after fun _ => .after fun _ => .after fun _ => cborCommand_counts hr data) fun _ => rfl
  | vendor cmd p =>
    unfold authenticate vendorParse
    exact Counts.map (.after fun _ => .after fun _ => .after fun _ => .without fun _ => rfl) fun _ => rfl
  | emptyMessage =>
    unfold authenticate emptyMessage
    exact Counts.map (.after fun _ => ⟨fun _ hd => .inl ⟨rfl, hd⟩⟩) fun _ => rfl
  | elapse ms => exact ⟨fun d hd => .inl ⟨rfl, hd⟩⟩
  | powerCycle => exact ⟨fun d hd => .inl ⟨rfl, boot_counter hd⟩⟩

/-- An answer with a number has the counter of the file, and the next one is left there; no other changes the file. -/
private theorem token_step {c : Command} (hc : c.resets = false) {data : Bytes} {d : Device} (hd : CounterHolds data d.store) :
    (token.move d c).output.counter = none ∧ CounterHolds data (token.step d c).2.store ∨
      (token.move d c).output.counter = some (counterOf data) ∧ CounterHolds (le32 (counterOf data + 1)) (token.step d c).2.store := by
  cases c with
  | ctap2 i =>
    have hi : i ≠ .cbor .reset := fun h => by subst h; cases hc
    have hstep := (authenticate_counts hi data).ends d hd
    have hshown : (token.move d (.ctap2 i)).output.counter =
        given (fun response => response.bind Response.counter) (authenticate i d).1 := by
      simp only [Machine.move, token, Outcome.counter, given]
      rcases (authenticate i d).1 with e | response <;> rfl
    rw [hshown]
    exact hstep
  | u2f apdu =>
    have hstep := (cmdAuthenticate_counts apdu data).ends d hd
    have hshown : (token.move d (.u2f apdu)).output.counter = given (fun a => some a.counter) (cmdAuthenticate apdu d).1 := by
      simp only [Machine.move, token, Outcome.counter, given]
      rcases (cmdAuthenticate apdu d).1 with e | a <;> rfl
    rw [hshown]
    exact hstep

/-- Between resets, as long as they fit 32 bits, the counters that answers give out grow, whatever commands of either protocol and
power cycles come between, and every command that gives out none leaves the file as it was. -/
theorem sign_counters_grow {d : Device} {data : Bytes} {cs : List Command} (hd : CounterHolds data d.store)
    (hreset : ∀ c ∈ cs, c.resets = false)
    (hfits : (counterOf data).toNat + ((token.trace d cs).filterMap fun t => t.output.counter).length ≤ 2 ^ 32) :
    ((token.trace d cs).filterMap fun t => t.output.counter).Pairwise (· < ·) ∧
      ∀ t ∈ token.trace d cs, t.output.counter = none → t.after.files efCounter = t.before.files efCounter := by
  have hok : ∀ t ∈ token.trace d cs, t.input.resets = false := fun t ht =>
    hreset _ ((Machine.trace_inputs d cs) ▸ List.mem_map_of_mem ht)
  constructor
  · have hnumbered : ∃ count, ((token.trace d cs).filterMap fun t => t.output.counter) =
        (List.range' (counterOf data).toNat count).map UInt32.ofNat :=
      Machine.trace_numbered (J := fun n s => ∃ data, CounterHolds data s.store ∧ counterOf data = UInt32.ofNat n)
        (A := fun _ c => c.resets = false)
        (fun n s c ⟨data, hs, hn⟩ hc => (token_step hc hs).imp (fun ⟨hnone, hnext⟩ => ⟨hnone, data, hnext, hn⟩)
          fun ⟨hsome, hnext⟩ => ⟨hn ▸ hsome, _, hnext, by rw [counterOf_le32, hn]; simp⟩)
        ⟨data, hd, by simp⟩ hok
    obtain ⟨count, hcount⟩ := hnumbered
    rw [hcount] at hfits ⊢
    rw [List.length_map, List.length_range'] at hfits
    rw [List.pairwise_map]
    refine List.Pairwise.imp_of_mem (fun {a b} ha hb hab => ?_) List.pairwise_lt_range'
    rw [List.mem_range'_1] at ha hb
    have hsize : UInt32.size = 2 ^ 32 := rfl
    rw [UInt32.lt_iff_toNat_lt, UInt32.toNat_ofNat_of_lt' (by omega), UInt32.toNat_ofNat_of_lt' (by omega)]
    exact hab
  · refine Machine.trace_moves (m := token) (I := fun s => ∃ data, CounterHolds data s.store) (A := fun _ c => c.resets = false)
      (fun s c ⟨data, hs⟩ hc => ?_) (fun s c ⟨data, hs⟩ hc hnone => ?_) ⟨data, hd⟩ hok
    · exact (token_step hc hs).elim (fun h => ⟨_, h.2⟩) fun h => ⟨_, h.2⟩
    · rcases token_step hc hs with ⟨-, hnext⟩ | ⟨hsome, -⟩
      · exact hnext.view.trans hs.view.symm
      · rw [hsome] at hnone
        cases hnone

end

section Plain
attribute [local instance] plainSdk plainLibrary

/-- A device that has just started, its files on it. -/
def startedDevice : Device := (plainDevice [(efKeyDev, plainKeydev)]).boot

/-- A registration, a power cycle and an assertion of a credential. -/
def threeCommands : List Command :=
  [.ctap2 (.cbor (.makeCredential (.params plainMakeCredential))), .ctap2 .powerCycle,
    .ctap2 (.cbor (.getAssertion (.params (plainGetAssertion plainCredentialId))))]

theorem started_holds : CounterHolds [0, 0, 0, 0] startedDevice.store where
  steady := by
    have hfates : startedDevice.store.fates = [] := by decide +kernel
    rw [Steady, hfates]
    exact List.forall_mem_nil _
  nonempty := by decide
  view := by decide +kernel
  durable := by decide +kernel

/-- The second answer has the second counter. -/
theorem two_counters : ((token.trace startedDevice threeCommands).filterMap fun t => t.output.counter) = [0, 1] ∧
    ((token.trace startedDevice threeCommands).filterMap fun t => t.output.counter).Pairwise (· < ·) := by
  have hcounters : ((token.trace startedDevice threeCommands).filterMap fun t => t.output.counter) = [0, 1] := by decide +kernel
  refine ⟨hcounters, (sign_counters_grow started_holds (by decide) ?_).1⟩
  rw [hcounters]
  decide +kernel

end Plain
end FidoTouch.Ctap
