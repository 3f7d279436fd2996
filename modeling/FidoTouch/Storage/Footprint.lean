import FidoTouch.Storage.Flash

/-! Which files a command writes: those outside its footprint keep what they hold, and a write
once done stays on record. -/
namespace FidoTouch.Storage
open FidoTouch.Program Handler

variable {κ β ε α γ : Type} [DecidableEq κ]

/-- From `s` to `s'` only files in `P` were written. -/
structure Footprint (P : κ → Prop) (s s' : Store κ β) : Prop where
  log : ∃ new, s'.log = new ++ s.log ∧ ∀ k v, .write k v ∈ new → P k
  frame : ∀ k, ¬ P k → s'.view k = s.view k
  fates : s'.fates <:+ s.fates

/-- A write to the file stands on record since `s`. -/
def Wrote (k : κ) (s s' : Store κ β) : Prop := ∃ new v, s'.log = new ++ s.log ∧ .write k v ∈ new

variable {P : κ → Prop} {s s' s'' : Store κ β} {k : κ}

omit [DecidableEq κ] in
theorem Footprint.refl (s : Store κ β) : Footprint P s s := ⟨⟨[], rfl, by simp⟩, fun _ _ => rfl, List.suffix_refl _⟩

omit [DecidableEq κ] in
theorem Footprint.trans (h : Footprint P s s') (h' : Footprint P s' s'') : Footprint P s s'' := by
  obtain ⟨⟨new, hlog, hnew⟩, hframe, hfates⟩ := h
  obtain ⟨⟨new', hlog', hnew'⟩, hframe', hfates'⟩ := h'
  refine ⟨⟨new' ++ new, by rw [hlog', hlog, List.append_assoc], fun k v hv => ?_⟩,
    fun k hk => (hframe' k hk).trans (hframe k hk), hfates'.trans hfates⟩
  rcases List.mem_append.mp hv with hv | hv
  · exact hnew' k v hv
  · exact hnew k v hv

omit [DecidableEq κ] in
instance : Std.Refl (Footprint P : Store κ β → Store κ β → Prop) := ⟨.refl⟩
omit [DecidableEq κ] in
instance : IsTrans (Store κ β) (Footprint P) := ⟨fun _ _ _ => .trans⟩

omit [DecidableEq κ] in
/-- A recorded write is in the footprint. -/
theorem Footprint.of_wrote (h : Footprint P s s') (hw : Wrote k s s') : P k := by
  obtain ⟨⟨new, hlog, hnew⟩, -, -⟩ := h
  obtain ⟨new', v, hlog', hv⟩ := hw
  rw [hlog] at hlog'
  exact hnew k v (List.append_cancel_right hlog' ▸ hv)

omit [DecidableEq κ] in
theorem Footprint.reliable (h : Footprint P s s') (hs : s.fates = []) : s'.fates = [] :=
  List.suffix_nil.mp (hs ▸ h.fates)

omit [DecidableEq κ] in
theorem Wrote.before (hw : Wrote k s' s'') (h : Footprint P s s') : Wrote k s s'' := by
  obtain ⟨new, v, hlog, hv⟩ := hw
  obtain ⟨⟨new', hlog', -⟩, -, -⟩ := h
  exact ⟨new ++ new', v, by rw [hlog, hlog', List.append_assoc], List.mem_append_left _ hv⟩

omit [DecidableEq κ] in
theorem Wrote.after (hw : Wrote k s s') (h : Footprint P s' s'') : Wrote k s s'' := by
  obtain ⟨new, v, hlog, hv⟩ := hw
  obtain ⟨⟨new', hlog', -⟩, -, -⟩ := h
  exact ⟨new' ++ new, v, by rw [hlog', hlog, List.append_assoc], List.mem_append_right _ hv⟩

/-! ### The operations -/

private theorem footprint_set (hk : P k) (v : Option (List β)) (s : Store κ β) : Footprint P s (s.set k v) := by
  refine ⟨⟨[.write k v], rfl, fun k' v' hv => ?_⟩, fun k' hk' => ?_, List.suffix_refl _⟩
  · obtain ⟨rfl, rfl⟩ : k' = k ∧ v' = v := by simpa using hv
    exact hk
  · exact Function.update_of_ne (fun heq : k' = k => hk' (heq.symm ▸ hk)) _ _

omit [DecidableEq κ] in
private theorem footprint_fates {fates : List Bool} {f : Store κ β} (h : Footprint P { s with fates := fates } f)
    (hs : fates <:+ s.fates) : Footprint P s f := ⟨h.log, h.frame, h.fates.trans hs⟩

omit [DecidableEq κ] in
private theorem tryOp_footprint {f : Store κ β → Store κ β} (hf : ∀ s, Footprint P s (f s)) :
    Keeps (Footprint P) (tryOp f : Handler (Store κ β) ε Bool) where
  rel s := by
    unfold tryOp
    split
    · exact hf s
    · rename_i fs hfates
      exact footprint_fates (hf { s with fates := fs }) (hfates ▸ List.suffix_cons _ _)
    · rename_i fs hfates
      exact footprint_fates (.refl { s with fates := fs }) (hfates ▸ List.suffix_cons _ _)

instance (k : κ) [hk : Fact (P k)] : Keeps (Footprint P) (fileNew k : Handler (Store κ β) ε Bool) :=
  tryOp_footprint fun s => by
    split
    · exact footprint_set hk.out _ s
    · exact .refl s

instance (k : κ) (v : List β) [hk : Fact (P k)] : Keeps (Footprint P) (filePutData k v : Handler (Store κ β) ε Bool) :=
  tryOp_footprint fun s => footprint_set hk.out _ s

instance (k : κ) [hk : Fact (P k)] : Keeps (Footprint P) (fileDeleteNoCommit k : Handler (Store κ β) ε Bool) :=
  tryOp_footprint fun s => footprint_set hk.out _ s

omit [DecidableEq κ] in
private theorem footprint_sync (s : Store κ β) : Footprint P s s.sync :=
  ⟨⟨[.commit s.view], rfl, by simp⟩, fun _ _ => rfl, List.suffix_refl _⟩

omit [DecidableEq κ] in
instance : Keeps (Footprint P) (flashCommitSync : Handler (Store κ β) ε Bool) := tryOp_footprint footprint_sync

omit [DecidableEq κ] in
instance : Keeps (Footprint P) (flashCommit : Handler (Store κ β) ε Unit) := ⟨footprint_sync⟩

/-! ### What a reported success wrote -/

omit [DecidableEq κ] in
private theorem tryOp_wrote {f : Store κ β → Store κ β} (hf : ∀ s, Wrote k s (f s))
    (h : (tryOp f : Handler (Store κ β) ε Bool) s = (.ok true, s')) : Wrote k s s' := by
  unfold tryOp at h
  split at h
  · cases h
    exact hf s
  · cases h
    exact hf { s with fates := _ }
  · cases h

theorem filePutData_wrote {v : List β} (h : (filePutData k v : Handler (Store κ β) ε Bool) s = (.ok true, s')) :
    Wrote k s s' := tryOp_wrote (fun _ => ⟨[.write k (some v)], some v, rfl, by simp⟩) h

theorem fileDeleteNoCommit_wrote (h : (fileDeleteNoCommit k : Handler (Store κ β) ε Bool) s = (.ok true, s')) :
    Wrote k s s' := tryOp_wrote (fun _ => ⟨[.write k none], none, rfl, by simp⟩) h

/-- Where nothing fails a deletion happens. -/
theorem fileDeleteNoCommit_reliable {b : Bool} (hs : s.fates = [])
    (h : (fileDeleteNoCommit k : Handler (Store κ β) ε Bool) s = (.ok b, s')) : Wrote k s s' := by
  have hb : b = true := by
    unfold fileDeleteNoCommit tryOp at h
    rw [hs] at h
    cases h
    rfl
  exact fileDeleteNoCommit_wrote (hb ▸ h)

end FidoTouch.Storage
