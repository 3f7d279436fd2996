import FidoTouch.Ctap.PlainDevice
import FidoTouch.Ctap.Requests

/-! Members of a request whose key its handler does not know: where their value is skipped, and where it is taken for the
next key, which values go unnoticed. -/
namespace FidoTouch.Ctap
open FidoTouch.Program MemberLoop

variable {σ τ κ α : Type}

/-! ### Reading into variables -/

private theorem map_ok_iff {x : Except CtapError α} {f : α → σ} {s : σ} : x.map f = .ok s ↔ ∃ a, x = .ok a ∧ f a = s := by
  cases x <;> simp [Except.map]

private theorem textLoop_keyOf {member : Bytes → Option (Member σ)} {v : CborValue} {key : Bytes} (h : (textLoop member).keyOf v = .ok key) :
    ∃ b, v = .text b ∧ b.length ≤ 64 ∧ key = cString b := by
  cases v with
  | text b =>
    simp only [textLoop, fieldGetKeyText] at h
    split at h
    · cases h
    · next hlen => exact ⟨b, rfl, Nat.le_of_not_lt hlen, (Except.ok.inj h).symm⟩
  | _ => cases h

private theorem fieldGetKeyText_text {b : Bytes} (h : b.length ≤ 64) : fieldGetKeyText (.text b) = .ok (cString b) :=
  if_neg (Nat.not_lt.mpr h)

private theorem fieldGetUint_ok {v : CborValue} {n : UInt64} (h : fieldGetUint v = .ok n) : v = .uint n := by
  cases v with
  | uint m => rw [Except.ok.inj h]
  | _ => cases h

/-! ### Maps with text keys -/

/-- The text that a value is. -/
def CborValue.textOf : CborValue → Option Bytes
  | .text b => some b
  | _ => none

/-- How the loop over a map with text keys can be watched: each key that takes a text has a field for it. -/
private def watched (member : Bytes → Option (Member σ)) (field : Bytes → σ → Option Bytes)
    (hfield : ∀ {key read s s' b}, member key = some read → read s (.text b) = .ok s' → field key s' = some b)
    (hframe : ∀ {key read s s' v key'}, member key = some read → read s v = .ok s' → key' ≠ key → field key' s' = field key' s) :
    Observed (textLoop member) σ (Option Bytes) where
  view := id
  field := field
  val := CborValue.textOf
  Own o := ∀ b, o = some b → (member (cString b)).isSome = true
  Ready _ := True
  accept_view h := by
    cases h
    rfl
  accept_ready _ _ := trivial
  read_ready _ _ _ := trivial
  read_field hmember hread hkey := by
    obtain ⟨b, rfl, -, -⟩ := textLoop_keyOf hkey
    exact hfield hmember hread
  read_frame hmember hread hne := hframe hmember hread hne
  known_own {v key read} hkey hmember := by
    obtain ⟨b, rfl, -, rfl⟩ := textLoop_keyOf hkey
    intro b' hb'
    obtain rfl := Option.some.inj hb'
    rw [show member (cString b) = some read from hmember]
    rfl
  unknown_not_own {s s' v key} _ hkey _ hmember hown := by
    obtain ⟨b, rfl, -, rfl⟩ := textLoop_keyOf hkey
    have hnone : member (cString b) = none := hmember
    have hsome := hown b rfl
    rw [hnone] at hsome
    cases hsome

/-- What a member with an unknown text key needs, so that it makes no difference: its value is such a key as well. -/
def PassesText (knows : Bytes → Bool) (t : Bytes) (v : CborValue) : Prop :=
  t.length ≤ 64 ∧ ∃ u, v = .text u ∧ u.length ≤ 64 ∧ knows (cString u) = false

private theorem text_insert_iff {member : Bytes → Option (Member σ)} (o : Observed (textLoop member) σ α) (hid : ∀ s, o.view s = s)
    (hready : ∀ s, o.Ready s) {pre post : Members} {t : Bytes} {v : CborValue} {s p : σ} (hknown : Known (textLoop member) (pre ++ post))
    (hdistinct : Distinct (textLoop member) (pre ++ post)) (hinit : ∀ key, o.Own (o.field key (o.view s)))
    (hp : (textLoop member).run (flat (pre ++ post)) s = .ok p) (hunknown : (member (cString t)).isSome = false) :
    (textLoop member).run (flat (pre ++ (.text t, v) :: post)) s = .ok p ↔ PassesText (fun key => (member key).isSome) t v := by
  obtain ⟨s₁, hpre, hpost⟩ := run_append_ok hknown.left hp
  have hnone : ∀ key, (textLoop member).keyOf (.text t) = .ok key → (textLoop member).member key = none := fun key hkey => by
    obtain ⟨b, hb, -, rfl⟩ := textLoop_keyOf hkey
    obtain rfl := CborValue.text.inj hb
    have hnone : member (cString t) = none := by simpa using hunknown
    exact hnone
  have hmisaligned : ∀ key s₂ key' s₃ read q, (textLoop member).keyOf (.text t) = .ok key → (textLoop member).accept s₁ key = .ok s₂ →
      (textLoop member).accept s₂ key' = .ok s₃ → (textLoop member).member key' = some read →
      (textLoop member).items (some read) (flat post) s₃ = .ok q → id q ≠ id p := by
    intro key s₂ key' s₃ read q _ haccept haccept' hmember hq hsame
    cases haccept
    cases haccept'
    exact o.not_misaligned hknown hdistinct hinit hpre hpost rfl (hready _) hmember hq (by rw [hid, hid]; exact hsame)
  have hiff := insert_iff (v := v) hknown.left hpre hnone hmisaligned
  constructor
  · intro h
    obtain ⟨key, s₂, key', s₃, hkey, -, hkey', -, hmember, -⟩ := hiff.mp ⟨p, h, rfl⟩
    obtain ⟨b, hb, hlen, -⟩ := textLoop_keyOf hkey
    obtain rfl := CborValue.text.inj hb
    obtain ⟨u, rfl, hlen', rfl⟩ := textLoop_keyOf hkey'
    have hnone : member (cString u) = none := hmember
    exact ⟨hlen, u, rfl, hlen', by simp [hnone]⟩
  · rintro ⟨hlen, u, rfl, hlen', hu⟩
    have hnone : member (cString u) = none := by simpa using hu
    obtain ⟨q, hq, rfl⟩ := hiff.mpr ⟨_, s₁, _, s₁, fieldGetKeyText_text hlen, rfl, fieldGetKeyText_text hlen', rfl, hnone, p, hpost, rfl⟩
    exact hq

/-- Where the loop skips the value of an unknown key, the member makes no difference, whatever the value is. -/
theorem skipped_member_ignored {member : Bytes → Option (Member σ)} {pre post : Members} {t : Bytes} {v : CborValue}
    (hknown : Known (textLoop member) pre) (hlen : t.length ≤ 64) (hskips : member (cString t) = some cborAdvance) (s : σ) :
    parseMap (textLoop member) s (.map (pre ++ (.text t, v) :: post)) = parseMap (textLoop member) s (.map (pre ++ post)) := by
  have hafter : ∀ s, (textLoop member).run (.text t :: v :: flat post) s = (textLoop member).run (flat post) s := fun s => by
    have hmember : (textLoop member).member (cString t) = some cborAdvance := hskips
    rw [run_cons (fieldGetKeyText_text hlen) rfl, hmember]
    rfl
  simp only [parseMap, flat_append, flat_cons, run_append hknown, hafter]

/-- So it is with the user that MakeCredential registers. -/
theorem user_ignores_unknown {pre post : Members} {t : Bytes} {v : CborValue} (hknown : Known (textLoop userMember) pre)
    (hlen : t.length ≤ 64) (hunknown : userField (cString t) = none) (user : UserEntity) :
    parseMap (textLoop userMember) user (.map (pre ++ (.text t, v) :: post)) = parseMap (textLoop userMember) user (.map (pre ++ post)) :=
  skipped_member_ignored hknown hlen (by rw [userMember, hunknown, Option.getD_none]) user

/-! ### The entities and descriptors of a request -/

private theorem storeField_ok {read : CborValue → Except CtapError α} {put : α → σ → σ} {s s' : σ} {v : CborValue}
    (h : storeField read put s v = .ok s') : ∃ a, read v = .ok a ∧ s' = put a s := by
  obtain ⟨a, ha, rfl⟩ := map_ok_iff.mp h
  exact ⟨a, ha, rfl⟩

private def rpField (key : Bytes) (rp : RpEntity) : Option Bytes :=
  if key = Cbor.ascii "id" then rp.id else if key = Cbor.ascii "name" then rp.name else none

private def rpWatched : Observed rpLoop RpEntity (Option Bytes) := watched rpMember rpField
  (fun {key read s s' b} hmember hread => by
    unfold rpMember at hmember
    unfold rpField
    split at hmember
    · next hid =>
      cases hmember
      cases hread
      rw [if_pos hid]
    · next hid =>
      split at hmember
      · next hname =>
        cases hmember
        cases hread
        rw [if_neg hid, if_pos hname]
      · cases hmember)
  fun {key read s s' v key'} hmember hread hne => by
    unfold rpMember at hmember
    unfold rpField
    split at hmember
    · next hid =>
      have hother : key' ≠ Cbor.ascii "id" := hid ▸ hne
      cases hmember
      obtain ⟨b, -, rfl⟩ := storeField_ok hread
      simp only [if_neg hother]
    · split at hmember
      · next hname =>
        have hother : key' ≠ Cbor.ascii "name" := hname ▸ hne
        cases hmember
        obtain ⟨b, -, rfl⟩ := storeField_ok hread
        simp only [if_neg hother]
      · cases hmember

private def credParamWatched : Observed credParamLoop CredParameters (Option Bytes) :=
  watched credParamMember (fun key pk => if key = Cbor.ascii "type" then pk.type else none)
  (fun {key read s s' b} hmember hread => by
    unfold credParamMember at hmember
    split at hmember
    · next htype =>
      cases hmember
      cases hread
      rw [if_pos htype]
    · split at hmember <;> cases hmember
      cases hread)
  fun {key read s s' v key'} hmember hread hne => by
    unfold credParamMember at hmember
    split at hmember
    · next htype => rw [if_neg (htype ▸ hne), if_neg (htype ▸ hne)]
    · split at hmember <;> cases hmember
      obtain ⟨alg, -, rfl⟩ := storeField_ok hread
      rfl

private def descriptorWatched : Observed descriptorLoop CredentialDescriptor (Option Bytes) :=
  watched descriptorMember (fun key pc => if key = Cbor.ascii "type" then pc.type else none)
  (fun {key read s s' b} hmember hread => by
    unfold descriptorMember at hmember
    split at hmember
    · cases hmember
      cases hread
    · split at hmember
      · next htype =>
        cases hmember
        cases hread
        rw [if_pos htype]
      · split at hmember <;> cases hmember
        cases hread)
  fun {key read s s' v key'} hmember hread hne => by
    unfold descriptorMember at hmember
    split at hmember
    · cases hmember
      obtain ⟨b, -, rfl⟩ := storeField_ok hread
      rfl
    · split at hmember
      · next htype => rw [if_neg (htype ▸ hne), if_neg (htype ▸ hne)]
      · split at hmember <;> cases hmember
        obtain ⟨transports, -, rfl⟩ := map_ok_iff.mp hread
        rfl

section
variable {a b : Members} {t : Bytes} {v : CborValue}

private theorem rp_insert_iff {rp : RpEntity} (hknown : Known rpLoop (a ++ b)) (hdistinct : Distinct rpLoop (a ++ b))
    (hunknown : (rpMember (cString t)).isSome = false) (hp : parseMap rpLoop {} (.map (a ++ b)) = .ok rp) :
    parseMap rpLoop {} (.map (a ++ (.text t, v) :: b)) = .ok rp ↔ PassesText (fun key => (rpMember key).isSome) t v :=
  text_insert_iff rpWatched (fun _ => rfl) (fun _ => trivial) hknown hdistinct (fun key o ho => by
    have hnone : rpField key {} = some o := ho
    unfold rpField at hnone
    split at hnone
    · cases hnone
    · split at hnone <;> cases hnone) hp hunknown

private theorem credParam_insert_iff {pk : CredParameters} (hknown : Known credParamLoop (a ++ b)) (hdistinct : Distinct credParamLoop (a ++ b))
    (hunknown : (credParamMember (cString t)).isSome = false) (hp : parseCredParam (.map (a ++ b)) = .ok pk) :
    parseCredParam (.map (a ++ (.text t, v) :: b)) = .ok pk ↔ PassesText (fun key => (credParamMember key).isSome) t v :=
  text_insert_iff credParamWatched (fun _ => rfl) (fun _ => trivial) hknown hdistinct (fun key o ho => by
    have hnone : (if key = Cbor.ascii "type" then (none : Option Bytes) else none) = some o := ho
    rw [ite_self] at hnone
    cases hnone) hp hunknown

private theorem descriptor_insert_iff {pc : CredentialDescriptor} (hknown : Known descriptorLoop (a ++ b))
    (hdistinct : Distinct descriptorLoop (a ++ b)) (hunknown : (descriptorMember (cString t)).isSome = false)
    (hp : parseDescriptor (.map (a ++ b)) = .ok pc) :
    parseDescriptor (.map (a ++ (.text t, v) :: b)) = .ok pc ↔ PassesText (fun key => (descriptorMember key).isSome) t v :=
  text_insert_iff descriptorWatched (fun _ => rfl) (fun _ => trivial) hknown hdistinct (fun key o ho => by
    have hnone : (if key = Cbor.ascii "type" then (none : Option Bytes) else none) = some o := ho
    rw [ite_self] at hnone
    cases hnone) hp hunknown

end

/-! ### Lists -/

section
variable {max : Nat} {read : CborValue → Except CtapError α} {entries l : List α} {xs ys : List CborValue} {x x' : CborValue}

private theorem parseArray_prefix (h : parseArray max read entries (.array xs) = .ok l) : entries <+: l := by
  induction xs generalizing entries with
  | nil =>
    cases h
    exact List.prefix_refl _
  | cons x xs ih =>
    simp only [parseArray, List.foldlM_cons] at h
    obtain ⟨entries', hstep, h⟩ := except_bind_ok h
    split at hstep
    · cases hstep
    · obtain ⟨entry, -, rfl⟩ := map_ok_iff.mp hstep
      exact (List.prefix_append entries [entry]).trans (ih h)

/-- Another item makes no difference to a list exactly when it is the same entry. -/
private theorem parseArray_replace (h : parseArray max read entries (.array (xs ++ x :: ys)) = .ok l) : ∃ entry, read x = .ok entry ∧
    (parseArray max read entries (.array (xs ++ x' :: ys)) = .ok l ↔ read x' = .ok entry) := by
  simp only [parseArray, List.foldlM_append, List.foldlM_cons] at h ⊢
  obtain ⟨before, hxs, h⟩ := except_bind_ok h
  obtain ⟨now, hx, h⟩ := except_bind_ok h
  split at hx
  · cases hx
  · next hroom =>
    obtain ⟨entry, hentry, rfl⟩ := map_ok_iff.mp hx
    refine ⟨entry, hentry, ?_⟩
    rw [hxs]
    simp only [bind, Except.bind, if_neg hroom]
    constructor
    · intro h'
      obtain ⟨now', hx', h'⟩ := except_bind_ok h'
      obtain ⟨entry', hentry', rfl⟩ := map_ok_iff.mp hx'
      have hnew : before ++ [entry'] <+: l := parseArray_prefix h'
      have hold : before ++ [entry] <+: l := parseArray_prefix h
      have hsame : before ++ [entry'] = before ++ [entry] :=
        (List.prefix_of_prefix_length_le hnew hold (by simp)).eq_of_length (by simp)
      rw [hentry', List.singleton_inj.mp (List.append_cancel_left hsame)]
    · intro hentry'
      rw [hentry']
      exact h

end

/-! ### The map of a request -/

/-- `val_c` and the next key: no key up to the last required one is left out, and none comes late. -/
def KeyPasses (required c key : UInt64) : Prop := ¬ (c ≤ required ∧ c ≠ key) ∧ ¬ key < c

/-- `val_c` after some members -/
def expectedKey (c : UInt64) (members : Members) : UInt64 :=
  members.foldl (fun c m => match m.1 with
    | .uint k => k + 1
    | _ => c) c

section
variable {required : UInt64} {member : UInt64 → Option (Member σ)} {pre post : Members} {k key : UInt64} {v v' : CborValue}
  {s s' p : UInt64 × σ} {init q : σ}

private theorem accept_iff : (requestLoop required member).accept s key = .ok s' ↔ KeyPasses required s.1 key ∧ s' = (key + 1, s.2) := by
  unfold KeyPasses requestLoop
  dsimp only
  by_cases hmissing : s.1 ≤ required ∧ s.1 ≠ key
  · rw [if_pos hmissing]
    exact ⟨fun h => (by cases h), fun h => absurd hmissing h.1.1⟩
  · by_cases hlate : key < s.1
    · rw [if_neg hmissing, if_pos hlate]
      exact ⟨fun h => (by cases h), fun h => absurd hlate h.1.2⟩
    · rw [if_neg hmissing, if_neg hlate]
      exact ⟨fun h => ⟨⟨hmissing, hlate⟩, (Except.ok.inj h).symm⟩, fun h => congrArg Except.ok h.2.symm⟩

private theorem member_some {read : Member (UInt64 × σ)} (h : (requestLoop required member).member key = some read) :
    ∃ read₀, member key = some read₀ ∧ read = fun s v => (read₀ s.2 v).map fun t => (s.1, t) := by
  obtain ⟨read₀, hmember, rfl⟩ := Option.map_eq_some_iff.mp h
  exact ⟨read₀, hmember, rfl⟩

private theorem member_none (h : member key = none) : (requestLoop required member).member key = none := by
  simp only [requestLoop, h, Option.map_none]

private theorem run_expected (hknown : Known (requestLoop required member) pre) (h : (requestLoop required member).run (flat pre) s = .ok s') :
    s'.1 = expectedKey s.1 pre := by
  induction pre generalizing s with
  | nil =>
    cases h
    rfl
  | cons m pre ih =>
    obtain ⟨k, v⟩ := m
    obtain ⟨key, read, hkey, hmember⟩ := hknown (k, v) (List.mem_cons_self ..)
    obtain ⟨s₁, s₂, haccept, hread, hrest⟩ := run_member_ok hkey hmember h
    obtain ⟨-, rfl⟩ := accept_iff.mp haccept
    obtain ⟨read₀, -, rfl⟩ := member_some hmember
    obtain ⟨t, -, rfl⟩ := map_ok_iff.mp hread
    obtain rfl := fieldGetUint_ok hkey
    exact ih (fun m hm => hknown m (List.mem_cons_of_mem _ hm)) hrest

private theorem parseRequest_ok {l : MemberLoop (UInt64 × σ) CborValue UInt64 CtapError} {members : Members} :
    parseRequest l init members = .ok q ↔ ∃ p, l.run (flat members) (1, init) = .ok p ∧ p.2 = q := map_ok_iff

/-- From the next member on, nothing but the order of its key depends on what came before. -/
private theorem run_from_iff {c c' : UInt64} {t : σ} (hknown : Known (requestLoop required member) post)
    (h : (requestLoop required member).run (flat post) (c, t) = .ok p) :
    (∃ q, (requestLoop required member).run (flat post) (c', t) = .ok q ∧ q.2 = p.2) ↔
      ∀ k v rest, post = (.uint k, v) :: rest → KeyPasses required c' k := by
  cases post with
  | nil =>
    cases h
    constructor
    · intro _ k v rest hnil
      cases hnil
    · exact fun _ => ⟨_, rfl, rfl⟩
  | cons m post =>
    obtain ⟨k, v⟩ := m
    obtain ⟨key, read, hkey, hmember⟩ := hknown (k, v) (List.mem_cons_self ..)
    obtain rfl := fieldGetUint_ok hkey
    obtain ⟨s₁, s₂, haccept, hread, h⟩ := run_member_ok hkey hmember h
    obtain ⟨-, rfl⟩ := accept_iff.mp haccept
    constructor
    · rintro ⟨q, hq, -⟩ k' v' rest hpost
      obtain ⟨s₁', -, haccept', -, -⟩ := run_member_ok hkey hmember hq
      cases hpost
      exact (accept_iff.mp haccept').1
    · intro hpasses
      refine ⟨p, ?_, rfl⟩
      rw [flat_cons, run_cons hkey (accept_iff.mpr ⟨hpasses key v post rfl, rfl⟩), hmember]
      simp only [items, hread, Except.bind]
      exact h

private theorem expectedKey_ne_zero {c : UInt64} (hknown : Known (requestLoop required member) pre)
    (hlast : ∀ key, (member key).isSome = true → key + 1 ≠ 0) (hc : c ≠ 0) : expectedKey c pre ≠ 0 := by
  induction pre generalizing c with
  | nil => exact hc
  | cons m pre ih =>
    obtain ⟨k, v⟩ := m
    obtain ⟨key, read, hkey, hmember⟩ := hknown (k, v) (List.mem_cons_self ..)
    obtain rfl := fieldGetUint_ok hkey
    obtain ⟨read₀, hread₀, -⟩ := member_some hmember
    exact ih (fun m hm => hknown m (List.mem_cons_of_mem _ hm)) (hlast key (by rw [hread₀, Option.isSome_some]))

/-- A member with an unknown key between those of a request makes no difference exactly when its value comes next as an unknown key. -/
private theorem request_insert_iff (hknown : Known (requestLoop required member) (pre ++ post))
    (hq : parseRequest (requestLoop required member) init (pre ++ post) = .ok q) (hunknown : member k = none)
    (hlast : ∀ key, (member key).isSome = true → key + 1 ≠ 0)
    (hmisaligned : ∀ s₁ p key read r, (requestLoop required member).run (flat pre) (1, init) = .ok s₁ → s₁.1 ≠ 0 →
      (requestLoop required member).run (flat post) s₁ = .ok p → KeyPasses required s₁.1 k → KeyPasses required (k + 1) key →
      (requestLoop required member).member key = some read →
      (requestLoop required member).items (some read) (flat post) (key + 1, s₁.2) = .ok r → r.2 ≠ p.2) :
    parseRequest (requestLoop required member) init (pre ++ (.uint k, v) :: post) = .ok q ↔
      KeyPasses required (expectedKey 1 pre) k ∧ ∃ n, v = .uint n ∧ (member n).isSome = false ∧ KeyPasses required (k + 1) n ∧
        ∀ k' v' rest, post = (.uint k', v') :: rest → KeyPasses required (n + 1) k' := by
  obtain ⟨p, hp, rfl⟩ := parseRequest_ok.mp hq
  obtain ⟨s₁, hpre, hpost⟩ := run_append_ok hknown.left hp
  have hcount : s₁.1 = expectedKey 1 pre := run_expected hknown.left hpre
  have hzero : s₁.1 ≠ 0 := hcount ▸ expectedKey_ne_zero hknown.left hlast (by decide)
  have hnone : ∀ key, (requestLoop required member).keyOf (.uint k) = .ok key → (requestLoop required member).member key = none :=
    fun key hkey => by
      cases hkey
      exact member_none hunknown
  have hview : ∀ key s₂ key' s₃ read r, (requestLoop required member).keyOf (.uint k) = .ok key →
      (requestLoop required member).accept s₁ key = .ok s₂ → (requestLoop required member).accept s₂ key' = .ok s₃ →
      (requestLoop required member).member key' = some read →
      (requestLoop required member).items (some read) (flat post) s₃ = .ok r → Prod.snd r ≠ Prod.snd p := by
    intro key s₂ key' s₃ read r hkey haccept haccept' hmember hr
    cases hkey
    obtain ⟨hk, rfl⟩ := accept_iff.mp haccept
    obtain ⟨hkey', rfl⟩ := accept_iff.mp haccept'
    exact hmisaligned s₁ p key' read r hpre hzero hpost hk hkey' hmember hr
  rw [parseRequest_ok, insert_iff hknown.left hpre hnone hview, ← hcount]
  constructor
  · rintro ⟨key, s₂, key', s₃, hkey, haccept, hkey', haccept', hmember, hr⟩
    cases hkey
    obtain ⟨hk, rfl⟩ := accept_iff.mp haccept
    obtain ⟨hn, rfl⟩ := accept_iff.mp haccept'
    refine ⟨hk, key', fieldGetUint_ok hkey', ?_, hn, (run_from_iff hknown.right hpost).mp hr⟩
    exact Option.isSome_eq_false_iff.mpr (Option.isNone_iff_eq_none.mpr (Option.map_eq_none_iff.mp hmember))
  · rintro ⟨hk, n, rfl, hmember, hn, hrest⟩
    exact ⟨k, (k + 1, s₁.2), n, (n + 1, s₁.2), rfl, accept_iff.mpr ⟨hk, rfl⟩, rfl, accept_iff.mpr ⟨hn, rfl⟩,
      member_none (Option.isNone_iff_eq_none.mp (Option.isSome_eq_false_iff.mp hmember)), (run_from_iff hknown.right hpost).mpr hrest⟩

/-- Another value of a known key makes no difference to a request exactly when it is read as the same. -/
private theorem request_replace_iff (v' : CborValue) {f : σ → α} {read : Member σ} (hknown : Known (requestLoop required member) (pre ++ (.uint key, v) :: post))
    (hdistinct : Distinct (requestLoop required member) (pre ++ (.uint key, v) :: post)) (hmember : member key = some read)
    (hkeeps : ∀ key' read t v t', key' ≠ key → member key' = some read → read t v = .ok t' → f t' = f t)
    (hset : ∀ t t' t'', read t v = .ok t' → read t v' = .ok t'' → f t'' = f t' → t'' = t')
    (hq : parseRequest (requestLoop required member) init (pre ++ (.uint key, v) :: post) = .ok q) :
    ∃ t t', f t = f init ∧ read t v = .ok t' ∧
      (parseRequest (requestLoop required member) init (pre ++ (.uint key, v') :: post) = .ok q ↔ read t v' = .ok t') := by
  obtain ⟨p, hp, rfl⟩ := parseRequest_ok.mp hq
  have hread : (requestLoop required member).member key = some fun s v => (read s.2 v).map fun t => (s.1, t) := by
    simp only [requestLoop, hmember, Option.map_some]
  have haccept : ∀ key s s', (requestLoop required member).accept s key = .ok s' → s'.2 = s.2 := fun key s s' h => by
    obtain ⟨-, rfl⟩ := accept_iff.mp h
    rfl
  obtain ⟨s₂, s₃, hstart, hs₃, hiff⟩ := replace_iff (f := f) hknown hdistinct rfl hread haccept
    (fun key' read' s v s' hne hmember' h => by
      obtain ⟨read₀, hread₀, rfl⟩ := member_some hmember'
      obtain ⟨t, ht, rfl⟩ := map_ok_iff.mp h
      exact hkeeps key' read₀ s.2 v t hne hread₀ ht)
    (fun s s' s'' h h' hsame => by
      obtain ⟨t, ht, rfl⟩ := map_ok_iff.mp h
      obtain ⟨t', ht', rfl⟩ := map_ok_iff.mp h'
      rw [hset s.2 t t' ht ht' hsame]) hp
  obtain ⟨t, ht, rfl⟩ := map_ok_iff.mp hs₃
  refine ⟨s₂.2, t, hstart, ht, parseRequest_ok.trans (hiff.trans ?_)⟩
  rw [map_ok_iff]
  exact ⟨fun ⟨t', ht', heq⟩ => (Prod.mk.inj heq).2 ▸ ht', fun h => ⟨t, h, rfl⟩⟩

/-- So it is where the value is read into one variable. -/
private theorem request_field_iff (v' : CborValue) {f : σ → α} {g : α → CborValue → Except CtapError α} {put : σ → α → σ}
    (hknown : Known (requestLoop required member) (pre ++ (.uint key, v) :: post))
    (hdistinct : Distinct (requestLoop required member) (pre ++ (.uint key, v) :: post))
    (hmember : member key = some fun t v => (g (f t) v).map (put t)) (hget : ∀ t x, f (put t x) = x)
    (hkeeps : ∀ key' read t v t', key' ≠ key → member key' = some read → read t v = .ok t' → f t' = f t)
    (hq : parseRequest (requestLoop required member) init (pre ++ (.uint key, v) :: post) = .ok q) :
    ∃ x, g (f init) v = .ok x ∧
      (parseRequest (requestLoop required member) init (pre ++ (.uint key, v') :: post) = .ok q ↔ g (f init) v' = .ok x) := by
  obtain ⟨t, t', ht, hread, hiff⟩ := request_replace_iff v' hknown hdistinct hmember hkeeps
    (fun t t' t'' h h' hsame => by
      obtain ⟨x, -, rfl⟩ := map_ok_iff.mp h
      obtain ⟨x', -, rfl⟩ := map_ok_iff.mp h'
      rw [hget, hget] at hsame
      rw [hsame]) hq
  obtain ⟨x, hx, rfl⟩ := map_ok_iff.mp hread
  rw [ht] at hx
  refine ⟨x, hx, hiff.trans ?_⟩
  rw [map_ok_iff, ht]
  constructor
  · rintro ⟨x', hx', hsame⟩
    have heq : x' = x := by rw [← hget t x', hsame, hget]
    rw [hx', heq]
  · exact fun h => ⟨x, h, rfl⟩

private theorem known_add_one {key last : UInt64} (h : key ≤ last) (hlast : last < 11) : key + 1 ≠ 0 := by
  simp only [UInt64.le_iff_toNat_le, UInt64.lt_iff_toNat_lt, ne_eq, ← UInt64.toNat_inj, UInt64.toNat_add, UInt64.reduceToNat] at *
  omega

/-- Where the known keys follow each other without a gap, a key that may come after an unknown one is unknown. -/
private theorem unknown_after {last c : UInt64} (hrange : ∀ key, (member key).isSome = true ↔ 1 ≤ key ∧ key ≤ last)
    (hunknown : member k = none) (hc : c ≠ 0) (hk : KeyPasses required c k) (hkey : KeyPasses required (k + 1) key) :
    (member key).isSome = false := by
  have houtside : ¬ (1 ≤ k ∧ k ≤ last) := fun h => by
    rw [← hrange, hunknown] at h
    cases h
  rw [Bool.eq_false_iff]
  intro hknown
  obtain ⟨hfirst, hlast⟩ := (hrange key).mp hknown
  obtain ⟨-, hlate⟩ := hk
  obtain ⟨hmissing, hlate'⟩ := hkey
  simp only [UInt64.le_iff_toNat_le, UInt64.lt_iff_toNat_lt, ne_eq, ← UInt64.toNat_inj, UInt64.toNat_add] at *
  have hbound := k.toNat_lt
  simp only [UInt64.reduceToNat] at *
  omega

private theorem request_insert_gapless {last : UInt64} (hknown : Known (requestLoop required member) (pre ++ post))
    (hq : parseRequest (requestLoop required member) init (pre ++ post) = .ok q) (hunknown : member k = none)
    (hrange : ∀ key, (member key).isSome = true ↔ 1 ≤ key ∧ key ≤ last) (hlast : last < 11) :
    parseRequest (requestLoop required member) init (pre ++ (.uint k, v) :: post) = .ok q ↔
      KeyPasses required (expectedKey 1 pre) k ∧ ∃ n, v = .uint n ∧ (member n).isSome = false ∧ KeyPasses required (k + 1) n ∧
        ∀ k' v' rest, post = (.uint k', v') :: rest → KeyPasses required (n + 1) k' := by
  refine request_insert_iff hknown hq hunknown (fun key h => known_add_one ((hrange key).mp h).2 hlast) ?_
  intro s₁ p key read r _ hzero _ hk hkey hmember
  have hnone := unknown_after hrange hunknown hzero hk hkey
  obtain ⟨read₀, hread₀, -⟩ := member_some hmember
  rw [hread₀] at hnone
  cases hnone

end

/-! ### Requests -/

namespace MapCommand

private theorem isSome_ite {c : Prop} [Decidable c] {a : α} {o : Option α} : (if c then some a else o).isSome = true ↔ c ∨ o.isSome = true := by
  by_cases h : c <;> simp [h]

/-- The entries of a table are those of its rows. -/
private theorem entry_row {c : Prop} [Decidable c] {a : α} {o : Option α} {P : α → Prop} (ha : c → P a) (ho : ∀ b, o = some b → P b) :
    ∀ b, (if c then some a else o) = some b → P b := by
  intro b h
  by_cases hc : c
  · rw [if_pos hc] at h
    exact Option.some.inj h ▸ ha hc
  · rw [if_neg hc] at h
    exact ho b h

private theorem entry_end {P : α → Prop} : ∀ b, none = some b → P b := nofun

private theorem makeCredential_range (key : UInt64) : (makeCredentialMember key).isSome = true ↔ 1 ≤ key ∧ key ≤ 10 := by
  rw [makeCredentialMember]
  simp only [isSome_ite, Option.isSome_none, Bool.false_eq_true, or_false, UInt64.le_iff_toNat_le, ← UInt64.toNat_inj, UInt64.reduceToNat]
  omega

private theorem getAssertion_range (key : UInt64) : (getAssertionMember key).isSome = true ↔ 1 ≤ key ∧ key ≤ 7 := by
  rw [getAssertionMember]
  simp only [isSome_ite, Option.isSome_none, Bool.false_eq_true, or_false, UInt64.le_iff_toNat_le, ← UInt64.toNat_inj, UInt64.reduceToNat]
  omega

private theorem credMgmt_range (key : UInt64) : (credMgmtMember key).isSome = true ↔ 1 ≤ key ∧ key ≤ 4 := by
  rw [credMgmtMember]
  simp only [isSome_ite, Option.isSome_none, Bool.false_eq_true, or_false, UInt64.le_iff_toNat_le, ← UInt64.toNat_inj, UInt64.reduceToNat]
  omega

/-- clientPIN knows 9 and 10, but not 7 and 8. -/
private theorem clientPin_range (key : UInt64) : (clientPinMember key).isSome = true ↔ 1 ≤ key ∧ key ≤ 10 ∧ key ≠ 7 ∧ key ≠ 8 := by
  rw [clientPinMember]
  simp only [isSome_ite, Option.isSome_none, Bool.false_eq_true, or_false, UInt64.le_iff_toNat_le, ne_eq, ← UInt64.toNat_inj,
    UInt64.reduceToNat]
  omega

private def pinField (key : UInt64) (s : ClientPinVars) : UInt64 :=
  if key = 1 then s.pinUvAuthProtocol else if key = 2 then s.subcommand else if key = 9 then s.permissions else 0

/-- A number is taken by the fields for numbers only. -/
private theorem clientPin_reads {key n : UInt64} {read : Member ClientPinVars} {s s' : ClientPinVars} (hmember : clientPinMember key = some read)
    (h : read s (.uint n) = .ok s') : pinField key s' = n := by
  revert read
  unfold clientPinMember
  repeat' apply entry_row
  all_goals first | exact entry_end | (rintro rfl h; cases h <;> rfl)

private theorem clientPin_frame {key key' : UInt64} {read : Member ClientPinVars} {s s' : ClientPinVars} {v : CborValue}
    (hmember : clientPinMember key = some read) (h : read s v = .ok s') (hne : key' ≠ key) : pinField key' s' = pinField key' s := by
  revert read
  unfold clientPinMember
  repeat' apply entry_row
  all_goals first
    | exact entry_end
    | (rintro rfl h
       obtain ⟨a, -, rfl⟩ := map_ok_iff.mp h
       simp [pinField, hne])

private def uintOf : CborValue → UInt64
  | .uint n => n
  | _ => 0

/-- The keys 9 and 10 may come after an unknown one, and would take the next key for their value. -/
private def clientPinWatched : Observed clientPin.loop ClientPinVars UInt64 where
  view := Prod.snd
  field := pinField
  val := uintOf
  Own n := n = 0 ∨ (clientPinMember n).isSome = true
  Ready s := s.1 ≠ 0
  accept_view h := by
    obtain ⟨-, rfl⟩ := accept_iff.mp h
    rfl
  accept_ready h hmember := by
    obtain ⟨-, rfl⟩ := accept_iff.mp h
    obtain ⟨read₀, hread₀, -⟩ := member_some hmember
    have hsome : (clientPinMember _).isSome = true := Option.isSome_iff_exists.mpr ⟨read₀, hread₀⟩
    exact known_add_one ((clientPin_range _).mp hsome).2.1 (by decide)
  read_ready hmember h hready := by
    obtain ⟨read₀, -, rfl⟩ := member_some hmember
    obtain ⟨t, -, rfl⟩ := map_ok_iff.mp h
    exact hready
  read_field hmember h hkey := by
    obtain rfl := fieldGetUint_ok hkey
    obtain ⟨read₀, hread₀, rfl⟩ := member_some hmember
    obtain ⟨t, ht, rfl⟩ := map_ok_iff.mp h
    exact clientPin_reads hread₀ ht
  read_frame hmember h hne := by
    obtain ⟨read₀, hread₀, rfl⟩ := member_some hmember
    obtain ⟨t, ht, rfl⟩ := map_ok_iff.mp h
    exact clientPin_frame hread₀ ht hne
  known_own hkey hmember := by
    obtain rfl := fieldGetUint_ok hkey
    obtain ⟨read₀, hread₀, -⟩ := member_some hmember
    exact Or.inr (Option.isSome_iff_exists.mpr ⟨read₀, hread₀⟩)
  unknown_not_own {s s' v key} hready hkey haccept hmember hown := by
    obtain rfl := fieldGetUint_ok hkey
    obtain ⟨⟨-, hlate⟩, -⟩ := accept_iff.mp haccept
    rcases hown with hzero | hknown
    · have hzero : key = 0 := hzero
      have hready : s.1 ≠ 0 := hready
      simp only [hzero, UInt64.lt_iff_toNat_lt, ne_eq, ← UInt64.toNat_inj, UInt64.reduceToNat] at *
      omega
    · have hnone : clientPinMember key = none := Option.map_eq_none_iff.mp hmember
      have hknown : (clientPinMember key).isSome = true := hknown
      rw [hnone] at hknown
      cases hknown

/-- A request of the members that a command has, each once, in an order and with values that it accepts. -/
structure WellFormed (c : MapCommand) (members : Members) : Prop where
  known : Known c.loop members
  distinct : Distinct c.loop members
  accepted : ∃ s, c.parse members = .ok s

variable [Sdk] [ObjectLibrary]

/-- The command decodes the same from both requests, and answers the same in every state. -/
def Alike (c : MapCommand) (r r' : Members) : Prop :=
  c.parse r' = c.parse r ∧ ∀ d, authenticate (.cbor (c.request r')) d = authenticate (.cbor (c.request r)) d

/-- What a member with an unknown key needs, so that it makes no difference: it comes after the required ones, its value is an
unknown key greater than its own, and the next key is greater than that. -/
def PassesUint (c : MapCommand) (pre post : Members) (k : UInt64) (v : CborValue) : Prop :=
  KeyPasses c.required (expectedKey 1 pre) k ∧ ∃ n, v = .uint n ∧ (c.member n).isSome = false ∧ KeyPasses c.required (k + 1) n ∧
    ∀ k' v' rest, post = (.uint k', v') :: rest → KeyPasses c.required (n + 1) k'

omit [Sdk] [ObjectLibrary] in
private theorem request_congr {c : MapCommand} {r r' : Members} (h : c.parse r' = c.parse r) : c.request r' = c.request r := by
  cases c <;> simp only [request, h]

theorem alike_iff {c : MapCommand} {r r' : Members} {s : c.Vars} (h : c.parse r = .ok s) : c.Alike r r' ↔ c.parse r' = .ok s :=
  ⟨fun halike => halike.1.trans h, fun hsame => ⟨hsame.trans h.symm, fun d => by rw [request_congr (hsame.trans h.symm)]⟩⟩

private theorem insert_alike (c : MapCommand) {pre post : Members} {k : UInt64} {v : CborValue} (hwell : c.WellFormed (pre ++ post))
    (hunknown : (c.member k).isSome = false) : c.Alike (pre ++ post) (pre ++ (.uint k, v) :: post) ↔ c.PassesUint pre post k v := by
  obtain ⟨hknown, hdistinct, s, hs⟩ := hwell
  have hnone : c.member k = none := Option.isNone_iff_eq_none.mp (Option.isSome_eq_false_iff.mp hunknown)
  rw [alike_iff hs]
  cases c with
  | makeCredential => exact request_insert_gapless hknown hs hnone makeCredential_range (by decide)
  | getAssertion => exact request_insert_gapless hknown hs hnone getAssertion_range (by decide)
  | clientPin =>
    refine request_insert_iff hknown hs hnone (fun key h => known_add_one ((clientPin_range key).mp h).2.1 (by decide)) ?_
    intro s₁ p key read r hpre _ hpost _ _ hmember hr
    have hinit : ∀ key, clientPinWatched.Own (clientPinWatched.field key (clientPinWatched.view (1, clientPin.init))) := fun key => by
      refine Or.inl ?_
      simp only [clientPinWatched, pinField, init, ite_self]
    have hready : clientPinWatched.Ready (key + 1, s₁.2) := by
      obtain ⟨read₀, hread₀, -⟩ := member_some hmember
      exact known_add_one ((clientPin_range key).mp (Option.isSome_iff_exists.mpr ⟨read₀, hread₀⟩)).2.1 (by decide)
    have hview : clientPinWatched.view (key + 1, s₁.2) = clientPinWatched.view s₁ := rfl
    exact clientPinWatched.not_misaligned hknown hdistinct hinit hpre hpost hview hready hmember hr
  | credMgmt isPreview rawSubpara => exact request_insert_gapless hknown hs hnone credMgmt_range (by decide)

/-- A map with text keys inside a request: the loop that reads it, the keys it knows, and the request around it. -/
inductive Inside : MapCommand → (σ : Type) → MemberLoop σ CborValue Bytes CtapError → (Bytes → Bool) → (Members → Members) → Prop
  | rp (pre post : Members) :
    Inside makeCredential RpEntity rpLoop (fun key => (rpMember key).isSome) fun rp => pre ++ (.uint 0x02, .map rp) :: post
  | credParam (pre post : Members) (xs ys : List CborValue) :
    Inside makeCredential CredParameters credParamLoop (fun key => (credParamMember key).isSome)
      fun pk => pre ++ (.uint 0x04, .array (xs ++ .map pk :: ys)) :: post
  | excluded (pre post : Members) (xs ys : List CborValue) :
    Inside makeCredential CredentialDescriptor descriptorLoop (fun key => (descriptorMember key).isSome)
      fun pc => pre ++ (.uint 0x05, .array (xs ++ .map pc :: ys)) :: post
  | allowed (pre post : Members) (xs ys : List CborValue) :
    Inside getAssertion CredentialDescriptor descriptorLoop (fun key => (descriptorMember key).isSome)
      fun pc => pre ++ (.uint 0x03, .array (xs ++ .map pc :: ys)) :: post
  /-- The parameters of the subcommand are a map with unsigned keys, of which none stands twice. -/
  | credentialId (isPreview : Bool) (rawSubpara : Bytes) (pre post a b : Members)
    (known : ∀ pc, Known subparaLoop (a ++ (.uint 0x02, .map pc) :: b)) (distinct : ∀ pc, Distinct subparaLoop (a ++ (.uint 0x02, .map pc) :: b)) :
    Inside (credMgmt isPreview rawSubpara) CredentialDescriptor descriptorLoop (fun key => (descriptorMember key).isSome)
      fun pc => pre ++ (.uint 0x02, .map (a ++ (.uint 0x02, .map pc) :: b)) :: post

/-! ### Maps inside a request -/

omit [Sdk] [ObjectLibrary]

private theorem mcExtension_keeps {s s' : MakeCredentialVars} {v : CborValue} (h : parseMap mcExtensionLoop s v = .ok s') :
    (s'.rp, s'.pubKeyCredParams, s'.excludeList) = (s.rp, s.pubKeyCredParams, s.excludeList) := by
  cases v with
  | map members =>
    refine items_keeps (f := fun s : MakeCredentialVars => (s.rp, s.pubKeyCredParams, s.excludeList)) ?_ ?_ ?_ h
    · intro key s s' haccept
      cases haccept
      rfl
    · intro key read s v s' hmember
      replace hmember : mcExtensionMember key = some read := hmember
      revert read
      unfold mcExtensionMember
      repeat' apply entry_row
      all_goals first
        | (rintro rfl hread
           obtain ⟨_, -, rfl⟩ := map_ok_iff.mp hread
           rfl)
        | (rintro _ ⟨⟩ hread
           cases hread
           rfl)
    · intro read s v s' hpending
      cases hpending
  | _ => cases h

private theorem makeCredential_frame {key : UInt64} {read : Member MakeCredentialVars} {s s' : MakeCredentialVars} {v : CborValue}
    (hmember : makeCredentialMember key = some read) (h : read s v = .ok s') :
    (key ≠ 2 → s'.rp = s.rp) ∧ (key ≠ 4 → s'.pubKeyCredParams = s.pubKeyCredParams) ∧ (key ≠ 5 → s'.excludeList = s.excludeList) := by
  by_cases hextensions : key = 6
  · subst hextensions
    cases hmember
    obtain ⟨hrp, hrest⟩ := Prod.mk.inj (mcExtension_keeps h)
    obtain ⟨hparams, hexclude⟩ := Prod.mk.inj hrest
    exact ⟨fun _ => hrp, fun _ => hparams, fun _ => hexclude⟩
  · revert read
    unfold makeCredentialMember
    repeat' apply entry_row
    all_goals first
      | exact entry_end
      | exact fun hkey => absurd hkey hextensions
      | (rintro rfl h
         obtain ⟨_, -, rfl⟩ := map_ok_iff.mp h
         exact ⟨fun hne => (by first | rfl | contradiction), fun hne => (by first | rfl | contradiction),
           fun hne => (by first | rfl | contradiction)⟩)

private theorem gaExtension_keeps {s s' : GetAssertionVars} {v : CborValue} (h : parseMap gaExtensionLoop s v = .ok s') :
    s'.allowList = s.allowList := by
  cases v with
  | map members =>
    refine items_keeps (f := GetAssertionVars.allowList) ?_ ?_ ?_ h
    · intro key s s' haccept
      cases haccept
      rfl
    · intro key read s v s' hmember
      replace hmember : gaExtensionMember key = some read := hmember
      revert read
      unfold gaExtensionMember
      repeat' apply entry_row
      all_goals first
        | (rintro rfl hread
           obtain ⟨_, -, rfl⟩ := map_ok_iff.mp hread
           rfl)
        | (rintro _ ⟨⟩ hread
           cases hread
           rfl)
    · intro read s v s' hpending
      cases hpending
  | _ => cases h

private theorem getAssertion_frame {key : UInt64} {read : Member GetAssertionVars} {s s' : GetAssertionVars} {v : CborValue}
    (hmember : getAssertionMember key = some read) (h : read s v = .ok s') (hne : key ≠ 3) : s'.allowList = s.allowList := by
  by_cases hextensions : key = 4
  · subst hextensions
    cases hmember
    have hkeeps := gaExtension_keeps h
    exact hkeeps
  · revert read
    unfold getAssertionMember
    repeat' apply entry_row
    all_goals first
      | exact entry_end
      | exact fun hkey => absurd hkey hextensions
      | exact fun hkey => absurd hkey hne
      | (rintro rfl h
         obtain ⟨_, -, rfl⟩ := map_ok_iff.mp h
         rfl)

private theorem subpara_keeps {s s' : CredMgmtVars} {v : CborValue} (h : parseMap subparaLoop s v = .ok s') :
    s' = { s with rpIdHash := s'.rpIdHash, credentialId := s'.credentialId, user := s'.user } := by
  have hkeeps : (s'.subcommand, s'.pinUvAuthProtocol, s'.pinUvAuthParam) = (s.subcommand, s.pinUvAuthProtocol, s.pinUvAuthParam) := by
    cases v with
    | map members =>
      refine items_keeps (f := fun s : CredMgmtVars => (s.subcommand, s.pinUvAuthProtocol, s.pinUvAuthParam)) ?_ ?_ ?_ h
      · intro key s s' haccept
        cases haccept
        rfl
      · intro key read s v s' hmember
        replace hmember : subparaMember key = some read := hmember
        revert read
        unfold subparaMember
        repeat' apply entry_row
        all_goals first
          | exact entry_end
          | (rintro rfl hread
             obtain ⟨_, -, rfl⟩ := map_ok_iff.mp hread
             rfl)
      · intro read s v s' hpending
        cases hpending
    | _ => cases h
  obtain ⟨hsubcommand, hrest⟩ := Prod.mk.inj hkeeps
  obtain ⟨hprotocol, hparam⟩ := Prod.mk.inj hrest
  rw [← hsubcommand, ← hprotocol, ← hparam]

/-- What the subcommand's parameters fill. -/
private def subpara (s : CredMgmtVars) : Option Bytes × CredentialDescriptor × UserEntity := (s.rpIdHash, s.credentialId, s.user)

private theorem credMgmt_frame {key : UInt64} {read : Member CredMgmtVars} {s s' : CredMgmtVars} {v : CborValue}
    (hmember : credMgmtMember key = some read) (h : read s v = .ok s') (hne : key ≠ 2) : subpara s' = subpara s := by
  revert read
  unfold credMgmtMember
  repeat' apply entry_row
  all_goals first
    | exact entry_end
    | exact fun hkey => absurd hkey hne
    | (rintro rfl h
       obtain ⟨_, -, rfl⟩ := map_ok_iff.mp h
       rfl)

private theorem subpara_frame {key : UInt64} {read : Member CredMgmtVars} {s s' : CredMgmtVars} {v : CborValue}
    (hmember : subparaMember key = some read) (h : read s v = .ok s') (hne : key ≠ 2) : s'.credentialId = s.credentialId := by
  revert read
  unfold subparaMember
  repeat' apply entry_row
  all_goals first
    | exact entry_end
    | exact fun hkey => absurd hkey hne
    | (rintro rfl h
       obtain ⟨_, -, rfl⟩ := map_ok_iff.mp h
       rfl)

/-- The subcommand's parameters are read as the same exactly when the descriptor among them is. -/
private theorem subpara_replace_iff {a b : Members} {v v' : CborValue} {s s' : CredMgmtVars} (hknown : Known subparaLoop (a ++ (.uint 2, v) :: b))
    (hdistinct : Distinct subparaLoop (a ++ (.uint 2, v) :: b)) (h : parseMap subparaLoop s (.map (a ++ (.uint 2, v) :: b)) = .ok s') :
    ∃ pc, parseMap descriptorLoop s.credentialId v = .ok pc ∧
      (parseMap subparaLoop s (.map (a ++ (.uint 2, v') :: b)) = .ok s' ↔ parseMap descriptorLoop s.credentialId v' = .ok pc) := by
  have hset : ∀ t t' t'' : CredMgmtVars, ((parseMap descriptorLoop t.credentialId v).map fun pc => { t with credentialId := pc }) = .ok t' →
      ((parseMap descriptorLoop t.credentialId v').map fun pc => { t with credentialId := pc }) = .ok t'' →
      t''.credentialId = t'.credentialId → t'' = t' := fun t t' t'' h h' hsame => by
    obtain ⟨pc, -, rfl⟩ := map_ok_iff.mp h
    obtain ⟨pc', -, rfl⟩ := map_ok_iff.mp h'
    have hsame : pc' = pc := hsame
    rw [hsame]
  have haccept : ∀ key s s', subparaLoop.accept s key = .ok s' → id s' = id s := fun key s s' h => by
    cases h
    rfl
  obtain ⟨t, t', ht, hread, hiff⟩ := replace_iff hknown hdistinct rfl rfl haccept
    (fun key' read s v s' hne hmember hread => subpara_frame hmember hread hne) hset h
  have ht : t.credentialId = s.credentialId := ht
  rw [ht] at hread hiff
  obtain ⟨pc, hpc, rfl⟩ := map_ok_iff.mp hread
  refine ⟨pc, hpc, ?_⟩
  rw [map_ok_iff] at hiff
  constructor
  · intro hq
    obtain ⟨pc', hpc', hsame⟩ := hiff.mp ⟨s', hq, rfl⟩
    have heq : pc' = pc := congrArg CredMgmtVars.credentialId hsame
    rw [hpc', heq]
  · intro hpc'
    obtain ⟨q, hq, hsame⟩ := hiff.mpr ⟨pc, hpc', rfl⟩
    have hsame : q = s' := hsame
    rw [← hsame]
    exact hq

variable [Sdk] [ObjectLibrary]

private theorem inside_alike {c : MapCommand} {σ : Type} {l : MemberLoop σ CborValue Bytes CtapError} {knows : Bytes → Bool}
    {around : Members → Members} (hinside : Inside c σ l knows around) {a b : Members} {t : Bytes} {v : CborValue}
    (hknown : Known l (a ++ b)) (hdistinct : Distinct l (a ++ b)) (hunknown : knows (cString t) = false) (hwell : c.WellFormed (around (a ++ b))) :
    c.Alike (around (a ++ b)) (around (a ++ (.text t, v) :: b)) ↔ PassesText knows t v := by
  obtain ⟨hrequest, hdistinct', s, hs⟩ := hwell
  rw [alike_iff hs]
  cases hinside with
  | rp pre post =>
    obtain ⟨rp, hrp, hiff⟩ := request_field_iff (.map (a ++ (.text t, v) :: b)) (f := MakeCredentialVars.rp) hrequest hdistinct' rfl
      (fun _ _ => rfl) (fun _ _ _ _ _ hne hmember h => (makeCredential_frame hmember h).1 hne) hs
    exact hiff.trans (rp_insert_iff hknown hdistinct hunknown hrp)
  | credParam pre post xs ys =>
    obtain ⟨l, hl, hiff⟩ := request_field_iff (.array (xs ++ .map (a ++ (.text t, v) :: b) :: ys)) (f := MakeCredentialVars.pubKeyCredParams)
      hrequest hdistinct' rfl (fun _ _ => rfl) (fun _ _ _ _ _ hne hmember h => (makeCredential_frame hmember h).2.1 hne) hs
    obtain ⟨pk, hpk, hentry⟩ := parseArray_replace hl
    exact hiff.trans (hentry.trans (credParam_insert_iff hknown hdistinct hunknown hpk))
  | excluded pre post xs ys =>
    obtain ⟨l, hl, hiff⟩ := request_field_iff (.array (xs ++ .map (a ++ (.text t, v) :: b) :: ys)) (f := MakeCredentialVars.excludeList)
      hrequest hdistinct' rfl (fun _ _ => rfl) (fun _ _ _ _ _ hne hmember h => (makeCredential_frame hmember h).2.2 hne) hs
    obtain ⟨pc, hpc, hentry⟩ := parseArray_replace hl
    exact hiff.trans (hentry.trans (descriptor_insert_iff hknown hdistinct hunknown hpc))
  | allowed pre post xs ys =>
    obtain ⟨l, hl, hiff⟩ := request_field_iff (.array (xs ++ .map (a ++ (.text t, v) :: b) :: ys)) (f := GetAssertionVars.allowList)
      hrequest hdistinct' rfl (fun _ _ => rfl) (fun _ _ _ _ _ hne hmember h => getAssertion_frame hmember h hne) hs
    obtain ⟨pc, hpc, hentry⟩ := parseArray_replace hl
    exact hiff.trans (hentry.trans (descriptor_insert_iff hknown hdistinct hunknown hpc))
  | credentialId isPreview rawSubpara pre post x y known distinct =>
    obtain ⟨s₁, s₂, hstart, hs₂, hiff⟩ := request_replace_iff (.map (x ++ (.uint 0x02, .map (a ++ (.text t, v) :: b)) :: y)) (f := subpara)
      hrequest hdistinct' rfl (fun _ _ _ _ _ hne hmember h => credMgmt_frame hmember h hne)
      (fun t t' t'' h h' hsame => by
        obtain ⟨hrpIdHash, hrest⟩ := Prod.mk.inj hsame
        obtain ⟨hcredentialId, huser⟩ := Prod.mk.inj hrest
        rw [subpara_keeps h', subpara_keeps h, hrpIdHash, hcredentialId, huser]) hs
    obtain ⟨pc, hpc, hentry⟩ := subpara_replace_iff (known _) (distinct _) hs₂
    have hinit : s₁.credentialId = {} := congrArg (fun q => q.2.1) hstart
    rw [hinit] at hpc hentry
    exact hiff.trans (hentry.trans (descriptor_insert_iff hknown hdistinct hunknown hpc))

/-- A member that a command does not know makes no difference exactly when its value, which is read as the next key, is one that it
does not know either. -/
theorem unknown_members_ignored_iff (c : MapCommand) :
    (∀ (pre post : Members) (k : UInt64) (v : CborValue), c.WellFormed (pre ++ post) → (c.member k).isSome = false →
      (c.Alike (pre ++ post) (pre ++ (.uint k, v) :: post) ↔ c.PassesUint pre post k v)) ∧
    ∀ (σ : Type) (l : MemberLoop σ CborValue Bytes CtapError) (knows : Bytes → Bool) (around : Members → Members), Inside c σ l knows around →
      ∀ (a b : Members) (t : Bytes) (v : CborValue), Known l (a ++ b) → Distinct l (a ++ b) → knows (cString t) = false →
        c.WellFormed (around (a ++ b)) → (c.Alike (around (a ++ b)) (around (a ++ (.text t, v) :: b)) ↔ PassesText knows t v) :=
  ⟨fun _ _ _ _ hwell hunknown => insert_alike c hwell hunknown,
    fun _ _ _ _ hinside _ _ _ _ hknown hdistinct hunknown hwell => inside_alike hinside hknown hdistinct hunknown hwell⟩

end MapCommand

/-! ### On a plain device -/

section Plain
attribute [local instance] plainSdk plainLibrary
open MapCommand

private def rpA : Members := [(.text (Cbor.ascii "id"), .text (Cbor.ascii "a"))]

/-- A registration of a user of the RP "a". -/
private def registration (rp : Members) : Members :=
  [(.uint 1, .bytes (List.replicate 32 0)), (.uint 2, .map rp), (.uint 3, .map [(.text (Cbor.ascii "id"), .bytes [1])]),
    (.uint 4, .array [.map [(.text (Cbor.ascii "alg"), .nint 6), (.text (Cbor.ascii "type"), .text (Cbor.ascii "public-key"))]])]

private theorem registration_wellFormed : MapCommand.makeCredential.WellFormed (registration rpA) where
  known m hm := by
    simp only [registration, List.mem_cons, List.not_mem_nil, or_false] at hm
    rcases hm with rfl | rfl | rfl | rfl <;> exact ⟨_, _, rfl, rfl⟩
  distinct := by
    simp only [Distinct, registration, List.map_cons, List.map_nil, List.pairwise_cons, List.mem_cons, List.not_mem_nil, or_false]
    refine ⟨?_, ?_, ?_, ?_, List.Pairwise.nil⟩ <;> intro k hk <;> (try rcases hk with rfl | rfl | rfl) <;> intro h <;> cases h
  accepted := Handler.exists_ok (by decide +kernel)

private theorem rpA_known : Known rpLoop rpA := fun m hm => by
  obtain rfl := List.mem_singleton.mp hm
  exact ⟨_, _, rfl, rfl⟩

/-- The key 11 with the value 12, and in the RP the text "icon" with a text that is no key either, go unnoticed. -/
theorem unknown_numbers_ignored : MapCommand.makeCredential.Alike (registration rpA) (registration rpA ++ [(.uint 11, .uint 12)]) ∧
    MapCommand.makeCredential.Alike (registration rpA) (registration (rpA ++ [(.text (Cbor.ascii "icon"), .text (Cbor.ascii "logo"))])) := by
  obtain ⟨htop, hinside⟩ := unknown_members_ignored_iff MapCommand.makeCredential
  constructor
  · refine (htop (registration rpA) [] 11 (.uint 12) (by rw [List.append_nil]; exact registration_wellFormed) rfl).mpr ?_
    refine ⟨⟨by decide, by decide⟩, 12, rfl, rfl, ⟨by decide, by decide⟩, fun k' v' rest hnil => ?_⟩
    cases hnil
  · refine (hinside _ _ _ _ (.rp [(.uint 1, .bytes (List.replicate 32 0))] _) rpA [] (Cbor.ascii "icon") (.text (Cbor.ascii "logo"))
      rpA_known (List.pairwise_singleton _ _) (by decide) registration_wellFormed).mpr ?_
    exact ⟨by decide, Cbor.ascii "logo", rfl, by decide, by decide⟩

/-- Attestation formats (11) are a list, which is no key: the registration is refused. In the RP the value "name" of an unknown key is
taken for the next key: the id is lost, and "id" becomes the name. -/
theorem unknown_members_noticed :
    MapCommand.makeCredential.WellFormed (registration rpA) ∧ (MapCommand.makeCredential.member 11).isSome = false ∧
      ¬ MapCommand.makeCredential.Alike (registration rpA) (registration rpA ++ [(.uint 11, .array [.text (Cbor.ascii "none")])]) ∧
      (rpMember (Cbor.ascii "icon")).isSome = false ∧
      ¬ MapCommand.makeCredential.Alike (registration rpA)
        (registration ((.text (Cbor.ascii "icon"), .text (Cbor.ascii "name")) :: rpA)) := by
  refine ⟨registration_wellFormed, rfl, fun halike => ?_, by decide, fun halike => ?_⟩
  · have haccepted := congrArg Except.toBool halike.1
    revert haccepted
    decide +kernel
  · have hid := congrArg (fun x : Except CtapError MakeCredentialVars => x.toOption.map fun s => s.rp.id.isSome) halike.1
    revert hid
    decide +kernel

end Plain
end FidoTouch.Ctap
