import FidoTouch.Ctap.PlainDevice

/-! How long a token stays in use under a 32-bit clock. The deadlines wrap as the clock does, so the ticks decide
which clock values are ever compared with them. -/
namespace FidoTouch.Ctap
open FidoTouch.Program Handler

/-- One turn of the 32-bit clock. -/
def clockTurn : Nat := 4294967296

/-- The device when the real time in milliseconds is `t`. -/
def Device.at (d : Device) (t : Nat) : Device := { d with boardMillis := UInt32.ofNat t }

/-- `cbor_parse` runs `pin_uv_auth_token_tick` at the time `t`. -/
def tickAt (d : Device) (t : Nat) : Device := ticked (d.at t)

/-- A token is issued at the time `s`, and the tick runs at each of the times. -/
def issueAndTick (d : Device) (userIsPresent : Bool) (s : Nat) (ticks : List Nat) : Device :=
  ticks.foldl tickAt ((beginUsingPinUvAuthToken userIsPresent : CtapOp Unit) (d.at s)).2

/-- The smaller of the two wrapped deadlines of a token issued at the clock value `u`. -/
def clockDeadline (u : Nat) : Nat :=
  if u < clockTurn - 600000 then u + 30000
  else if u < clockTurn - 30000 then u + 600000 - clockTurn
  else u + 30000 - clockTurn

/-! ### One tick -/

/-- In use since the clock value `u`. -/
structure InUseSince (u : UInt32) (d : Device) : Prop where
  inUse : d.paut.inUse = true
  usageTimer : d.usageTimer = u
  initialUsageTimeLimit : d.initialUsageTimeLimit = u

private theorem clearUserPresentFlag_timers (d : Device) :
    let d' := ((clearUserPresentFlag : CtapOp Unit) d).2
    d'.paut.inUse = d.paut.inUse ∧ d'.usageTimer = d.usageTimer ∧ d'.initialUsageTimeLimit = d.initialUsageTimeLimit := by
  unfold clearUserPresentFlag runIf
  rw [bind_eq (get_run d)]
  split <;> exact ⟨rfl, rfl, rfl⟩

private theorem stopUsing_inUse (d : Device) : ((stopUsingPinUvAuthToken : CtapOp Unit) d).2.paut.inUse = false := by
  unfold stopUsingPinUvAuthToken runIf
  rw [bind_eq (get_run d), bind_eq (modify_run _ d)]
  split <;> rfl

private theorem ticked_timers (d : Device) (h : d.usageTimer = 0 ∨ ¬ (d.paut.inUse = true ∧
      (d.usageTimer + maxUsageTimePeriod ≤ d.boardMillis ∨ d.initialUsageTimeLimit = 0 ∨
        d.initialUsageTimeLimit + transportTimeLimit ≤ d.boardMillis))) :
    (ticked d).paut.inUse = d.paut.inUse ∧ (ticked d).usageTimer = d.usageTimer ∧
      (ticked d).initialUsageTimeLimit = d.initialUsageTimeLimit := by
  unfold ticked pinUvAuthTokenTick
  rw [bind_eq (get_run d)]
  split
  · exact ⟨rfl, rfl, rfl⟩
  · next hoff =>
    rw [if_neg (h.resolve_left hoff)]
    unfold runIf
    split
    · exact clearUserPresentFlag_timers d
    · exact ⟨rfl, rfl, rfl⟩

/-- Between two ticks the deadline comparison is all that matters. -/
private theorem tickAt_inUse {u : UInt32} {d : Device} (h : InUseSince u d) (t : Nat)
    (hkeep : u = 0 ∨ ¬ (u + maxUsageTimePeriod ≤ UInt32.ofNat t ∨ u + transportTimeLimit ≤ UInt32.ofNat t)) :
    InUseSince u (tickAt d t) := by
  have hkept : (d.at t).usageTimer = 0 ∨ ¬ ((d.at t).paut.inUse = true ∧
      ((d.at t).usageTimer + maxUsageTimePeriod ≤ (d.at t).boardMillis ∨ (d.at t).initialUsageTimeLimit = 0 ∨
        (d.at t).initialUsageTimeLimit + transportTimeLimit ≤ (d.at t).boardMillis)) := by
    have htimer : (d.at t).usageTimer = u := h.usageTimer
    have hinitial : (d.at t).initialUsageTimeLimit = u := h.initialUsageTimeLimit
    rw [htimer, hinitial]
    by_cases hu : u = 0
    · exact .inl hu
    · refine .inr fun hstop => hkeep.resolve_left hu ?_
      exact hstop.2.imp id fun hlimit => hlimit.resolve_left hu
  obtain ⟨huse, htimer, hinitial⟩ := ticked_timers (d.at t) hkept
  exact ⟨huse.trans h.inUse, htimer.trans h.usageTimer, hinitial.trans h.initialUsageTimeLimit⟩

private theorem tickAt_stops {u : UInt32} {d : Device} (h : InUseSince u d) (t : Nat) (hu : u ≠ 0)
    (hdue : u + maxUsageTimePeriod ≤ UInt32.ofNat t ∨ u + transportTimeLimit ≤ UInt32.ofNat t) :
    (tickAt d t).paut.inUse = false := by
  have htimer : (d.at t).usageTimer = u := h.usageTimer
  have hinitial : (d.at t).initialUsageTimeLimit = u := h.initialUsageTimeLimit
  unfold tickAt ticked pinUvAuthTokenTick
  rw [bind_eq (get_run (d.at t)), htimer, hinitial, if_neg hu, if_pos ⟨h.inUse, hdue.imp id .inr⟩]
  exact stopUsing_inUse _

private theorem tickAt_stopped {d : Device} (h : d.paut.inUse = false) (t : Nat) : (tickAt d t).paut.inUse = false := by
  have huse : (d.at t).paut.inUse = false := h
  exact (ticked_timers (d.at t) (.inr fun hstop => by rw [huse] at hstop; exact Bool.false_ne_true hstop.1)).1.trans huse

/-! ### Any number of ticks -/

private theorem foldl_stopped {d : Device} (h : d.paut.inUse = false) (ticks : List Nat) :
    (ticks.foldl tickAt d).paut.inUse = false := by
  induction ticks generalizing d with
  | nil => exact h
  | cons t ticks ih => exact ih (tickAt_stopped h t)

/-- A clock value is past one of the two deadlines when it is past the smaller. -/
private theorem due_iff {u : Nat} (hu : u < clockTurn) (x : Nat) :
    (UInt32.ofNat u + maxUsageTimePeriod ≤ UInt32.ofNat x ∨ UInt32.ofNat u + transportTimeLimit ≤ UInt32.ofNat x) ↔
      clockDeadline u ≤ x % clockTurn := by
  have hlong : maxUsageTimePeriod.toNat = 600000 := rfl
  have hshort : transportTimeLimit.toNat = 30000 := rfl
  have hturn : clockTurn = 4294967296 := rfl
  rw [UInt32.le_iff_toNat_le, UInt32.le_iff_toNat_le, UInt32.toNat_add, UInt32.toNat_add, UInt32.toNat_ofNat',
    UInt32.toNat_ofNat', hlong, hshort]
  unfold clockDeadline
  rw [hturn] at hu ⊢
  split
  · omega
  · split <;> omega

/-- A token issued at the clock value zero never stops. -/
private theorem foldl_off {d : Device} (h : InUseSince 0 d) (ticks : List Nat) : InUseSince 0 (ticks.foldl tickAt d) := by
  induction ticks generalizing d with
  | nil => exact h
  | cons t ticks ih => exact ih (tickAt_inUse h t (.inl rfl))

private theorem foldl_inUse {u : Nat} (hu : u < clockTurn) (hpos : u ≠ 0) {d : Device} (h : InUseSince (UInt32.ofNat u) d)
    (ticks : List Nat) : (ticks.foldl tickAt d).paut.inUse = true ↔ ∀ x ∈ ticks, x % clockTurn < clockDeadline u := by
  have hon : UInt32.ofNat u ≠ 0 := by
    intro hzero
    have hnat := congrArg UInt32.toNat hzero
    rw [UInt32.toNat_ofNat', UInt32.toNat_zero] at hnat
    exact hpos ((Nat.mod_eq_of_lt hu).symm.trans hnat)
  induction ticks generalizing d with
  | nil => simpa using h.inUse
  | cons t ticks ih =>
    rw [List.foldl_cons, List.forall_mem_cons]
    rcases Nat.lt_or_ge (t % clockTurn) (clockDeadline u) with hlt | hge
    · have hnext := tickAt_inUse h t (.inr fun hdue => Nat.not_le.mpr hlt ((due_iff hu t).mp hdue))
      exact (ih hnext).trans (and_iff_right hlt).symm
    · have hstopped := foldl_stopped (tickAt_stops h t hon ((due_iff hu t).mpr hge)) ticks
      rw [hstopped]
      constructor
      · intro hno
        cases hno
      · intro hall
        exact absurd hall.1 (Nat.not_lt.mpr hge)

/-! ### The lifetime -/

/-- The tick at `t` finds the token as it should. Young, it is found in use unless the issue came so late in the turn
of the clock that a deadline wrapped below it; old, some tick must have seen the clock past the deadline. -/
def OnTime (s : Nat) (ticks : List Nat) (t : Nat) : Prop :=
  if t - s < 30000 then
    s % clockTurn < clockTurn - 600000 ∨
      clockTurn - 30000 ≤ s % clockTurn ∧ ∀ x ∈ ticks ++ [t], clockTurn ≤ s % clockTurn + (x - s)
  else s % clockTurn ≠ 0 ∧ ∃ x ∈ ticks ++ [t], clockDeadline (s % clockTurn) ≤ x % clockTurn

theorem issued_inUse (d : Device) (userIsPresent : Bool) (s : Nat) :
    InUseSince (UInt32.ofNat (s % clockTurn)) ((beginUsingPinUvAuthToken userIsPresent : CtapOp Unit) (d.at s)).2 := by
  have hs : UInt32.ofNat s = UInt32.ofNat (s % clockTurn) := by
    apply UInt32.toNat_inj.mp
    rw [UInt32.toNat_ofNat', UInt32.toNat_ofNat']
    exact (Nat.mod_mod s clockTurn).symm
  exact ⟨rfl, hs, hs⟩

/-- While the token is young a tick sees the clock before the deadline, unless a deadline wrapped and the clock did not. -/
private theorem young_iff {s x : Nat} (hsx : s ≤ x) (hyoung : x - s < 30000) :
    x % clockTurn < clockDeadline (s % clockTurn) ↔ s % clockTurn < clockTurn - 600000 ∨
      clockTurn - 30000 ≤ s % clockTurn ∧ clockTurn ≤ s % clockTurn + (x - s) := by
  have hturn : clockTurn = 4294967296 := rfl
  unfold clockDeadline
  rw [hturn]
  split
  · omega
  · split <;> omega

theorem token_lifetime_iff (d : Device) (userIsPresent : Bool) {s t : Nat} {ticks : List Nat} (hst : s ≤ t)
    (hticks : ∀ x ∈ ticks, s ≤ x ∧ x ≤ t) :
    ((issueAndTick d userIsPresent s (ticks ++ [t])).paut.inUse = true ↔ t - s < 30000) ↔ OnTime s ticks t := by
  have hall : ∀ x ∈ ticks ++ [t], s ≤ x ∧ x ≤ t := by
    intro x hx
    rcases List.mem_append.mp hx with hx | hx
    · exact hticks x hx
    · obtain rfl := List.mem_singleton.mp hx
      exact ⟨hst, Nat.le_refl _⟩
  have hu : s % clockTurn < clockTurn := Nat.mod_lt _ (by decide)
  unfold issueAndTick OnTime
  rcases Nat.eq_zero_or_pos (s % clockTurn) with hzero | hpos
  · have huse := (foldl_off (hzero ▸ issued_inUse d userIsPresent s) (ticks ++ [t])).inUse
    rw [huse, hzero]
    split <;> simp_all [clockTurn]
  · rw [foldl_inUse hu (Nat.ne_of_gt hpos) (issued_inUse d userIsPresent s) (ticks ++ [t])]
    split
    · next hyoung =>
      have hiff : ∀ x ∈ ticks ++ [t], x % clockTurn < clockDeadline (s % clockTurn) ↔ s % clockTurn < clockTurn - 600000 ∨
          clockTurn - 30000 ≤ s % clockTurn ∧ clockTurn ≤ s % clockTurn + (x - s) := fun x hx =>
        young_iff (hall x hx).1 (Nat.lt_of_le_of_lt (Nat.sub_le_sub_right (hall x hx).2 s) hyoung)
      rw [iff_true_right hyoung]
      constructor
      · intro hkept
        rcases (hiff t (by simp)).mp (hkept t (by simp)) with hearly | ⟨hlate, -⟩
        · exact .inl hearly
        · refine .inr ⟨hlate, fun x hx => ?_⟩
          exact ((hiff x hx).mp (hkept x hx)).elim (fun hearly => absurd hearly (by simp only [clockTurn] at *; omega)) And.right
      · intro hok x hx
        exact (hiff x hx).mpr (hok.imp id fun hlate => ⟨hlate.1, hlate.2 x hx⟩)
    · next hold =>
      rw [iff_false_right hold]
      constructor
      · intro hstopped
        simp only [not_forall, Nat.not_lt] at hstopped
        obtain ⟨x, hx, hdue⟩ := hstopped
        exact ⟨Nat.ne_of_gt hpos, x, hx, hdue⟩
      · rintro ⟨-, x, hx, hdue⟩ hkept
        exact Nat.not_lt.mpr hdue (hkept x hx)

/-- An early issue, and a tick before and one at the end of the thirty seconds. -/
theorem early_token_on_time :
    (issueAndTick (plainDevice []) false 1000 ([20000] ++ [31000])).paut.inUse = true ↔ 31000 - 1000 < 30000 :=
  (token_lifetime_iff (plainDevice []) false (by decide) (by decide)).mpr <| by
    unfold OnTime
    rw [if_neg (by decide)]
    exact ⟨by decide, 31000, by simp, by decide⟩

/-- A token issued when the clock reads zero is in use for ever, and one issued late in a turn of it stops at once. -/
theorem clock_ends_spoil_lifetime :
    ¬ ((issueAndTick (plainDevice []) false 0 ([] ++ [30000])).paut.inUse = true ↔ 30000 - 0 < 30000) ∧
      ¬ ((issueAndTick (plainDevice []) false (clockTurn - 600000) ([] ++ [clockTurn - 600000])).paut.inUse = true ↔
        (clockTurn - 600000) - (clockTurn - 600000) < 30000) := by
  have atZero : (issueAndTick (plainDevice []) false 0 ([] ++ [30000])).paut.inUse = true := by decide +kernel
  have late : (issueAndTick (plainDevice []) false (clockTurn - 600000) ([] ++ [clockTurn - 600000])).paut.inUse = false := by
    decide +kernel
  rw [atZero, late]
  exact ⟨by decide, by decide⟩

end FidoTouch.Ctap
