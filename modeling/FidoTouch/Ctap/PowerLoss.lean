import FidoTouch.Ctap.PinFiles

/-! Losing power at any point: a message is cut, and the device starts on what was durable then. -/
namespace FidoTouch.Ctap
open FidoTouch.Program Handler FidoTouch.Storage

variable [Sdk] [ObjectLibrary] {I : Files → Prop} {im : Files} {d d' : Device} {i : Input}

/-- Starting on a durable image; a start may be cut as well. -/
inductive Starts : Files → Device → Prop
  | up (d : Device) : Starts d.store.durable d.boot
  | cut {d d' : Device} {im : Files} : d.powerUp.store.CrashImage d.boot.store im → Starts im d' →
    Starts d.store.durable d'

/-- How a message ends: it runs to its end, or the power is lost on the way. -/
inductive Ends (d : Device) (i : Input) : Device → Prop
  | completes : Ends d i (authenticate i d).2
  | cut {im : Files} {d' : Device} : d.store.CrashImage (authenticate i d).2.store im → Starts im d' → Ends d i d'

omit [ObjectLibrary] in
theorem boot_carries [ReadsOnly I IsPinFile] (d : Device) : Carries I d.powerUp.store d.boot.store :=
  (inferInstance : Keeps (InStore (Carries I)) (initFido : Handler Device PicoError Unit)).rel d.powerUp

omit [ObjectLibrary] in
/-- A power cycle that is cut was cut while the device started. -/
theorem crash_powerCycle (h : d.store.CrashImage d.boot.store im) : d.powerUp.store.CrashImage d.boot.store im := by
  rcases h with h | ⟨new, hlog, him⟩
  · exact .inl h
  · exact .inr ⟨d.boot.store.log, (List.append_nil _).symm, hlog ▸ List.mem_append_left _ him⟩

omit [ObjectLibrary] in
/-- Starting up changes nothing about the PIN. -/
theorem Starts.holds [ReadsOnly I IsPinFile] (h : Starts im d) (him : I im) : I d.store.view ∧ I d.store.durable := by
  induction h with
  | up d => exact ⟨(boot_carries d).view him, (boot_carries d).durable him him⟩
  | @cut d d' im hcut _ ih => exact ih ((boot_carries d).crash him him hcut)

end FidoTouch.Ctap
