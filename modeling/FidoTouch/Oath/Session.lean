import FidoTouch.Oath.Applet
import FidoTouch.Program.Runs

/-! Sessions of the OATH applet: commands and selections in any order. -/
namespace FidoTouch.Oath
open FidoTouch.Program Handler FidoTouch.Storage

variable [Sdk]

inductive Input where
  | select
  | apdu (apdu : Apdu)

def perform : Input → OathState → OathState
  | .select, s => (oathSelect s).2
  | .apdu apdu, s => (oathProcessApdu apdu s).2

def answered : Input → OathState → Bool
  | .select, s => (oathSelect s).1.toBool
  | .apdu apdu, s => (oathProcessApdu apdu s).1.toBool

/-- The applet as a machine that tells whether an input is answered without an error. -/
def applet : Machine OathState Input Bool := ⟨fun s i => (answered i s, perform i s)⟩

abbrev AppletMove := Move OathState Input Bool

omit [Sdk] in
theorem getFiles_run {ε : Type} (s : OathState) : (getFiles : Handler OathState ε Files) s = (.ok s.store.view, s) := rfl

/-- A command of the table answers, or the applet is left as it was. -/
theorem oathProcessApdu_cmd (apdu : Apdu) (s : OathState) :
    (apdu.cla = 0 ∧ capSupported s.store.view capOath = true ∧
      ∃ cmd ∈ cmds, cmd.1 = apdu.ins ∧ oathProcessApdu apdu s = cmd.2 apdu s) ∨
      ∃ e, oathProcessApdu apdu s = (.error e, s) := by
  unfold oathProcessApdu
  by_cases hcla : apdu.cla ≠ 0
  · rw [refuseIf_true hcla]
    exact .inr ⟨_, rfl⟩
  · rw [refuseIf_false hcla]
    simp only [bind_run, pure_run, getFiles, gets_run]
    split
    · next hcap =>
      cases hfind : cmds.find? fun cmd => cmd.1 = apdu.ins with
      | none => exact .inr ⟨_, rfl⟩
      | some cmd =>
        exact .inl ⟨not_not.1 hcla, hcap, cmd, List.mem_of_find?_eq_some hfind, by simpa using List.find?_some hfind, rfl⟩
    · exact .inr ⟨_, rfl⟩

/-- An enabled applet runs the command of an instruction. -/
theorem oathProcessApdu_run {apdu : Apdu} {s : OathState} {cmd : UInt8 × (Apdu → OathOp Unit)} (hcla : apdu.cla = 0)
    (hcap : capSupported s.store.view capOath = true) (hfind : cmds.find? (fun cmd => cmd.1 = apdu.ins) = some cmd) :
    oathProcessApdu apdu s = cmd.2 apdu s := by
  unfold oathProcessApdu
  rw [refuseIf_false (not_not.2 hcla)]
  simp only [bind_run, pure_run, getFiles, gets_run, hcap, if_true, hfind]

end FidoTouch.Oath
