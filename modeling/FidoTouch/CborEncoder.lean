import FidoTouch.CborValues

/-! tinycbor's encoder: each call appends to a buffer of given size, and every open container counts its items. -/
namespace FidoTouch.Cbor

/-- `cbor_encode_uint` and its siblings, `cbor_encoder_create_array`, `cbor_encoder_create_map`, `cbor_encoder_close_container` -/
inductive Call where
  | uint (n : Nat)
  | negativeInt (n : Nat)
  | byteString (b : Bytes)
  | textString (b : Bytes)
  | boolean (b : Bool)
  | createArray (n : Nat)
  | createMap (n : Nat)
  | closeContainer

/-- `remaining` has one number more than the items to come for each open container, the innermost first. -/
structure Encoder where
  written : Bytes
  room : Nat
  remaining : List Nat

inductive EncoderError where
  | outOfMemory | tooManyItems | tooFewItems
  deriving DecidableEq, Repr

namespace Call

/-- `cbor_encode_text_stringz` -/
def text (s : String) : Call := .textString (ascii s)

def bytes : Call → Bytes
  | .uint n => Cbor.uint n
  | .negativeInt n => Cbor.negativeInt n
  | .byteString b => Cbor.byteString b
  | .textString b => Cbor.textString b
  | .boolean b => Cbor.boolean b
  | .createArray n => Cbor.array n
  | .createMap n => Cbor.map n
  | .closeContainer => []

end Call

namespace Encoder

/-- `cbor_encoder_init` -/
def init (room : Nat) : Encoder := ⟨[], room, [2]⟩

/-- `saturated_decrement` on the innermost container -/
def decrement : List Nat → List Nat
  | [] => []
  | n :: rest => (n - 1) :: rest

def append (e : Encoder) (b : Bytes) (remaining : List Nat) : Except EncoderError Encoder :=
  if e.room < e.written.length + b.length then .error .outOfMemory
  else .ok { e with written := e.written ++ b, remaining := remaining }

/-- A container that is closed must have got just the items it was created for. -/
def close (e : Encoder) : Except EncoderError Encoder :=
  match e.remaining with
  | 1 :: rest => .ok { e with remaining := rest }
  | 0 :: _ => .error .tooManyItems
  | _ => .error .tooFewItems

def call (e : Encoder) (c : Call) : Except EncoderError Encoder :=
  match c with
  | .createArray n => e.append c.bytes ((n + 1) :: decrement e.remaining)
  | .createMap n => e.append c.bytes ((2 * n + 1) :: decrement e.remaining)
  | .closeContainer => e.close
  | _ => e.append c.bytes (decrement e.remaining)

def run : Encoder → List Call → Except EncoderError Encoder
  | e, [] => .ok e
  | e, c :: cs => e.call c >>= fun e => e.run cs

theorem run_append (e : Encoder) (l r : List Call) : e.run (l ++ r) = e.run l >>= fun e => e.run r := by
  induction l generalizing e with
  | nil => rfl
  | cons c l ih =>
    rw [List.cons_append, run, run]
    cases e.call c with
    | error => rfl
    | ok e' => exact ih e'

/-! ### What the calls write -/

private theorem append_ok {e e' : Encoder} {b : Bytes} {remaining : List Nat} (h : e.append b remaining = .ok e') :
    e'.written = e.written ++ b ∧ e'.room = e.room ∧ e'.written.length ≤ e'.room := by
  unfold append at h
  split at h
  · cases h
  · next hroom =>
    cases h
    exact ⟨rfl, rfl, by dsimp only; rw [List.length_append]; omega⟩

private theorem call_ok {e e' : Encoder} {c : Call} (h : e.call c = .ok e') :
    e'.written = e.written ++ c.bytes ∧ e'.room = e.room ∧ (e.written.length ≤ e.room → e'.written.length ≤ e'.room) := by
  cases c with
  | closeContainer =>
    rw [call, close] at h
    split at h
    · cases h
      exact ⟨(List.append_nil _).symm, rfl, id⟩
    · cases h
    · cases h
  | _ =>
    obtain ⟨hwritten, hroom, hfits⟩ := append_ok h
    exact ⟨hwritten, hroom, fun _ => hfits⟩

/-- Calls that succeed have written their bytes, and these fit. -/
theorem run_ok {e e' : Encoder} {cs : List Call} (h : e.run cs = .ok e') :
    e'.written = e.written ++ cs.flatMap Call.bytes ∧ e'.room = e.room ∧ (e.written.length ≤ e.room → e'.written.length ≤ e'.room) := by
  induction cs generalizing e with
  | nil =>
    cases h
    exact ⟨(List.append_nil _).symm, rfl, id⟩
  | cons c cs ih =>
    rw [run] at h
    cases hcall : e.call c with
    | error =>
      rw [hcall] at h
      cases h
    | ok e₁ =>
      rw [hcall] at h
      obtain ⟨hwritten, hroom, hfits⟩ := call_ok hcall
      obtain ⟨hwritten', hroom', hfits'⟩ := ih h
      exact ⟨by rw [hwritten', hwritten, List.append_assoc, List.flatMap_cons], hroom'.trans hroom, hfits' ∘ hfits⟩

end Encoder

/-! ### The calls for a value -/

namespace Value

mutual

/-- The calls that write the value. -/
def calls : Value → List Call
  | .uint n => [.uint n]
  | .negative n => [.negativeInt n]
  | .bytes b => [.byteString b]
  | .text b => [.textString b]
  | .bool b => [.boolean b]
  | .array items => .createArray items.length :: (callsAll items ++ [.closeContainer])
  | .map entries => .createMap entries.length :: (callsEntries entries ++ [.closeContainer])

def callsAll : List Value → List Call
  | [] => []
  | v :: vs => calls v ++ callsAll vs

def callsEntries : List (Value × Value) → List Call
  | [] => []
  | e :: es => callsEntry e ++ callsEntries es

def callsEntry : Value × Value → List Call
  | (k, v) => calls k ++ calls v

end

theorem callsEntries_append (es es' : List (Value × Value)) : callsEntries (es ++ es') = callsEntries es ++ callsEntries es' := by
  induction es with
  | nil => rfl
  | cons e es ih => rw [List.cons_append, callsEntries, callsEntries, ih, List.append_assoc]

end Value

namespace Encoder
open Value

/-- The encoder after one more item. -/
def wrote (e : Encoder) (b : Bytes) : Encoder := { e with written := e.written ++ b, remaining := decrement e.remaining }

private theorem append_fits {e : Encoder} {b : Bytes} (h : e.written.length + b.length ≤ e.room) (remaining : List Nat) :
    e.append b remaining = .ok { e with written := e.written ++ b, remaining := remaining } := if_neg (by omega)

private theorem run_single {e : Encoder} {c : Call} {b : Bytes} (hcall : e.call c = e.append b (decrement e.remaining))
    (h : e.written.length + b.length ≤ e.room) : e.run [c] = .ok (e.wrote b) := by
  rw [run, hcall, append_fits h]
  rfl

/-- A container is opened, filled with as many items as it was created for, and closed. -/
private theorem run_container {e : Encoder} {c : Call} {cs : List Call} {n : Nat} {b : Bytes}
    (hcall : e.call c = e.append c.bytes ((n + 1) :: decrement e.remaining)) (h : e.written.length + (c.bytes ++ b).length ≤ e.room)
    (hitems : ∀ e' : Encoder, e'.remaining = (n + 1) :: decrement e.remaining → e'.written.length + b.length ≤ e'.room →
      e'.run cs = .ok { e' with written := e'.written ++ b, remaining := 1 :: decrement e.remaining }) :
    e.run (c :: (cs ++ [.closeContainer])) = .ok (e.wrote (c.bytes ++ b)) := by
  rw [List.length_append] at h
  rw [run, hcall, append_fits (by omega)]
  show Encoder.run _ (cs ++ [.closeContainer]) = _
  rw [run_append, hitems _ rfl (by dsimp only; rw [List.length_append]; omega)]
  simp only [wrote, List.append_assoc]
  rfl

mutual

/-- With room enough the calls for a value write it, as one item of the container around it. -/
theorem run_calls (v : Value) {e : Encoder} (h : e.written.length + v.encode.length ≤ e.room) : e.run v.calls = .ok (e.wrote v.encode) := by
  cases v with
  | array items =>
    exact run_container (c := .createArray items.length) rfl h fun e' hremaining hroom =>
      runAll_calls items (c := 1) (by rw [hremaining, Nat.add_comm]) hroom
  | map entries =>
    exact run_container (c := .createMap entries.length) rfl h fun e' hremaining hroom =>
      runEntries_calls entries (c := 1) (by rw [hremaining, Nat.add_comm]) hroom
  | _ => exact run_single rfl h

theorem runAll_calls (vs : List Value) {e : Encoder} {c : Nat} {rest : List Nat} (hremaining : e.remaining = (c + vs.length) :: rest)
    (h : e.written.length + (encodeAll vs).length ≤ e.room) :
    e.run (callsAll vs) = .ok { e with written := e.written ++ encodeAll vs, remaining := c :: rest } := by
  cases vs with
  | nil =>
    rw [callsAll, encodeAll, run, List.append_nil]
    exact congrArg Except.ok (by rw [← show e.remaining = c :: rest from hremaining])
  | cons v vs =>
    rw [encodeAll, List.length_append] at h
    rw [callsAll, run_append, run_calls v (by omega)]
    show Encoder.run _ (callsAll vs) = _
    have hvs : (e.wrote v.encode).remaining = (c + vs.length) :: rest := by
      simp only [wrote, hremaining, decrement, List.length_cons]
      rfl
    rw [runAll_calls vs hvs (by simp only [wrote, List.length_append]; omega)]
    simp only [wrote, encodeAll, List.append_assoc]

theorem runEntries_calls (es : List (Value × Value)) {e : Encoder} {c : Nat} {rest : List Nat}
    (hremaining : e.remaining = (c + 2 * es.length) :: rest) (h : e.written.length + (encodeEntries es).length ≤ e.room) :
    e.run (callsEntries es) = .ok { e with written := e.written ++ encodeEntries es, remaining := c :: rest } := by
  match es, hremaining, h with
  | [], hremaining, _ =>
    rw [callsEntries, encodeEntries, run, List.append_nil]
    exact congrArg Except.ok (by rw [← show e.remaining = c :: rest from hremaining])
  | (k, v) :: es, hremaining, h =>
    rw [encodeEntries, encodeEntry, List.length_append, List.length_append] at h
    rw [callsEntries, callsEntry, List.append_assoc, run_append, run_calls k (by omega)]
    show Encoder.run _ (calls v ++ callsEntries es) = _
    rw [run_append, run_calls v (by simp only [wrote, List.length_append]; omega)]
    show Encoder.run _ (callsEntries es) = _
    have hes : ((e.wrote k.encode).wrote v.encode).remaining = (c + 2 * es.length) :: rest := by
      simp only [wrote, hremaining, decrement, List.length_cons]
      congr 1
    rw [runEntries_calls es hes (by simp only [wrote, List.length_append]; omega)]
    simp only [wrote, encodeEntries, encodeEntry, List.append_assoc]

end

end Encoder

namespace Value

mutual

/-- The calls for a value have its bytes. -/
theorem bytes_calls (v : Value) : v.calls.flatMap Call.bytes = v.encode := by
  cases v with
  | array items =>
    rw [calls, List.flatMap_cons, List.flatMap_append, bytes_callsAll items, encode]
    exact congrArg _ (List.append_nil _)
  | map entries =>
    rw [calls, List.flatMap_cons, List.flatMap_append, bytes_callsEntries entries, encode]
    exact congrArg _ (List.append_nil _)
  | _ => exact List.append_nil _

theorem bytes_callsAll (vs : List Value) : (callsAll vs).flatMap Call.bytes = encodeAll vs := by
  cases vs with
  | nil => rfl
  | cons v vs => rw [callsAll, List.flatMap_append, bytes_calls v, bytes_callsAll vs, encodeAll]

theorem bytes_callsEntries (es : List (Value × Value)) : (callsEntries es).flatMap Call.bytes = encodeEntries es := by
  match es with
  | [] => rfl
  | (k, v) :: es =>
    rw [callsEntries, callsEntry, List.flatMap_append, List.flatMap_append, bytes_calls k, bytes_calls v, bytes_callsEntries es,
      encodeEntries, encodeEntry]

end

end Value
end FidoTouch.Cbor
