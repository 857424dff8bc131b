/-
HearthStone.Network.Rc4Stream — what an `RC4Engine` does to a stream.

The permutation of an engine never depends on the bytes it processes: it
is determined by the key and by their number. An engine is therefore a
keystream and a position in it, and this is the form in which two ends
of a link can be compared.

* `RC4Engine.process_eq` — `Process` is xor with the keystream.
* `KeyPosition.process_simulates` — a key and a position in place of the
  engine.
-/
import HearthStone.Lib.Keystream
import HearthStone.Network.WowCrypt

namespace HearthStone

open Lib

namespace RC4Engine

/-- The engine after one more byte. -/
def turn (e : RC4Engine) : RC4Engine :=
  let index1 := e.index1 + 1
  let index2 := e.index2 + e.perm index1
  ⟨swap e.perm index1 index2, index1, index2⟩

/-- The byte that the last turn has made. -/
def output (e : RC4Engine) : UInt8 := e.perm (e.perm e.index1 + e.perm e.index2)

/-- The engine `n` bytes further. -/
def advance (e : RC4Engine) : Nat → RC4Engine
  | 0 => e
  | n + 1 => e.turn.advance n

/-- The keystream of an engine. -/
def keystream (e : RC4Engine) (n : Nat) : UInt8 := (e.advance n).turn.output

theorem advance_add (e : RC4Engine) (m n : Nat) :
    e.advance (m + n) = (e.advance m).advance n := by
  induction m generalizing e with
  | zero => simp [advance]
  | succ m ih =>
    rw [Nat.succ_add]
    exact ih e.turn

theorem keystream_advance (e : RC4Engine) (m n : Nat) :
    (e.advance m).keystream n = e.keystream (m + n) := by
  unfold keystream
  rw [advance_add]

/-- `Process` is xor with the keystream, and moves on by as many bytes. -/
theorem process_eq (e : RC4Engine) (bs : List UInt8) :
    e.process bs = (xorFrom e.keystream 0 bs, e.advance bs.length) := by
  induction bs generalizing e with
  | nil => rfl
  | cons b bs ih =>
    have hbyte : e.keystream 0 = e.turn.output := rfl
    have hrest : e.turn.keystream = fun i => e.keystream (i + 1) := rfl
    have hstep : e.process (b :: bs) =
        ((b ^^^ e.turn.output) :: (e.turn.process bs).1, (e.turn.process bs).2) := rfl
    rw [hstep, ih, xorFrom, xorFrom_succ, hbyte, hrest]
    rfl

end RC4Engine

/-- An engine that was set up with a key and has processed so many bytes. -/
structure KeyPosition where
  key : List UInt8
  position : Nat
  deriving DecidableEq, Repr

namespace KeyPosition

/-- The engine it stands for. -/
def engine (k : KeyPosition) : RC4Engine := (RC4Engine.setup k.key).advance k.position

def advance (k : KeyPosition) (n : Nat) : KeyPosition := ⟨k.key, k.position + n⟩

/-- `Process`. -/
def process (k : KeyPosition) (bs : List UInt8) : List UInt8 × KeyPosition :=
  (xorFrom (RC4Engine.setup k.key).keystream k.position bs, k.advance bs.length)

/-- The engine answers the same bytes and goes to the same position. -/
theorem process_simulates (k : KeyPosition) (bs : List UInt8) :
    k.engine.process bs = ((k.process bs).1, (k.process bs).2.engine) := by
  have hstream : k.engine.keystream =
      fun i => (RC4Engine.setup k.key).keystream (k.position + i) :=
    funext (RC4Engine.keystream_advance _ _)
  have hshift : ∀ (n : Nat) (cs : List UInt8),
      xorFrom (fun i => (RC4Engine.setup k.key).keystream (k.position + i)) n cs =
        xorFrom (RC4Engine.setup k.key).keystream (k.position + n) cs := by
    intro n cs
    induction cs generalizing n with
    | nil => rfl
    | cons c cs ih => simp [xorFrom, ih, Nat.add_assoc]
  have hengine : k.engine.advance bs.length = (k.process bs).2.engine :=
    (RC4Engine.advance_add _ _ _).symm
  rw [RC4Engine.process_eq, hstream, hshift, hengine]
  rfl

end KeyPosition

end HearthStone
