import Invoicing.Bytes
import Invoicing.Text.Utf8

set_option autoImplicit false

/-! # Keccak-256

The sponge with a rate of 136 bytes and the padding that starts with the byte 1. The state is twenty-five
words of 64 bits; the word in column `x` and row `y` has the index `x + 5 * y`. -/

namespace Invoicing.Keccak

/-- The sponge's state. -/
abbrev State := Vector UInt64 25

/-- The word in column `x` and row `y`, both taken modulo 5. -/
def State.at (s : State) (x y : Nat) : UInt64 :=
  s.get ⟨x % 5 + 5 * (y % 5), by omega⟩

/-- The state whose word in column `x` and row `y` is `f x y`. -/
def State.ofFn (f : Nat → Nat → UInt64) : State := Vector.ofFn fun i => f (i.val % 5) (i.val / 5)

/-- Rotation to the left. -/
def rotate (w : UInt64) (n : UInt64) : UInt64 :=
  -- For `n = 0` the second shift is by 64, which counts as none, and both sides are `w`.
  (w <<< n) ||| (w >>> (64 - n))

/-- How far each word is rotated. -/
def rotations : State :=
  ⟨#[0, 1, 62, 28, 27, 36, 44, 6, 55, 20, 3, 10, 43, 25, 39, 41, 45, 15, 21, 8, 18, 2, 61, 56, 14], rfl⟩

/-- The constant of each of the twenty-four rounds. -/
def roundConstants : List UInt64 :=
  [0x0000000000000001, 0x0000000000008082, 0x800000000000808A, 0x8000000080008000,
   0x000000000000808B, 0x0000000080000001, 0x8000000080008081, 0x8000000000008009,
   0x000000000000008A, 0x0000000000000088, 0x0000000080008009, 0x000000008000000A,
   0x000000008000808B, 0x800000000000008B, 0x8000000000008089, 0x8000000000008003,
   0x8000000000008002, 0x8000000000000080, 0x000000000000800A, 0x800000008000000A,
   0x8000000080008081, 0x8000000000008080, 0x0000000080000001, 0x8000000080008008]

/-- Adds to each word the parities of two neighbouring columns. -/
def theta (s : State) : State :=
  let parity : Vector UInt64 5 := Vector.ofFn fun x =>
    s.at x 0 ^^^ s.at x 1 ^^^ s.at x 2 ^^^ s.at x 3 ^^^ s.at x 4
  let column (x : Nat) : UInt64 := parity.get ⟨x % 5, by omega⟩
  State.ofFn fun x y => s.at x y ^^^ column (x + 4) ^^^ rotate (column (x + 1)) 1

/-- Rotates each word and moves it to its new place. -/
def rhoPi (s : State) : State :=
  State.ofFn fun x y => rotate (s.at (x + 3 * y) x) (rotations.at (x + 3 * y) x)

/-- Mixes each word with the two to its right. -/
def chi (s : State) : State :=
  State.ofFn fun x y => s.at x y ^^^ ((~~~ s.at (x + 1) y) &&& s.at (x + 2) y)

/-- The permutation of the state. -/
def permute (s : State) : State :=
  roundConstants.foldl (fun s c =>
    let mixed := chi (rhoPi (theta s))
    mixed.set 0 (mixed.at 0 0 ^^^ c)) s

/-- Bytes per block of the message. -/
def rate : Nat := 136

/-- Fills the message up to whole blocks: a 1 after the last byte, a high bit in the final byte. -/
def pad (message : List UInt8) : List UInt8 :=
  match rate - message.length % rate with
  | 0 | 1 => message ++ [0x81]
  | n + 2 => message ++ 0x01 :: List.replicate n 0 ++ [0x80]

/-- Takes in a number of blocks. -/
def absorb : Nat → State → List UInt8 → State
  | 0, s, _ => s
  | blocks + 1, s, bytes =>
    let block := bytes.take rate
    let words : Vector UInt64 17 := Vector.ofFn fun i =>
      (Bytes.toNatLE ((block.drop (8 * i.val)).take 8)).toUInt64
    let mixed : State := Vector.ofFn fun i =>
      if h : i.val < 17 then s[i.val] ^^^ words[i.val] else s[i.val]
    absorb blocks (permute mixed) (bytes.drop rate)

/-- The digest of a byte string. -/
def digest (message : List UInt8) : Octets 32 :=
  let padded := pad message
  let s := absorb (padded.length / rate) (Vector.replicate 25 0) padded
  let word (i : Fin 25) : List UInt8 := Bytes.ofNatLE 8 s[i].toNat
  ⟨word 0 ++ word 1 ++ word 2 ++ word 3, by simp [word]⟩

/-- The digest of a text's bytes. -/
def digestText (s : String) : Octets 32 := digest (Utf8.encode s)

end Invoicing.Keccak
