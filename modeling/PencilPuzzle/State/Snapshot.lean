import PencilPuzzle.State.Basic

/-!
# Snapshots

A state as bytes: the bits of all domains, variable by variable and value by value, then the lock
bits, packed with the most significant bit first. The last byte is filled up with zero bits.
-/

namespace PencilPuzzle

/-- The number that a list of bits denotes, the most significant first. -/
def bitsToNat (bits : List Bool) : Nat :=
  bits.foldl (fun number bit => 2 * number + bit.toNat) 0

/-- The `index`-th byte of a bit sequence; bits beyond its end are zero. -/
def byteOfBits (bits : Array Bool) (index : Nat) : UInt8 :=
  (bitsToNat ((List.range 8).map fun offset => bits.getD (8 * index + offset) false)).toUInt8

/-- Packs bits into as many bytes as they need. -/
def packBits (bits : Array Bool) : List UInt8 :=
  (List.range ((bits.size + 7) / 8)).map (byteOfBits bits)

def State.snapshotBits (state : State) : List Bool :=
  state.domains.flatMap Domain.bits ++ state.slots.toList.map Slot.locked

def State.snapshot (state : State) : List UInt8 := packBits state.snapshotBits.toArray

end PencilPuzzle
