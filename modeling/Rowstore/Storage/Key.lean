/-
  This file defines the keys under which entries are kept in
  an ordered store: a byte for the kind of entry, and then a
  name or a position.

  Positions are written with the highest byte first, so that
  keys of snapshots stand in the order of their positions.

  Key definitions include:
    * `Key.named`
    * `Key.snapshot`
    * `Key.position?`
-/

namespace Rowstore.Key

/- The byte of named entries. -/
def namedByte : UInt8 := 1

/- The byte of snapshots. -/
def snapshotByte : UInt8 := 2

/- The number of bytes of a position. -/
def positionLength : Nat := 8

/- A number in a count of bytes, the highest one first. -/
def bigEndian : Nat → Nat → List UInt8
| 0, _ => []
| k + 1, n => bigEndian k (n / 256) ++ [UInt8.ofNat (n % 256)]

/- The number of bytes read with the highest one first. -/
def ofBigEndian (bytes : List UInt8) : Nat :=
  bytes.foldl (fun n b => 256 * n + b.toNat) 0

/- The key of a named entry. -/
def named (name : String) : List UInt8 :=
  namedByte :: name.toUTF8.toList

/- The key of the snapshot at a position. -/
def snapshot (position : UInt64) : List UInt8 :=
  snapshotByte :: bigEndian positionLength position.toNat

/- The position that bytes stand for, if they are as many as a position has. -/
def position? (bytes : List UInt8) : Option UInt64 :=
  if bytes.length = positionLength then
    some (UInt64.ofNat (ofBigEndian bytes))
  else none

end Rowstore.Key
