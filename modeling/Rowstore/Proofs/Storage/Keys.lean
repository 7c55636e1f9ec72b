import Mathlib.Algebra.Group.Nat.Defs
import Mathlib.Data.List.Induction
import Rowstore.Storage.Key

/-
  Keys stand in the order of the positions that they encode.

  The numbers of positions are compared like their bytes,
  the highest one first: two numbers that agree without their
  last bytes are in the order of these.  What encodes a
  position decodes to it, and nothing else does.

  Main declarations:
    * `Key.compare_bigEndian`
    * `Key.position?_eq_some_iff`
    * `Key.named_injective`
    * `Key.snapshots_stand_by_position`
-/

------------------------------------------------------------
-- Bytes Of Numbers
------------------------------------------------------------

namespace Rowstore

namespace Key

theorem length_bigEndian (k n : Nat) :
    (bigEndian k n).length = k := by
  induction k generalizing n with
  | zero => rfl
  | succ k ih =>
      rw [bigEndian, List.length_append, ih,
        List.length_singleton]

/- Last bytes decide between bytes that are equal in front of them. -/
theorem compare_concat
    {a b : List UInt8}
    (hLength : a.length = b.length)
    (x y : UInt8) :
    compare (a ++ [x]) (b ++ [y]) =
      (compare a b).then (compare x y) := by
  induction a generalizing b with
  | nil =>
      cases b with
      | nil =>
          simp [List.compare_cons_cons]
      | cons d b => cases hLength
  | cons c a ih =>
      cases b with
      | nil => cases hLength
      | cons d b =>
          have hRest : a.length = b.length :=
            Nat.succ.inj hLength
          rw [List.cons_append, List.cons_append,
            List.compare_cons_cons, List.compare_cons_cons,
            ih hRest, Ordering.then_assoc]

/- Numbers are compared by their upper parts first. -/
theorem compare_div_mod (m n : Nat) :
    compare m n =
      (compare (m / 256) (n / 256)).then
        (compare (m % 256) (n % 256)) := by
  rcases Nat.lt_trichotomy (m / 256) (n / 256) with
    hLess | hSame | hMore
  · rw [Nat.compare_eq_lt.mpr hLess]
    exact Nat.compare_eq_lt.mpr (by omega)
  · rw [Nat.compare_eq_eq.mpr hSame, Ordering.eq_then]
    rcases Nat.lt_trichotomy (m % 256) (n % 256) with
      hLess | hEqual | hMore
    · rw [Nat.compare_eq_lt.mpr hLess]
      exact Nat.compare_eq_lt.mpr (by omega)
    · rw [Nat.compare_eq_eq.mpr hEqual]
      exact Nat.compare_eq_eq.mpr (by omega)
    · rw [Nat.compare_eq_gt.mpr hMore]
      exact Nat.compare_eq_gt.mpr (by omega)
  · rw [Nat.compare_eq_gt.mpr hMore]
    exact Nat.compare_eq_gt.mpr (by omega)

theorem toNat_lastByte (n : Nat) :
    (UInt8.ofNat (n % 256)).toNat = n % 256 :=
  UInt8.toNat_ofNat_of_lt' (Nat.mod_lt n (by decide))

/- Bytes with the highest one first are in the order of the numbers. -/
theorem compare_bigEndian
    {k m n : Nat}
    (hLeft : m < 256 ^ k)
    (hRight : n < 256 ^ k) :
    compare (bigEndian k m) (bigEndian k n) = compare m n := by
  induction k generalizing m n with
  | zero =>
      have hSame : m = n := by omega
      rw [hSame, bigEndian]
      exact (Nat.compare_eq_eq.mpr rfl).symm
  | succ k ih =>
      rw [Nat.pow_succ, Nat.mul_comm] at hLeft hRight
      have hLength :
          (bigEndian k (m / 256)).length =
            (bigEndian k (n / 256)).length := by
        rw [length_bigEndian, length_bigEndian]
      rw [bigEndian, bigEndian, compare_concat hLength,
        ih (Nat.div_lt_of_lt_mul hLeft)
          (Nat.div_lt_of_lt_mul hRight),
        UInt8.compare_eq_toNat_compare_toNat, toNat_lastByte,
        toNat_lastByte, ← compare_div_mod]

theorem ofBigEndian_concat
    (bytes : List UInt8)
    (b : UInt8) :
    ofBigEndian (bytes ++ [b]) =
      256 * ofBigEndian bytes + b.toNat := by
  unfold ofBigEndian
  rw [List.foldl_append]
  rfl

theorem ofBigEndian_bigEndian
    {k n : Nat}
    (hFits : n < 256 ^ k) :
    ofBigEndian (bigEndian k n) = n := by
  induction k generalizing n with
  | zero =>
      have hZero : n = 0 := by omega
      rw [hZero]
      rfl
  | succ k ih =>
      rw [Nat.pow_succ, Nat.mul_comm] at hFits
      rw [bigEndian, ofBigEndian_concat,
        ih (Nat.div_lt_of_lt_mul hFits), toNat_lastByte]
      omega

theorem bigEndian_ofBigEndian (bytes : List UInt8) :
    bigEndian bytes.length (ofBigEndian bytes) = bytes := by
  induction bytes using List.reverseRecOn with
  | nil => rfl
  | append_singleton bytes b ih =>
      have hByte : b.toNat < 256 := b.toNat_lt
      have hUpper :
          (256 * ofBigEndian bytes + b.toNat) / 256 =
            ofBigEndian bytes := by
        omega
      have hLower :
          (256 * ofBigEndian bytes + b.toNat) % 256 =
            b.toNat := by
        omega
      rw [List.length_append, List.length_singleton, bigEndian,
        ofBigEndian_concat, hUpper, hLower, ih,
        UInt8.ofNat_toNat]

theorem ofBigEndian_lt (bytes : List UInt8) :
    ofBigEndian bytes < 256 ^ bytes.length := by
  induction bytes using List.reverseRecOn with
  | nil => decide
  | append_singleton bytes b ih =>
      have hByte : b.toNat < 256 := b.toNat_lt
      rw [ofBigEndian_concat, List.length_append,
        List.length_singleton, Nat.pow_succ]
      omega

------------------------------------------------------------
-- Positions
------------------------------------------------------------

theorem toNat_lt_pow (p : UInt64) :
    p.toNat < 256 ^ positionLength :=
  p.toNat_lt

theorem isSome_position?_iff (bytes : List UInt8) :
    (position? bytes).isSome = true ↔ bytes.length = 8 := by
  unfold position?
  split
  · rename_i hLength
    exact iff_of_true rfl hLength
  · rename_i hLength
    exact iff_of_false (by simp) hLength

/- Exactly the bytes of a position decode to it. -/
theorem position?_eq_some_iff
    {bytes : List UInt8}
    {p : UInt64} :
    position? bytes = some p ↔
      bytes = bigEndian positionLength p.toNat := by
  unfold position?
  constructor
  · intro hDecoded
    split at hDecoded
    · rename_i hLength
      cases hDecoded
      have hFits := ofBigEndian_lt bytes
      rw [hLength] at hFits
      rw [UInt64.toNat_ofNat_of_lt' hFits, ← hLength,
        bigEndian_ofBigEndian]
    · cases hDecoded
  · rintro rfl
    rw [if_pos (length_bigEndian _ _),
      ofBigEndian_bigEndian (toNat_lt_pow p),
      UInt64.ofNat_toNat]

theorem compare_snapshot (p q : UInt64) :
    compare (snapshot p) (snapshot q) = compare p q := by
  unfold snapshot
  rw [List.compare_cons_cons,
    compare_bigEndian (toNat_lt_pow p) (toNat_lt_pow q),
    UInt64.compare_eq_toNat_compare_toNat]
  rfl

theorem snapshot_injective :
    Function.Injective snapshot := by
  intro p q hSame
  have hBytes := List.tail_eq_of_cons_eq hSame
  have hDecoded := position?_eq_some_iff.mpr hBytes
  rw [position?_eq_some_iff.mpr rfl] at hDecoded
  exact Option.some.inj hDecoded

------------------------------------------------------------
-- Names
------------------------------------------------------------

/- Bytes are listed from an index on, behind those listed before in reverse. -/
theorem toList_loop
    (bytes : ByteArray)
    (i : Nat)
    (listed : List UInt8) :
    ByteArray.toList.loop bytes i listed =
      listed.reverse ++ bytes.data.toList.drop i := by
  fun_induction ByteArray.toList.loop bytes i listed with
  | case1 i listed hMore ih =>
      have hBound : i < bytes.data.toList.length := hMore
      have hByte :
          bytes.get! i = bytes.data.toList[i] :=
        getElem!_pos bytes.data i hMore
      rw [ih, List.drop_eq_getElem_cons hBound, hByte]
      simp
  | case2 i listed hEnd =>
      have hNone : bytes.data.toList.drop i = [] :=
        List.drop_eq_nil_of_le (Nat.le_of_not_lt hEnd)
      rw [hNone, List.append_nil]

theorem named_injective : Function.Injective named := by
  intro name other hSame
  have hBytes := List.tail_eq_of_cons_eq hSame
  unfold ByteArray.toList at hBytes
  rw [toList_loop, toList_loop] at hBytes
  have hData : name.toUTF8 = other.toUTF8 :=
    ByteArray.ext (Array.toList_inj.mp hBytes)
  exact String.toByteArray_inj.mp hData

/- The first byte keeps the kinds of keys apart. -/
theorem not_isPrefix_named
    (name : String)
    (p : UInt64) :
    ¬named name <+: snapshot p := by
  intro hPrefix
  have hFirst := (List.cons_prefix_cons.mp hPrefix).1
  exact absurd hFirst (by decide)

------------------------------------------------------------
-- Order And Decoding
------------------------------------------------------------

/-
  Keys of snapshots are in the order of their positions, the
  bytes of a position and no others decode to it, and named
  entries differ from each other and from snapshots.
-/
theorem snapshots_stand_by_position :
    (∀ p q,
      compare (snapshot p) (snapshot q) = compare p q ∧
        (snapshot p = snapshot q ↔ p = q)) ∧
      (∀ bytes,
        (position? bytes).isSome = true ↔ bytes.length = 8) ∧
      (∀ bytes p,
        position? bytes = some p ↔
          bytes = bigEndian positionLength p.toNat) ∧
      (∀ p, position? ((snapshot p).drop 1) = some p) ∧
      (∀ name other, named name = named other ↔ name = other) ∧
      ∀ name p,
        named name ≠ snapshot p ∧ ¬named name <+: snapshot p := by
  refine ⟨fun p q => ⟨compare_snapshot p q, ?_⟩,
    isSome_position?_iff, fun _ _ => position?_eq_some_iff,
    fun p => position?_eq_some_iff.mpr rfl,
    fun _ _ => named_injective.eq_iff, fun name p => ⟨?_, ?_⟩⟩
  · exact snapshot_injective.eq_iff
  · intro hSame
    exact not_isPrefix_named name p (hSame ▸ List.prefix_rfl)
  · exact not_isPrefix_named name p

end Key

end Rowstore
